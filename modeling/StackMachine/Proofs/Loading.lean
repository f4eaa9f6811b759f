/-
Loading goes line by line. `Program.Accounts` says what has to become of each line of object code: nothing
of a blank one, a record of a short one, an instruction of any other. `ofText_line_by_line`: loading a text
accounts for each of its lines once and in order, and loading two texts one after the other is loading
each by itself, with the line numbers and the places of the second moved behind the first.

Line numbers count every line and places only instructions, so the two are kept apart: instructions are
gathered without numbers, records with the number that each line has in the text (`Program.ofLines`).
-/
import StackMachine.Proofs.Program
import StackMachine.Proofs.Trim

namespace StackMachine

/-! ## Lines of a text -/

namespace Text

/-- What stands between the newlines of a text. -/
def lines (text : String) : List (List Char) := text.toList.splitOn '\n'

/-- The lines with newlines between them are the text. -/
theorem lines_joined (text : String) : ['\n'].intercalate (lines text) = text.toList :=
  List.intercalate_splitOn '\n'

theorem notMem_of_mem_splitOn (a : Char) : ∀ {cs l : List Char}, l ∈ cs.splitOn a → a ∉ l
  | [], l, h => by
    rw [List.splitOn_nil, List.mem_singleton] at h
    rw [h]
    exact List.not_mem_nil
  | c :: cs, l, h => by
    rw [List.splitOn_cons_eq_if_modifyHead] at h
    split at h
    · rcases List.mem_cons.1 h with rfl | h
      · exact List.not_mem_nil
      · exact notMem_of_mem_splitOn a h
    · rename_i hc
      -- the character belongs to the first line of the rest
      cases hs : cs.splitOn a with
      | nil => exact absurd hs (List.splitOn_ne_nil a cs)
      | cons l' ls =>
        have ih : ∀ l ∈ cs.splitOn a, a ∉ l := fun l hl => notMem_of_mem_splitOn a hl
        rw [hs] at h ih
        rcases List.mem_cons.1 h with rfl | h
        · rw [List.mem_cons, not_or]
          refine ⟨?_, ih l' List.mem_cons_self⟩
          rintro rfl
          simp at hc
        · exact ih l (List.mem_cons_of_mem l' h)

theorem newline_notMem_line {text : String} {l : List Char} (h : l ∈ lines text) : '\n' ∉ l :=
  notMem_of_mem_splitOn '\n' h

/-- Lines without newlines in them are the lines of what they are joined to. -/
theorem lines_intercalate {ls : List String} (hne : ls ≠ []) (h : ∀ l ∈ ls, '\n' ∉ l.toList) :
    lines ("\n".intercalate ls) = ls.map String.toList := by
  unfold lines
  rw [String.toList_intercalate]
  apply List.splitOn_intercalate
  · intro l hl
    obtain ⟨t, ht, rfl⟩ := List.mem_map.1 hl
    exact h t ht
  · simpa using hne

theorem lines_append (a b : String) : lines (a ++ "\n" ++ b) = lines a ++ lines b := by
  unfold lines
  rw [String.toList_append, String.toList_append, List.append_assoc]
  exact List.splitOn_append_cons_self a.toList b.toList

theorem length_splitOn (a : Char) (cs : List Char) : (cs.splitOn a).length = 1 + cs.count a := by
  induction cs with
  | nil => rfl
  | cons c cs ih =>
    rw [List.splitOn_cons_eq_if_modifyHead, List.count_cons]
    split
    · rw [List.length_cons, ih]
      omega
    · rw [List.length_modifyHead, ih]
      omega

theorem length_lines (text : String) : (lines text).length = 1 + text.toList.count '\n' :=
  length_splitOn '\n' text.toList

end Text

/-! ## One line -/

namespace Line

/-- The instruction in the four columns of a line. -/
def fields (cs : List Char) : Instruction := ⟨field cs 0 4, field cs 4 8, field cs 12 4, field cs 16 4⟩

theorem read_blank {cs : List Char} (h : Text.Blank cs) : read cs = .blank := by
  unfold read
  rw [if_pos (List.all_eq_true.2 h)]

theorem read_short {cs : List Char} (hb : ¬Text.Blank cs) (h : cs.length < width) :
    read cs = .short cs.length := by
  unfold read
  rw [if_neg (fun hall => hb (List.all_eq_true.1 hall)), if_pos h]

theorem read_instruction {cs : List Char} (hb : ¬Text.Blank cs) (h : width ≤ cs.length) :
    read cs = .instruction (fields cs) := by
  unfold read
  rw [if_neg (fun hall => hb (List.all_eq_true.1 hall)), if_neg (by omega)]
  rfl

/-- What follows a column does not matter to it. -/
theorem field_append {cs : List Char} {start length : Nat} (h : start + length ≤ cs.length)
    (rest : List Char) : field (cs ++ rest) start length = field cs start length := by
  unfold field
  rw [List.drop_append_of_le_length (by omega),
    List.take_append_of_le_length (by rw [List.length_drop]; omega)]

/-- What follows the columns is ignored. -/
theorem fields_append {cs : List Char} (h : width ≤ cs.length) (rest : List Char) :
    fields (cs ++ rest) = fields cs := by
  unfold width at h
  unfold fields
  rw [field_append (by omega), field_append (by omega), field_append (by omega), field_append (by omega)]

end Line

/-! ## All lines -/

/-- The same line with `n` lines more before it. -/
def SkippedLine.later (n : Nat) (s : SkippedLine) : SkippedLine := { s with line := s.line + n }

namespace Program

/-- The program that lines of object code hold; the first line has the number `n`. -/
def ofLines (n : Nat) (lines : List (List Char)) : Program where
  instructions := lines.filterMap fun l => (Line.read l).instruction?
  skipped := (lines.zipIdx n).filterMap fun (l, k) => (Line.read l).shortLength?.map (⟨k, ·⟩)

theorem instructions_ofLines (n : Nat) (ls : List (List Char)) :
    (ofLines n ls).instructions = ls.filterMap fun l => (Line.read l).instruction? := rfl

theorem skipped_ofLines (n : Nat) (ls : List (List Char)) :
    (ofLines n ls).skipped =
      (ls.zipIdx n).filterMap fun (l, k) => (Line.read l).shortLength?.map (⟨k, ·⟩) := rfl

theorem ofText_eq_ofLines (text : String) : ofText text = ofLines 1 (Text.lines text) := by
  unfold ofText ofLines Text.lines
  simp only [List.filterMap_map, List.zipIdx_map]
  rfl

/-- What becomes of lines, the first of which has the number `n`. -/
inductive Accounts : Nat → List (List Char) → List Instruction → List SkippedLine → Prop
  | nil {n : Nat} : Accounts n [] [] []
  | blank {n : Nat} {l : List Char} {ls : List (List Char)} {is : List Instruction} {ss : List SkippedLine} :
    Text.Blank l → Accounts (n + 1) ls is ss → Accounts n (l :: ls) is ss
  | short {n : Nat} {l : List Char} {ls : List (List Char)} {is : List Instruction} {ss : List SkippedLine} :
    ¬Text.Blank l → l.length < 20 → Accounts (n + 1) ls is ss →
    Accounts n (l :: ls) is (⟨n, l.length⟩ :: ss)
  | instruction {n : Nat} {l : List Char} {ls : List (List Char)} {is : List Instruction}
      {ss : List SkippedLine} :
    ¬Text.Blank l → 20 ≤ l.length → Accounts (n + 1) ls is ss →
    Accounts n (l :: ls) (Line.fields l :: is) ss

theorem accounts_ofLines : ∀ (ls : List (List Char)) (n : Nat),
    Accounts n ls (ofLines n ls).instructions (ofLines n ls).skipped
  | [], n => .nil
  | l :: ls, n => by
    have ih := accounts_ofLines ls (n + 1)
    rw [instructions_ofLines, skipped_ofLines] at ih ⊢
    rw [List.zipIdx_cons]
    by_cases hb : Text.Blank l
    · simp only [List.filterMap_cons, Line.read_blank hb]
      exact .blank hb ih
    · by_cases hl : l.length < Line.width
      · simp only [List.filterMap_cons, Line.read_short hb hl]
        exact .short hb hl ih
      · rw [Nat.not_lt] at hl
        simp only [List.filterMap_cons, Line.read_instruction hb hl]
        exact .instruction hb hl ih

/-! ## One text after another -/

theorem skipped_ofLines_append (n : Nat) (as bs : List (List Char)) :
    (ofLines n (as ++ bs)).skipped = (ofLines n as).skipped ++ (ofLines (n + as.length) bs).skipped := by
  rw [skipped_ofLines, List.zipIdx_append, List.filterMap_append]
  rfl

theorem skipped_ofLines_later (n k : Nat) (ls : List (List Char)) :
    (ofLines (k + n) ls).skipped = (ofLines k ls).skipped.map (SkippedLine.later n) := by
  rw [skipped_ofLines, skipped_ofLines, Nat.add_comm, ← List.map_snd_add_zipIdx_eq_zipIdx,
    List.filterMap_map, List.map_filterMap]
  apply List.filterMap_congr
  rintro ⟨l, m⟩ -
  simp only [Function.comp_apply, Prod.map_apply, id_eq, Option.map_map]
  rfl

theorem instructions_ofText_append (a b : String) :
    (ofText (a ++ "\n" ++ b)).instructions = (ofText a).instructions ++ (ofText b).instructions := by
  simp only [ofText_eq_ofLines, instructions_ofLines, Text.lines_append, List.filterMap_append]

theorem skipped_ofText_append (a b : String) :
    (ofText (a ++ "\n" ++ b)).skipped =
      (ofText a).skipped ++ (ofText b).skipped.map (SkippedLine.later (1 + a.toList.count '\n')) := by
  simp only [ofText_eq_ofLines, Text.lines_append, skipped_ofLines_append, Text.length_lines]
  rw [skipped_ofLines_later]

/-- A label keeps the place that the first of the two declares it at. -/
theorem labels_get?_append {p q r : Program} (h : r.instructions = p.instructions ++ q.instructions)
    (name : String) :
    r.labels.get? name = (p.labels.get? name).or ((q.labels.get? name).map (· + p.size)) := by
  rw [labels_get?, labels_get?, labels_get?, h, List.findIdx?_append]
  rfl

end Program

/-- Loading goes line by line. Of two texts with a newline between them, the instructions are those of the
first and then those of the second, and so are the records of skipped lines, with the line numbers of the
second moved on by the lines of the first; a name stands for its place in the first if that declares it,
else for its place in the second, behind the instructions of the first. And in every text each line is
accounted for once, in order. -/
theorem ofText_line_by_line :
    (∀ a b : String,
      let p := Program.ofText a
      let q := Program.ofText b
      let both := Program.ofText (a ++ "\n" ++ b)
      both.instructions = p.instructions ++ q.instructions ∧
        both.skipped = p.skipped ++ q.skipped.map (SkippedLine.later (1 + a.toList.count '\n')) ∧
        ∀ name, both.labels.get? name =
          (p.labels.get? name).or ((q.labels.get? name).map (· + p.instructions.length))) ∧
    ∀ text : String,
      ['\n'].intercalate (Text.lines text) = text.toList ∧ (∀ l ∈ Text.lines text, '\n' ∉ l) ∧
        Program.Accounts 1 (Text.lines text) (Program.ofText text).instructions
          (Program.ofText text).skipped := by
  constructor
  · intro a b p q both
    have hinstructions := Program.instructions_ofText_append a b
    exact ⟨hinstructions, Program.skipped_ofText_append a b, Program.labels_get?_append hinstructions⟩
  · intro text
    refine ⟨Text.lines_joined text, fun l hl => Text.newline_notMem_line hl, ?_⟩
    rw [Program.ofText_eq_ofLines]
    exact Program.accounts_ofLines (Text.lines text) 1

end StackMachine
