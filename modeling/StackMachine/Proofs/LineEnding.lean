/-
Line endings. A text may end its lines with a carriage return and a newline instead of a newline. The
carriage return then is the last character of the line: it is white space, so that trimming takes it off
and blank lines stay blank, but it counts. `crlf_same_program_iff`: the program stays the same exactly if
no line that a newline ends lacks just one character of the columns, for such a line is skipped without the
carriage return and is an instruction with it (`crlf_completes_line`).
-/
import StackMachine.Proofs.Loading

namespace StackMachine

namespace Text

/-- The text with a carriage return before every newline. -/
def crlf (text : String) : String :=
  String.ofList (text.toList.flatMap fun c => if c = '\n' then ['\r', '\n'] else [c])

/-- The lines, each but the last with a carriage return at its end. -/
def returned : List (List Char) → List (List Char)
  | [] => []
  | [l] => [l]
  | l :: l' :: ls => (l ++ ['\r']) :: returned (l' :: ls)

theorem returned_cons (l : List Char) {ls : List (List Char)} (h : ls ≠ []) :
    returned (l :: ls) = (l ++ ['\r']) :: returned ls := by
  cases ls with
  | nil => exact absurd rfl h
  | cons l' ls => rfl

/-- A character before the first line is no end of a line. -/
theorem returned_modifyHead (c : Char) (ls : List (List Char)) :
    returned (ls.modifyHead (c :: ·)) = (returned ls).modifyHead (c :: ·) := by
  rcases ls with _ | ⟨l, _ | ⟨l', ls⟩⟩ <;> rfl

theorem splitOn_crlf (cs : List Char) :
    (cs.flatMap fun c => if c = '\n' then ['\r', '\n'] else [c]).splitOn '\n' =
      returned (cs.splitOn '\n') := by
  induction cs with
  | nil => rfl
  | cons c cs ih =>
    rw [List.flatMap_cons, List.splitOn_cons_eq_if_modifyHead]
    by_cases hc : c = '\n'
    · subst hc
      have hreturn : ('\r' == '\n') = false := by decide
      simp only [if_true, beq_self_eq_true, List.cons_append, List.nil_append,
        List.splitOn_cons_eq_if_modifyHead, hreturn, Bool.false_eq_true, if_false, ih]
      rw [returned_cons _ (List.splitOn_ne_nil '\n' cs)]
      rfl
    · have hne : (c == '\n') = false := by simpa using hc
      simp only [if_neg hc, hne, Bool.false_eq_true, if_false, List.cons_append, List.nil_append,
        List.splitOn_cons_eq_if_modifyHead, ih]
      rw [returned_modifyHead]

theorem lines_crlf (text : String) : lines (crlf text) = returned (lines text) := by
  unfold lines crlf
  rw [String.toList_ofList]
  exact splitOn_crlf text.toList

theorem blank_append_return {l : List Char} : Blank (l ++ ['\r']) ↔ Blank l := by
  have hreturn : isBlank '\r' = true := by decide
  constructor
  · intro h c hc
    exact h c (List.mem_append_left _ hc)
  · intro h c hc
    rcases List.mem_append.1 hc with hc | hc
    · exact h c hc
    · rw [List.mem_singleton.1 hc]
      exact hreturn

end Text

/-! ## A carriage return at the end of a line -/

namespace Line

/-- The line is not blank, and one character short of the columns. -/
def Incomplete (l : List Char) : Prop := l.length + 1 = width ∧ ¬Text.Blank l

/-- An incomplete line is skipped, and is an instruction with a carriage return behind it. -/
theorem read_incomplete {l : List Char} (h : Incomplete l) :
    (read l).instruction? = none ∧
      (read (l ++ ['\r'])).instruction? = some (fields (l ++ ['\r'])) := by
  obtain ⟨hlength, hblank⟩ := h
  constructor
  · rw [read_short hblank (by omega)]
    rfl
  · have hwide : width ≤ (l ++ ['\r']).length := by
      rw [List.length_append, List.length_singleton]
      omega
    rw [read_instruction (mt Text.blank_append_return.1 hblank) hwide]
    rfl

/-- To any other line the carriage return does not matter. -/
theorem read_append_return {l : List Char} (h : ¬Incomplete l) :
    (read (l ++ ['\r'])).instruction? = (read l).instruction? := by
  by_cases hblank : Text.Blank l
  · rw [read_blank hblank, read_blank (Text.blank_append_return.2 hblank)]
  have hblank' := mt Text.blank_append_return.1 hblank
  have hlength : (l ++ ['\r']).length = l.length + 1 := List.length_append
  rcases Nat.lt_or_ge l.length width with hshort | hlong
  · have hne : l.length + 1 ≠ width := fun hlast => h ⟨hlast, hblank⟩
    rw [read_short hblank hshort, read_short hblank' (by omega)]
    rfl
  · rw [read_instruction hblank hlong, read_instruction hblank' (by omega), fields_append hlong]

end Line

namespace Program

theorem instructions_ofLines_cons (n : Nat) (l : List Char) (ls : List (List Char)) :
    (ofLines n (l :: ls)).instructions =
      (Line.read l).instruction?.toList ++ (ofLines n ls).instructions := by
  rw [instructions_ofLines, List.filterMap_cons]
  cases (Line.read l).instruction? <;> rfl

/-- Carriage returns take no instruction away. -/
theorem length_instructions_returned (n : Nat) : ∀ ls : List (List Char),
    (ofLines n ls).instructions.length ≤ (ofLines n (Text.returned ls)).instructions.length
  | [] => Nat.le_refl _
  | [l] => Nat.le_refl _
  | l :: l' :: ls => by
    have ih := length_instructions_returned n (l' :: ls)
    rw [Text.returned, instructions_ofLines_cons n l, instructions_ofLines_cons n (l ++ ['\r']),
      List.length_append, List.length_append]
    by_cases hl : Line.Incomplete l
    · rw [(Line.read_incomplete hl).1, Option.toList_none, List.length_nil]
      omega
    · rw [Line.read_append_return hl]
      omega

/-- The instructions stay the same exactly if no line that gets a carriage return is incomplete. -/
theorem instructions_returned_iff (n : Nat) : ∀ ls : List (List Char),
    (ofLines n (Text.returned ls)).instructions = (ofLines n ls).instructions ↔
      ∀ l ∈ ls.dropLast, ¬Line.Incomplete l
  | [] => by simp [Text.returned]
  | [l] => by simp [Text.returned]
  | l :: l' :: ls => by
    have ih := instructions_returned_iff n (l' :: ls)
    have hle := length_instructions_returned n (l' :: ls)
    rw [List.dropLast_cons_of_ne_nil (by simp), List.forall_mem_cons, ← ih, Text.returned,
      instructions_ofLines_cons, instructions_ofLines_cons n l]
    by_cases hl : Line.Incomplete l
    · obtain ⟨hnone, hsome⟩ := Line.read_incomplete hl
      simp only [hl, not_true_eq_false, false_and, iff_false]
      -- there is one instruction more now, and none of the later ones has gone
      intro heq
      have hlength := congrArg List.length heq
      rw [hnone, hsome, List.length_append, List.length_append, Option.toList_some, Option.toList_none,
        List.length_singleton, List.length_nil] at hlength
      omega
    · rw [Line.read_append_return hl, List.append_cancel_left_eq]
      simp only [hl, not_false_eq_true, true_and]

end Program

/-- Writing every newline of a text as a carriage return and a newline leaves its program the same, in
instructions and labels, exactly if every line that a newline ends and that is one character short is
blank. -/
theorem crlf_same_program_iff (text : String) :
    ((Program.ofText (Text.crlf text)).instructions = (Program.ofText text).instructions ∧
        (Program.ofText (Text.crlf text)).labels = (Program.ofText text).labels) ↔
      ∀ l ∈ (Text.lines text).dropLast, l.length + 1 = Line.width → Text.Blank l := by
  have hiff := Program.instructions_returned_iff 1 (Text.lines text)
  rw [← Text.lines_crlf, ← Program.ofText_eq_ofLines, ← Program.ofText_eq_ofLines] at hiff
  have hblank : (∀ l ∈ (Text.lines text).dropLast, ¬Line.Incomplete l) ↔
      ∀ l ∈ (Text.lines text).dropLast, l.length + 1 = Line.width → Text.Blank l := by
    simp only [Line.Incomplete, not_and, not_not]
  rw [← hblank, ← hiff]
  constructor
  · rintro ⟨hinstructions, -⟩
    exact hinstructions
  · intro hinstructions
    exact ⟨hinstructions, congrArg Labels.ofInstructions hinstructions⟩

/-- A line of 19 characters is skipped if a newline ends it, and declares a label if a carriage return and
a newline do. -/
theorem crlf_completes_line :
    let text := "L1  NULL           \n"
    '\r' ∉ text.toList ∧
      (Program.ofText text).instructions = [] ∧ (Program.ofText text).labels.get? "L1" = none ∧
      (Program.ofText (Text.crlf text)).instructions = [⟨"L1", "NULL", "", ""⟩] ∧
      (Program.ofText (Text.crlf text)).labels.get? "L1" = some 0 := by
  intro text
  have hlf : (Program.ofText text).instructions = [] := by decide +kernel
  have hcrlf : (Program.ofText (Text.crlf text)).instructions = [⟨"L1", "NULL", "", ""⟩] := by
    decide +kernel
  refine ⟨by decide +kernel, hlf, ?_, hcrlf, ?_⟩
  · rw [Program.labels_get?, hlf]
    rfl
  · rw [Program.labels_get?, hcrlf]
    decide +kernel

end StackMachine
