/-
Writing and reading object code. A field fits its column if trimming leaves it as it is, it is no longer
than the column and it has no newline; it then comes back from the column as it was put in, whatever spaces
it has inside (`Line.field_column`). So instructions whose fields fit come back from their lines, with any
text behind the columns, and what any text loads to can be written as lines and loaded again
(`ofText_line_round_trip`).

The one instruction that its line does not hold is the one with four empty fields, for that line is blank.
Text behind the columns makes it a line like any other.
-/
import StackMachine.Proofs.Loading
import Mathlib.Tactic.MkIffOfInductiveProp

namespace StackMachine

/-! ## One column -/

namespace Text

/-- A text that a column of this width holds and gives back. -/
@[mk_iff]
structure Fits (width : Nat) (s : String) : Prop where
  trimmed : trimmed s = s
  length_le : s.length ≤ width
  unbroken : '\n' ∉ s.toList

instance (width : Nat) (s : String) : Decidable (Fits width s) := decidable_of_iff _ (fits_iff ..).symm

variable {width : Nat} {s : String}

theorem toList_column (width : Nat) (s : String) :
    (column width s).toList = s.toList ++ List.replicate (width - s.length) ' ' := by
  unfold column
  rw [String.toList_ofList, List.rightpad, String.length_toList]

theorem Fits.length_column (h : Fits width s) : (column width s).toList.length = width := by
  have hle := h.length_le
  rw [toList_column, List.length_append, List.length_replicate, String.length_toList]
  omega

theorem trim_column (width : Nat) (s : String) : trim (column width s).toList = trim s.toList := by
  rw [toList_column]
  apply trim_append_blanks
  intro c hc
  rw [List.eq_of_mem_replicate hc]
  decide

theorem Fits.newline_notMem_column (h : Fits width s) : '\n' ∉ (column width s).toList := by
  rw [toList_column, List.mem_append, not_or]
  refine ⟨h.unbroken, fun hspace => ?_⟩
  exact absurd (List.eq_of_mem_replicate hspace) (by decide)

end Text

namespace Line

/-- A field comes back from its column, whatever stands before and behind it. -/
theorem field_column {width : Nat} {s : String} (h : Text.Fits width s) (before behind : List Char) :
    field (before ++ ((Text.column width s).toList ++ behind)) before.length width = s := by
  unfold field
  rw [List.drop_left, List.take_left' h.length_column, Text.trim_column]
  exact h.trimmed

theorem field_blank {cs : List Char} (h : Text.Blank cs) (start length : Nat) :
    field cs start length = "" := by
  have hcolumn : Text.Blank ((cs.drop start).take length) :=
    fun c hc => h c (List.mem_of_mem_drop (List.mem_of_mem_take hc))
  unfold field
  rw [Text.trim_eq_nil_iff.2 hcolumn]

/-- Whatever the characters of a line are, the text of a column fits the column. -/
theorem fits_field {cs : List Char} (h : '\n' ∉ cs) (start length : Nat) :
    Text.Fits length (field cs start length) := by
  have hpart := Text.trim_isInfix ((cs.drop start).take length)
  unfold field
  constructor
  · unfold Text.trimmed
    rw [String.toList_ofList, Text.trim_trim]
  · rw [← String.length_toList, String.toList_ofList]
    exact hpart.length_le.trans (List.length_take_le length _)
  · rw [String.toList_ofList]
    intro hnewline
    exact h (List.mem_of_mem_drop (List.mem_of_mem_take (hpart.subset hnewline)))

end Line

/-! ## One line -/

namespace Instruction

/-- An instruction each field of which fits its column. -/
@[mk_iff]
structure Fits (i : Instruction) : Prop where
  label : Text.Fits 4 i.label
  opcode : Text.Fits 8 i.opcode
  operand1 : Text.Fits 4 i.operand1
  operand2 : Text.Fits 4 i.operand2

instance (i : Instruction) : Decidable i.Fits := decidable_of_iff _ (fits_iff ..).symm

theorem toList_line (i : Instruction) :
    i.line.toList = (Text.column 4 i.label).toList ++ (Text.column 8 i.opcode).toList ++
      (Text.column 4 i.operand1).toList ++ (Text.column 4 i.operand2).toList := by
  unfold line
  simp only [String.toList_append]

theorem Fits.length_line {i : Instruction} (h : i.Fits) : i.line.toList.length = Line.width := by
  rw [toList_line, List.length_append, List.length_append, List.length_append, h.label.length_column,
    h.opcode.length_column, h.operand1.length_column, h.operand2.length_column]
  rfl

theorem Fits.newline_notMem_line {i : Instruction} (h : i.Fits) : '\n' ∉ i.line.toList := by
  rw [toList_line]
  simp only [List.mem_append, not_or]
  exact ⟨⟨⟨h.label.newline_notMem_column, h.opcode.newline_notMem_column⟩,
    h.operand1.newline_notMem_column⟩, h.operand2.newline_notMem_column⟩

/-- An instruction comes back from the columns of its line. -/
theorem Fits.fields_line {i : Instruction} (h : i.Fits) : Line.fields i.line.toList = i := by
  obtain ⟨hlabel, hopcode, hoperand1, hoperand2⟩ := h
  rw [toList_line]
  -- each column with what stands before it, whose length is where the column starts
  have h1 := Line.field_column hlabel [] ((Text.column 8 i.opcode).toList ++
    ((Text.column 4 i.operand1).toList ++ (Text.column 4 i.operand2).toList))
  have h2 := Line.field_column hopcode (Text.column 4 i.label).toList
    ((Text.column 4 i.operand1).toList ++ (Text.column 4 i.operand2).toList)
  have h3 := Line.field_column hoperand1 ((Text.column 4 i.label).toList ++ (Text.column 8 i.opcode).toList)
    (Text.column 4 i.operand2).toList
  have h4 := Line.field_column hoperand2 ((Text.column 4 i.label).toList ++
    (Text.column 8 i.opcode).toList ++ (Text.column 4 i.operand1).toList) []
  simp only [List.length_append, List.length_nil, hlabel.length_column, hopcode.length_column,
    hoperand1.length_column, List.nil_append, List.append_nil, ← List.append_assoc] at h1 h2 h3 h4
  unfold Line.fields
  rw [h1, h2, h3, h4]

/-- Only the line of four empty fields is blank. -/
theorem Fits.not_blank_line {i : Instruction} (h : i.Fits) (hne : i ≠ ⟨"", "", "", ""⟩) :
    ¬Text.Blank i.line.toList := by
  intro hblank
  apply hne
  rw [← h.fields_line]
  unfold Line.fields
  simp only [Line.field_blank hblank]

end Instruction

namespace Line

/-- An instruction comes back from its line, with any text behind the columns. -/
theorem read_line {i : Instruction} (h : i.Fits) {rest : String}
    (hb : ¬Text.Blank (i.line ++ rest).toList) : read (i.line ++ rest).toList = .instruction i := by
  rw [String.toList_append] at hb ⊢
  have hwide : width ≤ (i.line.toList ++ rest.toList).length := by
    rw [List.length_append, h.length_line]
    omega
  rw [read_instruction hb hwide, fields_append (by rw [h.length_line]), h.fields_line]

theorem read_eq_instruction {cs : List Char} {i : Instruction} (h : (read cs).instruction? = some i) :
    fields cs = i := by
  by_cases hb : Text.Blank cs
  · rw [read_blank hb] at h
    cases h
  rcases Nat.lt_or_ge cs.length width with hshort | hlong
  · rw [read_short hb hshort] at h
    cases h
  · rw [read_instruction hb hlong] at h
    exact Option.some.inj h

end Line

/-! ## All lines -/

namespace Program

/-- Lines that each hold an instruction are these instructions, and none is skipped. -/
theorem ofLines_of_read {ls : List (List Char)} {is : List Instruction}
    (h : ls.map Line.read = is.map .instruction) (n : Nat) : ofLines n ls = ⟨is, []⟩ := by
  have hinstructions : (ofLines n ls).instructions = (ls.map Line.read).filterMap Line.instruction? := by
    rw [instructions_ofLines, List.filterMap_map]
    rfl
  have hskipped : (ofLines n ls).skipped =
      ((ls.map Line.read).zipIdx n).filterMap fun e => e.1.shortLength?.map (⟨e.2, ·⟩) := by
    rw [skipped_ofLines, List.zipIdx_map, List.filterMap_map]
    rfl
  rw [h] at hinstructions hskipped
  have hnone : (ofLines n ls).skipped = [] := by
    rw [hskipped, List.zipIdx_map, List.filterMap_map, List.filterMap_eq_nil_iff]
    rintro ⟨i, k⟩ -
    rfl
  have hall : (ofLines n ls).instructions = is := by
    rw [hinstructions, List.filterMap_map]
    exact List.filterMap_some
  calc ofLines n ls = ⟨(ofLines n ls).instructions, (ofLines n ls).skipped⟩ := rfl
    _ = ⟨is, []⟩ := by rw [hall, hnone]

theorem ofText_empty : ofText "" = ⟨[], []⟩ := by decide +kernel

/-- Instructions on lines of their own, each with a text behind its columns, are loaded as they are. -/
theorem ofText_written (entries : List (Instruction × String))
    (h : ∀ e ∈ entries, e.1.Fits ∧ '\n' ∉ e.2.toList ∧ ¬Text.Blank (e.1.line ++ e.2).toList) :
    ofText ("\n".intercalate (entries.map fun e => e.1.line ++ e.2)) = ⟨entries.map (·.1), []⟩ := by
  by_cases hne : entries = []
  · rw [hne, List.map_nil, List.map_nil, String.intercalate_nil]
    exact ofText_empty
  have hunbroken : ∀ l ∈ entries.map fun e => e.1.line ++ e.2, '\n' ∉ l.toList := by
    intro l hl
    obtain ⟨e, he, rfl⟩ := List.mem_map.1 hl
    obtain ⟨hfits, hrest, -⟩ := h e he
    rw [String.toList_append, List.mem_append, not_or]
    exact ⟨hfits.newline_notMem_line, hrest⟩
  rw [ofText_eq_ofLines, Text.lines_intercalate (by simpa using hne) hunbroken]
  apply ofLines_of_read
  simp only [List.map_map]
  apply List.map_congr_left
  intro e he
  obtain ⟨hfits, -, hb⟩ := h e he
  simp only [Function.comp_apply]
  exact Line.read_line hfits hb

/-- The fields of every loaded instruction fit their columns. -/
theorem fits_of_mem_ofText {text : String} {i : Instruction} (h : i ∈ (ofText text).instructions) : i.Fits := by
  rw [ofText_eq_ofLines, instructions_ofLines] at h
  obtain ⟨l, hl, hread⟩ := List.mem_filterMap.1 h
  rw [← Line.read_eq_instruction hread]
  have hunbroken := Text.newline_notMem_line hl
  constructor <;> exact Line.fits_field hunbroken _ _

end Program

/-- Instructions that fit their columns, written one on a line with any text behind that leaves no line
blank, are loaded in order and no line is skipped. And what any text loads to, if no instruction of it has
only empty fields, can be written as lines and loaded again. -/
theorem ofText_line_round_trip :
    (∀ entries : List (Instruction × String),
      (∀ e ∈ entries, e.1.Fits ∧ '\n' ∉ e.2.toList ∧ ¬Text.Blank (e.1.line ++ e.2).toList) →
      let p := Program.ofText ("\n".intercalate (entries.map fun e => e.1.line ++ e.2))
      p.instructions = entries.map (·.1) ∧ p.skipped = [] ∧
        p.labels = Labels.ofInstructions (entries.map (·.1))) ∧
    ∀ text : String,
      let p := Program.ofText text
      (∀ i ∈ p.instructions, i ≠ ⟨"", "", "", ""⟩) →
      let again := Program.ofText ("\n".intercalate (p.instructions.map Instruction.line))
      again.instructions = p.instructions ∧ again.skipped = [] ∧ again.labels = p.labels := by
  constructor
  · intro entries h p
    have hp : p = ⟨entries.map (·.1), []⟩ := Program.ofText_written entries h
    rw [hp]
    exact ⟨rfl, rfl, rfl⟩
  · intro text p h again
    have hagain : again = ⟨p.instructions, []⟩ := by
      -- the lines are written with nothing behind the columns
      have hwritten := Program.ofText_written (p.instructions.map fun i => (i, "")) ?_
      · simpa only [List.map_map, Function.comp_def, String.append_empty, List.map_id'] using hwritten
      · intro e he
        obtain ⟨i, hi, rfl⟩ := List.mem_map.1 he
        have hfits := Program.fits_of_mem_ofText hi
        refine ⟨hfits, by simp, ?_⟩
        rw [String.append_empty]
        exact hfits.not_blank_line (h i hi)
    rw [hagain]
    exact ⟨rfl, rfl, rfl⟩

/-- Spaces inside fields, characters of several bytes, four empty fields with text behind them, and a text
with a short line, a blank line and columns that are not set to the left. -/
theorem ofText_line_round_trip_spaced :
    let entries : List (Instruction × String) :=
      [(⟨"é😀", "a b", "", "1 2"⟩, "; x"), (⟨"L1", "NULL", "", ""⟩, ""), (⟨"", "", "", ""⟩, " x")]
    let p := Program.ofText ("\n".intercalate (entries.map fun e => e.1.line ++ e.2))
    let q := Program.ofText "short\n\nL1  NULL            \n é  a b     \t1  2   "
    let again := Program.ofText ("\n".intercalate (q.instructions.map Instruction.line))
    (∀ e ∈ entries, e.1.Fits ∧ '\n' ∉ e.2.toList ∧ ¬Text.Blank (e.1.line ++ e.2).toList) ∧
      (p.instructions = entries.map (·.1) ∧ p.skipped = [] ∧
        p.labels = Labels.ofInstructions (entries.map (·.1))) ∧
      q.instructions = [⟨"L1", "NULL", "", ""⟩, ⟨"é", "a b", "1", "2"⟩] ∧ q.skipped = [⟨1, 5⟩] ∧
      again.instructions = q.instructions ∧ again.skipped = [] ∧ again.labels = q.labels := by
  intro entries p q again
  have hentries : ∀ e ∈ entries,
      e.1.Fits ∧ '\n' ∉ e.2.toList ∧ ¬Text.Blank (e.1.line ++ e.2).toList := by decide +kernel
  have hinstructions : q.instructions = [⟨"L1", "NULL", "", ""⟩, ⟨"é", "a b", "1", "2"⟩] := by
    decide +kernel
  have hfields : ∀ i ∈ q.instructions, i ≠ ⟨"", "", "", ""⟩ := by
    rw [hinstructions]
    decide
  exact ⟨hentries, ofText_line_round_trip.1 entries hentries, hinstructions, by decide +kernel,
    ofText_line_round_trip.2 _ hfields⟩

end StackMachine
