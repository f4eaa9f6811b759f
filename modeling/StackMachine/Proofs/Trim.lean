/-
Trimming. White space at the end of a text does not matter to it (`trim_append_blanks`), a trimmed text has
nothing left to trim (`trim_trim`), and nothing is left of a text exactly if it is all white space
(`trim_eq_nil_iff`). What is left is what stands between the white space at the two ends (`trim_eq_iff`).
-/
import StackMachine.Text.Blank
import Mathlib.Data.List.DropRight

namespace StackMachine.Text

/-- All white space. -/
def Blank (cs : List Char) : Prop := ∀ c ∈ cs, isBlank c = true

instance (cs : List Char) : Decidable (Blank cs) := decidable_of_iff (cs.all isBlank) List.all_eq_true

theorem isBlank_of_isDigit {c : Char} (h : c.isDigit = true) : isBlank c = false := by
  have hge : 48 ≤ c.toNat := (Char.isDigit_iff_toNat.1 h).1
  have hle : c.toNat ≤ 57 := (Char.isDigit_iff_toNat.1 h).2
  simp only [isBlank, Bool.or_eq_false_iff, Bool.and_eq_false_iff, decide_eq_false_iff_not,
    beq_eq_false_iff_ne]
  omega

/-! ## White space at the end -/

theorem trimStart_append_blank {c : Char} (hc : isBlank c = true) (cs : List Char) :
    trimStart (cs ++ [c]) = if (trimStart cs).isEmpty then [] else trimStart cs ++ [c] := by
  unfold trimStart
  rw [List.dropWhile_append]
  simp [hc]

theorem trimEnd_append_blank {c : Char} (hc : isBlank c = true) (cs : List Char) :
    trimEnd (cs ++ [c]) = trimEnd cs := by
  simp [trimEnd, hc]

theorem trim_append_blank {c : Char} (hc : isBlank c = true) (cs : List Char) :
    trim (cs ++ [c]) = trim cs := by
  unfold trim
  rw [trimStart_append_blank hc]
  split
  · rename_i he
    rw [List.isEmpty_iff.1 he]
  · exact trimEnd_append_blank hc _

theorem trim_append_blanks {blanks : List Char} (h : Blank blanks) (cs : List Char) :
    trim (cs ++ blanks) = trim cs := by
  induction blanks generalizing cs with
  | nil => rw [List.append_nil]
  | cons c blanks ih =>
    obtain ⟨hc, hblanks⟩ := List.forall_mem_cons.1 h
    rw [List.append_cons, ih hblanks, trim_append_blank hc]

/-! ## What is left -/

theorem trimEnd_eq_rdropWhile (cs : List Char) : trimEnd cs = cs.rdropWhile isBlank := rfl

/-- What is left of a text stands in the text without a break. -/
theorem trim_isInfix (cs : List Char) : trim cs <:+: cs := by
  have hend : trim cs <+: trimStart cs := List.rdropWhile_prefix isBlank (trimStart cs)
  have hstart : trimStart cs <:+ cs := List.dropWhile_suffix isBlank
  exact hend.isInfix.trans hstart.isInfix

theorem trimStart_eq_self_iff {cs : List Char} : trimStart cs = cs ↔ ∀ c ∈ cs.head?, isBlank c = false := by
  cases cs with
  | nil => simp [trimStart]
  | cons c cs =>
    unfold trimStart
    rw [List.dropWhile_eq_self_iff]
    simp

theorem trimEnd_eq_self_iff {cs : List Char} : trimEnd cs = cs ↔ ∀ c ∈ cs.getLast?, isBlank c = false := by
  rw [trimEnd_eq_rdropWhile, List.rdropWhile_eq_self_iff]
  rcases List.eq_nil_or_concat cs with rfl | ⟨cs, c, rfl⟩
  · simp
  · simp

/-- Taking white space off the end leaves the first character where it is, unless nothing is left. -/
theorem trimStart_trim (cs : List Char) : trimStart (trim cs) = trim cs := by
  unfold trimStart
  rw [List.dropWhile_eq_self_iff]
  intro hpos
  have hinit : trim cs <+: trimStart cs := List.rdropWhile_prefix isBlank (trimStart cs)
  have hfirst := List.dropWhile_eq_self_iff.1 (List.dropWhile_idempotent isBlank cs)
  rw [hinit.getElem hpos]
  exact hfirst (Nat.lt_of_lt_of_le hpos hinit.length_le)

theorem trimEnd_trim (cs : List Char) : trimEnd (trim cs) = trim cs :=
  List.rdropWhile_idempotent isBlank (trimStart cs)

theorem trim_trim (cs : List Char) : trim (trim cs) = trim cs := by
  show trimEnd (trimStart (trim cs)) = trim cs
  rw [trimStart_trim, trimEnd_trim]

theorem trim_eq_nil_iff {cs : List Char} : trim cs = [] ↔ Blank cs := by
  unfold trim
  rw [trimEnd_eq_rdropWhile, List.rdropWhile_eq_nil_iff, ← List.dropWhile_eq_nil_iff]
  show trimStart (trimStart cs) = [] ↔ Blank cs
  unfold trimStart
  rw [List.dropWhile_idempotent, List.dropWhile_eq_nil_iff]
  rfl

/-! ## What stands between -/

/-- The text is `core` with white space at its two ends, and `core` neither begins nor ends with any. -/
structure TrimsTo (cs core : List Char) : Prop where
  between : ∃ before behind, Blank before ∧ Blank behind ∧ cs = before ++ core ++ behind
  first : ∀ c ∈ core.head?, isBlank c = false
  last : ∀ c ∈ core.getLast?, isBlank c = false

theorem trim_blanks_append {blanks : List Char} (h : Blank blanks) (cs : List Char) :
    trim (blanks ++ cs) = trim cs := by
  unfold trim trimStart
  rw [List.dropWhile_append_of_pos h]

theorem trimsTo_trim (cs : List Char) : TrimsTo cs (trim cs) := by
  refine ⟨⟨cs.takeWhile isBlank, (trimStart cs).rtakeWhile isBlank, ?_, ?_, ?_⟩,
    trimStart_eq_self_iff.1 (trimStart_trim cs), trimEnd_eq_self_iff.1 (trimEnd_trim cs)⟩
  · exact fun c hc => List.mem_takeWhile_imp hc
  · exact fun c hc => List.mem_rtakeWhile_imp hc
  · rw [List.append_assoc, trim, trimEnd_eq_rdropWhile, List.rdropWhile_append_rtakeWhile, trimStart,
      List.takeWhile_append_dropWhile]

theorem TrimsTo.trim_eq {cs core : List Char} (h : TrimsTo cs core) : trim cs = core := by
  obtain ⟨⟨before, behind, hbefore, hbehind, rfl⟩, hfirst, hlast⟩ := h
  rw [trim_append_blanks hbehind, trim_blanks_append hbefore, trim, trimStart_eq_self_iff.2 hfirst,
    trimEnd_eq_self_iff.2 hlast]

theorem trim_eq_iff {cs core : List Char} : trim cs = core ↔ TrimsTo cs core := by
  constructor
  · rintro rfl
    exact trimsTo_trim cs
  · exact TrimsTo.trim_eq

end StackMachine.Text
