/-
Counting what a text holds. Lines are loaded one by one, so each count for two texts with a newline between
them is the sum of the counts for the two. The cells are counted in words, and words wrap: here the columns
help, for four characters write no number outside -999..9999 (`Decimal.Numeral.bounds`), and it would take
more than 9 * 10^14 instructions to leave the range of a word. Until then every addition is exact and the word
is the sum (`Instruction.allocated_within`).

Labels are counted where they are declared, while a table keeps each name once
(`Program.size_labels`). `insights_exact_and_additive` is all of this together.
-/
import Mathlib.Algebra.BigOperators.Group.List.Basic
import Mathlib.Data.List.Dedup
import StackMachine.Program.Insights
import StackMachine.Proofs.LabelOrder
import StackMachine.Proofs.Numeral
import StackMachine.Proofs.RoundTrip

namespace StackMachine

/-! ## Numerals in columns -/

namespace Decimal

theorem Digits.lt_pow {cs : List Char} {n : Nat} (h : Digits cs n) : n < 10 ^ cs.length := by
  have hdigit : ∀ c : Char, c.isDigit = true → c.toNat - '0'.toNat < 10 := by
    intro c hc
    have hle : c.toNat ≤ 57 := (Char.isDigit_iff_toNat.1 hc).2
    have hzero : '0'.toNat = 48 := rfl
    omega
  induction h with
  | single hc => simpa using hdigit _ hc
  | append _ hc ih =>
    have := hdigit _ hc
    rw [List.length_append, List.length_singleton, pow_succ]
    omega

/-- A sign takes the place of a digit. -/
theorem Numeral.bounds {cs : List Char} {i : Int} (h : Numeral cs i) {k : Nat} (hk : cs.length ≤ k + 1) :
    -((10 ^ k : Nat) : Int) < i ∧ i < (10 ^ (k + 1) : Nat) := by
  have hpos : ∀ m, 0 < 10 ^ m := fun m => Nat.pow_pos (by decide)
  have hmono : ∀ {m m' : Nat}, m ≤ m' → 10 ^ m ≤ 10 ^ m' := fun hm => Nat.pow_le_pow_right (by decide) hm
  have := hpos k
  cases h with
  | unsigned hd =>
    have := hd.lt_pow.trans_le (hmono hk)
    omega
  | plus hd =>
    have := hd.lt_pow.trans_le (hmono (Nat.le_of_succ_le hk))
    omega
  | minus hd =>
    have := hd.lt_pow.trans_le (hmono (Nat.le_of_succ_le_succ hk))
    have := hpos (k + 1)
    omega

end Decimal

/-! ## Cells -/

theorem Opcode.ofMnemonic?_eq_some_iff {s : String} {o : Opcode} :
    ofMnemonic? s = some o ↔ s = o.mnemonic := by
  constructor
  · exact ofMnemonic?_eq_some
  · rintro rfl
    exact ofMnemonic?_mnemonic o

theorem Word.toInt_add_of_range {a b : Word} (hle : least ≤ a.toInt + b.toInt)
    (hge : a.toInt + b.toInt ≤ greatest) : (a + b).toInt = a.toInt + b.toInt := by
  unfold least at hle
  unfold greatest at hge
  rw [Int64.toInt_add]
  exact Int.bmod_eq_of_le (by omega) (by omega)

namespace Instruction

/-- The number of cells that an `ALLOC` asks for, if it can be read. -/
def allocation? (i : Instruction) : Option Int :=
  if i.opcode = Opcode.alloc.mnemonic then (Decimal.word? i.operand2).map Int64.toInt else none

/-- The word that the cells of these instructions are counted in, after the last of them. -/
def allocated (is : List Instruction) : Word := is.foldl (fun sum i => sum + i.allocates) 0

variable {i : Instruction} {is : List Instruction}

theorem toInt_allocates (i : Instruction) : i.allocates.toInt = i.allocation?.getD 0 := by
  unfold allocates allocation?
  simp only [Opcode.ofMnemonic?_eq_some_iff]
  split
  · cases Decimal.word? i.operand2 <;> rfl
  · rfl

theorem Fits.allocation_bounds (h : i.Fits) {n : Int} (hn : i.allocation? = some n) : -999 ≤ n ∧ n ≤ 9999 := by
  unfold allocation? at hn
  split at hn
  · obtain ⟨w, hw, rfl⟩ := Option.map_eq_some_iff.1 hn
    have hlength : i.operand2.toList.length ≤ 3 + 1 := by
      rw [String.length_toList]
      exact h.operand2.length_le
    have := (Decimal.word?_eq_some.1 hw).bounds hlength
    omega
  · cases hn

theorem Fits.allocates_bounds (h : i.Fits) : -999 ≤ i.allocates.toInt ∧ i.allocates.toInt ≤ 9999 := by
  rw [toInt_allocates]
  cases hn : i.allocation? with
  | none => decide
  | some n => exact h.allocation_bounds hn

theorem allocated_snoc (is : List Instruction) (i : Instruction) :
    allocated (is ++ [i]) = allocated is + i.allocates := by
  unfold allocated
  rw [List.foldl_append]
  rfl

theorem sum_snoc (is : List Instruction) (i : Instruction) :
    ((is ++ [i]).filterMap allocation?).sum = (is.filterMap allocation?).sum + i.allocates.toInt := by
  rw [List.filterMap_append, List.sum_append, toInt_allocates]
  cases hn : i.allocation? <;> simp [hn]

/-- As long as there are not too many of them, the word is the sum. The induction takes the instructions in the
order of the loop, with the bounds that keep the next addition exact. -/
theorem allocated_within (his : ∀ i ∈ is, i.Fits) (hlength : is.length ≤ 900000000000000) :
    (allocated is).toInt = (is.filterMap allocation?).sum ∧
      -999 * (is.length : Int) ≤ (allocated is).toInt ∧ (allocated is).toInt ≤ 9999 * (is.length : Int) := by
  induction is using List.reverseRecOn with
  | nil => decide
  | append_singleton is i ih =>
    rw [List.length_append, List.length_singleton] at hlength
    obtain ⟨hsum, hle, hge⟩ := ih (fun j hj => his j (List.mem_append_left _ hj)) (by omega)
    have hi := (his i (List.mem_append_right _ (List.mem_singleton_self i))).allocates_bounds
    have hexact : (allocated (is ++ [i])).toInt = (allocated is).toInt + i.allocates.toInt := by
      rw [allocated_snoc]
      apply Word.toInt_add_of_range
      · unfold Word.least
        omega
      · unfold Word.greatest
        omega
    rw [hexact, sum_snoc, hsum, List.length_append, List.length_singleton, ← hsum]
    refine ⟨rfl, ?_, ?_⟩ <;> push_cast <;> omega

end Instruction

/-! ## Labels -/

theorem Labels.length_sorted (t : Labels) : t.sorted.length = t.size := by
  unfold sorted size
  rw [List.length_mergeSort, Std.ExtTreeMap.length_toList]

namespace Program

/-- The labels of the `NULL` instructions, in order. -/
def declared (p : Program) : List String := (p.instructions.filter (·.declaresLabel)).map (·.label)

theorem count_null (p : Program) : p.count .null = p.declared.length := by
  unfold count declared
  rw [List.length_map, ← List.countP_eq_length_filter]
  apply List.countP_congr
  intro i _
  rw [beq_iff_eq, Opcode.ofMnemonic?_eq_some_iff, Instruction.declaresLabel, beq_iff_eq]

theorem mem_declared {p : Program} {name : String} :
    name ∈ p.declared ↔ ∃ place, p.labels.get? name = some place := by
  rw [← Option.isSome_iff_exists, ← Option.ne_none_iff_isSome, ne_eq, labels_get?_eq_none]
  simp [declared, Instruction.declaresLabel, and_assoc]

/-- The table holds every label that is declared, once. -/
theorem size_labels (p : Program) : p.labels.size = p.declared.dedup.length := by
  have hnames : (p.labels.sorted.map Prod.fst).Perm p.declared.dedup := by
    rw [List.perm_ext_iff_of_nodup (Labels.nodup_names_sorted _) (List.nodup_dedup _)]
    intro name
    rw [List.mem_dedup, mem_declared]
    constructor
    · intro h
      obtain ⟨⟨name, place⟩, hmem, rfl⟩ := List.mem_map.1 h
      exact ⟨place, Labels.mem_sorted.1 hmem⟩
    · rintro ⟨place, hplace⟩
      exact List.mem_map.2 ⟨(name, place), Labels.mem_sorted.2 hplace, rfl⟩
  rw [← Labels.length_sorted, ← hnames.length_eq, List.length_map]

theorem size_labels_le (p : Program) : p.labels.size ≤ p.declared.length := by
  rw [size_labels]
  exact (List.dedup_sublist _).length_le

theorem size_labels_eq_iff (p : Program) : p.labels.size = p.declared.length ↔ p.declared.Nodup := by
  rw [size_labels, ← List.dedup_eq_self]
  constructor
  · exact (List.dedup_sublist _).eq_of_length
  · intro h
    rw [h]

/-! ## Two texts -/

theorem length_instructions_ofText_le (text : String) :
    (ofText text).instructions.length ≤ (Text.lines text).length := by
  rw [ofText_eq_ofLines, instructions_ofLines]
  exact List.length_filterMap_le _ _

theorem count_ofText_append (a b : String) (o : Opcode) :
    (ofText (a ++ "\n" ++ b)).count o = (ofText a).count o + (ofText b).count o := by
  unfold count
  rw [instructions_ofText_append, List.countP_append]

/-- In a text of not too many lines the word is the sum after each instruction. -/
theorem toInt_allocated {text : String} (h : (Text.lines text).length < 900000000000000)
    {done : List Instruction} (hdone : done <+: (ofText text).instructions) :
    (Instruction.allocated done).toInt = (done.filterMap Instruction.allocation?).sum := by
  have hlength := hdone.length_le.trans (length_instructions_ofText_le text)
  exact (Instruction.allocated_within (fun i hi => fits_of_mem_ofText (hdone.subset hi)) (by omega)).1

theorem allocatedCells_ofText_append {a b : String}
    (h : (Text.lines a).length + (Text.lines b).length < 900000000000000) :
    (ofText (a ++ "\n" ++ b)).insights.allocatedCells.toInt =
      (ofText a).insights.allocatedCells.toInt + (ofText b).insights.allocatedCells.toInt := by
  have hboth : (Text.lines (a ++ "\n" ++ b)).length < 900000000000000 := by
    rw [Text.lines_append, List.length_append]
    exact h
  have hsum := toInt_allocated hboth (List.prefix_refl _)
  rw [instructions_ofText_append, List.filterMap_append, List.sum_append,
    ← toInt_allocated (by omega) (List.prefix_refl _), ← toInt_allocated (by omega) (List.prefix_refl _),
    ← instructions_ofText_append] at hsum
  exact hsum

end Program

/-- Insights are exact and additive. Each count for two texts with a newline between them is the sum of the
counts for the two, if they do not have 9 * 10^14 lines together. In a text of fewer lines than that the cells
are the sum of all counts of `ALLOC` instructions that can be read, each of them from -999 to 9999, and no
addition on the way leaves the range of a word. The number of labels is that of the `NULL` instructions, and at
least the size of the table; the two are the same exactly if no two `NULL` instructions have the same label. -/
theorem insights_exact_and_additive :
    (∀ a b : String, (Text.lines a).length + (Text.lines b).length < 9 * 10 ^ 14 →
      let i := (Program.ofText a).insights
      let j := (Program.ofText b).insights
      let both := (Program.ofText (a ++ "\n" ++ b)).insights
      both.instructions = i.instructions + j.instructions ∧ both.labels = i.labels + j.labels ∧
        both.calls = i.calls + j.calls ∧
        both.allocatedCells.toInt = i.allocatedCells.toInt + j.allocatedCells.toInt ∧
        both.reads = i.reads + j.reads ∧ both.prints = i.prints + j.prints ∧
        both.skippedLines = i.skippedLines + j.skippedLines) ∧
    (∀ text : String, (Text.lines text).length < 9 * 10 ^ 14 →
      let p := Program.ofText text
      p.insights.allocatedCells.toInt = (p.instructions.filterMap Instruction.allocation?).sum ∧
        (∀ n ∈ p.instructions.filterMap Instruction.allocation?, -999 ≤ n ∧ n ≤ 9999) ∧
        ∀ done i rest, p.instructions = done ++ i :: rest →
          (Instruction.allocated done + i.allocates).toInt =
            (Instruction.allocated done).toInt + i.allocates.toInt) ∧
    ∀ text : String,
      let p := Program.ofText text
      p.insights.labels = p.declared.length ∧ p.labels.size ≤ p.insights.labels ∧
        (p.labels.size = p.insights.labels ↔ p.declared.Nodup) := by
  refine ⟨fun a b h => ⟨?_, ?_, ?_, ?_, ?_, ?_, ?_⟩, fun text h => ⟨?_, ?_, ?_⟩, fun text => ⟨?_, ?_, ?_⟩⟩
  · show (Program.ofText _).instructions.length = _
    rw [Program.instructions_ofText_append, List.length_append]
    rfl
  · exact Program.count_ofText_append a b .null
  · exact Program.count_ofText_append a b .call
  · exact Program.allocatedCells_ofText_append h
  · exact Program.count_ofText_append a b .rd
  · exact Program.count_ofText_append a b .prn
  · show (Program.ofText _).skipped.length = _
    rw [Program.skipped_ofText_append, List.length_append, List.length_map]
    rfl
  · exact Program.toInt_allocated h (List.prefix_refl _)
  · intro n hn
    obtain ⟨i, hi, hin⟩ := List.mem_filterMap.1 hn
    exact (Program.fits_of_mem_ofText hi).allocation_bounds hin
  · intro done i rest hsplit
    have hnext : done ++ [i] <+: (Program.ofText text).instructions := ⟨rest, by simp [hsplit]⟩
    rw [← Instruction.allocated_snoc, Program.toInt_allocated h hnext,
      Program.toInt_allocated h ((List.prefix_append done [i]).trans hnext), Instruction.sum_snoc]
  · exact Program.count_null _
  · exact (Program.size_labels_le _).trans_eq (Program.count_null _).symm
  · rw [← Program.size_labels_eq_iff, ← Program.count_null]
    rfl

/-- The two ends of what a column can hold, a short line and a label put on twice. -/
theorem insights_exact_and_additive_ends :
    let a := "L1  NULL            \n    ALLOC   0   9999"
    let b := "    ALLOC   0   -999\nshort\nL1  NULL            "
    let p := Program.ofText (a ++ "\n" ++ b)
    (Text.lines a).length + (Text.lines b).length < 9 * 10 ^ 14 ∧
      p.insights.allocatedCells.toInt =
        (Program.ofText a).insights.allocatedCells.toInt + (Program.ofText b).insights.allocatedCells.toInt ∧
      p.insights.skippedLines =
        (Program.ofText a).insights.skippedLines + (Program.ofText b).insights.skippedLines ∧
      (Text.lines (a ++ "\n" ++ b)).length < 9 * 10 ^ 14 ∧
      p.instructions.filterMap Instruction.allocation? = [9999, -999] ∧
      p.insights.allocatedCells.toInt = [9999, -999].sum ∧
      p.insights.labels = 2 ∧ p.labels.size ≠ p.insights.labels := by
  intro a b p
  have hlines : (Text.lines a).length + (Text.lines b).length < 9 * 10 ^ 14 := by decide +kernel
  have hlines' : (Text.lines (a ++ "\n" ++ b)).length < 9 * 10 ^ 14 := by
    rw [Text.lines_append, List.length_append]
    exact hlines
  have hfirst : (Program.ofText a).instructions = [⟨"L1", "NULL", "", ""⟩, ⟨"", "ALLOC", "0", "9999"⟩] := by
    decide +kernel
  have hsecond : (Program.ofText b).instructions = [⟨"", "ALLOC", "0", "-999"⟩, ⟨"L1", "NULL", "", ""⟩] := by
    decide +kernel
  have hcounts : p.instructions.filterMap Instruction.allocation? = [9999, -999] := by
    rw [Program.instructions_ofText_append, hfirst, hsecond]
    decide +kernel
  have hdeclared : p.declared = ["L1", "L1"] := by
    rw [Program.declared, Program.instructions_ofText_append, hfirst, hsecond]
    decide +kernel
  obtain ⟨hadditive, hexact, hlabels⟩ := insights_exact_and_additive
  obtain ⟨-, -, -, hcells, -, -, hskipped⟩ := hadditive a b hlines
  obtain ⟨hsum, -, -⟩ := hexact _ hlines'
  obtain ⟨hcount, -, hsame⟩ := hlabels (a ++ "\n" ++ b)
  refine ⟨hlines, hcells, hskipped, hlines', hcounts, hcounts ▸ hsum, ?_, ?_⟩
  · rw [hcount, hdeclared]
    rfl
  · rw [ne_eq, hsame, hdeclared]
    decide

end StackMachine
