/-
A listing keeps all that was loaded (`listing_lossless`). The line of an instruction is the text of its four
columns, 25 characters, without the white space at its end, and behind that a remark. Where the remark begins
is not marked, so what has to be shown is that nothing else can stand where it stands:

- two remarks that end a line are the same remark (`remark_unique`);
- `; unknown opcode` would put a character other than a space between two columns (`no_unknown_in_columns`);
- a remark on a jump stands behind a mnemonic that no opcode without a label begins with
  (`labelled_of_mnemonic_before`).

So the two lines have the same text before the remark. The white space that it ended in was all spaces, as
fields end in none (`Text.SpacedEnd`), so the columns are the same, and the fields with them.
-/
import StackMachine.Proofs.Listing
import StackMachine.Proofs.RoundTrip

namespace StackMachine

/-! ## Spaces at the end -/

namespace Text

theorem trimEnd_append (xs ys : List Char) :
    trimEnd (xs ++ ys) = if trimEnd ys = [] then trimEnd xs else xs ++ trimEnd ys := by
  unfold trimEnd
  rw [List.reverse_append, List.dropWhile_append]
  simp only [List.isEmpty_iff, List.reverse_eq_nil_iff]
  split
  · rfl
  · rw [List.reverse_append, List.reverse_reverse]

/-- What does not end in white space is not shortened by what follows. -/
theorem trimEnd_append_of_eq {xs : List Char} (h : trimEnd xs = xs) (ys : List Char) :
    trimEnd (xs ++ ys) = xs ++ trimEnd ys := by
  rw [trimEnd_append]
  split
  · rename_i hnil
    rw [h, hnil, List.append_nil]
  · rfl

/-- The white space at the end of the text is all spaces. -/
def SpacedEnd (cs : List Char) : Prop := ∃ n, cs = trimEnd cs ++ List.replicate n ' '

theorem spacedEnd_spaces (n : Nat) : SpacedEnd (List.replicate n ' ') := by
  have hblank : trimEnd (List.replicate n ' ') = [] := by
    rw [trimEnd_eq_rdropWhile, List.rdropWhile_eq_nil_iff]
    intro c hc
    rw [List.eq_of_mem_replicate hc]
    rfl
  exact ⟨n, by rw [hblank, List.nil_append]⟩

theorem spacedEnd_of_eq {cs : List Char} (h : trimEnd cs = cs) : SpacedEnd cs :=
  ⟨0, by rw [h, List.replicate_zero, List.append_nil]⟩

theorem SpacedEnd.append {xs ys : List Char} (hx : SpacedEnd xs) (hy : SpacedEnd ys) :
    SpacedEnd (xs ++ ys) := by
  obtain ⟨m, hm⟩ := hx
  obtain ⟨n, hn⟩ := hy
  unfold SpacedEnd
  rw [trimEnd_append]
  split
  · rename_i hnil
    rw [hnil, List.nil_append] at hn
    refine ⟨m + n, ?_⟩
    rw [List.replicate_add, ← List.append_assoc, ← hm, ← hn]
  · refine ⟨n, ?_⟩
    rw [List.append_assoc, ← hn]

theorem SpacedEnd.space_cons {cs : List Char} (h : SpacedEnd cs) : SpacedEnd (' ' :: cs) :=
  (spacedEnd_spaces 1).append h

/-- Texts of one length that differ in the number of spaces at their ends at most do not differ. -/
theorem SpacedEnd.eq_of_trimEnd_eq {xs ys : List Char} (hx : SpacedEnd xs) (hy : SpacedEnd ys)
    (hlength : xs.length = ys.length) (h : trimEnd xs = trimEnd ys) : xs = ys := by
  obtain ⟨m, hm⟩ := hx
  obtain ⟨n, hn⟩ := hy
  rw [hm, hn, h, List.length_append, List.length_append, List.length_replicate, List.length_replicate] at hlength
  have hmn : m = n := by omega
  rw [hm, hn, h, hmn]

variable {width : Nat} {s : String}

theorem Fits.trimEnd_eq (h : Fits width s) : trimEnd s.toList = s.toList := by
  have htrim : trim s.toList = s.toList := by
    have := congrArg String.toList h.trimmed
    rwa [Text.trimmed, String.toList_ofList] at this
  rw [← htrim, trimEnd_trim]

theorem Fits.spacedEnd_column (h : Fits width s) : SpacedEnd (column width s).toList := by
  rw [toList_column]
  exact (spacedEnd_of_eq h.trimEnd_eq).append (spacedEnd_spaces _)

end Text

/-! ## Columns -/

namespace Instruction

/-- The text of the four columns, with the two spaces before them and one between each two. -/
def columns (i : Instruction) : List Char :=
  [' ', ' '] ++ ((Text.column 4 i.label).toList ++ (' ' :: ((Text.column 8 i.opcode).toList ++
    (' ' :: ((Text.column 4 i.operand1).toList ++ (' ' :: (Text.column 4 i.operand2).toList))))))

variable {i j : Instruction}

theorem Fits.length_columns (h : i.Fits) : i.columns.length = 25 := by
  simp only [columns, List.length_append, List.length_cons, List.length_nil, h.label.length_column,
    h.opcode.length_column, h.operand1.length_column, h.operand2.length_column]

theorem Fits.spacedEnd_columns (h : i.Fits) : Text.SpacedEnd i.columns := by
  have htwo : Text.SpacedEnd [' ', ' '] := Text.spacedEnd_spaces 2
  exact htwo.append (h.label.spacedEnd_column.append (h.opcode.spacedEnd_column.append
    (h.operand1.spacedEnd_column.append h.operand2.spacedEnd_column.space_cons).space_cons).space_cons)

/-- The fields come back from the columns. -/
theorem Fits.fields_columns (h : i.Fits) :
    (⟨Line.field i.columns 2 4, Line.field i.columns 7 8, Line.field i.columns 16 4,
      Line.field i.columns 21 4⟩ : Instruction) = i := by
  have hlabel := Line.field_column h.label [' ', ' '] (' ' :: ((Text.column 8 i.opcode).toList ++
    (' ' :: ((Text.column 4 i.operand1).toList ++ (' ' :: (Text.column 4 i.operand2).toList)))))
  have hopcode := Line.field_column h.opcode ([' ', ' '] ++ (Text.column 4 i.label).toList ++ [' '])
    (' ' :: ((Text.column 4 i.operand1).toList ++ (' ' :: (Text.column 4 i.operand2).toList)))
  have hoperand1 := Line.field_column h.operand1 ([' ', ' '] ++ (Text.column 4 i.label).toList ++ [' '] ++
    (Text.column 8 i.opcode).toList ++ [' ']) (' ' :: (Text.column 4 i.operand2).toList)
  have hoperand2 := Line.field_column h.operand2 ([' ', ' '] ++ (Text.column 4 i.label).toList ++ [' '] ++
    (Text.column 8 i.opcode).toList ++ [' '] ++ (Text.column 4 i.operand1).toList ++ [' ']) []
  simp only [List.length_append, List.length_cons, List.length_nil, h.label.length_column,
    h.opcode.length_column, h.operand1.length_column, List.append_assoc, List.append_nil, List.cons_append,
    List.nil_append] at hlabel hopcode hoperand1 hoperand2
  unfold columns
  simp only [List.cons_append, List.nil_append]
  rw [hlabel, hopcode, hoperand1, hoperand2]

/-- Trimming the columns at the end loses nothing. -/
theorem Fits.eq_of_trimEnd_columns (hi : i.Fits) (hj : j.Fits)
    (h : Text.trimEnd i.columns = Text.trimEnd j.columns) : i = j := by
  have hcolumns : i.columns = j.columns :=
    hi.spacedEnd_columns.eq_of_trimEnd_eq hj.spacedEnd_columns (hi.length_columns.trans hj.length_columns.symm) h
  rw [← hi.fields_columns, hcolumns, hj.fields_columns]

/-! ## Lines -/

/-- What stands behind the columns: two spaces and the remark, if there is one. -/
def remarked (labels : Labels) (i : Instruction) : List Char :=
  if i.remark labels = "" then [] else [' ', ' '] ++ (i.remark labels).toList

theorem trimEnd_placeText (place : Nat) : Text.trimEnd (placeText place).toList = (placeText place).toList := by
  rw [Text.trimEnd_eq_self_iff]
  intro c hc
  exact Text.isBlank_of_isDigit (isDigit_of_mem_placeText (List.mem_of_getLast? hc))

theorem toList_listed (labels : Labels) (i : Instruction) (place : Nat) :
    (i.listed labels place).toList =
      (placeText place).toList ++ (Text.trimEnd i.columns ++ i.remarked labels) := by
  have hfields : (i.listedFields place).toList = (placeText place).toList ++ Text.trimEnd i.columns := by
    rw [← Text.trimEnd_append_of_eq (trimEnd_placeText place), listedFields, String.toList_ofList]
    simp [columns]
  rw [listed_eq, remarked]
  split
  · rw [hfields, List.append_nil]
  · simp [hfields]

theorem Fits.newline_notMem_columns (h : i.Fits) : '\n' ∉ i.columns := by
  simp only [columns, List.mem_append, List.mem_cons, List.not_mem_nil, not_or, or_false]
  exact ⟨by decide, h.label.newline_notMem_column, by decide, h.opcode.newline_notMem_column, by decide,
    h.operand1.newline_notMem_column, by decide, h.operand2.newline_notMem_column⟩

theorem Fits.newline_notMem_listed (h : i.Fits) (labels : Labels) (place : Nat) :
    '\n' ∉ (i.listed labels place).toList := by
  rw [toList_listed, List.mem_append, List.mem_append, not_or, not_or]
  refine ⟨fun hmem => ?_, fun hmem => ?_, fun hmem => ?_⟩
  · cases isDigit_of_mem_placeText hmem
  · exact h.newline_notMem_columns ((List.rdropWhile_prefix Text.isBlank i.columns).subset hmem)
  · rw [remarked] at hmem
    split at hmem
    · cases hmem
    · rcases List.mem_append.1 hmem with hmem | hmem
      · exact absurd hmem (by decide)
      · exact i.newline_notMem_remark labels hmem

end Instruction

/-! ## Remarks at the end of a line -/

/-- The texts that a remark can have. -/
def IsRemark (r : String) : Prop :=
  r = unknownRemark ∨ r = unresolvedRemark ∨ ∃ place, r = targetRemark place

theorem Instruction.remark_eq (labels : Labels) (i : Instruction) :
    i.remark labels = "" ∨ IsRemark (i.remark labels) := by
  rcases i.remark_cases labels with ⟨-, h⟩ | ⟨place, -, -, h⟩ | ⟨-, -, h⟩ | ⟨-, -, h⟩
  · exact .inr (.inl h)
  · exact .inr (.inr (.inr ⟨place, h⟩))
  · exact .inr (.inr (.inl h))
  · exact .inl h

theorem placeText_ne_nil (place : Nat) : (placeText place).toList ≠ [] := by
  rw [toList_placeText]
  exact List.append_ne_nil_of_right_ne_nil _ Nat.toDigits_ne_nil

/-- The last character of a line tells what kind of remark it ends in. -/
theorem IsRemark.getLast?_eq {r : String} (h : IsRemark r) (before : List Char) :
    ∃ c, (before ++ r.toList).getLast? = some c ∧
      (c = 'e' ∧ r = unknownRemark ∨ c = '?' ∧ r = unresolvedRemark ∨
        c.isDigit = true ∧ ∃ place, r = targetRemark place) := by
  rcases h with rfl | rfl | ⟨place, rfl⟩
  · rw [List.getLast?_append_of_ne_nil _ (by decide)]
    exact ⟨'e', by decide, .inl ⟨rfl, rfl⟩⟩
  · rw [List.getLast?_append_of_ne_nil _ (by decide)]
    exact ⟨'?', by decide, .inr (.inl ⟨rfl, rfl⟩)⟩
  · have hne := placeText_ne_nil place
    rw [targetRemark, String.toList_append, ← List.append_assoc, List.getLast?_append_of_ne_nil _ hne]
    exact ⟨_, List.getLast?_eq_some_getLast hne,
      .inr (.inr ⟨isDigit_of_mem_placeText (List.getLast_mem hne), place, rfl⟩)⟩

/-- The digits at the end of a line are those of the place, for a space stands before them. -/
theorem target_unique {before before' : List Char} {m n : Nat}
    (h : before ++ (targetRemark m).toList = before' ++ (targetRemark n).toList) : m = n := by
  have hreversed : ∀ (cs : List Char) (k : Nat), (cs ++ (targetRemark k).toList).reverse =
      (placeText k).toList.reverse ++ ' ' :: ('>' :: '-' :: cs.reverse) := by
    intro cs k
    simp [targetRemark]
  have hdigits : ∀ k, ∀ c ∈ (placeText k).toList.reverse, c.isDigit = true := by
    intro k c hc
    exact isDigit_of_mem_placeText (List.mem_reverse.1 hc)
  -- from the end, the first character that is no digit is the space
  have hends := congrArg List.reverse h
  rw [hreversed, hreversed] at hends
  have hplaces := (append_cons_inj (hdigits m) (hdigits n) rfl rfl hends).1
  exact placeText_injective (String.toList_injective (List.reverse_injective hplaces))

/-- Two remarks that end the same line are the same. -/
theorem remark_unique {before before' : List Char} {r r' : String} (hr : IsRemark r) (hr' : IsRemark r')
    (h : before ++ r.toList = before' ++ r'.toList) : r = r' := by
  obtain ⟨c, hc, hkind⟩ := hr.getLast?_eq before
  obtain ⟨c', hc', hkind'⟩ := hr'.getLast?_eq before'
  rw [h, hc', Option.some.injEq] at hc
  subst hc
  -- neither letter is the other or a digit, so the kinds agree
  rcases hkind with ⟨rfl, rfl⟩ | ⟨rfl, rfl⟩ | ⟨hdigit, m, rfl⟩
  · rcases hkind' with ⟨-, rfl⟩ | ⟨hc, -⟩ | ⟨hdigit, -⟩
    · rfl
    · cases hc
    · cases hdigit
  · rcases hkind' with ⟨hc, -⟩ | ⟨-, rfl⟩ | ⟨hdigit, -⟩
    · cases hc
    · rfl
    · cases hdigit
  · rcases hkind' with ⟨rfl, -⟩ | ⟨rfl, -⟩ | ⟨-, n, rfl⟩
    · cases hdigit
    · cases hdigit
    · rw [target_unique h]

/-! ## Columns that end like a remark -/

namespace Instruction

variable {i j : Instruction}

theorem Fits.separators (h : i.Fits) : i.columns[6]? = some ' ' ∧ i.columns[15]? = some ' ' := by
  have hlabel := h.label.length_column
  have hopcode := h.opcode.length_column
  constructor
  · simp [columns, hlabel]
  · simp [columns, List.getElem?_append, hlabel, hopcode]

/-- Wherever `; unknown opcode` stood within the columns, it would cover a space between two of them. -/
theorem Fits.no_unknown_in_columns (h : i.Fits) (before : List Char) :
    Text.trimEnd i.columns ≠ before ++ ([' ', ' '] ++ unknownRemark.toList) := by
  intro heq
  -- there is room for seven characters before it; only with four of them it has a space behind the opcode's
  -- column, and then its semicolon is behind the label's
  have hcovers : ∀ t < 8, ([' ', ' '] ++ unknownRemark.toList)[15 - t]? = some ' ' →
      t ≤ 6 ∧ ([' ', ' '] ++ unknownRemark.toList)[6 - t]? ≠ some ' ' := by decide
  have hlength : ([' ', ' '] ++ unknownRemark.toList).length = 18 := by decide
  obtain ⟨n, hn⟩ := h.spacedEnd_columns
  rw [heq] at hn
  generalize [' ', ' '] ++ unknownRemark.toList = remark at hn hcovers hlength
  have hroom := congrArg List.length hn
  rw [h.length_columns, List.length_append, List.length_append, hlength] at hroom
  have hwithin : ∀ k, before.length ≤ k → k ≤ 15 → i.columns[k]? = remark[k - before.length]? := by
    intro k hlow hhigh
    rw [hn, List.getElem?_append_left (by rw [List.length_append]; omega), List.getElem?_append_right hlow]
  have hseparator := h.separators.2
  rw [hwithin 15 (by omega) (by omega)] at hseparator
  obtain ⟨hle, hne⟩ := hcovers before.length (by omega) hseparator
  rw [← hwithin 6 hle (by omega)] at hne
  exact hne h.separators.1

/-- An opcode that begins like one with a label has a label itself. -/
theorem labelled_of_mnemonic_before {o : Opcode} (ho : o ∈ Opcode.labelled) (o' : Opcode)
    (h : o.mnemonic.toList <+: (Text.column 8 o'.mnemonic).toList) : o' ∈ Opcode.labelled := by
  have hall : ∀ o ∈ Opcode.labelled, ∀ o' ∈ Opcode.all,
      o.mnemonic.toList <+: (Text.column 8 o'.mnemonic).toList → o' ∈ Opcode.labelled := by decide +kernel
  exact hall o ho o' (Opcode.mem_all o') h

/-- What stands before the column of the opcode. -/
def margin (i : Instruction) : List Char := [' ', ' '] ++ (Text.column 4 i.label).toList ++ [' ']

theorem Fits.length_margin (h : i.Fits) : i.margin.length = 7 := by
  simp only [margin, List.length_append, List.length_cons, List.length_nil, h.label.length_column]

theorem columns_eq_margin (i : Instruction) : ∃ rest, i.columns =
    i.margin ++ ((Text.column 8 i.opcode).toList ++ rest) := by
  refine ⟨' ' :: ((Text.column 4 i.operand1).toList ++ (' ' :: (Text.column 4 i.operand2).toList)), ?_⟩
  simp only [columns, margin, List.append_assoc, List.cons_append, List.nil_append]

/-- The opcode is not trimmed away. -/
theorem Fits.opcode_before_trimmed (h : i.Fits) (hne : i.opcode.toList ≠ []) :
    i.margin ++ i.opcode.toList <+: Text.trimEnd i.columns := by
  obtain ⟨rest, hrest⟩ := i.columns_eq_margin
  have hend : Text.trimEnd (i.margin ++ i.opcode.toList) = i.margin ++ i.opcode.toList := by
    rw [Text.trimEnd_append, h.opcode.trimEnd_eq, if_neg hne]
  rw [hrest, Text.toList_column, List.append_assoc, ← List.append_assoc i.margin,
    Text.trimEnd_append_of_eq hend]
  exact List.prefix_append _ _

/-- A line that begins like one with a jump is one with a jump. -/
theorem Fits.labelled_of_columns_before (hi : i.Fits) (hj : j.Fits) {o : Opcode}
    (ho : Opcode.ofMnemonic? i.opcode = some o) (hjump : j.opcode ∈ Opcode.labelled.map Opcode.mnemonic)
    (h : Text.trimEnd j.columns <+: Text.trimEnd i.columns) :
    i.opcode ∈ Opcode.labelled.map Opcode.mnemonic := by
  obtain ⟨o', ho', hmnemonic⟩ := List.mem_map.1 hjump
  have hne : j.opcode.toList ≠ [] := by
    rw [← hmnemonic]
    cases o' <;> decide
  obtain ⟨rest, hrest⟩ := i.columns_eq_margin
  have hcolumns : Text.trimEnd i.columns <+: i.columns := List.rdropWhile_prefix Text.isBlank i.columns
  obtain ⟨behind, hbehind⟩ := ((hj.opcode_before_trimmed hne).trans h).trans hcolumns
  rw [hrest, List.append_assoc] at hbehind
  have hopcode := (List.append_inj hbehind (hj.length_margin.trans hi.length_margin.symm)).2
  have hstart : j.opcode.toList <+: (Text.column 8 i.opcode).toList := by
    refine List.prefix_of_prefix_length_le (List.prefix_append j.opcode.toList behind)
      ⟨rest, hopcode.symm⟩ ?_
    rw [hi.opcode.length_column, String.length_toList]
    exact hj.opcode.length_le
  rw [Opcode.ofMnemonic?_eq_some ho, ← hmnemonic] at hstart
  rw [Opcode.ofMnemonic?_eq_some ho]
  exact List.mem_map_of_mem (labelled_of_mnemonic_before ho' o hstart)

/-! ## One line -/

theorem remarked_of_remark {labels : Labels} (h : IsRemark (i.remark labels)) :
    i.remarked labels = [' ', ' '] ++ (i.remark labels).toList := by
  have hne : ∀ {r : String}, IsRemark r → r ≠ "" := by
    rintro r (rfl | rfl | ⟨place, rfl⟩)
    · decide
    · decide
    · exact targetRemark_ne_empty place
  rw [remarked, if_neg (hne h)]

/-- A line without a remark is not one with a remark. -/
theorem Fits.remark_of_columns (hi : i.Fits) (hj : j.Fits) {labels labels' : Labels}
    (hplain : i.remark labels = "")
    (h : Text.trimEnd i.columns = Text.trimEnd j.columns ++ j.remarked labels') :
    j.remark labels' = "" := by
  rcases i.remark_cases labels with ⟨-, hr⟩ | ⟨place, -, -, hr⟩ | ⟨-, -, hr⟩ | ⟨hunlabelled, ⟨o, ho⟩, -⟩
  · exact absurd (hplain.symm.trans hr) (by decide)
  · exact absurd (hplain.symm.trans hr).symm (targetRemark_ne_empty place)
  · exact absurd (hplain.symm.trans hr) (by decide)
  have hbefore : Text.trimEnd j.columns <+: Text.trimEnd i.columns :=
    ⟨j.remarked labels', h.symm⟩
  rcases j.remark_cases labels' with ⟨-, hr⟩ | ⟨place, hjump, -, -⟩ | ⟨hjump, -, -⟩ | ⟨-, -, hr⟩
  · rw [remarked_of_remark (.inl hr), hr] at h
    exact absurd h (hi.no_unknown_in_columns _)
  · exact absurd (hi.labelled_of_columns_before hj ho hjump hbefore) hunlabelled
  · exact absurd (hi.labelled_of_columns_before hj ho hjump hbefore) hunlabelled
  · exact hr

/-- The line of an instruction is the line of no other, wherever the labels may lead to. -/
theorem Fits.listed_inj (hi : i.Fits) (hj : j.Fits) {labels labels' : Labels} {place : Nat}
    (h : i.listed labels place = j.listed labels' place) : i = j := by
  have hline := congrArg String.toList h
  rw [toList_listed, toList_listed, List.append_cancel_left_eq] at hline
  apply hi.eq_of_trimEnd_columns hj
  have hremarks : i.remarked labels = j.remarked labels' := by
    rcases i.remark_eq labels with hnone | hsome
    · have hnil : i.remarked labels = [] := if_pos hnone
      rw [hnil, List.append_nil] at hline
      rw [hnil, remarked, if_pos (hi.remark_of_columns hj hnone hline)]
    · rcases j.remark_eq labels' with hnone' | hsome'
      · have hnil : j.remarked labels' = [] := if_pos hnone'
        rw [hnil, List.append_nil] at hline
        rw [hnil, remarked, if_pos (hj.remark_of_columns hi hnone' hline.symm)]
      · rw [remarked_of_remark hsome, remarked_of_remark hsome', ← List.append_assoc,
          ← List.append_assoc] at hline
        rw [remarked_of_remark hsome, remarked_of_remark hsome', remark_unique hsome hsome' hline]
  rw [hremarks] at hline
  exact List.append_cancel_right hline

end Instruction

/-! ## The records of skipped lines -/

/-- The line of a listing that accounts for a skipped line. -/
def SkippedLine.listed (s : SkippedLine) : String :=
  "; skipped line " ++ Decimal.ofNat s.line ++ " (" ++ Decimal.ofNat s.length ++ " chars)"

theorem isDigit_of_mem_ofNat {n : Nat} {c : Char} (h : c ∈ (Decimal.ofNat n).toList) : c.isDigit = true := by
  rw [Decimal.ofNat, String.toList_ofList] at h
  exact Nat.isDigit_of_mem_toDigits (by decide) (by decide) h

theorem ofNat_injective : Function.Injective Decimal.ofNat := by
  intro m n h
  have hdigits := congrArg (fun s => Nat.ofDigitChars 10 s.toList 0) h
  simpa only [Decimal.ofNat, String.toList_ofList, Nat.ofDigitChars_ten_toDigits] using hdigits

theorem SkippedLine.toList_listed (s : SkippedLine) :
    s.listed.toList = "; skipped line ".toList ++ ((Decimal.ofNat s.line).toList ++
      (' ' :: '(' :: ((Decimal.ofNat s.length).toList ++ (' ' :: "chars)".toList)))) := by
  have hopen : " (".toList = [' ', '('] := by decide
  have hclose : " chars)".toList = ' ' :: "chars)".toList := by decide
  unfold listed
  rw [String.toList_append, String.toList_append, String.toList_append, String.toList_append, hopen, hclose,
    List.append_assoc, List.append_assoc, List.append_assoc]
  rfl

/-- Each of the two numbers ends where a space follows. -/
theorem SkippedLine.listed_injective : Function.Injective SkippedLine.listed := by
  rintro ⟨line, length⟩ ⟨line', length'⟩ h
  have hchars := congrArg String.toList h
  simp only [toList_listed, List.append_cancel_left_eq] at hchars
  have hdigits : ∀ n, ∀ c ∈ (Decimal.ofNat n).toList, c.isDigit = true := fun n c => isDigit_of_mem_ofNat
  obtain ⟨hline, hrest⟩ := append_cons_inj (hdigits line) (hdigits line') rfl rfl hchars
  rw [List.cons.injEq, List.cons.injEq] at hrest
  have hlength := (append_cons_inj (hdigits length) (hdigits length') rfl rfl hrest.2.2).1
  rw [ofNat_injective (String.toList_injective hline), ofNat_injective (String.toList_injective hlength)]

theorem SkippedLine.newline_notMem_listed (s : SkippedLine) : '\n' ∉ s.listed.toList := by
  have hdigits : ∀ n, '\n' ∉ (Decimal.ofNat n).toList := fun n hmem => by cases isDigit_of_mem_ofNat hmem
  rw [toList_listed]
  simp [hdigits]

/-! ## All lines -/

/-- Lines that each end in a newline can be told apart. -/
theorem lines_inj : ∀ {as bs : List String}, (∀ l ∈ as, '\n' ∉ l.toList) → (∀ l ∈ bs, '\n' ∉ l.toList) →
    String.join (as.map (· ++ "\n")) = String.join (bs.map (· ++ "\n")) → as = bs
  | [], [], _, _, _ => rfl
  | [], b :: bs, _, _, h => by
    have := congrArg String.toList h
    simp at this
  | a :: as, [], _, _, h => by
    have := congrArg String.toList h
    simp at this
  | a :: as, b :: bs, ha, hb, h => by
    obtain ⟨ha, has⟩ := List.forall_mem_cons.1 ha
    obtain ⟨hb, hbs⟩ := List.forall_mem_cons.1 hb
    have hchars := congrArg String.toList h
    simp only [List.map_cons, String.join_cons, String.toList_append, List.append_assoc] at hchars
    obtain ⟨hfirst, hrest⟩ := append_newline_inj ha hb hchars
    rw [String.toList_injective hfirst, lines_inj has hbs (String.toList_injective hrest)]

/-- A list of members that pass a test, with members behind it that do not, can be taken apart in one way only. -/
theorem append_inj_of_test {α : Type} {test : α → Bool} {as bs cs ds : List α} (ha : ∀ x ∈ as, test x = true)
    (hb : ∀ x ∈ bs, test x = true) (hc : ∀ x ∈ cs, test x = false) (hd : ∀ x ∈ ds, test x = false)
    (h : as ++ cs = bs ++ ds) : as = bs ∧ cs = ds := by
  have hpassed : ∀ {es fs : List α}, (∀ x ∈ es, test x = true) → (∀ x ∈ fs, test x = false) →
      (es ++ fs).filter test = es := by
    intro es fs hes hfs
    rw [List.filter_append, List.filter_eq_self.2 hes, List.filter_eq_nil_iff.2 fun x hx => by simp [hfs x hx],
      List.append_nil]
  have hab : as = bs := by rw [← hpassed ha hc, h, hpassed hb hd]
  exact ⟨hab, List.append_cancel_left (hab ▸ h)⟩

namespace Program

/-- A line of a listing that is none of a label or of a skipped line. -/
def isForemost (l : String) : Bool := l.toList.head? != some ';'

variable {p q : Program}

theorem eq_iff : p = q ↔ p.instructions = q.instructions ∧ p.skipped = q.skipped := by
  cases p
  cases q
  rw [mk.injEq]

theorem listedSkips_eq (p : Program) : p.listedSkips = p.skipped.map SkippedLine.listed := rfl

theorem listedInstructions_of_isEmpty (h : p.isEmpty = true) : p.listedInstructions = ["(empty program)"] :=
  if_pos h

theorem getElem?_listedInstructions (h : p.isEmpty = false) (place : Nat) :
    p.listedInstructions[place]? = p.instructions[place]?.map (·.listed p.labels place) := by
  simp only [listedInstructions, h, Bool.false_eq_true, if_false, List.getElem?_map, List.getElem?_zipIdx,
    Option.map_map, Nat.zero_add]
  rfl

theorem mem_listedInstructions {l : String} (h : l ∈ p.listedInstructions) :
    l = "(empty program)" ∧ p.isEmpty = true ∨
      ∃ place i, i ∈ p.instructions ∧ l = i.listed p.labels place := by
  cases he : p.isEmpty with
  | true =>
    rw [listedInstructions_of_isEmpty he] at h
    exact .inl ⟨List.mem_singleton.1 h, rfl⟩
  | false =>
    obtain ⟨place, hplace⟩ := List.mem_iff_getElem?.1 h
    rw [getElem?_listedInstructions he] at hplace
    obtain ⟨i, hi, rfl⟩ := Option.map_eq_some_iff.1 hplace
    exact .inr ⟨place, i, List.mem_of_getElem? hi, rfl⟩

theorem mem_listedLabels {l : String} (h : l ∈ p.listedLabels) :
    ∃ name place, p.labels.get? name = some place ∧
      l = "; mark " ++ Text.column 4 name ++ " = " ++ placeText place := by
  obtain ⟨⟨name, place⟩, hmem, rfl⟩ := List.mem_map.1 h
  refine ⟨name, place, ?_, rfl⟩
  rw [Labels.sorted, List.mem_mergeSort] at hmem
  exact Std.ExtTreeMap.mem_toList_iff_getElem?_eq_some.1 hmem

/-- The digits of a place tell the line of an instruction from any other. -/
theorem head?_listed (labels : Labels) (i : Instruction) (place : Nat) :
    ∃ c, (i.listed labels place).toList.head? = some c ∧ c.isDigit = true := by
  have hne := placeText_ne_nil place
  refine ⟨_, ?_, isDigit_of_mem_placeText (List.head_mem hne)⟩
  rw [Instruction.toList_listed, List.head?_append_of_ne_nil _ hne, List.head?_eq_some_head hne]

theorem isForemost_of_mem {l : String} (h : l ∈ p.listedInstructions) : isForemost l = true := by
  rcases mem_listedInstructions h with ⟨rfl, -⟩ | ⟨place, i, -, rfl⟩
  · decide
  · obtain ⟨c, hc, hdigit⟩ := head?_listed p.labels i place
    rw [isForemost, hc, bne_iff_ne]
    rintro ⟨⟩
    cases hdigit

theorem not_isForemost_of_mem {l : String} (h : l ∈ p.listedLabels ++ p.listedSkips) :
    isForemost l = false := by
  rcases List.mem_append.1 h with h | h
  · obtain ⟨name, place, -, rfl⟩ := mem_listedLabels h
    simp [isForemost]
  · rw [listedSkips_eq] at h
    obtain ⟨s, -, rfl⟩ := List.mem_map.1 h
    rw [isForemost, SkippedLine.toList_listed, List.head?_append_of_ne_nil _ (by decide)]
    decide

theorem fits_of_labels_get? (hp : ∀ i ∈ p.instructions, i.Fits) {name : String} {place : Nat}
    (h : p.labels.get? name = some place) : Text.Fits 4 name := by
  rw [labels_get?, List.findIdx?_eq_some_iff_getElem] at h
  obtain ⟨hlt, hdeclares, -⟩ := h
  rw [← (Instruction.declares_iff.1 hdeclares).2]
  exact (hp _ (List.getElem_mem hlt)).label

theorem newline_notMem_of_mem (hp : ∀ i ∈ p.instructions, i.Fits) {l : String}
    (h : l ∈ p.listedInstructions ++ p.listedLabels ++ p.listedSkips) : '\n' ∉ l.toList := by
  rcases List.mem_append.1 h with h | h
  · rcases List.mem_append.1 h with h | h
    · rcases mem_listedInstructions h with ⟨rfl, -⟩ | ⟨place, i, hi, rfl⟩
      · decide
      · exact (hp i hi).newline_notMem_listed p.labels place
    · obtain ⟨name, place, hname, rfl⟩ := mem_listedLabels h
      simp only [String.toList_append, List.mem_append, not_or]
      refine ⟨⟨⟨by decide, (fits_of_labels_get? hp hname).newline_notMem_column⟩, by decide⟩, fun hmem => ?_⟩
      cases isDigit_of_mem_placeText hmem
  · rw [listedSkips_eq] at h
    obtain ⟨s, -, rfl⟩ := List.mem_map.1 h
    exact s.newline_notMem_listed

/-- An empty program is not listed like any other. -/
theorem isEmpty_of_listed (hp : p.isEmpty = true) (h : p.listedInstructions = q.listedInstructions) :
    q.isEmpty = true := by
  rw [listedInstructions_of_isEmpty hp] at h
  have hmem : "(empty program)" ∈ q.listedInstructions := h ▸ List.mem_singleton_self _
  rcases mem_listedInstructions hmem with ⟨-, hq⟩ | ⟨place, i, -, hi⟩
  · exact hq
  · obtain ⟨c, hc, hdigit⟩ := head?_listed q.labels i place
    rw [← hi] at hc
    cases hc
    cases hdigit

theorem instructions_of_listed (hp : ∀ i ∈ p.instructions, i.Fits) (hq : ∀ i ∈ q.instructions, i.Fits)
    (h : p.listedInstructions = q.listedInstructions) : p.instructions = q.instructions := by
  cases hempty : p.isEmpty with
  | true =>
    have hpnil : p.instructions = [] := List.isEmpty_iff.1 hempty
    have hqnil : q.instructions = [] := List.isEmpty_iff.1 (isEmpty_of_listed hempty h)
    rw [hpnil, hqnil]
  | false =>
    have hempty' : q.isEmpty = false := by
      cases hq' : q.isEmpty with
      | true => exact hempty ▸ (isEmpty_of_listed hq' h.symm).symm
      | false => rfl
    apply List.ext_getElem?
    intro place
    have hline := congrArg (·[place]?) h
    simp only [getElem?_listedInstructions hempty, getElem?_listedInstructions hempty'] at hline
    cases hi : p.instructions[place]? with
    | none =>
      rw [hi, Option.map_none, eq_comm, Option.map_eq_none_iff] at hline
      exact hline.symm
    | some i =>
      rw [hi, Option.map_some, eq_comm, Option.map_eq_some_iff] at hline
      obtain ⟨j, hj, hlisted⟩ := hline
      rw [hj, (hq j (List.mem_of_getElem? hj)).listed_inj (hp i (List.mem_of_getElem? hi)) hlisted]

theorem listing_inj (hp : ∀ i ∈ p.instructions, i.Fits) (hq : ∀ i ∈ q.instructions, i.Fits)
    (h : p.listing = q.listing) : p = q := by
  have hlines := lines_inj (fun l => newline_notMem_of_mem hp) (fun l => newline_notMem_of_mem hq) h
  rw [List.append_assoc, List.append_assoc] at hlines
  obtain ⟨hlisted, hrest⟩ := append_inj_of_test (fun l => isForemost_of_mem) (fun l => isForemost_of_mem)
    (fun l => not_isForemost_of_mem) (fun l => not_isForemost_of_mem) hlines
  have hinstructions := instructions_of_listed hp hq hlisted
  have hlabels : p.listedLabels = q.listedLabels := by
    unfold listedLabels labels
    rw [hinstructions]
  rw [hlabels] at hrest
  have hskipped : p.skipped = q.skipped :=
    List.map_injective_iff.2 SkippedLine.listed_injective (List.append_cancel_left hrest)
  exact eq_iff.2 ⟨hinstructions, hskipped⟩

end Program

/-- A listing is lossless: two texts are listed alike exactly if they hold the same instructions, field by
field, give the labels the same places and have the same skipped lines. -/
theorem listing_lossless (a b : String) :
    (Program.ofText a).listing = (Program.ofText b).listing ↔
      (Program.ofText a).instructions = (Program.ofText b).instructions ∧
      (Program.ofText a).labels = (Program.ofText b).labels ∧
      (Program.ofText a).skipped = (Program.ofText b).skipped := by
  constructor
  · intro h
    have heq := Program.listing_inj (fun i => Program.fits_of_mem_ofText) (fun i => Program.fits_of_mem_ofText) h
    rw [heq]
    exact ⟨rfl, rfl, rfl⟩
  · rintro ⟨hinstructions, -, hskipped⟩
    rw [Program.eq_iff.2 ⟨hinstructions, hskipped⟩]

end StackMachine
