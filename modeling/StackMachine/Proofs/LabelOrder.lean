/-
The order in which labels are listed. A table says of each name which place it stands for, and nothing else:
what is declared first counts (`Labels.get?_ofDeclarations`), and how the entries are kept does not. The
listing order tells any two entries of a table apart, also two names for one place, so there is one list of
the entries in this order, whatever order they are taken from the table in (`Labels.Enumerates.mergeSort_eq`).

In the table of a program no two names stand for one place, and the places alone are in order
(`Program.places_increase`). `label_order_canonical` is all of this together.
-/
import StackMachine.Proofs.Program
import Mathlib.Data.List.Nodup

namespace StackMachine

/-! ## Code points -/

namespace Text

theorem char_lt_iff {c d : Char} : c < d ↔ c.toNat < d.toNat := by
  rw [Char.lt_def, UInt32.lt_iff_toNat_lt]
  rfl

def codePoints (s : String) : List Nat := s.toList.map Char.toNat

theorem map_toNat_lt_iff {cs ds : List Char} : cs.map Char.toNat < ds.map Char.toNat ↔ cs < ds := by
  induction cs generalizing ds with
  | nil =>
    cases ds with
    | nil => simp
    | cons d ds => simp
  | cons c cs ih =>
    cases ds with
    | nil => simp
    | cons d ds =>
      rw [List.map_cons, List.map_cons, List.cons_lt_cons_iff, List.cons_lt_cons_iff, ih,
        char_lt_iff, Char.toNat_inj]

/-- Texts are in the order of their code points. -/
theorem codePoints_lt_iff {a b : String} : codePoints a < codePoints b ↔ a < b :=
  map_toNat_lt_iff

end Text

namespace Labels

/-! ## Declarations -/

/-- The table that declarations make, one after the other. -/
def ofDeclarations (ds : List (String × Nat)) : Labels := ds.foldl (fun t d => t.declare d.1 d.2) empty

/-- The first declaration of the name is for this place. -/
def DeclaredFirst (ds : List (String × Nat)) (name : String) (place : Nat) : Prop :=
  ∃ earlier later, ds = earlier ++ (name, place) :: later ∧ ∀ d ∈ earlier, d.1 ≠ name

/-- What is known stays, and of what is declared the first counts. -/
theorem get?_foldl (ds : List (String × Nat)) (t : Labels) (name : String) :
    (ds.foldl (fun t d => t.declare d.1 d.2) t).get? name = (t.get? name).or (ds.lookup name) := by
  induction ds generalizing t with
  | nil => simp
  | cons d ds ih =>
    rw [List.foldl_cons, ih, get?_declare, List.lookup_cons]
    by_cases h : d.1 = name
    · subst h
      cases t.get? d.1 <;> simp
    · rw [if_neg h, beq_false_of_ne (Ne.symm h)]

theorem get?_ofDeclarations (ds : List (String × Nat)) (name : String) :
    (ofDeclarations ds).get? name = ds.lookup name := by
  rw [ofDeclarations, get?_foldl, get?_empty, Option.none_or]

theorem get?_ofDeclarations_eq_some {ds : List (String × Nat)} {name : String} {place : Nat} :
    (ofDeclarations ds).get? name = some place ↔ DeclaredFirst ds name place := by
  rw [get?_ofDeclarations, List.lookup_eq_some_iff]
  constructor
  · rintro ⟨earlier, later, hds, hne⟩
    exact ⟨earlier, later, hds, fun d hd h => by simpa [h] using hne d hd⟩
  · rintro ⟨earlier, later, hds, hne⟩
    exact ⟨earlier, later, hds, fun d hd => by simpa using (hne d hd).symm⟩

/-! ## The listing order -/

/-- Before the other in a listing: by place, and for one place by the code points of the name. -/
def Precedes (a b : String × Nat) : Prop :=
  a.2 < b.2 ∨ a.2 = b.2 ∧ Text.codePoints a.1 < Text.codePoints b.1

theorem before_iff {a b : String × Nat} : before a b = true ↔ a.2 < b.2 ∨ a.2 = b.2 ∧ a.1 ≤ b.1 := by
  simp [before]

theorem before_trans (a b c : String × Nat) (hab : before a b = true) (hbc : before b c = true) :
    before a c = true := by
  rw [before_iff] at *
  rcases hab with hab | ⟨hab, hab'⟩
  · exact .inl (by omega)
  · rcases hbc with hbc | ⟨hbc, hbc'⟩
    · exact .inl (by omega)
    · exact .inr ⟨hab.trans hbc, String.le_trans hab' hbc'⟩

theorem before_total (a b : String × Nat) : (before a b || before b a) = true := by
  rw [Bool.or_eq_true, before_iff, before_iff]
  rcases Nat.lt_trichotomy a.2 b.2 with h | h | h
  · exact .inl (.inl h)
  · rcases String.le_total a.1 b.1 with hle | hle
    · exact .inl (.inr ⟨h, hle⟩)
    · exact .inr (.inr ⟨h.symm, hle⟩)
  · exact .inr (.inl h)

theorem before_antisymm {a b : String × Nat} (hab : before a b = true) (hba : before b a = true) : a = b := by
  rw [before_iff] at hab hba
  rcases hab with hab | ⟨hab, hab'⟩
  · omega
  · rcases hba with hba | ⟨-, hba'⟩
    · omega
    · exact Prod.ext (String.le_antisymm hab' hba') hab

theorem precedes_of_before {a b : String × Nat} (h : before a b = true) (hne : a ≠ b) : Precedes a b := by
  rcases before_iff.1 h with hlt | ⟨heq, hle⟩
  · exact .inl hlt
  · refine .inr ⟨heq, Text.codePoints_lt_iff.2 ?_⟩
    rw [← String.not_le]
    exact fun hle' => hne (Prod.ext (String.le_antisymm hle hle') heq)

theorem pairwise_before (entries : List (String × Nat)) :
    (entries.mergeSort before).Pairwise fun a b => before a b = true :=
  List.pairwise_mergeSort before_trans before_total entries

/-- There is only one list of these entries in the listing order. -/
theorem mergeSort_eq_of_perm {entries listed : List (String × Nat)} (h : entries.Perm listed)
    (hlisted : listed.Pairwise fun a b => before a b = true) : entries.mergeSort before = listed :=
  ((List.mergeSort_perm entries before).trans h).eq_of_pairwise (fun _ _ _ _ => before_antisymm)
    (pairwise_before entries) hlisted

/-! ## What is listed -/

variable {t t' : Labels}

/-- The entries of the table, each once, in some order. -/
structure Enumerates (t : Labels) (entries : List (String × Nat)) : Prop where
  nodup : entries.Nodup
  mem_iff : ∀ name place, (name, place) ∈ entries ↔ t.get? name = some place

theorem nodup_names (t : Labels) : (t.places.toList.map Prod.fst).Nodup := by
  rw [Std.ExtTreeMap.map_fst_toList_eq_keys]
  exact Std.ExtTreeMap.nodup_keys

theorem enumerates_toList (t : Labels) : t.Enumerates t.places.toList :=
  ⟨(nodup_names t).of_map _, fun _ _ => Std.ExtTreeMap.mem_toList_iff_getElem?_eq_some⟩

theorem Enumerates.perm {entries entries' : List (String × Nat)} (h : t.Enumerates entries)
    (h' : t'.Enumerates entries') (heq : ∀ name, t.get? name = t'.get? name) : entries.Perm entries' := by
  rw [List.perm_ext_iff_of_nodup h.nodup h'.nodup]
  rintro ⟨name, place⟩
  rw [h.mem_iff, h'.mem_iff, heq]

/-- The order that the entries are taken in does not matter. -/
theorem Enumerates.mergeSort_eq {entries : List (String × Nat)} (h : t.Enumerates entries)
    (heq : ∀ name, t.get? name = t'.get? name) : entries.mergeSort before = t'.sorted := by
  have hperm : entries.Perm t'.sorted :=
    (h.perm (enumerates_toList t') heq).trans (List.mergeSort_perm t'.places.toList before).symm
  exact mergeSort_eq_of_perm hperm (pairwise_before t'.places.toList)

theorem mem_sorted {name : String} {place : Nat} : (name, place) ∈ t.sorted ↔ t.get? name = some place := by
  rw [sorted, List.mem_mergeSort]
  exact (enumerates_toList t).mem_iff name place

theorem nodup_names_sorted (t : Labels) : (t.sorted.map Prod.fst).Nodup :=
  ((List.mergeSort_perm t.places.toList before).map Prod.fst).nodup_iff.2 (nodup_names t)

theorem pairwise_sorted (t : Labels) : t.sorted.Pairwise Precedes := by
  have hne : t.sorted.Pairwise (· ≠ ·) := (nodup_names_sorted t).of_map _
  exact ((pairwise_before t.places.toList).and hne).imp fun h => precedes_of_before h.1 h.2

end Labels

/-! ## Programs -/

namespace Program

/-- An instruction has one label only. -/
theorem name_unique {p : Program} {name name' : String} {place : Nat}
    (h : p.labels.get? name = some place) (h' : p.labels.get? name' = some place) : name = name' := by
  rw [labels_get?, List.findIdx?_eq_some_iff_getElem] at h h'
  obtain ⟨hlt, hname, -⟩ := h
  obtain ⟨_, hname', -⟩ := h'
  rw [← (Instruction.declares_iff.1 hname).2, ← (Instruction.declares_iff.1 hname').2]

theorem places_increase (p : Program) : (p.labels.sorted.map Prod.snd).Pairwise (· < ·) := by
  rw [List.pairwise_map]
  have hnames : p.labels.sorted.Pairwise fun a b => a.1 ≠ b.1 :=
    List.pairwise_map.1 (Labels.nodup_names_sorted p.labels)
  refine ((Labels.pairwise_sorted p.labels).and hnames).imp_of_mem ?_
  rintro ⟨name, place⟩ ⟨name', place'⟩ hmem hmem' ⟨hlt | ⟨heq, -⟩, hne⟩
  · exact hlt
  · -- two names for one place
    cases heq
    exact absurd (name_unique (Labels.mem_sorted.1 hmem) (Labels.mem_sorted.1 hmem')) hne

end Program

open Labels in
/-- The list of labels is canonical. After any declarations it holds each name that was declared, once, with
the place of its first declaration, and is strictly increasing in the listing order. It depends on which name
stands for which place only: declarations that agree on this give the same list, and so do the entries of the
table in whatever order they are taken. In a program the places themselves are strictly increasing. -/
theorem label_order_canonical :
    (∀ ds : List (String × Nat),
      (∀ name place, (name, place) ∈ (ofDeclarations ds).sorted ↔ DeclaredFirst ds name place) ∧
        ((ofDeclarations ds).sorted.map Prod.fst).Nodup ∧
        (ofDeclarations ds).sorted.Pairwise Precedes) ∧
    (∀ ds ds' : List (String × Nat),
      (∀ name, (ofDeclarations ds).get? name = (ofDeclarations ds').get? name) →
        (ofDeclarations ds).sorted = (ofDeclarations ds').sorted ∧
        ∀ entries, (ofDeclarations ds).Enumerates entries →
          entries.mergeSort before = (ofDeclarations ds').sorted) ∧
    ∀ p : Program, (p.labels.sorted.map Prod.snd).Pairwise (· < ·) := by
  refine ⟨fun ds => ⟨fun name place => ?_, nodup_names_sorted _, pairwise_sorted _⟩,
    fun ds ds' heq => ⟨?_, fun entries h => h.mergeSort_eq heq⟩, Program.places_increase⟩
  · rw [mem_sorted, get?_ofDeclarations_eq_some]
  · exact (enumerates_toList _).mergeSort_eq heq

open Labels in
/-- A name declared twice, and two names for one place. -/
theorem label_order_canonical_shared :
    (∀ name, (ofDeclarations [("L2", 7), ("é", 3), ("L1", 3), ("L2", 1)]).get? name =
      (ofDeclarations [("L1", 3), ("é", 3), ("L2", 7)]).get? name) ∧
    (ofDeclarations [("L2", 7), ("é", 3), ("L1", 3), ("L2", 1)]).Enumerates [("é", 3), ("L2", 7), ("L1", 3)] ∧
    (ofDeclarations [("L1", 3), ("é", 3), ("L2", 7)]).sorted = [("L1", 3), ("é", 3), ("L2", 7)] := by
  have hagree : ∀ name, (ofDeclarations [("L2", 7), ("é", 3), ("L1", 3), ("L2", 1)]).get? name =
      (ofDeclarations [("L1", 3), ("é", 3), ("L2", 7)]).get? name := by
    intro name
    simp only [get?_ofDeclarations, List.lookup_cons, List.lookup_nil]
    grind
  have hentries : (ofDeclarations [("L2", 7), ("é", 3), ("L1", 3), ("L2", 1)]).Enumerates
      [("é", 3), ("L2", 7), ("L1", 3)] := by
    refine ⟨by decide, fun name place => ?_⟩
    rw [hagree, get?_ofDeclarations]
    simp only [List.lookup_cons, List.lookup_nil]
    grind
  have hsorted : [("é", 3), ("L2", 7), ("L1", 3)].mergeSort before = [("L1", 3), ("é", 3), ("L2", 7)] :=
    mergeSort_eq_of_perm (by decide) (by decide)
  exact ⟨hagree, hentries, ((label_order_canonical.2.1 _ _ hagree).2 _ hentries).symm.trans hsorted⟩

end StackMachine
