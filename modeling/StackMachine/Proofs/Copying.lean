/-
Copying cells. `ALLOC` copies a frame onto the stack, cell by cell upwards, and `DALLOC` copies the top of
the stack back, cell by cell downwards. Both work in one memory, so the two places may overlap, and then a
cell may be read after it has been written.

`Memory.copyUp` and `Memory.copyDown` are the two loops without the stack (`Exec.pushCells_eq_ok`,
`Exec.popCells_eq_ok`). Whether a copy is a true one depends on which of the places is the lower one. A
frame above the stack is copied truly in both directions. A frame that begins on the stack is not, if it
also reaches above it: the part on the stack is repeated over the rest of the frame
(`Memory.get_copyUp_repeats`), and copying back finds everything in place (`Memory.copyDown_idle`).

The two main statements are about an `ALLOC` and a `DALLOC` right after it: what the frame then holds
(`alloc_dalloc_repeats_stacked_part`), and that nothing but the cells above the stack can have changed
(`alloc_dalloc_spares_rest`).
-/
import StackMachine.Device.Scripted
import StackMachine.Proofs.Access
import StackMachine.Proofs.Session

namespace StackMachine

/-! ## Copies in memory -/

namespace Memory

/-- Copies `n` cells from `source` on to `target` on, the lowest one first. -/
def copyUp (m : Memory) (source target : Int) : Nat → Memory
  | 0 => m
  | n + 1 => (m.set target (m.get source)).copyUp (source + 1) (target + 1) n

/-- Copies `n` cells from `source` on to `target` on, the highest one first. -/
def copyDown (m : Memory) (source target : Int) : Nat → Memory
  | 0 => m
  | n + 1 => (m.set (target + n) (m.get (source + n))).copyDown source target n

@[simp] theorem capacity_copyUp (m : Memory) (source target : Int) (n : Nat) :
    (m.copyUp source target n).capacity = m.capacity := by
  induction n generalizing m source target with
  | zero => rfl
  | succ n ih => rw [copyUp, ih, capacity_set]

@[simp] theorem capacity_copyDown (m : Memory) (source target : Int) (n : Nat) :
    (m.copyDown source target n).capacity = m.capacity := by
  induction n generalizing m with
  | zero => rfl
  | succ n ih => rw [copyDown, ih, capacity_set]

theorem set_get_self (m : Memory) (a : Int) : m.set a (m.get a) = m := by
  unfold set get
  split
  · rw [Array.getD_eq_getD_getElem?]
    congr 1
    apply Array.ext
    · simp
    · intro i hi _
      rw [Array.size_setIfInBounds] at hi
      rw [Array.getElem_setIfInBounds hi]
      split
      · rename_i he
        simp [he, hi]
      · rfl
  · rfl

variable {m : Memory} {source target : Int} {n : Nat}

/-! Cells that are not copied to. -/

theorem get_copyUp_outside {a : Int} (h : a < target ∨ target + n ≤ a) :
    (m.copyUp source target n).get a = m.get a := by
  induction n generalizing m source target with
  | zero => rfl
  | succ n ih =>
    rw [copyUp, ih (by omega)]
    exact get_set_of_ne m (by omega) _

theorem get_copyDown_outside {a : Int} (h : a < target ∨ target + n ≤ a) :
    (m.copyDown source target n).get a = m.get a := by
  induction n generalizing m with
  | zero => rfl
  | succ n ih =>
    rw [copyDown, ih (by omega)]
    exact get_set_of_ne m (by omega) _

/-! Cells that are copied to, where no cell is read after it was written. -/

theorem contains_next {a : Int} {v : Word} (h : ∀ i < n + 1, m.Contains (target + i)) :
    ∀ i < n, (m.set a v).Contains (target + 1 + i) := by
  intro i hi
  rw [contains_set, Int.add_assoc, Int.add_comm 1]
  exact h (i + 1) (by omega)

theorem get_copyUp_true (hroom : ∀ i < n, m.Contains (target + i))
    (h : target ≤ source ∨ source + n ≤ target) {i : Nat} (hi : i < n) :
    (m.copyUp source target n).get (target + i) = m.get (source + i) := by
  induction n generalizing m source target i with
  | zero => omega
  | succ n ih =>
    rw [copyUp]
    cases i with
    | zero =>
      rw [get_copyUp_outside (by omega)]
      have htarget : m.Contains target := by simpa using hroom 0 (by omega)
      simpa using get_set_self htarget (m.get source)
    | succ i =>
      rw [show target + ((i + 1 : Nat) : Int) = target + 1 + i by omega,
        show source + ((i + 1 : Nat) : Int) = source + 1 + i by omega]
      refine (ih (contains_next hroom) (by omega) (by omega)).trans ?_
      exact get_set_of_ne m (by omega) _

theorem get_copyDown_true (hroom : ∀ i < n, m.Contains (target + i))
    (h : source ≤ target ∨ target + n ≤ source) {i : Nat} (hi : i < n) :
    (m.copyDown source target n).get (target + i) = m.get (source + i) := by
  induction n generalizing m with
  | zero => omega
  | succ n ih =>
    rw [copyDown]
    by_cases hlast : i = n
    · subst hlast
      rw [get_copyDown_outside (by omega)]
      exact get_set_self (hroom i (by omega)) _
    · refine (ih (fun j hj => contains_set.2 (hroom j (by omega))) (by omega) (by omega)).trans ?_
      exact get_set_of_ne m (by omega) _

/-! Cells that are copied to from below, where what has been written is read again. -/

/-- In the end each cell equals the one it was copied from. -/
theorem get_copyUp_again (hroom : ∀ i < n, m.Contains (target + i)) (h : source < target) {i : Nat}
    (hi : i < n) :
    (m.copyUp source target n).get (target + i) = (m.copyUp source target n).get (source + i) := by
  induction n generalizing m source target i with
  | zero => omega
  | succ n ih =>
    rw [copyUp]
    cases i with
    | zero =>
      have htarget : m.Contains target := by simpa using hroom 0 (by omega)
      rw [get_copyUp_outside (by omega), get_copyUp_outside (by omega)]
      have hsource : (m.set target (m.get source)).get source = m.get source :=
        get_set_of_ne m (by omega) _
      simpa [hsource] using get_set_self htarget (m.get source)
    | succ i =>
      rw [show target + ((i + 1 : Nat) : Int) = target + 1 + i by omega,
        show source + ((i + 1 : Nat) : Int) = source + 1 + i by omega]
      exact ih (contains_next hroom) (by omega) (by omega)

/-- So the cells below the target are repeated, as often as there is room. -/
theorem get_copyUp_repeats (hroom : ∀ i < n, m.Contains (target + i)) (h : source < target) (j : Nat)
    (hj : source + j < target + n) :
    (m.copyUp source target n).get (source + j) = m.get (source + (j : Int) % (target - source)) := by
  induction j using Nat.strongRecOn with
  | ind j ih =>
    by_cases hlow : source + j < target
    · rw [get_copyUp_outside (.inl hlow), Int.emod_eq_of_lt (by omega) (by omega)]
    · -- one period lower is where this cell was copied from
      obtain ⟨i, hi⟩ : ∃ i : Nat, source + j = target + i := ⟨(source + j - target).toNat, by omega⟩
      obtain ⟨k, hk⟩ : ∃ k : Nat, (k : Int) = j - (target - source) :=
        ⟨(j - (target - source)).toNat, by omega⟩
      have hsame : (k : Int) % (target - source) = (j : Int) % (target - source) := by
        rw [hk, Int.sub_emod_right]
      rw [hi, get_copyUp_again hroom h (by omega), show source + (i : Int) = source + k by omega,
        ih k (by omega) (by omega), hsame]

/-- Copying what is there already changes nothing. -/
theorem copyDown_idle (h : ∀ i < n, m.get (target + i) = m.get (source + i)) :
    m.copyDown source target n = m := by
  induction n with
  | zero => rfl
  | succ n ih =>
    rw [copyDown, ← h n (by omega), set_get_self]
    exact ih fun i hi => h i (by omega)

/-! ## There and back -/

/-- The memory after cells have been copied up and copied back down. -/
def copyThereAndBack (m : Memory) (source target : Int) (n : Nat) : Memory :=
  (m.copyUp source target n).copyDown target source n

/-- From below, what was copied is not changed by copying it back. -/
theorem copyThereAndBack_below (hroom : ∀ i < n, m.Contains (target + i)) (h : source < target) :
    m.copyThereAndBack source target n = m.copyUp source target n :=
  copyDown_idle fun _ hi => (get_copyUp_again hroom h hi).symm

/-- From above, all cells get back what they held. -/
theorem get_copyThereAndBack_above (hsource : ∀ i < n, m.Contains (source + i))
    (hroom : ∀ i < n, m.Contains (target + i)) (h : target ≤ source) {i : Nat} (hi : i < n) :
    (m.copyThereAndBack source target n).get (source + i) = m.get (source + i) := by
  have hback : ∀ j < n, (m.copyUp source target n).Contains (source + j) := fun j hj => by
    have := hsource j hj
    rwa [Contains, capacity_copyUp]
  rw [copyThereAndBack, get_copyDown_true hback (.inl h) hi, get_copyUp_true hroom (.inl h) hi]

/-- Only cells in the place of the copy can be changed. -/
theorem get_copyThereAndBack_outside (hsource : ∀ i < n, m.Contains (source + i))
    (hroom : ∀ i < n, m.Contains (target + i)) {a : Int} (ha : a < target ∨ target + n ≤ a) :
    (m.copyThereAndBack source target n).get a = m.get a := by
  by_cases h : source < target
  · rw [copyThereAndBack_below hroom h]
    exact get_copyUp_outside ha
  · by_cases hframe : source ≤ a ∧ a < source + n
    · obtain ⟨i, rfl⟩ : ∃ i : Nat, a = source + i := ⟨(a - source).toNat, by omega⟩
      exact get_copyThereAndBack_above hsource hroom (by omega) (by omega)
    · rw [copyThereAndBack, get_copyDown_outside (by omega)]
      exact get_copyUp_outside ha

end Memory

/-! ## The loops -/

/-- Where all addresses are words, an address that is held at the largest word names no cell. -/
theorem Memory.contains_clampAdd {m : Memory} (hwords : (m.capacity : Int) ≤ Word.greatest) (a : Int)
    (i : Nat) : m.Contains (Word.clampAdd a i) ↔ m.Contains (a + i) := by
  unfold Contains Word.clampAdd
  have hgreatest : Word.greatest = 9223372036854775807 := rfl
  omega

theorem Memory.clampAdd_eq {m : Memory} (hwords : (m.capacity : Int) ≤ Word.greatest) {a : Int} {i : Nat}
    (h : m.Contains (a + i)) : Word.clampAdd a i = a + i := by
  obtain ⟨-, h⟩ := h
  unfold Word.clampAdd
  omega

namespace Exec

variable {base : Word} {u : Unit} {n i : Nat} {m m' : Machine}

/-- The machine after one cell more has been pushed. -/
def pushedCell (a : Int) (m : Machine) : Machine :=
  { m with memory := m.memory.set (m.sp + 1) (m.memory.get a), sp := m.sp + 1 }

/-- The machine after a value has been popped into a cell. -/
def poppedCell (a : Int) (m : Machine) : Machine :=
  { m with memory := m.memory.set a (m.memory.get m.sp), sp := m.sp - 1 }

theorem pushCells_succ_eq_ok (hwords : (m.memory.capacity : Int) ≤ Word.greatest) :
    pushCells base i (n + 1) m = .ok u m' ↔
      m.memory.Contains (base.toInt + i) ∧ m.memory.Contains (m.sp + 1) ∧
        pushCells base (i + 1) n (pushedCell (base.toInt + i) m) = .ok u m' := by
  simp only [pushCells, bind_eq_ok, load_eq_ok, push_eq_ok]
  constructor
  · rintro ⟨v, _, ⟨hread, rfl, rfl⟩, _, _, ⟨hpush, rfl⟩, h⟩
    rw [Memory.contains_clampAdd hwords] at hread
    rw [Memory.clampAdd_eq hwords hread] at h
    exact ⟨hread, hpush, h⟩
  · rintro ⟨hread, hpush, h⟩
    refine ⟨_, _, ⟨(Memory.contains_clampAdd hwords _ _).2 hread, rfl, rfl⟩, (), _, ⟨hpush, rfl⟩, ?_⟩
    rw [Memory.clampAdd_eq hwords hread]
    exact h

theorem popCells_succ_eq_ok (hwords : (m.memory.capacity : Int) ≤ Word.greatest) :
    popCells base (n + 1) m = .ok u m' ↔
      m.memory.Contains (base.toInt + n) ∧ m.memory.Contains m.sp ∧
        popCells base n (poppedCell (base.toInt + n) m) = .ok u m' := by
  simp only [popCells, bind_eq_ok, pop_eq_ok, store_eq_ok]
  constructor
  · rintro ⟨v, _, ⟨hpop, rfl, rfl⟩, _, _, ⟨hwrite, rfl⟩, h⟩
    rw [Memory.contains_clampAdd hwords] at hwrite
    rw [Memory.clampAdd_eq hwords hwrite] at h
    exact ⟨hwrite, hpop, h⟩
  · rintro ⟨hwrite, hpop, h⟩
    refine ⟨_, _, ⟨hpop, rfl, rfl⟩, (), _, ⟨(Memory.contains_clampAdd hwords _ _).2 hwrite, rfl⟩, ?_⟩
    rw [Memory.clampAdd_eq hwords hwrite]
    exact h

/-- Pushing cells succeeds where there are the cells and room for them, and copies them upwards. -/
theorem pushCells_eq_ok (hwords : (m.memory.capacity : Int) ≤ Word.greatest) :
    pushCells base i n m = .ok u m' ↔
      (∀ j < n, m.memory.Contains (base.toInt + i + j)) ∧ (∀ j < n, m.memory.Contains (m.sp + 1 + j)) ∧
        m' = { m with memory := m.memory.copyUp (base.toInt + i) (m.sp + 1) n, sp := m.sp + n } := by
  induction n generalizing i m with
  | zero =>
    rw [pushCells, pure_eq_ok]
    constructor
    · rintro ⟨-, rfl⟩
      simp [Memory.copyUp]
    · rintro ⟨-, -, rfl⟩
      simp [Memory.copyUp]
  | succ n ih =>
    have hrest : ((pushedCell (base.toInt + i) m).memory.capacity : Int) ≤ Word.greatest := by
      rwa [pushedCell, Memory.capacity_set]
    have hfrom : base.toInt + ((i + 1 : Nat) : Int) = base.toInt + i + 1 := by omega
    have hshift : ∀ (a : Int) (j : Nat), a + ((j + 1 : Nat) : Int) = a + 1 + j := fun a j => by omega
    rw [pushCells_succ_eq_ok hwords, ih hrest, Nat.forall_lt_succ_left, Nat.forall_lt_succ_left, hfrom]
    simp only [pushedCell, Memory.contains_set, Memory.copyUp, hshift, Int.natCast_zero, Int.add_zero]
    tauto

/-- Popping into cells succeeds where there are the cells and as many values, and copies them downwards. -/
theorem popCells_eq_ok (hwords : (m.memory.capacity : Int) ≤ Word.greatest) :
    popCells base n m = .ok u m' ↔
      (∀ j < n, m.memory.Contains (base.toInt + j)) ∧ (∀ j < n, m.memory.Contains (m.sp - j)) ∧
        m' = { m with memory := m.memory.copyDown (m.sp - n + 1) base.toInt n, sp := m.sp - n } := by
  induction n generalizing m with
  | zero =>
    rw [popCells, pure_eq_ok]
    constructor
    · rintro ⟨-, rfl⟩
      simp [Memory.copyDown]
    · rintro ⟨-, -, rfl⟩
      simp [Memory.copyDown]
  | succ n ih =>
    have hrest : ((poppedCell (base.toInt + n) m).memory.capacity : Int) ≤ Word.greatest := by
      rwa [poppedCell, Memory.capacity_set]
    have hshift : ∀ j : Nat, m.sp - ((j + 1 : Nat) : Int) = m.sp - 1 - j := fun j => by omega
    have htop : m.sp - 1 - n + 1 + (n : Int) = m.sp := by omega
    rw [popCells_succ_eq_ok hwords, ih hrest, Nat.forall_lt_succ_right, Nat.forall_lt_succ_left]
    simp only [poppedCell, Memory.contains_set, Memory.copyDown, hshift, htop, Int.natCast_zero, Int.sub_zero]
    tauto

end Exec

/-! ## The operations -/

namespace Operation

open Exec

variable {labels : Labels} {base count : Word} {m m' : Machine} {d : Demand}

theorem execute_alloc_eq_ok (hwords : (m.memory.capacity : Int) ≤ Word.greatest) :
    (alloc base count).execute labels m = .ok d m' ↔
      d = .nothing ∧ (∀ j < count.toInt.toNat, m.memory.Contains (base.toInt + j)) ∧
        (∀ j < count.toInt.toNat, m.memory.Contains (m.sp + 1 + j)) ∧
        m' = { m with
          memory := m.memory.copyUp base.toInt (m.sp + 1) count.toInt.toNat
          sp := m.sp + count.toInt.toNat } := by
  simp only [execute, bind_eq_ok, pure_eq_ok, pushCells_eq_ok hwords, Int.natCast_zero, Int.add_zero]
  constructor
  · rintro ⟨_, _, ⟨hcells, hroom, rfl⟩, rfl, rfl⟩
    exact ⟨rfl, hcells, hroom, rfl⟩
  · rintro ⟨rfl, hcells, hroom, rfl⟩
    exact ⟨(), _, ⟨hcells, hroom, rfl⟩, rfl, rfl⟩

theorem execute_dalloc_eq_ok (hwords : (m.memory.capacity : Int) ≤ Word.greatest) :
    (dalloc base count).execute labels m = .ok d m' ↔
      d = .nothing ∧ (∀ j < count.toInt.toNat, m.memory.Contains (base.toInt + j)) ∧
        (∀ j < count.toInt.toNat, m.memory.Contains (m.sp - j)) ∧
        m' = { m with
          memory := m.memory.copyDown (m.sp - count.toInt.toNat + 1) base.toInt count.toInt.toNat
          sp := m.sp - count.toInt.toNat } := by
  simp only [execute, bind_eq_ok, pure_eq_ok, popCells_eq_ok hwords]
  constructor
  · rintro ⟨_, _, ⟨hcells, hvalues, rfl⟩, rfl, rfl⟩
    exact ⟨rfl, hcells, hvalues, rfl⟩
  · rintro ⟨rfl, hcells, hvalues, rfl⟩
    exact ⟨(), _, ⟨hcells, hvalues, rfl⟩, rfl, rfl⟩

end Operation

namespace Machine

/-- There are `count` cells from `base` on, and room for as many more values on the stack. Every cell has a
word for its address. -/
structure RoomFor (m : Machine) (base count : Word) : Prop where
  words : (m.memory.capacity : Int) ≤ Word.greatest
  stack : -1 ≤ m.sp
  base_nonneg : 0 ≤ base.toInt
  count_nonneg : 0 ≤ count.toInt
  frame : base.toInt + count.toInt ≤ m.memory.capacity
  room : m.sp + count.toInt < m.memory.capacity

/-- The frame begins on the stack and reaches above it. -/
def Straddles (m : Machine) (base count : Word) : Prop :=
  base.toInt ≤ m.sp ∧ m.sp + 1 < base.toInt + count.toInt

/-- `ALLOC` succeeds and so does `DALLOC` right after it, which leaves a machine of which `P` holds. Between
the two a run may advance the counter, count the instruction and record it. -/
def SavesAndRestores (labels : Labels) (base count : Word) (m : Machine) (P : Machine → Prop) : Prop :=
  ∃ saved, (Operation.alloc base count).execute labels m = .ok .nothing saved ∧
    ∀ pc steps trace, ∃ restored,
      (Operation.dalloc base count).execute labels { saved with pc := pc, steps := steps, trace := trace } =
        .ok .nothing restored ∧ P restored

variable {labels : Labels} {base count : Word} {m : Machine}

theorem SavesAndRestores.mono {P Q : Machine → Prop} (h : m.SavesAndRestores labels base count P)
    (hPQ : ∀ r, P r → Q r) : m.SavesAndRestores labels base count Q := by
  obtain ⟨saved, hsaved, hrest⟩ := h
  refine ⟨saved, hsaved, fun pc steps trace => ?_⟩
  obtain ⟨restored, hrestored, hP⟩ := hrest pc steps trace
  exact ⟨restored, hrestored, hPQ _ hP⟩

theorem RoomFor.contains_frame (h : m.RoomFor base count) :
    ∀ j < count.toInt.toNat, m.memory.Contains (base.toInt + j) := by
  intro j hj
  have hbase := h.base_nonneg
  have hframe := h.frame
  exact ⟨by omega, by omega⟩

theorem RoomFor.contains_room (h : m.RoomFor base count) :
    ∀ j < count.toInt.toNat, m.memory.Contains (m.sp + 1 + j) := by
  intro j hj
  have hstack := h.stack
  have hroom := h.room
  exact ⟨by omega, by omega⟩

/-- Where there is room, the frame is copied there and back, and the stack is as high as before. -/
theorem RoomFor.savesAndRestores (labels : Labels) (h : m.RoomFor base count) :
    m.SavesAndRestores labels base count fun r =>
      r.sp = m.sp ∧ r.memory = m.memory.copyThereAndBack base.toInt (m.sp + 1) count.toInt.toNat := by
  have hstack := h.stack
  have hroom := h.room
  refine ⟨_, (Operation.execute_alloc_eq_ok h.words).2 ⟨rfl, h.contains_frame, h.contains_room, rfl⟩,
    fun pc steps trace => ⟨_, (Operation.execute_dalloc_eq_ok ?_).2 ⟨rfl, ?_, ?_, rfl⟩, ?_, ?_⟩⟩
  · simpa using h.words
  · intro j hj
    simpa [Memory.Contains] using h.contains_frame j hj
  · intro j hj
    simp only [Memory.Contains, Memory.capacity_copyUp]
    omega
  · simp
  · simp only [Memory.copyThereAndBack]
    congr 1
    omega

end Machine

/-! ## Saving and restoring at once -/

/-- What a frame holds after it was saved and restored at once. Where there is room, both operations succeed
and the stack is as high as before. A frame that does not straddle the top of the stack holds what it held.
In one that does, the part on the stack holds what it held and is repeated over the part above. -/
theorem alloc_dalloc_repeats_stacked_part (labels : Labels) {m : Machine} {base count : Word}
    (h : m.RoomFor base count) :
    m.SavesAndRestores labels base count fun r =>
      r.sp = m.sp ∧
      (¬m.Straddles base count →
        ∀ a, base.toInt ≤ a → a < base.toInt + count.toInt → r.memory.get a = m.memory.get a) ∧
      (m.Straddles base count → ∀ j, 0 ≤ j → j < count.toInt →
        r.memory.get (base.toInt + j) = m.memory.get (base.toInt + j % (m.sp + 1 - base.toInt))) := by
  refine (h.savesAndRestores labels).mono ?_
  rintro r ⟨hsp, hmemory⟩
  rw [hmemory]
  refine ⟨hsp, fun hclear a hlow hhigh => ?_, fun hstraddles j hlow hhigh => ?_⟩
  · unfold Machine.Straddles at hclear
    by_cases hbelow : base.toInt ≤ m.sp
    · -- the whole frame is on the stack, so the copy lies outside it
      exact Memory.get_copyThereAndBack_outside h.contains_frame h.contains_room (by omega)
    · obtain ⟨i, rfl⟩ : ∃ i : Nat, a = base.toInt + i := ⟨(a - base.toInt).toNat, by omega⟩
      exact Memory.get_copyThereAndBack_above h.contains_frame h.contains_room (by omega) (by omega)
  · obtain ⟨hbelow, -⟩ := hstraddles
    obtain ⟨i, rfl⟩ : ∃ i : Nat, j = i := ⟨j.toNat, by omega⟩
    rw [Memory.copyThereAndBack_below h.contains_room (by omega)]
    exact Memory.get_copyUp_repeats h.contains_room (by omega) i (by omega)

/-- Leaves 7 on the stack and 8 in the cell above, and saves and restores the two cells. -/
def straddling : Program where
  instructions := [⟨"", "LDC", "7", ""⟩, ⟨"", "LDC", "8", ""⟩, ⟨"", "PRN", "", ""⟩, ⟨"", "ALLOC", "0", "2"⟩,
    ⟨"", "DALLOC", "0", "2"⟩, ⟨"", "LDV", "1", ""⟩, ⟨"", "PRN", "", ""⟩]

theorem alloc_dalloc_repeats_stacked_part_straddling :
    let s := ((Session.create { memory := 3 } straddling ({} : Scripted)).run 4).2
    s.machine.RoomFor 0 2 ∧ s.machine.Straddles 0 2 ∧
      s.machine.SavesAndRestores s.image.labels 0 2 fun r =>
        r.sp = 0 ∧ r.memory.get 0 = 7 ∧ r.memory.get 1 = 7 := by
  intro s
  have hroom : s.machine.RoomFor 0 2 :=
    ⟨by decide +kernel, by decide +kernel, by decide, by decide, by decide +kernel, by decide +kernel⟩
  have hstraddles : s.machine.Straddles 0 2 := ⟨by decide +kernel, by decide +kernel⟩
  refine ⟨hroom, hstraddles, (alloc_dalloc_repeats_stacked_part s.image.labels hroom).mono ?_⟩
  rintro r ⟨hsp, -, hrepeats⟩
  refine ⟨hsp.trans (by decide +kernel), ?_, ?_⟩
  · exact (hrepeats hstraddles 0 (by decide) (by decide)).trans (by decide +kernel)
  · exact (hrepeats hstraddles 1 (by decide) (by decide)).trans (by decide +kernel)

/-- There is room for the frame, and yet its second cell is not restored: it held 8. -/
theorem straddling_frame_not_restored :
    let first := Session.create { memory := 3 } straddling ({} : Scripted)
    let s := first.tick.2.tick.2.tick.2.tick.2
    s.Reachable { memory := 3 } straddling ∧ s.machine.RoomFor 0 2 ∧
      ¬s.machine.SavesAndRestores s.image.labels 0 2 (fun r =>
        r.sp = s.machine.sp ∧ ∀ a, 0 ≤ a → a < 2 → r.memory.get a = s.machine.memory.get a) ∧
      (first.run 9).1 = .ended ⟨.endOfProgram, #[8, 7], 7, 7, 0, #[]⟩ := by
  intro first s
  have hroom : s.machine.RoomFor 0 2 :=
    ⟨by decide +kernel, by decide +kernel, by decide, by decide, by decide +kernel, by decide +kernel⟩
  refine ⟨.tick (.tick (.tick (.tick (.create _)))), hroom, ?_, by decide +kernel⟩
  rintro ⟨saved, hsaved, hrest⟩
  obtain ⟨restored, hrestored, -, hframe⟩ := hrest 0 0 #[]
  obtain ⟨-, -, -, rfl⟩ := (Operation.execute_alloc_eq_ok hroom.words).1 hsaved
  obtain ⟨-, -, -, rfl⟩ := (Operation.execute_dalloc_eq_ok (by simpa using hroom.words)).1 hrestored
  have hcell := hframe 1 (by decide) (by decide)
  revert hcell
  decide +kernel

/-- Saving and restoring at once changes nothing but the cells above the stack that the frame was saved to. If
the frame begins above the stack, its own cells are not changed either, even those that it was saved to. -/
theorem alloc_dalloc_spares_rest (labels : Labels) {m : Machine} {base count : Word}
    (h : m.RoomFor base count) :
    m.SavesAndRestores labels base count fun r =>
      r.memory.capacity = m.memory.capacity ∧
      (∀ a, ¬(m.sp + 1 ≤ a ∧ a ≤ m.sp + count.toInt) → r.memory.get a = m.memory.get a) ∧
      (m.sp < base.toInt →
        ∀ a, base.toInt ≤ a → a < base.toInt + count.toInt → r.memory.get a = m.memory.get a) := by
  refine (h.savesAndRestores labels).mono ?_
  rintro r ⟨-, hmemory⟩
  rw [hmemory]
  have hcount := h.count_nonneg
  refine ⟨by simp [Memory.copyThereAndBack], fun a ha => ?_, fun habove a hlow hhigh => ?_⟩
  · exact Memory.get_copyThereAndBack_outside h.contains_frame h.contains_room (by omega)
  · obtain ⟨i, rfl⟩ : ∃ i : Nat, a = base.toInt + i := ⟨(a - base.toInt).toNat, by omega⟩
    exact Memory.get_copyThereAndBack_above h.contains_frame h.contains_room (by omega) (by omega)

/-- The frame is saved to the cells 1 to 3, of which 2 and 3 are its own. -/
theorem alloc_dalloc_spares_rest_overlapping :
    let m : Machine := { memory := ⟨#[10, 11, 12, 13, 14, 15]⟩, sp := 0 }
    m.RoomFor 2 3 ∧ m.SavesAndRestores .empty 2 3 fun r =>
      r.memory.get 0 = 10 ∧ r.memory.get 2 = 12 ∧ r.memory.get 3 = 13 ∧ r.memory.get 4 = 14 ∧
        r.memory.get 5 = 15 := by
  intro m
  have hroom : m.RoomFor 2 3 := ⟨by decide, by decide, by decide, by decide, by decide, by decide⟩
  refine ⟨hroom, (alloc_dalloc_spares_rest .empty hroom).mono ?_⟩
  rintro r ⟨-, hrest, hframe⟩
  have habove : m.sp < (2 : Word).toInt := by decide
  exact ⟨hrest 0 (by decide), hframe habove 2 (by decide) (by decide),
    hframe habove 3 (by decide) (by decide), hframe habove 4 (by decide) (by decide), hrest 5 (by decide)⟩

end StackMachine
