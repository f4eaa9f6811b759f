/-
Memory: a fixed number of cells, all zero at first. Addresses are integers of any size and sign;
those that name no cell are refused.

`get` and `set` are the cells as a function of the address, with 0 and no effect where there is no
cell; `read` and `write` are the same with the address checked.
-/
import StackMachine.Fault

namespace StackMachine

structure Memory where
  cells : Array Word
  deriving DecidableEq

namespace Memory

def zeros (capacity : Nat) : Memory := ⟨Array.replicate capacity 0⟩

def capacity (m : Memory) : Nat := m.cells.size

/-- The addresses that name a cell. -/
def Contains (m : Memory) (address : Int) : Prop := 0 ≤ address ∧ address < m.capacity

instance (m : Memory) (address : Int) : Decidable (m.Contains address) :=
  inferInstanceAs (Decidable (_ ∧ _))

def get (m : Memory) (address : Int) : Word :=
  if 0 ≤ address then m.cells.getD address.toNat 0 else 0

def set (m : Memory) (address : Int) (v : Word) : Memory :=
  if 0 ≤ address then ⟨m.cells.setIfInBounds address.toNat v⟩ else m

/-- The fault of using an address that names no cell. -/
def outside (m : Memory) (address : Int) : Fault := .outOfBounds address m.capacity

def read (m : Memory) (address : Int) : Except Fault Word :=
  if m.Contains address then .ok (m.get address) else .error (m.outside address)

def write (m : Memory) (address : Int) (v : Word) : Except Fault Memory :=
  if m.Contains address then .ok (m.set address v) else .error (m.outside address)

/-- The same cells, all zero. -/
def clear (m : Memory) : Memory := zeros m.capacity

/-! ## Cells after each operation -/

@[simp] theorem capacity_zeros (n : Nat) : (zeros n).capacity = n := by simp [zeros, capacity]

@[simp] theorem capacity_set (m : Memory) (a : Int) (v : Word) :
    (m.set a v).capacity = m.capacity := by
  unfold set capacity
  split <;> simp

@[simp] theorem capacity_clear (m : Memory) : m.clear.capacity = m.capacity := by simp [clear]

@[simp] theorem contains_set {m : Memory} {a b : Int} {v : Word} :
    (m.set a v).Contains b ↔ m.Contains b := by
  simp [Contains]

@[simp] theorem get_zeros (n : Nat) (a : Int) : (zeros n).get a = 0 := by
  unfold get zeros
  split
  · simp [Array.getD_eq_getD_getElem?, Array.getElem?_replicate]
    split <;> rfl
  · rfl

theorem get_set_self {m : Memory} {a : Int} (h : m.Contains a) (v : Word) :
    (m.set a v).get a = v := by
  obtain ⟨h0, h1⟩ := h
  have : a.toNat < m.cells.size := by unfold capacity at h1; omega
  simp [get, set, h0, Array.getD_eq_getD_getElem?, this]

theorem get_set_of_ne (m : Memory) {a b : Int} (h : a ≠ b) (v : Word) :
    (m.set a v).get b = m.get b := by
  unfold get set
  split
  · rename_i ha
    split
    · rename_i hb
      have : a.toNat ≠ b.toNat := by omega
      simp [Array.getD_eq_getD_getElem?, this]
    · rfl
  · rfl

end Memory

end StackMachine
