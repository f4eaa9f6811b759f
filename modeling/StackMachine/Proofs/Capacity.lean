/-
More memory. A run that fits into its memory is the same run in a larger one (`more_memory_same_run`): the
cells that are added stay zero, because every cell that an instruction uses is one that there was before.

A run that does not fit ends with the fault of an address without a cell. Until then it is the run in the
larger memory, which may go on.
-/
import StackMachine.Device.Scripted
import StackMachine.Proofs.Guise

namespace StackMachine

/-! ## Memories with cells added -/

namespace Memory

/-- The memory with `n` more cells behind the last one, all zero. -/
def extend (m : Memory) (n : Nat) : Memory := ⟨m.cells ++ Array.replicate n 0⟩

variable {m : Memory} {a : Int}

theorem capacity_extend (m : Memory) (n : Nat) : (m.extend n).capacity = m.capacity + n := by
  simp [extend, capacity]

theorem extend_zeros (capacity n : Nat) : (zeros capacity).extend n = zeros (capacity + n) := by
  unfold extend zeros
  rw [Array.replicate_append_replicate]

theorem Contains.extend (h : m.Contains a) (n : Nat) : (m.extend n).Contains a := by
  unfold Contains at h ⊢
  rw [capacity_extend]
  omega

theorem get_extend (h : m.Contains a) (n : Nat) : (m.extend n).get a = m.get a := by
  obtain ⟨hlow, hhigh⟩ := h
  have hlt : a.toNat < m.cells.size := by
    unfold capacity at hhigh
    omega
  unfold get extend
  rw [if_pos hlow, if_pos hlow, Array.getD_eq_getD_getElem?, Array.getD_eq_getD_getElem?,
    Array.getElem?_append_left hlt]

theorem extend_set (h : m.Contains a) (v : Word) (n : Nat) : (m.set a v).extend n = (m.extend n).set a v := by
  obtain ⟨hlow, hhigh⟩ := h
  have hlt : a.toNat < m.cells.size := by
    unfold capacity at hhigh
    omega
  unfold set extend
  rw [if_pos hlow, if_pos hlow, Array.setIfInBounds_append_left hlt]

end Memory

/-! ## Sessions with more memory -/

/-- The session with `extra` more cells, all zero. -/
def Session.enlarge {σ : Type} (s : Session σ) (extra : Nat) : Session σ :=
  { s with
    settings := { s.settings with memory := s.settings.memory + extra }
    machine := { s.machine with memory := s.machine.memory.extend extra } }

/-- No instruction can tell that there are more cells but one that uses an address without a cell. -/
def Guise.enlarged {σ : Type} [Device σ] (extra : Nat) : Guise σ where
  settings c := { c with memory := c.memory + extra }
  memory m := m.extend extra
  trace := id
  device := id
  log := id
  passes f := ∀ a capacity, f ≠ .outOfBounds a capacity
  stepLimit_settings _ := rfl
  contains_memory h := h.extend extra
  get_memory h := Memory.get_extend h extra
  memory_set v h := Memory.extend_set h v extra
  outside_memory _ hpass := absurd rfl (hpass _ _)
  trace_empty := rfl
  trace_push _ _ _ := rfl
  ask_device _ _ _ := rfl
  emit_device := emit_id
  log_step _ _ _ _ := rfl
  log_append _ _ _ := rfl

theorem Guise.result_enlarged {σ : Type} [Device σ] (extra : Nat) (r : Progress × Session σ) :
    (Guise.enlarged extra).result r = (r.1, r.2.enlarge extra) := by
  obtain ⟨p, s⟩ := r
  cases p <;> rfl

theorem Session.enlarge_create {σ : Type} (settings : Settings) (program : Program) (device : σ) (extra : Nat) :
    (create settings program device).enlarge extra =
      create { settings with memory := settings.memory + extra } program device := by
  simp only [enlarge, create, Machine.fresh, Memory.extend_zeros]

/-- More memory never changes a run that fits. Unless a run ends with the fault of an address that has no
cell, it is the same run in a larger memory, with the same outcome, device and log, and the cells that
were added are still zero. If it does end so, the run in the larger memory comes at least as far, and what
was printed in the smaller memory is the beginning of what is printed by then and in the end. -/
theorem more_memory_same_run {σ : Type} [Device σ] (settings : Settings) (program : Program) (device : σ)
    (capacity : Nat) (hcapacity : settings.memory ≤ capacity) :
    let small : Session σ := .create settings program device
    let large : Session σ := .create { settings with memory := capacity } program device
    (∀ n, (∀ o a c, (small.run n).1 = .ended o → o.ending ≠ .fault (.outOfBounds a c)) →
      large.run n = ((small.run n).1, (small.run n).2.enlarge (capacity - settings.memory))) ∧
    ∀ n o a c, (small.run n).1 = .ended o → o.ending = .fault (.outOfBounds a c) → large.Outlasts o n := by
  intro small large
  obtain ⟨extra, rfl⟩ := Nat.exists_eq_add_of_le hcapacity
  rw [Nat.add_sub_cancel_left]
  have hlarge : (Guise.enlarged extra).session small = large := Session.enlarge_create settings program device extra
  constructor
  · intro n hfits
    rw [← hlarge, ← Guise.result_enlarged]
    apply Guise.run_session
    rintro o f ho hf a c rfl
    exact hfits o a c ho hf
  · intro n o a c ho _
    rw [← hlarge]
    have hsmall : small.Valid settings program := (Session.Reachable.create device).valid
    have hvalid : large.Valid { settings with memory := settings.memory + extra } program :=
      (Session.Reachable.create device).valid
    exact (Guise.enlarged extra).outlasts hsmall (hlarge ▸ hvalid) nofun ho

/-- Prints 7 and then needs two cells. -/
def filling : Program where
  instructions := [⟨"", "LDC", "7", ""⟩, ⟨"", "PRN", "", ""⟩, ⟨"", "ALLOC", "0", "2"⟩, ⟨"", "HLT", "", ""⟩]

theorem more_memory_same_run_filling :
    let small := Session.create { memory := 1 } filling ({} : Scripted)
    let middle := Session.create { memory := 2 } filling ({} : Scripted)
    let large := Session.create { memory := 3 } filling ({} : Scripted)
    let short : Outcome := ⟨.fault (.outOfBounds 1 1), #[7], 3, 2, 0, #[]⟩
    (small.run 4).1 = .ended short ∧ middle.Outlasts short 4 ∧
      (middle.run 5).1 = .ended ⟨.halt, #[7], 3, 3, 1, #[]⟩ ∧
      large.run 5 = ((middle.run 5).1, (middle.run 5).2.enlarge 1) := by
  intro small middle large short
  have hshort : (small.run 4).1 = .ended short := by decide +kernel
  have hended : (middle.run 5).1 = .ended ⟨.halt, #[7], 3, 3, 1, #[]⟩ := by decide +kernel
  refine ⟨hshort, ?_, hended, ?_⟩
  · exact (more_memory_same_run { memory := 1 } filling ({} : Scripted) 2 (by decide)).2 4 short 1 1 hshort rfl
  · apply (more_memory_same_run { memory := 2 } filling ({} : Scripted) 3 (by decide)).1 5
    intro o a c ho
    have hsame := hended.symm.trans ho
    cases hsame
    simp

end StackMachine
