/-
The cells that operations use. `Operation.accesses` lists, for each operation, the cells that it pops,
pushes, reads and writes, in the order in which it does so; `Operation.execute_uses` says that an
operation that comes to its end has made these accesses and no other.

`Machine.Uses` is what a sequence of accesses does to a machine, whatever operation makes them. A cell on
the stack that is neither popped nor written stays on the stack with its value (`Machine.Uses.keeps`),
so every operation leaves the cells on the stack that it spares (`Operation.Spares.keeps`).
-/
import StackMachine.Proofs.Script

namespace StackMachine

/-- A use of a cell. -/
inductive Access
  /-- The topmost value is taken off the stack. -/
  | pop (address : Int)
  /-- A value is put on top of the stack. -/
  | push (address : Int)
  /-- The value is copied, wherever the cell is. -/
  | read (address : Int)
  /-- The value is replaced, wherever the cell is. -/
  | write (address : Int)
  deriving DecidableEq, Repr

/-! ## Sequences of accesses -/

namespace Machine

/-- The machine comes from `m` to `m'` by these accesses. The counter and what has been printed do not
matter. -/
inductive Uses : Machine → List Access → Machine → Prop
  | done {m m' : Machine} : m'.memory = m.memory → m'.sp = m.sp → Uses m [] m'
  | pop {m m' : Machine} {as : List Access} : m.memory.Contains m.sp →
    Uses { m with sp := m.sp - 1 } as m' → Uses m (.pop m.sp :: as) m'
  | push {m m' : Machine} {as : List Access} (v : Word) : m.memory.Contains (m.sp + 1) →
    Uses { m with memory := m.memory.set (m.sp + 1) v, sp := m.sp + 1 } as m' →
    Uses m (.push (m.sp + 1) :: as) m'
  | read {m m' : Machine} {as : List Access} {a : Int} : m.memory.Contains a →
    Uses m as m' → Uses m (.read a :: as) m'
  | write {m m' : Machine} {as : List Access} {a : Int} (v : Word) : m.memory.Contains a →
    Uses { m with memory := m.memory.set a v } as m' → Uses m (.write a :: as) m'

/-- A cell on the stack that is neither popped nor written stays there and keeps its value. -/
theorem Uses.keeps {m m' : Machine} {as : List Access} (h : m.Uses as m') {c : Int} (hc : c ≤ m.sp)
    (hpop : .pop c ∉ as) (hwrite : .write c ∉ as) :
    c ≤ m'.sp ∧ m'.memory.get c = m.memory.get c := by
  induction h with
  | done hmemory hsp => rw [hmemory, hsp]; exact ⟨hc, rfl⟩
  | @pop m m' as hm _ ih =>
    simp only [List.mem_cons, not_or, Access.pop.injEq] at hpop hwrite
    have hc' : c ≤ m.sp - 1 := by omega
    exact ih hc' hpop.2 hwrite.2
  | @push m m' as v hm _ ih =>
    simp only [List.mem_cons, not_or] at hpop hwrite
    -- everything below the new value, this cell too, is left alone
    have hc' : c ≤ m.sp + 1 := by omega
    have hne : m.sp + 1 ≠ c := by omega
    obtain ⟨hsp, hget⟩ := ih hc' hpop.2 hwrite.2
    exact ⟨hsp, hget.trans (m.memory.get_set_of_ne hne v)⟩
  | read hm _ ih =>
    simp only [List.mem_cons, not_or] at hpop hwrite
    exact ih hc hpop.2 hwrite.2
  | @write m m' as a v hm _ ih =>
    simp only [List.mem_cons, not_or, Access.write.injEq] at hpop hwrite
    obtain ⟨hsp, hget⟩ := ih hc hpop.2 hwrite.2
    exact ⟨hsp, hget.trans (m.memory.get_set_of_ne (Ne.symm hwrite.1) v)⟩

end Machine

/-! ## Actions that succeed -/

namespace Exec

variable {m m' : Machine}

theorem bind_eq_ok {α β : Type} {x : Exec α} {f : α → Exec β} {b : β} :
    (x >>= f) m = .ok b m' ↔ ∃ a m₁, x m = .ok a m₁ ∧ f a m₁ = .ok b m' := by
  show EStateM.bind x f m = _ ↔ _
  unfold EStateM.bind
  cases x m with
  | ok a m₁ => simp
  | error e m₁ => simp

theorem pure_eq_ok {α : Type} {a b : α} : (pure a : Exec α) m = .ok b m' ↔ a = b ∧ m = m' := by
  show EStateM.Result.ok a m = _ ↔ _
  rw [EStateM.Result.ok.injEq]

theorem load_eq_ok {a : Int} {v : Word} :
    load a m = .ok v m' ↔ m.memory.Contains a ∧ v = m.memory.get a ∧ m = m' := by
  unfold load
  split <;> simp_all [eq_comm]

theorem store_eq_ok {a : Int} {v : Word} {u : Unit} :
    store a v m = .ok u m' ↔ m.memory.Contains a ∧ m' = { m with memory := m.memory.set a v } := by
  unfold store
  split <;> simp_all [eq_comm]

theorem push_eq_ok {v : Word} {u : Unit} :
    push v m = .ok u m' ↔ m.memory.Contains (m.sp + 1) ∧
      m' = { m with memory := m.memory.set (m.sp + 1) v, sp := m.sp + 1 } := by
  unfold push
  dsimp only
  split <;> simp_all [eq_comm]

theorem pop_eq_ok {v : Word} :
    pop m = .ok v m' ↔ m.memory.Contains m.sp ∧ v = m.memory.get m.sp ∧
      m' = { m with sp := m.sp - 1 } := by
  unfold pop
  split <;> simp_all [eq_comm]

theorem resolve_eq_ok {labels : Labels} {l : String} {place : Nat} :
    resolve labels l m = .ok place m' ↔ labels.get? l = some place ∧ m = m' := by
  unfold resolve Labels.resolve
  cases labels.get? l with
  | none => exact ⟨fun h => (by cases h), fun h => (by cases h.1)⟩
  | some n => simp [pure_eq_ok, eq_comm]

end Exec

/-! ## The accesses of an operation -/

namespace Operation

/-- The accesses of pushing the values of `n` cells, from `base + i` upwards. -/
def pushCellsAccesses (base : Word) (i : Nat) (sp : Int) : Nat → List Access
  | 0 => []
  | n + 1 => .read (Word.clampAdd base.toInt i) :: .push (sp + 1) :: pushCellsAccesses base (i + 1) (sp + 1) n

/-- The accesses of popping into `n` cells, from `base + n - 1` down to `base`. -/
def popCellsAccesses (base : Word) (sp : Int) : Nat → List Access
  | 0 => []
  | n + 1 => .pop sp :: .write (Word.clampAdd base.toInt n) :: popCellsAccesses base (sp - 1) n

/-- The cells that an operation uses if it is begun with this stack pointer and comes to its end. The
answer to an `RD` is pushed when it has come. -/
def accesses (sp : Int) : Operation → List Access
  | .ldc _ => [.push (sp + 1)]
  | .ldv a => [.read a.toInt, .push (sp + 1)]
  | .binary _ => [.pop sp, .pop (sp - 1), .push (sp - 1 - 1 + 1)]
  | .unary _ => [.pop sp, .push (sp - 1 + 1)]
  | .str a => [.pop sp, .write a.toInt]
  | .rd => [.push (sp + 1)]
  | .prn => [.pop sp]
  | .call _ => [.push (sp + 1)]
  | .ret => [.pop sp]
  | .jmp _ => []
  | .jmpf _ => [.pop sp]
  | .alloc base count => pushCellsAccesses base 0 sp count.toInt.toNat
  | .dalloc base count => popCellsAccesses base sp count.toInt.toNat
  | .hlt => []
  | .nop => []

open Exec Machine

theorem pushCells_uses {base : Word} : ∀ {n i : Nat} {m m' : Machine} {u : Unit},
    pushCells base i n m = .ok u m' → m.Uses (pushCellsAccesses base i m.sp n) m'
  | 0, i, m, m', u, h => by
    obtain ⟨-, rfl⟩ := pure_eq_ok.1 h
    exact .done rfl rfl
  | n + 1, i, m, m', u, h => by
    simp only [pushCells, bind_eq_ok, load_eq_ok, push_eq_ok] at h
    obtain ⟨v, _, ⟨hread, -, rfl⟩, _, _, ⟨hpush, rfl⟩, h⟩ := h
    exact .read hread (.push v hpush (pushCells_uses h))

theorem popCells_uses {base : Word} : ∀ {n : Nat} {m m' : Machine} {u : Unit},
    popCells base n m = .ok u m' → m.Uses (popCellsAccesses base m.sp n) m'
  | 0, m, m', u, h => by
    obtain ⟨-, rfl⟩ := pure_eq_ok.1 h
    exact .done rfl rfl
  | n + 1, m, m', u, h => by
    simp only [popCells, bind_eq_ok, pop_eq_ok, store_eq_ok] at h
    obtain ⟨v, _, ⟨hpop, -, rfl⟩, _, _, ⟨hwrite, rfl⟩, h⟩ := h
    exact .pop hpop (.write v hwrite (popCells_uses h))

/-- An operation that comes to its end has made its accesses and no other. -/
theorem execute_uses {labels : Labels} {op : Operation} {m m' : Machine} {d : Demand}
    (h : op.execute labels m = .ok d m') (hd : d ≠ .input) : m.Uses (op.accesses m.sp) m' := by
  cases op with
  | ldc v =>
    simp only [execute, bind_eq_ok, push_eq_ok, pure_eq_ok] at h
    obtain ⟨_, _, ⟨hpush, rfl⟩, -, rfl⟩ := h
    exact .push v hpush (.done rfl rfl)
  | ldv a =>
    simp only [execute, bind_eq_ok, load_eq_ok, push_eq_ok, pure_eq_ok] at h
    obtain ⟨v, _, ⟨hread, -, rfl⟩, _, _, ⟨hpush, rfl⟩, -, rfl⟩ := h
    exact .read hread (.push v hpush (.done rfl rfl))
  | binary o =>
    simp only [execute, bind_eq_ok, pop_eq_ok] at h
    obtain ⟨b, _, ⟨hb, -, rfl⟩, a, _, ⟨ha, -, rfl⟩, h⟩ := h
    cases hv : o.eval? a b with
    | none => rw [hv] at h; cases h
    | some v =>
      simp only [hv, bind_eq_ok, push_eq_ok, pure_eq_ok] at h
      obtain ⟨_, _, ⟨hpush, rfl⟩, -, rfl⟩ := h
      exact .pop hb (.pop ha (.push v hpush (.done rfl rfl)))
  | unary o =>
    simp only [execute, bind_eq_ok, pop_eq_ok, push_eq_ok, pure_eq_ok] at h
    obtain ⟨a, _, ⟨hpop, -, rfl⟩, _, _, ⟨hpush, rfl⟩, -, rfl⟩ := h
    exact .pop hpop (.push (o.apply a) hpush (.done rfl rfl))
  | str a =>
    simp only [execute, bind_eq_ok, pop_eq_ok, store_eq_ok, pure_eq_ok] at h
    obtain ⟨v, _, ⟨hpop, -, rfl⟩, _, _, ⟨hwrite, rfl⟩, -, rfl⟩ := h
    exact .pop hpop (.write v hwrite (.done rfl rfl))
  | rd =>
    obtain ⟨rfl, -⟩ := pure_eq_ok.1 h
    exact absurd rfl hd
  | prn =>
    simp only [execute, bind_eq_ok, pop_eq_ok] at h
    obtain ⟨v, _, ⟨hpop, -, rfl⟩, _, _, hmodify, h⟩ := h
    cases hmodify
    cases h
    exact .pop hpop (.done rfl rfl)
  | call l =>
    simp only [execute, bind_eq_ok, resolve_eq_ok, push_eq_ok] at h
    obtain ⟨place, _, ⟨-, rfl⟩, _, _, hget, _, _, ⟨hpush, rfl⟩, _, _, hgo, h⟩ := h
    cases hget
    cases hgo
    cases h
    exact .push _ hpush (.done rfl rfl)
  | ret =>
    simp only [execute, bind_eq_ok, pop_eq_ok] at h
    obtain ⟨v, _, ⟨hpop, -, rfl⟩, _, _, hmodify, h⟩ := h
    cases hmodify
    cases h
    exact .pop hpop (.done rfl rfl)
  | jmp l =>
    simp only [execute, bind_eq_ok, resolve_eq_ok] at h
    obtain ⟨place, _, ⟨-, rfl⟩, _, _, hgo, h⟩ := h
    cases hgo
    cases h
    exact .done rfl rfl
  | jmpf l =>
    simp only [execute, bind_eq_ok, pop_eq_ok] at h
    obtain ⟨v, _, ⟨hpop, -, rfl⟩, h⟩ := h
    refine .pop hpop ?_
    split at h
    · simp only [bind_eq_ok, resolve_eq_ok] at h
      obtain ⟨place, _, ⟨-, rfl⟩, _, _, hgo, h⟩ := h
      cases hgo
      cases h
      exact .done rfl rfl
    · cases h
      exact .done rfl rfl
  | alloc base count =>
    simp only [execute, bind_eq_ok, pure_eq_ok] at h
    obtain ⟨_, _, hpush, -, rfl⟩ := h
    exact pushCells_uses hpush
  | dalloc base count =>
    simp only [execute, bind_eq_ok, pure_eq_ok] at h
    obtain ⟨_, _, hpop, -, rfl⟩ := h
    exact popCells_uses hpop
  | hlt =>
    obtain ⟨-, rfl⟩ := pure_eq_ok.1 h
    exact .done rfl rfl
  | nop =>
    obtain ⟨-, rfl⟩ := pure_eq_ok.1 h
    exact .done rfl rfl

/-- No pop of the operation reads the cell, and the operation does not write it: only `STR` and
`DALLOC` write. -/
def Spares (cell sp : Int) (op : Operation) : Prop :=
  .pop cell ∉ op.accesses sp ∧ .write cell ∉ op.accesses sp

instance (cell sp : Int) (op : Operation) : Decidable (op.Spares cell sp) :=
  inferInstanceAs (Decidable (_ ∧ _))

/-- A cell on the stack that an operation spares is on the stack after it, with the same value. -/
theorem Spares.keeps {labels : Labels} {op : Operation} {m m' : Machine} {d : Demand} {cell : Int}
    (hspares : op.Spares cell m.sp) (hcell : cell ≤ m.sp) (h : op.execute labels m = .ok d m')
    (hd : d ≠ .input) : cell ≤ m'.sp ∧ m'.memory.get cell = m.memory.get cell :=
  (execute_uses h hd).keeps hcell hspares.1 hspares.2

end Operation

end StackMachine
