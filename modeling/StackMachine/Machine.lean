/-
The machine: memory, program counter and stack pointer, and what each operation does to them.

The stack grows upwards from cell 0 in the same memory that operations address; the stack pointer
is the address of the topmost value, -1 while there is none. An operation that fails keeps what it
has done up to that point.
-/
import StackMachine.Labels
import StackMachine.Memory
import StackMachine.Trace

namespace StackMachine

structure Machine where
  memory : Memory
  /-- The place of the instruction in hand. -/
  pc : Int := 0
  /-- The address of the topmost value. -/
  sp : Int := -1
  /-- The number of instructions begun. -/
  steps : Nat := 0
  /-- The values printed. -/
  output : Array Word := #[]
  trace : Array TraceEntry := #[]
  deriving DecidableEq

namespace Machine

def fresh (capacity : Nat) : Machine := { memory := .zeros capacity }

/-- The machine as it was before anything ran. -/
def reset (m : Machine) : Machine := { memory := m.memory.clear }

end Machine

/-! ## Cells and stack -/

/-- Actions on a machine that may fail; a failed action leaves the machine as it had made it. -/
abbrev Exec := EStateM Fault Machine

namespace Exec

def load (address : Int) : Exec Word := fun m =>
  if m.memory.Contains address then .ok (m.memory.get address) m
  else .error (m.memory.outside address) m

def store (address : Int) (v : Word) : Exec Unit := fun m =>
  if m.memory.Contains address then .ok () { m with memory := m.memory.set address v }
  else .error (m.memory.outside address) m

def push (v : Word) : Exec Unit := fun m =>
  let top := m.sp + 1
  if m.memory.Contains top then .ok () { m with memory := m.memory.set top v, sp := top }
  else .error (m.memory.outside top) m

def pop : Exec Word := fun m =>
  if m.memory.Contains m.sp then .ok (m.memory.get m.sp) { m with sp := m.sp - 1 }
  else .error (m.memory.outside m.sp) m

/-! ## Operations -/

def resolve (labels : Labels) (label : String) : Exec Nat :=
  match labels.resolve label with
  | .ok place => pure place
  | .error f => throw f

/-- Sets the counter one before `place`, because it is advanced when the instruction is over. -/
def goTo (place : Nat) : Exec Unit := modify fun m => { m with pc := (place : Int) - 1 }

/-- Pushes the values of `n` cells, from `base + i` upwards. -/
def pushCells (base : Word) (i : Nat) : Nat → Exec Unit
  | 0 => pure ()
  | n + 1 => do
    push (← load (Word.clampAdd base.toInt i))
    pushCells base (i + 1) n

/-- Pops into `n` cells, from `base + n - 1` down to `base`. -/
def popCells (base : Word) : Nat → Exec Unit
  | 0 => pure ()
  | n + 1 => do
    let v ← pop
    store (Word.clampAdd base.toInt n) v
    popCells base n

end Exec

/-- What an operation still needs from the device when the machine has done its part. -/
inductive Demand
  | nothing
  /-- An answer, to be pushed. -/
  | input
  /-- A value to be shown. -/
  | output (v : Word)
  deriving DecidableEq, Repr

open Exec in
/-- The machine's part of an operation. -/
def Operation.execute (labels : Labels) : Operation → Exec Demand
  | .ldc v => do
    push v
    return .nothing
  | .ldv a => do
    push (← load a.toInt)
    return .nothing
  | .binary o => do
    let b ← pop
    let a ← pop
    match o.eval? a b with
    | some v => push v
    | none => throw .divisionByZero
    return .nothing
  | .unary o => do
    push (o.apply (← pop))
    return .nothing
  | .str a => do
    let v ← pop
    store a.toInt v
    return .nothing
  | .rd => return .input
  | .prn => do
    let v ← pop
    modify fun m => { m with output := m.output.push v }
    return .output v
  | .call l => do
    let place ← resolve labels l
    push (Int64.ofInt (← get).pc)
    goTo place
    return .nothing
  | .ret => do
    let v ← pop
    modify fun m => { m with pc := v.toInt }
    return .nothing
  | .jmp l => do
    goTo (← resolve labels l)
    return .nothing
  | .jmpf l => do
    if (← pop) = 0 then
      goTo (← resolve labels l)
    return .nothing
  | .alloc base count => do
    pushCells base 0 count.toInt.toNat
    return .nothing
  | .dalloc base count => do
    popCells base count.toInt.toNat
    return .nothing
  | .hlt => return .nothing
  | .nop => return .nothing

/-! ## The end of an instruction -/

namespace Machine

/-- The remark on an operation that was begun at `pc` and is done, its counter not yet advanced. -/
def note (m : Machine) (pc : Int) : Operation → Option Note
  | .call _ | .jmp _ | .jmpf _ | .ret =>
    if m.pc = pc then none else some (.goesTo (Word.clampAdd m.pc 1))
  | .prn => m.output.back?.map .printed
  | _ => none

/-- The entry for an operation that was begun at `pc` and is done. -/
def entry (m : Machine) (pc : Int) (op : Operation) : TraceEntry :=
  ⟨m.steps, pc, op, m.sp, m.note pc op⟩

/-- Counts an instruction as begun, unless the limit is used up. -/
def charge (m : Machine) (limit : Option Nat) : Except Fault Machine :=
  match limit with
  | some n => if m.steps < n then .ok { m with steps := m.steps + 1 } else .error (.stepLimitExceeded n)
  | none => .ok { m with steps := m.steps + 1 }

/-- Moves on to the next instruction; the counter stays at the largest word once it is there. -/
def advance (m : Machine) : Machine := { m with pc := Word.clampAdd m.pc 1 }

end Machine

end StackMachine
