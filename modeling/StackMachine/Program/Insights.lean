/-
Insights: what a program holds, counted without running it.
-/
import StackMachine.Program

namespace StackMachine

structure Insights where
  instructions : Nat
  labels : Nat
  calls : Nat
  /-- The sum of the counts of all `ALLOC` instructions. -/
  allocatedCells : Word
  reads : Nat
  prints : Nat
  skippedLines : Nat
  deriving DecidableEq, Repr

/-- The cells an instruction allocates; a count that is no integer counts as none. -/
def Instruction.allocates (i : Instruction) : Word :=
  if Opcode.ofMnemonic? i.opcode = some .alloc then (Decimal.word? i.operand2).getD 0 else 0

namespace Program

/-- How many instructions of the program have the given opcode. -/
def count (p : Program) (o : Opcode) : Nat :=
  p.instructions.countP fun i => Opcode.ofMnemonic? i.opcode == some o

def insights (p : Program) : Insights where
  instructions := p.size
  labels := p.count .null
  calls := p.count .call
  allocatedCells := p.instructions.foldl (fun sum i => sum + i.allocates) 0
  reads := p.count .rd
  prints := p.count .prn
  skippedLines := p.skipped.length

end Program

end StackMachine
