/-
Traces: an account of the instructions a machine has executed, one entry each.
-/
import StackMachine.Device

namespace StackMachine

/-- What an entry remarks on its instruction. -/
inductive Note
  /-- The run does not go on at the next place but at this one. -/
  | goesTo (place : Int)
  | printed (v : Word)
  deriving DecidableEq, Repr

def Note.text : Note → String
  | .goesTo place => "-> " ++ Decimal.ofInt place
  | .printed v => resultText v

structure TraceEntry where
  /-- The number of the instruction in the run, from 1. -/
  step : Nat
  /-- Its place in the program. -/
  pc : Int
  operation : Operation
  /-- The stack pointer after it. -/
  sp : Int
  note : Option Note
  deriving DecidableEq, Repr

end StackMachine
