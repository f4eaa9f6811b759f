/-
Outcomes: how a run ended and what it left behind.
-/
import StackMachine.Trace

namespace StackMachine

/-- How a run ends. A fault is part of the ending, so that a run that ends otherwise has none, and one that ends
in an error has one: the type carries that the two go together. -/
inductive Ending
  /-- At a `HLT`. -/
  | halt
  /-- The counter has left the program. -/
  | endOfProgram
  /-- By the stop flag. -/
  | stopped
  | fault (f : Fault)
  deriving DecidableEq, Repr

/-- The fault that ended the run, if one did. -/
def Ending.fault? : Ending → Option Fault
  | .fault f => some f
  | _ => none

structure Outcome where
  ending : Ending
  /-- The values printed, in order. -/
  output : Array Word
  /-- The number of instructions begun. -/
  steps : Nat
  /-- The place the run ended at. A fault has no place of its own, so the type carries that it is reported at
  this one; that the instruction which raised it stands here is a fact about runs. -/
  pc : Int
  sp : Int
  trace : Array TraceEntry
  deriving DecidableEq

namespace Outcome

def isSuccess (o : Outcome) : Bool := o.ending.fault?.isNone

/-- One line for each value printed. -/
def outputLines (o : Outcome) : List String := o.output.toList.map resultText

end Outcome

end StackMachine
