/-
Faults: everything that ends a run early, with the message each is reported by.
-/
import StackMachine.Instruction

namespace StackMachine

inductive Fault
  | divisionByZero
  /-- An answer that is no integer; `text` is the answer without surrounding white space. -/
  | invalidInput (text : String)
  | inputCancelled
  | unresolvedLabel (name : String)
  | outOfBounds (address : Int) (capacity : Nat)
  | undecodable (cause : DecodeError)
  | stepLimitExceeded (limit : Nat)
  | alreadyHalted
  deriving DecidableEq, Repr

def Fault.message : Fault → String
  | .divisionByZero => "division by zero"
  | .invalidInput s => "invalid input: " ++ Text.quoted s ++ " is not an integer"
  | .inputCancelled => "input cancelled by the operator"
  | .unresolvedLabel s => "unresolved label " ++ Text.quoted s
  | .outOfBounds a n =>
    "memory address " ++ Decimal.ofInt a ++ " out of bounds (capacity " ++ Decimal.ofNat n ++ ")"
  | .undecodable e => e.message
  | .stepLimitExceeded n => "step limit of " ++ Decimal.ofNat n ++ " exhausted"
  | .alreadyHalted => "machine already halted; reset before running again"

end StackMachine
