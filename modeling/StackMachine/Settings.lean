/-
Settings: how much memory a machine has, how many instructions it may execute, and whether it
keeps a trace. The environment may override the defaults; a value that cannot be read overrides
nothing.
-/
import StackMachine.Text.Blank
import StackMachine.Text.Decimal

namespace StackMachine

structure Settings where
  /-- Number of memory cells. -/
  memory : Nat := 2000
  /-- Most instructions a run may execute. -/
  stepLimit : Option Nat := none
  trace : Bool := false
  deriving DecidableEq, Repr

namespace Settings

/-- An unsigned number, with white space around it allowed. -/
def number? (s : String) : Option Nat := Decimal.count? (Text.trimmed s)

/-- The spellings that switch a setting on. -/
def isOn (s : String) : Bool := ["1", "true", "TRUE", "yes", "on"].contains s

/-- The variables of the environment that are looked at. -/
def names : List String := ["LPDVM_MEMORY", "LPDVM_MAX_STEPS", "LPDVM_TRACE"]

/-- The settings an environment asks for. A variable whose value is not UTF-8 counts as unset. -/
def ofEnvironment (value : String → Option ByteArray) : Settings :=
  let text (name : String) : Option String := (value name).bind String.fromUTF8?
  let default : Settings := {}
  { memory := ((text "LPDVM_MEMORY").bind number?).getD default.memory
    stepLimit := ((text "LPDVM_MAX_STEPS").bind number?).or default.stepLimit
    trace := ((text "LPDVM_TRACE").map isOn).getD default.trace }

end Settings

end StackMachine
