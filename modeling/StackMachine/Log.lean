/-
Log entries: what loading and running mention, and the lines they are written as.
-/
import StackMachine.Outcome
import StackMachine.Program

namespace StackMachine

inductive LogEntry
  | skippedLine (s : SkippedLine)
  | runStarted (instructions : Nat)
  /-- An instruction is done; `sp` is the stack pointer after it. -/
  | step (number : Nat) (pc : Int) (operation : Operation) (sp : Int)
  /-- A run ended without a fault; `printed` counts the values it printed. -/
  | runFinished (ending : Ending) (steps printed : Nat)
  | runFailed (pc : Int) (fault : Fault)
  | device (n : Notice)
  deriving DecidableEq, Repr

inductive LogLevel
  | error | warn | info | debug
  deriving DecidableEq, Repr

/-- Levels stand at the right of five characters. -/
def LogLevel.text : LogLevel → String
  | .error => "ERROR"
  | .warn => " WARN"
  | .info => " INFO"
  | .debug => "DEBUG"

def Ending.name : Ending → String
  | .halt => "Halt"
  | .endOfProgram => "EndOfProgram"
  | .stopped => "Stopped"
  | .fault _ => "Error"

namespace LogEntry

def level : LogEntry → LogLevel
  | .skippedLine _ | .device _ => .warn
  | .runStarted _ | .runFinished .. => .info
  | .step .. => .debug
  | .runFailed .. => .error

def text : LogEntry → String
  | .skippedLine _ => "skipping short object-code line"
  | .runStarted _ => "run started"
  | .step .. => "step"
  | .runFinished .. => "run finished"
  | .runFailed .. => "run failed"
  | .device (.readFailed _) => "reading RD answer failed"
  | .device (.writeFailed _) => "writing PRN result failed"

/-- The named values of an entry. -/
def values : LogEntry → List (String × String)
  | .skippedLine s => [("line", Decimal.ofNat s.line), ("len", Decimal.ofNat s.length)]
  | .runStarted n => [("instructions", Decimal.ofNat n)]
  | .step n pc op sp =>
    [("step", Decimal.ofNat n), ("pc", Decimal.ofInt pc), ("op", op.text), ("sp", Decimal.ofInt sp)]
  | .runFinished e steps printed =>
    [("reason", e.name), ("steps", Decimal.ofNat steps), ("printed", Decimal.ofNat printed)]
  | .runFailed pc f => [("pc", Decimal.ofInt pc), ("error", f.message)]
  | .device (.readFailed cause) => [("error", cause.message)]
  | .device (.writeFailed reason) => [("error", reason)]

def line (e : LogEntry) : String :=
  e.level.text ++ " " ++ e.text ++ String.join (e.values.map fun (n, v) => " " ++ n ++ "=" ++ v)

end LogEntry

/-- What loading the program mentions. -/
def Program.log (p : Program) : List LogEntry := p.skipped.map .skippedLine

end StackMachine
