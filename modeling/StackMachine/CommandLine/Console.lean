/-
The console: the device of a run from the command line. Answers come from the terminal or from the
`--input` option; printed values are shown as they come, unless the report is asked for instead.
-/
import StackMachine.CommandLine.Command
import StackMachine.Device.Scripted
import StackMachine.Device.Terminal

namespace StackMachine

inductive Console
  | terminal (t : Terminal)
  /-- Prepared answers; `echo` says whether printed values are shown, `written` what is shown. -/
  | prepared (answers : Scripted) (echo : Bool) (written : String)

namespace Console

/-- The console that the options ask for, on a terminal with the given input. -/
def create (o : RunOptions) (input : List UInt8) (closed : Bool) : Console :=
  match o.input with
  | some answers => .prepared { answers } (!o.json) ""
  | none => .terminal { input, closed, prompt := some "input> ", echo := !o.json }

/-- What has been written and not yet taken. -/
def written : Console → String
  | .terminal t => t.written
  | .prepared _ _ written => written

/-- Takes what has been written. -/
def flush : Console → String × Console
  | .terminal t => (t.written, .terminal { t with written := "" })
  | .prepared answers echo written => (written, .prepared answers echo "")

/-- More input for the terminal. -/
def feed (bytes : List UInt8) : Console → Console
  | .terminal t => .terminal (t.feed bytes)
  | c => c

/-- The end of the terminal's input. -/
def close : Console → Console
  | .terminal t => .terminal t.close
  | c => c

def ask (stopped : Bool) : Console → Response Console Reply
  | .terminal t =>
    let r := t.ask stopped
    { r with device := .terminal r.device }
  | .prepared answers echo written =>
    let r := answers.ask stopped
    { r with device := .prepared r.device echo written }

def emit (v : Word) : Console → Response Console Unit
  | .terminal t =>
    let r := t.emit v
    { r with device := .terminal r.device }
  | .prepared answers echo written =>
    let written := if echo then written ++ resultText v ++ "\n" else written
    let r := answers.emit v
    { r with device := .prepared r.device echo written }

instance : Device Console := ⟨ask, emit⟩

end Console

end StackMachine
