/-
Devices: a machine's only way to the outside. A device answers the requests of `RD` and takes the
values that `PRN` prints.

A device is a state machine. A request is made by asking, again and again, until the device has
answered or refused; each asking shows the device the stop flag as it stands, and the device looks
at it at most once. Between two askings anything may happen outside: an operator may answer, or
raise the stop flag. A device may raise the flag itself.
-/
import StackMachine.Fault
import StackMachine.ReadError
import StackMachine.Text.Blank

namespace StackMachine

/-! ## Answers -/

/-- Why a device gives no value for a request. -/
inductive DeviceError
  /-- The answer is no integer; `text` is the answer without surrounding white space. -/
  | invalidInput (text : String)
  | cancelled
  deriving DecidableEq, Repr

namespace DeviceError

def message : DeviceError → String
  | .invalidInput s => (Fault.invalidInput s).message
  | .cancelled => "input cancelled"

/-- The fault of an `RD` that meets this error. -/
def toFault : DeviceError → Fault
  | .invalidInput s => .invalidInput s
  | .cancelled => .inputCancelled

end DeviceError

/-- The word that an answer spells, white space around it apart. -/
def readAnswer (raw : String) : Except DeviceError Word :=
  let text := Text.trimmed raw
  match Decimal.word? text with
  | some v => .ok v
  | none => .error (.invalidInput text)

/-- The line that shows a printed value. -/
def resultText (v : Word) : String := "Res: " ++ Decimal.ofWord v

/-! ## Devices -/

/-- What a device says when it is asked. -/
inductive Reply
  | answer (v : Word)
  | refused (e : DeviceError)
  /-- The request goes on: ask again. -/
  | pending
  /-- The request goes on, and asking again is of no use before something happens outside. -/
  | waiting
  deriving DecidableEq, Repr

def Reply.ofAnswer (raw : String) : Reply :=
  match readAnswer raw with
  | .ok v => .answer v
  | .error e => .refused e

/-- Trouble that a device meets, works around and mentions. -/
inductive Notice
  | readFailed (cause : ReadError)
  | writeFailed (reason : String)
  deriving DecidableEq, Repr

/-- What an action of a device leaves behind: what it says, its new state, whether it raised the
stop flag, and what it mentions. -/
structure Response (σ ρ : Type) where
  reply : ρ
  device : σ
  raisesStop : Bool := false
  notices : List Notice := []

/-- Types whose values are states of a device. -/
class Device (σ : Type) where
  /-- Asks for the answer to the current request; `stopped` is the stop flag. -/
  ask (stopped : Bool) (device : σ) : Response σ Reply
  /-- Takes a printed value. -/
  emit (v : Word) (device : σ) : Response σ Unit

/-- Asks until the request is over or waits for the outside, but at most `n` times. -/
def Device.request {σ : Type} [Device σ] : Nat → Bool → σ → Response σ Reply
  | 0, _, d => { reply := .pending, device := d }
  | n + 1, stopped, d =>
    let r := Device.ask stopped d
    match r.reply with
    | .pending =>
      let later := Device.request n (stopped || r.raisesStop) r.device
      { later with
        raisesStop := r.raisesStop || later.raisesStop
        notices := r.notices ++ later.notices }
    | _ => r

end StackMachine
