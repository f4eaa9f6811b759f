/-
A device that raises the stop flag at chosen moments of another device's work. Requests and
printed values are counted from 1.

It is for trying out stops. Whoever holds the flag may raise it at any time, and what a run does then depends
on the moment: with a tripwire around its device the same run can be stopped at the same moment again. No
machine needs one, and nothing is proved of it that does not hold of every device.
-/
import StackMachine.Device

namespace StackMachine

/-- The moments at which a tripwire raises the flag, each given by a count. -/
structure Tripwire.Moments where
  /-- Just before this request reaches the device. -/
  beforeRequest : Option Nat := none
  /-- While this request is pending. -/
  duringRequest : Option Nat := none
  /-- Just after this request is over. -/
  afterRequest : Option Nat := none
  /-- Just after this value is printed. -/
  afterEmit : Option Nat := none
  deriving DecidableEq, Repr

structure Tripwire (σ : Type) where
  device : σ
  moments : Tripwire.Moments := {}
  /-- Requests that are over. -/
  requests : Nat := 0
  /-- Values printed. -/
  emits : Nat := 0

namespace Tripwire

variable {σ : Type} [Device σ]

def ask (stopped : Bool) : Tripwire σ → Response (Tripwire σ) Reply
  | { device, moments, requests, emits } =>
    let current := requests + 1
    let before := moments.beforeRequest == some current
    let r := Device.ask (stopped || before) device
    match r.reply with
    | .pending | .waiting =>
      { r with
        device := { device := r.device, moments, requests, emits }
        raisesStop := before || r.raisesStop || moments.duringRequest == some current }
    | .answer _ | .refused _ =>
      { r with
        device := { device := r.device, moments, requests := current, emits }
        raisesStop := before || r.raisesStop || moments.afterRequest == some current }

def emit (v : Word) : Tripwire σ → Response (Tripwire σ) Unit
  | { device, moments, requests, emits } =>
    let current := emits + 1
    let r := Device.emit v device
    { r with
      device := { device := r.device, moments, requests, emits := current }
      raisesStop := r.raisesStop || moments.afterEmit == some current }

instance : Device (Tripwire σ) := ⟨ask, emit⟩

end Tripwire

end StackMachine
