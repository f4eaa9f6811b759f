/-
A device with prepared answers. It gives them in order, refuses when none is left, and keeps the
printed values.
-/
import StackMachine.Device

namespace StackMachine

structure Scripted where
  /-- The answers not yet used. -/
  answers : List String := []
  /-- The values printed so far. -/
  emitted : Array Word := #[]
  deriving DecidableEq, Repr

namespace Scripted

/-- Answers that spell the given values. -/
def ofWords (vs : List Word) : Scripted := { answers := vs.map Decimal.ofWord }

/-- A raised stop flag uses no answer up. -/
def ask (stopped : Bool) (d : Scripted) : Response Scripted Reply :=
  if stopped then { reply := .refused .cancelled, device := d }
  else
    match d.answers with
    | [] => { reply := .refused .cancelled, device := d }
    | raw :: rest => { reply := .ofAnswer raw, device := { d with answers := rest } }

def emit (v : Word) (d : Scripted) : Response Scripted Unit :=
  { reply := (), device := { d with emitted := d.emitted.push v } }

instance : Device Scripted := ⟨ask, emit⟩

end Scripted

end StackMachine
