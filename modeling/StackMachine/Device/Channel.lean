/-
A device with an operator at the other end of two queues: answers go to the machine, printed
values come back. Either side may leave. What was sent before the sender left is still delivered,
and what is sent after the receiver left is lost.

Every operation here is one step of one side; how the steps of the two sides interleave is free.
-/
import StackMachine.Device

namespace StackMachine

structure Channel where
  /-- Answers sent and not yet received, the oldest first. -/
  answers : List String := []
  /-- Printed values not yet taken, the oldest first. -/
  results : Array Word := #[]
  /-- Whether the operator is still there. -/
  operator : Bool := true
  /-- Whether the machine's end is still there. -/
  machine : Bool := true
  deriving DecidableEq, Repr

namespace Channel

/-! ## The machine's end -/

/-- A raised stop flag comes before a waiting answer; a waiting answer comes before the operator's
having left. -/
def ask (stopped : Bool) (c : Channel) : Response Channel Reply :=
  if stopped then { reply := .refused .cancelled, device := c }
  else
    match c.answers with
    | raw :: rest => { reply := .ofAnswer raw, device := { c with answers := rest } }
    | [] => { reply := if c.operator then .waiting else .refused .cancelled, device := c }

def emit (v : Word) (c : Channel) : Response Channel Unit :=
  { reply := ()
    device := if c.operator then { c with results := c.results.push v } else c }

instance : Device Channel := ⟨ask, emit⟩

/-- The machine leaves; answers nobody can receive any more are gone. -/
def detach (c : Channel) : Channel := { c with machine := false, answers := [] }

/-! ## The operator's end -/

/-- Sends an answer; says whether it was accepted. -/
def answer (c : Channel) (raw : String) : Bool × Channel :=
  if c.machine then (true, { c with answers := c.answers ++ [raw] }) else (false, c)

/-- Takes all values printed so far. -/
def drain (c : Channel) : Array Word × Channel := (c.results, { c with results := #[] })

/-- What taking the next value leads to. -/
inductive Next
  | value (v : Word)
  /-- No value will come any more. -/
  | ended
  /-- No value has come yet. -/
  | waiting
  deriving DecidableEq, Repr

def next (c : Channel) : Next × Channel :=
  match c.results.toList with
  | v :: rest => (.value v, { c with results := rest.toArray })
  | [] => (if c.machine then .waiting else .ended, c)

/-- The operator leaves; values nobody can take any more are gone. -/
def leave (c : Channel) : Channel := { c with operator := false, results := #[] }

end Channel

end StackMachine
