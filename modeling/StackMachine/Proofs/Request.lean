/-
Requests taken apart: what a device does when it is asked, one action at a time, so that something
can happen outside between two of them. A request done without a break is `Device.ask`
(`Stepwise.ask_ready`, `Stepwise.ask_blocked`).

A device is cooperative when its requests cannot overlook the stop flag: whenever one looks at the
flag and finds it up, the request is refused, and one that has not looked yet gives no answer.
-/
import StackMachine.Device.Channel
import StackMachine.Device.Scripted
import StackMachine.Device.Terminal

namespace StackMachine

/-- What an action leaves behind, without what it says. -/
def Response.silent {σ ρ : Type} (r : Response σ ρ) : Response σ Unit := { r with reply := () }

/-- What is left to do of a request, one action at a time. -/
inductive Request (σ : Type)
  | reply (r : Reply)
  /-- Look at the stop flag. -/
  | look (next : Bool → Request σ)
  /-- Let the device act. What comes next depends on the device as it was before. -/
  | act (effect : σ → Response σ Unit) (next : σ → Request σ)

namespace Request

variable {σ : Type}

/-- All actions of a request, with nothing in between. -/
def ask : Request σ → Bool → σ → Response σ Reply
  | .reply r, _, d => { reply := r, device := d }
  | .look next, stopped, d => (next stopped).ask stopped d
  | .act effect next, stopped, d =>
    let r := effect d
    let later := (next d).ask (stopped || r.raisesStop) r.device
    { later with
      raisesStop := r.raisesStop || later.raisesStop
      notices := r.notices ++ later.notices }

/-- One action that says how the request is over. -/
def once (act : σ → Response σ Reply) : Request σ :=
  .act (fun d => (act d).silent) fun d => .reply (act d).reply

/-- A look at the flag first: where it is up, the device does not act. -/
def guarded (act : σ → Response σ Reply) : Request σ :=
  .look fun stopped => if stopped then .reply (.refused .cancelled) else once act

/-- A look at the flag last: where it is up, what the action says does not count. -/
def checked (act : σ → Response σ Reply) : Request σ :=
  .act (fun d => (act d).silent) fun d =>
    .look fun stopped => .reply (if stopped then .refused .cancelled else (act d).reply)

theorem ask_once (act : σ → Response σ Reply) (stopped : Bool) (d : σ) :
    (once act).ask stopped d = act d := by
  simp [once, ask, Response.silent]

theorem ask_guarded (act : σ → Response σ Reply) (stopped : Bool) (d : σ) :
    (guarded act).ask stopped d =
      if stopped then { reply := .refused .cancelled, device := d } else act d := by
  cases stopped with
  | true => rfl
  | false => exact ask_once act false d

theorem ask_checked {act : σ → Response σ Reply} {d : σ} (stopped : Bool)
    (h : (act d).raisesStop = false) :
    (checked act).ask stopped d =
      { act d with reply := if stopped then .refused .cancelled else (act d).reply } := by
  simp [checked, ask, Response.silent, h]

/-! ## Heeding the flag -/

/-- The request is over within `n` actions, however the device changes meanwhile, and a raised flag
that it sees is a refusal. -/
def Heeds : Nat → Request σ → Prop
  | _, .reply _ => True
  | 0, _ => False
  | n + 1, .look next => next true = .reply (.refused .cancelled) ∧ (next false).Heeds n
  | n + 1, .act _ next => ∀ d, (next d).Heeds n

/-- As long as the request has not looked at the flag, it can only be refused. -/
def Settles : Request σ → Prop
  | .reply r => ∃ e, r = .refused e
  | .look _ => True
  | .act _ next => ∀ d, (next d).Settles

theorem heeds_guarded (act : σ → Response σ Reply) : (guarded act).Heeds 2 :=
  ⟨rfl, fun _ => trivial⟩

theorem heeds_checked (act : σ → Response σ Reply) : (checked act).Heeds 2 :=
  fun _ => ⟨rfl, trivial⟩

end Request

/-! ## Devices, action by action -/

/-- A device whose requests are taken apart. -/
class Stepwise (σ : Type) [Device σ] where
  /-- Whether an asking can go on at all; where it cannot, it is held up before its first action. -/
  ready : σ → Bool
  request : σ → Request σ
  ask_ready : ∀ (stopped : Bool) (d : σ), ready d = true →
    (request d).ask stopped d = Device.ask stopped d
  ask_blocked : ∀ (stopped : Bool) (d : σ), ready d = false →
    Device.ask stopped d = { reply := .waiting, device := d }

/-- Every device looks at the flag and then acts; nothing more is known in general. -/
instance (priority := low) Stepwise.atOnce {σ : Type} [Device σ] : Stepwise σ where
  ready _ := true
  request _ := .look fun stopped => .once (Device.ask stopped)
  ask_ready stopped d _ := Request.ask_once (Device.ask stopped) stopped d
  ask_blocked := nofun

/-- The requests of the device heed the flag. -/
class Cooperative (σ : Type) [Device σ] [Stepwise σ] : Prop where
  heeds : ∀ d : σ, (Stepwise.request d).Heeds 2
  settles : ∀ d : σ, (Stepwise.request d).Settles

instance : Stepwise Scripted where
  ready _ := true
  request _ := .guarded (Scripted.ask false)
  ask_ready stopped d _ := by
    rw [Request.ask_guarded]
    cases stopped <;> rfl
  ask_blocked := nofun

instance : Cooperative Scripted := ⟨fun _ => Request.heeds_guarded _, fun _ => trivial⟩

instance : Stepwise Channel where
  ready _ := true
  request _ := .guarded (Channel.ask false)
  ask_ready stopped c _ := by
    rw [Request.ask_guarded]
    cases stopped <;> rfl
  ask_blocked := nofun

instance : Cooperative Channel := ⟨fun _ => Request.heeds_guarded _, fun _ => trivial⟩

namespace Terminal

/-- Whether reading a line would not have to wait for one. -/
def hasLine (t : Terminal) : Bool := t.closed || t.input.contains newline

theorem readLine_blocked {t : Terminal} (stopped : Bool) (h : t.hasLine = false) :
    t.readLine stopped = { reply := .waiting, device := t } := by
  have hblocked : (!t.closed && !t.input.contains newline) = true := by
    rw [← Bool.not_or, ← hasLine, h]
    rfl
  exact if_pos hblocked

theorem not_waiting {t : Terminal} (h : t.hasLine = true) :
    (!t.closed && !t.input.contains newline) = false := by
  rw [← Bool.not_or, ← hasLine, h]
  rfl

/-- A line that has come is consumed, whatever it holds. -/
theorem readLine_device {t : Terminal} (stopped : Bool) (h : t.hasLine = true) :
    (t.readLine stopped).device = { t with input := (cutLine t.input).2, reading := false } := by
  simp only [readLine, not_waiting h, Bool.false_eq_true, if_false]
  split
  · rfl
  · split <;> rfl

/-- What is replied when this line has been read. -/
def replyTo (stopped : Bool) (line : List UInt8) : Reply :=
  if line.isEmpty then .refused .cancelled
  else
    match String.fromUTF8? line.toByteArray with
    | none => .refused .cancelled
    | some text => if stopped then .refused .cancelled else .ofAnswer text

theorem readLine_reply {t : Terminal} (stopped : Bool) (h : t.hasLine = true) :
    (t.readLine stopped).reply = replyTo stopped (cutLine t.input).1 := by
  simp only [readLine, replyTo, not_waiting h, Bool.false_eq_true, if_false]
  cases (cutLine t.input).1.isEmpty with
  | true => rfl
  | false => cases String.fromUTF8? (cutLine t.input).1.toByteArray <;> rfl

/-- The flag decides what a line that has been read counts for, and nothing else. -/
theorem readLine_stopped {t : Terminal} (stopped : Bool) (h : t.hasLine = true) :
    t.readLine stopped =
      { t.readLine false with
        reply := if stopped then .refused .cancelled else (t.readLine false).reply } := by
  cases stopped with
  | false => rfl
  | true =>
    simp only [readLine, not_waiting h, Bool.false_eq_true, if_false, if_true]
    cases (cutLine t.input).1.isEmpty with
    | true => rfl
    | false => cases String.fromUTF8? (cutLine t.input).1.toByteArray <;> rfl

theorem readLine_raisesStop (t : Terminal) (stopped : Bool) :
    (t.readLine stopped).raisesStop = false := by
  unfold readLine
  split
  · rfl
  · simp only
    split
    · rfl
    · split <;> rfl

instance : Stepwise Terminal where
  ready t := !t.reading || t.hasLine
  request t := if t.reading then .checked (readLine false) else .guarded (Terminal.ask false)
  ask_ready stopped t h := by
    by_cases hr : t.reading = true
    · rw [hr] at h
      rw [if_pos hr, Request.ask_checked stopped (readLine_raisesStop t false)]
      show _ = t.ask stopped
      rw [Terminal.ask, if_pos hr, readLine_stopped stopped h]
    · rw [if_neg hr, Request.ask_guarded]
      show _ = t.ask stopped
      cases stopped with
      | false => rfl
      | true => simp [Terminal.ask, hr]
  ask_blocked stopped t h := by
    rw [Bool.or_eq_false_iff, Bool.not_eq_false'] at h
    show t.ask stopped = _
    rw [Terminal.ask, if_pos h.1, readLine_blocked stopped h.2]

instance : Cooperative Terminal where
  heeds t := by
    show (if t.reading then _ else _ : Request Terminal).Heeds 2
    split
    · exact Request.heeds_checked _
    · exact Request.heeds_guarded _
  settles t := by
    show (if t.reading then _ else _ : Request Terminal).Settles
    split
    · exact fun _ => trivial
    · trivial

end Terminal

end StackMachine
