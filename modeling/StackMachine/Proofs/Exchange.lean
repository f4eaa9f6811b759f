/-
A channel at work. The machine's end makes requests and shows values, the operator's end sends
answers and collects values, either end may leave, and the stop flag may change. Each end does one
atomic action after the other, and the actions of the two are mixed in any order; an exchange is the
channel in the middle of that, with a record of what has gone in and come out at both ends.

`channel_keeps_every_message`: in no order of actions is a message lost, repeated or moved ahead of
another. Requests and calls that are not broken into are the channel's own operations
(`Exchange.request_unbroken`, `Exchange.drain_unbroken`).
-/
import StackMachine.Proofs.Request
import Mathlib.Data.List.Basic

namespace StackMachine

namespace Exchange

/-- A request that is over: what it has taken off the queue of answers, and what it replied. -/
structure Served where
  received : List String
  reply : Reply

/-- What the operator collects: the next value, for which it waits, or all that are there. -/
inductive Wanted
  | next
  | all
  deriving DecidableEq

end Exchange

structure Exchange where
  channel : Channel := {}
  /-- The stop flag. -/
  stopped : Bool := false
  /-- The request under way: what is left of it, and what it has taken off the queue. -/
  request : Option (Request Channel × List String) := none
  /-- The operator's call under way: what it is for, and the values it has taken. -/
  call : Option (Exchange.Wanted × List Word) := none
  /-- The answers that were sent and accepted, the oldest first. -/
  accepted : List String := []
  /-- The requests that are over, the oldest first. -/
  served : List Exchange.Served := []
  /-- The values that the machine has shown, the oldest first. -/
  emitted : List Word := []
  /-- The values that each call has returned, the oldest call first. -/
  collected : List (List Word) := []

namespace Exchange

/-! ## Actions -/

/-- What has gone from the front of a queue. -/
def gone {α : Type} (before after : List α) : List α := before.take (before.length - after.length)

/-- The request under way is over. -/
def serve (e : Exchange) (received : List String) (r : Reply) : Exchange :=
  { e with request := none, served := e.served ++ [⟨received, r⟩] }

/-- The next action of the request under way. A request that has to wait begins another round. -/
def poll (e : Exchange) (received : List String) : Request Channel → Exchange
  | .reply .pending | .reply .waiting =>
    { e with request := some (Stepwise.request e.channel, received) }
  | .reply r => e.serve received r
  | .look next => { e with request := some (next e.stopped, received) }
  | .act effect next =>
    let r := effect e.channel
    { e with
      channel := r.device
      stopped := e.stopped || r.raisesStop
      request := some (next e.channel, received ++ gone e.channel.answers r.device.answers) }

/-- The operator's call under way is over. -/
def collect (e : Exchange) (taken : List Word) : Exchange :=
  { e with call := none, collected := e.collected ++ [taken] }

/-- The next action of the call under way. A call for all values ends where there is none. -/
def take (e : Exchange) (taken : List Word) (w : Wanted) : Exchange :=
  match w, e.channel.next with
  | .next, (.value v, c) => { e with channel := c }.collect (taken ++ [v])
  | .next, (.ended, c) => { e with channel := c }.collect taken
  | .next, (.waiting, c) => { e with channel := c }
  | .all, (.value v, c) => { e with channel := c, call := some (.all, taken ++ [v]) }
  | .all, (_, c) => { e with channel := c }.collect taken

/-- What the two ends and the outside can do. -/
inductive Act
  /-- The stop flag is raised or taken down. -/
  | flag (raised : Bool)
  | request
  /-- The request under way goes on. -/
  | poll
  | emit (v : Word)
  /-- The machine's end leaves. -/
  | detach
  | answer (raw : String)
  | call (w : Wanted)
  /-- The operator's call under way goes on. -/
  | take
  /-- The operator's end leaves. -/
  | leave

/-- The machine's end is there and not in the middle of a request. -/
def machineFree (e : Exchange) : Bool := e.channel.machine && e.request.isNone

/-- The operator's end is there and not in the middle of a call. -/
def operatorFree (e : Exchange) : Bool := e.channel.operator && e.call.isNone

/-- One action. What an end cannot do at the moment changes nothing. -/
def act (e : Exchange) : Act → Exchange
  | .flag raised => { e with stopped := raised }
  | .request =>
    if e.machineFree then { e with request := some (Stepwise.request e.channel, []) } else e
  | .poll =>
    match e.request with
    | some (rest, received) => e.poll received rest
    | none => e
  | .emit v =>
    if e.machineFree then
      { e with channel := (Device.emit v e.channel).device, emitted := e.emitted ++ [v] }
    else e
  | .detach => if e.machineFree then { e with channel := e.channel.detach } else e
  | .answer raw =>
    if e.operatorFree then
      let r := e.channel.answer raw
      { e with channel := r.2, accepted := if r.1 then e.accepted ++ [raw] else e.accepted }
    else e
  | .call w => if e.operatorFree then { e with call := some (w, []) } else e
  | .take =>
    match e.call with
    | some (w, taken) => e.take taken w
    | none => e
  | .leave => if e.operatorFree then { e with channel := e.channel.leave } else e

/-- Actions one after the other, in the order that a schedule gives. -/
def play (e : Exchange) (acts : List Act) : Exchange := acts.foldl act e

/-- The answers taken off the queue by requests, the one under way included. -/
def received (e : Exchange) : List String :=
  e.served.flatMap Served.received ++ (e.request.map Prod.snd).getD []

/-- The values taken by the operator, those of the call under way included. -/
def taken (e : Exchange) : List Word := e.collected.flatten ++ (e.call.map Prod.snd).getD []

/-! ## Requests -/

/-- A request that is over has received nothing and was cancelled, or has received one answer and
replied what that spells. -/
def Served.Honest (q : Served) : Prop :=
  q.received = [] ∧ q.reply = .refused .cancelled ∨ ∃ raw, q.received = [raw] ∧ q.reply = .ofAnswer raw

/-- What is left of a request, together with what it has received. -/
inductive Polling : Request Channel → List String → Prop
  | look : Polling (.guarded (Channel.ask false)) []
  | receive : Polling (.once (Channel.ask false)) []
  | empty : Polling (.reply .waiting) []
  | cancelled : Polling (.reply (.refused .cancelled)) []
  | answered (raw : String) : Polling (.reply (.ofAnswer raw)) [raw]

theorem ofAnswer_ne_cancelled (raw : String) : Reply.ofAnswer raw ≠ .refused .cancelled := by
  unfold Reply.ofAnswer readAnswer
  simp only
  generalize Decimal.word? (Text.trimmed raw) = v
  cases v <;> simp

theorem Served.Honest.cancelled_iff {q : Served} (h : q.Honest) :
    q.reply = .refused .cancelled ↔ q.received = [] := by
  rcases h with ⟨hr, hc⟩ | ⟨raw, hr, ha⟩
  · simp [hr, hc]
  · simp [hr, ha, ofAnswer_ne_cancelled]

/-- Requests that were not cancelled and answers that were received go together one by one. -/
theorem replies_eq : ∀ (qs : List Served), (∀ q ∈ qs, q.Honest) →
    (qs.map Served.reply).filter (· ≠ .refused .cancelled) =
      (qs.flatMap Served.received).map Reply.ofAnswer
  | [], _ => rfl
  | q :: qs, h => by
    have ih := replies_eq qs fun q' hq' => h q' (List.mem_cons_of_mem _ hq')
    rcases h q List.mem_cons_self with ⟨hr, hc⟩ | ⟨raw, hr, ha⟩
    · rw [List.map_cons, List.flatMap_cons, hc, hr, List.filter_cons_of_neg (by simp), ih, List.nil_append]
    · rw [List.map_cons, List.flatMap_cons, ha, hr, List.filter_cons_of_pos (by simp [ofAnswer_ne_cancelled]),
        ih, List.map_append, List.map_singleton, List.singleton_append]

/-! ## What an action keeps -/

/-- What holds of the answers after any actions. -/
structure AnswersKept (e : Exchange) : Prop where
  present : e.request.isSome → e.channel.machine = true
  polling : ∀ rest received, e.request = some (rest, received) → Polling rest received
  served : ∀ q ∈ e.served, q.Honest
  all : e.channel.machine = true → e.received ++ e.channel.answers = e.accepted
  beginning : e.received <+: e.accepted

/-- What holds of the printed values after any actions. -/
structure ResultsKept (e : Exchange) : Prop where
  present : e.call.isSome → e.channel.operator = true
  all : e.channel.operator = true → e.taken ++ e.channel.results.toList = e.emitted
  beginning : e.taken <+: e.emitted

section Kept

variable {e : Exchange}

theorem machineFree_iff : e.machineFree = true ↔ e.channel.machine = true ∧ e.request = none := by
  simp [machineFree]

theorem operatorFree_iff : e.operatorFree = true ↔ e.channel.operator = true ∧ e.call = none := by
  simp [operatorFree]

/-- The answers do not depend on what the operator collects, what is shown, or the flag. -/
theorem AnswersKept.congr {e' : Exchange} (h : e.AnswersKept) (hm : e'.channel.machine = e.channel.machine)
    (ha : e'.channel.answers = e.channel.answers) (hr : e'.request = e.request)
    (hs : e'.served = e.served) (hacc : e'.accepted = e.accepted) : e'.AnswersKept := by
  have hreceived : e'.received = e.received := by rw [received, received, hr, hs]
  refine ⟨?_, ?_, ?_, ?_, ?_⟩
  · rw [hr, hm]; exact h.present
  · rw [hr]; exact h.polling
  · rw [hs]; exact h.served
  · rw [hm, ha, hacc, hreceived]; exact h.all
  · rw [hacc, hreceived]; exact h.beginning

theorem ResultsKept.congr {e' : Exchange} (h : e.ResultsKept) (ho : e'.channel.operator = e.channel.operator)
    (hres : e'.channel.results = e.channel.results) (hc : e'.call = e.call)
    (hcol : e'.collected = e.collected) (hem : e'.emitted = e.emitted) : e'.ResultsKept := by
  have htaken : e'.taken = e.taken := by rw [taken, taken, hc, hcol]
  refine ⟨?_, ?_, ?_⟩
  · rw [hc, ho]; exact h.present
  · rw [ho, hres, hem, htaken]; exact h.all
  · rw [hem, htaken]; exact h.beginning

/-! ### The machine's end -/

theorem received_of_request {rest : Request Channel} {got : List String} (hr : e.request = some (rest, got)) :
    e.received = e.served.flatMap Served.received ++ got := by
  simp [received, hr]

theorem received_of_none (hr : e.request = none) : e.received = e.served.flatMap Served.received := by
  simp [received, hr]

/-- The request goes on, and nothing has come or gone. -/
theorem AnswersKept.turn (h : e.AnswersKept) {rest rest' : Request Channel} {got : List String}
    (hr : e.request = some (rest, got)) (hp : Polling rest' got) :
    { e with request := some (rest', got) }.AnswersKept := by
  have hreceived : { e with request := some (rest', got) }.received = e.received := by
    rw [received_of_request hr]
    rfl
  refine ⟨fun _ => h.present (by rw [hr]; rfl), ?_, h.served, ?_, ?_⟩
  · rintro _ _ ⟨⟩
    exact hp
  · rw [hreceived]; exact h.all
  · rw [hreceived]; exact h.beginning

/-- The request is over, with what it has received. -/
theorem AnswersKept.serve (h : e.AnswersKept) {rest : Request Channel} {got : List String} {r : Reply}
    (hr : e.request = some (rest, got)) (hq : Served.Honest ⟨got, r⟩) :
    (e.serve got r).AnswersKept := by
  have hreceived : (e.serve got r).received = e.received := by
    rw [received_of_request hr, received_of_none rfl, Exchange.serve, List.flatMap_append, List.flatMap_singleton]
  refine ⟨nofun, nofun, ?_, ?_, ?_⟩
  · intro q hmem
    rcases List.mem_append.1 hmem with hmem | hmem
    · exact h.served q hmem
    · rw [List.mem_singleton.1 hmem]
      exact hq
  · rw [hreceived]; exact h.all
  · rw [hreceived]; exact h.beginning

/-- A look into the queue that finds nothing. -/
theorem poll_empty (hc : e.channel.answers = []) (got : List String) :
    e.poll got (.once (Channel.ask false)) =
      { e with
        request := some (.reply (if e.channel.operator then .waiting else .refused .cancelled), got) } := by
  simp [Exchange.poll, Request.once, Response.silent, Channel.ask, hc, gone]

/-- A look into the queue that finds an answer. -/
theorem poll_waiting {raw : String} {waiting : List String} (hc : e.channel.answers = raw :: waiting)
    (got : List String) :
    e.poll got (.once (Channel.ask false)) =
      { e with
        channel := { e.channel with answers := waiting }
        request := some (.reply (.ofAnswer raw), got ++ [raw]) } := by
  simp [Exchange.poll, Request.once, Response.silent, Channel.ask, hc, gone]

/-- An answer that waits is taken off the front of the queue. -/
theorem AnswersKept.receive (h : e.AnswersKept) {rest : Request Channel} (hr : e.request = some (rest, [])) :
    (e.poll [] (.once (Channel.ask false))).AnswersKept := by
  have hm := h.present (by rw [hr]; rfl)
  have hall := h.all hm
  rw [received_of_request hr, List.append_nil] at hall
  cases hc : e.channel.answers with
  | nil =>
    rw [poll_empty hc]
    refine h.turn hr ?_
    split
    · exact .empty
    · exact .cancelled
  | cons raw waiting =>
    rw [poll_waiting hc]
    rw [hc] at hall
    have hnow : e.served.flatMap Served.received ++ [raw] ++ waiting = e.accepted := by
      rw [List.append_assoc]
      exact hall
    refine ⟨fun _ => hm, ?_, h.served, fun _ => hnow, ⟨waiting, hnow⟩⟩
    rintro _ _ ⟨⟩
    exact .answered raw

theorem poll_ofAnswer (e : Exchange) (got : List String) (raw : String) :
    e.poll got (.reply (.ofAnswer raw)) = e.serve got (.ofAnswer raw) := by
  unfold Reply.ofAnswer
  cases readAnswer raw <;> rfl

theorem AnswersKept.poll (h : e.AnswersKept) {rest : Request Channel} {got : List String}
    (hr : e.request = some (rest, got)) : (e.poll got rest).AnswersKept := by
  cases h.polling rest got hr with
  | look =>
    refine h.turn hr ?_
    simp only
    split
    · exact .cancelled
    · exact .receive
  | receive => exact h.receive hr
  | empty => exact h.turn hr .look
  | cancelled => exact h.serve hr (.inl ⟨rfl, rfl⟩)
  | answered raw =>
    rw [poll_ofAnswer]
    generalize hreply : Reply.ofAnswer raw = r
    exact h.serve hr (.inr ⟨raw, rfl, hreply.symm⟩)

/-! ### The operator's end -/

theorem taken_of_call {w : Wanted} {got : List Word} (hc : e.call = some (w, got)) :
    e.taken = e.collected.flatten ++ got := by
  simp [taken, hc]

theorem taken_of_none (hc : e.call = none) : e.taken = e.collected.flatten := by
  simp [taken, hc]

/-- The call is over, with what it has taken. -/
theorem ResultsKept.collect (h : e.ResultsKept) {w : Wanted} {got : List Word}
    (hc : e.call = some (w, got)) : (e.collect got).ResultsKept := by
  have htaken : (e.collect got).taken = e.taken := by
    rw [taken_of_call hc, taken_of_none rfl, Exchange.collect, List.flatten_append, List.flatten_singleton]
  refine ⟨nofun, ?_, ?_⟩
  · rw [htaken]; exact h.all
  · rw [htaken]; exact h.beginning

/-- A value that waits is taken off the front of the queue. -/
theorem ResultsKept.value (h : e.ResultsKept) {w : Wanted} {got : List Word} (hc : e.call = some (w, got))
    {v : Word} {rest : List Word} (hv : e.channel.results.toList = v :: rest) :
    { e with
      channel := { e.channel with results := rest.toArray }
      call := some (w, got ++ [v]) }.ResultsKept := by
  have ho := h.present (by rw [hc]; rfl)
  have hall := h.all ho
  rw [taken_of_call hc, hv] at hall
  have hnow : e.collected.flatten ++ (got ++ [v]) ++ rest = e.emitted := by
    rw [← hall]
    simp
  exact ⟨fun _ => ho, fun _ => hnow, ⟨rest, hnow⟩⟩

theorem take_empty (hv : e.channel.results.toList = []) (got : List Word) (w : Wanted) :
    e.take got w = if w = .next ∧ e.channel.machine = true then e else e.collect got := by
  unfold Exchange.take Channel.next
  rw [hv]
  cases w <;> cases hm : e.channel.machine <;> simp

theorem take_value {v : Word} {rest : List Word} (hv : e.channel.results.toList = v :: rest)
    (got : List Word) (w : Wanted) :
    e.take got w =
      let e' := { e with
        channel := { e.channel with results := rest.toArray }
        call := some (w, got ++ [v]) }
      match w with
      | .next => e'.collect (got ++ [v])
      | .all => e' := by
  unfold Exchange.take Channel.next
  rw [hv]
  cases w <;> rfl

theorem ResultsKept.take (h : e.ResultsKept) {w : Wanted} {got : List Word}
    (hc : e.call = some (w, got)) : (e.take got w).ResultsKept := by
  cases hv : e.channel.results.toList with
  | nil =>
    rw [take_empty hv]
    split
    · exact h
    · exact h.collect hc
  | cons v rest =>
    have hvalue := h.value hc hv
    rw [take_value hv]
    cases w with
    | next => exact hvalue.collect rfl
    | all => exact hvalue

/-! ### All actions -/

/-- Collecting values does not touch the answers. -/
theorem AnswersKept.take (h : e.AnswersKept) (got : List Word) (w : Wanted) :
    (e.take got w).AnswersKept := by
  cases hv : e.channel.results.toList with
  | nil =>
    rw [take_empty hv]
    split
    · exact h
    · exact h.congr rfl rfl rfl rfl rfl
  | cons v rest =>
    rw [take_value hv]
    cases w <;> exact h.congr rfl rfl rfl rfl rfl

/-- Requests do not touch the values. -/
theorem ResultsKept.poll (h : e.ResultsKept) (ha : e.AnswersKept) {rest : Request Channel}
    {got : List String} (hr : e.request = some (rest, got)) : (e.poll got rest).ResultsKept := by
  cases ha.polling rest got hr with
  | receive =>
    cases hc : e.channel.answers with
    | nil =>
      rw [poll_empty hc]
      exact h.congr rfl rfl rfl rfl rfl
    | cons raw waiting =>
      rw [poll_waiting hc]
      exact h.congr rfl rfl rfl rfl rfl
  | answered raw =>
    rw [poll_ofAnswer]
    exact h.congr rfl rfl rfl rfl rfl
  | _ => exact h.congr rfl rfl rfl rfl rfl

/-- An action that is not possible changes nothing. -/
theorem keeps_if {P : Exchange → Prop} {free : Bool} {e' : Exchange} (h : P e)
    (h' : free = true → P e') : P (if free = true then e' else e) := by
  split
  · rename_i hfree
    exact h' hfree
  · exact h

theorem AnswersKept.act (h : e.AnswersKept) (a : Act) : (e.act a).AnswersKept := by
  cases a with
  | flag raised => exact h.congr rfl rfl rfl rfl rfl
  | request =>
    refine keeps_if h fun hfree => ?_
    obtain ⟨hm, hr⟩ := machineFree_iff.1 hfree
    have hall := h.all hm
    have hbeg := h.beginning
    rw [received_of_none hr] at hall hbeg
    refine ⟨fun _ => hm, ?_, h.served, fun _ => ?_, ?_⟩
    · rintro _ _ ⟨⟩
      exact .look
    · rw [received_of_request rfl, List.append_nil]; exact hall
    · rw [received_of_request rfl, List.append_nil]; exact hbeg
  | poll =>
    simp only [Exchange.act]
    split
    · rename_i hr
      exact h.poll hr
    · exact h
  | emit v =>
    refine keeps_if h fun _ => h.congr ?_ ?_ rfl rfl rfl <;>
      simp only [Device.emit, Channel.emit] <;> split <;> rfl
  | detach =>
    refine keeps_if h fun hfree => ?_
    obtain ⟨-, hr⟩ := machineFree_iff.1 hfree
    exact ⟨fun hs => by simp [hr] at hs, h.polling, h.served, nofun, h.beginning⟩
  | answer raw =>
    refine keeps_if h fun _ => ?_
    cases hm : e.channel.machine with
    | true =>
      have hall : e.received ++ (e.channel.answers ++ [raw]) = e.accepted ++ [raw] := by
        rw [← List.append_assoc, h.all hm]
      simp only [Channel.answer, hm, if_true]
      exact ⟨fun _ => rfl, h.polling, h.served, fun _ => hall, ⟨_, hall⟩⟩
    | false =>
      simp only [Channel.answer, hm, Bool.false_eq_true, if_false]
      exact h
  | call w => exact keeps_if h fun _ => h.congr rfl rfl rfl rfl rfl
  | take =>
    simp only [Exchange.act]
    split
    · exact h.take _ _
    · exact h
  | leave => exact keeps_if h fun _ => h.congr rfl rfl rfl rfl rfl

theorem ResultsKept.act (h : e.ResultsKept) (ha : e.AnswersKept) (a : Act) : (e.act a).ResultsKept := by
  cases a with
  | flag raised => exact h.congr rfl rfl rfl rfl rfl
  | request => exact keeps_if h fun _ => h.congr rfl rfl rfl rfl rfl
  | poll =>
    simp only [Exchange.act]
    split
    · rename_i hr
      exact h.poll ha hr
    · exact h
  | emit v =>
    refine keeps_if h fun _ => ?_
    cases ho : e.channel.operator with
    | true =>
      have hall : e.taken ++ (e.channel.results.push v).toList = e.emitted ++ [v] := by
        rw [Array.toList_push, ← List.append_assoc, h.all ho]
      simp only [Device.emit, Channel.emit, ho, if_true]
      exact ⟨fun _ => rfl, fun _ => hall, ⟨_, hall⟩⟩
    | false =>
      -- the operator has left: the value counts as shown and goes nowhere
      simp only [Device.emit, Channel.emit, ho, Bool.false_eq_true, if_false]
      refine ⟨h.present, fun hs => ?_, h.beginning.trans (List.prefix_append _ _)⟩
      rw [ho] at hs
      cases hs
  | detach => exact keeps_if h fun _ => h.congr rfl rfl rfl rfl rfl
  | answer raw =>
    refine keeps_if h fun _ => h.congr ?_ ?_ rfl rfl rfl <;> simp only [Channel.answer] <;> split <;> rfl
  | call w =>
    refine keeps_if h fun hfree => ?_
    obtain ⟨ho, hc⟩ := operatorFree_iff.1 hfree
    have hall := h.all ho
    have hbeg := h.beginning
    rw [taken_of_none hc] at hall hbeg
    refine ⟨fun _ => ho, fun _ => ?_, ?_⟩
    · rw [taken_of_call rfl, List.append_nil]; exact hall
    · rw [taken_of_call rfl, List.append_nil]; exact hbeg
  | take =>
    simp only [Exchange.act]
    split
    · rename_i hc
      exact h.take hc
    · exact h
  | leave =>
    refine keeps_if h fun hfree => ?_
    obtain ⟨-, hc⟩ := operatorFree_iff.1 hfree
    exact ⟨fun hs => by simp [hc] at hs, nofun, h.beginning⟩

theorem kept_play : ∀ (acts : List Act) {e : Exchange}, e.AnswersKept → e.ResultsKept →
    (e.play acts).AnswersKept ∧ (e.play acts).ResultsKept
  | [], _, ha, hr => ⟨ha, hr⟩
  | a :: acts, _, ha, hr => kept_play acts (ha.act a) (hr.act ha a)

end Kept

/-! ## Requests and calls that are not broken into -/

theorem play_cons (e : Exchange) (a : Act) (acts : List Act) : e.play (a :: acts) = (e.act a).play acts := rfl

theorem act_poll {e : Exchange} {rest : Request Channel} {got : List String}
    (hr : e.request = some (rest, got)) : e.act .poll = e.poll got rest := by
  simp only [act, hr]

theorem act_take {e : Exchange} {w : Wanted} {got : List Word} (hc : e.call = some (w, got)) :
    e.act .take = e.take got w := by
  simp only [act, hc]

/-- A request that does not have to wait, done without a break, is an asking of the device. -/
theorem request_unbroken {e : Exchange} (hfree : e.machineFree = true) :
    let r := Device.ask e.stopped e.channel
    r.reply ≠ .waiting → e.play [.request, .poll, .poll, .poll] =
      { e with channel := r.device }.serve (gone e.channel.answers r.device.answers) r.reply := by
  intro r hw
  have hr : r = e.channel.ask e.stopped := rfl
  have hstart : e.act .request = { e with request := some (.guarded (Channel.ask false), []) } := if_pos hfree
  rw [play_cons, hstart, play_cons, act_poll rfl]
  cases hs : e.stopped with
  | true =>
    rw [hr, hs]
    simp only [Exchange.poll, Request.guarded, if_true]
    rw [play_cons, act_poll rfl]
    simp [play, act, Exchange.poll, serve, Channel.ask, gone]
  | false =>
    rw [hr, hs] at hw ⊢
    -- the flag was down when it was looked at, so the queue is looked into next
    let e' : Exchange := { e with stopped := false, request := some (.once (Channel.ask false), []) }
    show (e'.poll [] (.once (Channel.ask false))).play [.poll] = _
    cases hc : e.channel.answers with
    | nil =>
      rw [poll_empty (e := e') hc]
      cases ho : e.channel.operator with
      | true => simp [Channel.ask, hc, ho] at hw
      | false => simp [e', play, act, Exchange.poll, serve, Channel.ask, hc, ho, gone]
    | cons raw waiting =>
      rw [poll_waiting (e := e') hc, play_cons, act_poll rfl, poll_ofAnswer]
      simp [e', play, serve, Channel.ask, hc, gone]

theorem play_takes : ∀ (vs : List Word) {e : Exchange} {got : List Word}, e.call = some (.all, got) →
    e.channel.results.toList = vs →
      e.play (List.replicate (vs.length + 1) .take) = { e with channel := e.channel.drain.2 }.collect (got ++ vs)
  | [], e, got, hc, hv => by
    have hempty : { e with channel := e.channel.drain.2 } = e := by
      rw [Channel.drain, ← Array.toList_eq_nil_iff.1 hv]
    rw [List.length_nil, List.replicate_one, play_cons, act_take hc, take_empty hv, if_neg (by simp), hempty,
      List.append_nil]
    rfl
  | v :: vs, e, got, hc, hv => by
    rw [List.length_cons, List.replicate_succ, play_cons, act_take hc, take_value hv, play_takes vs rfl rfl]
    simp [Channel.drain, collect]

/-- Collecting all values without a break is draining the channel. -/
theorem drain_unbroken {e : Exchange} (hfree : e.operatorFree = true) :
    e.play (.call .all :: List.replicate (e.channel.results.size + 1) .take) =
      { e with channel := e.channel.drain.2 }.collect e.channel.drain.1.toList := by
  have hstart : e.act (.call .all) = { e with call := some (.all, []) } := if_pos hfree
  rw [play_cons, hstart, ← Array.length_toList]
  exact play_takes e.channel.results.toList (e := { e with call := some (.all, []) }) rfl rfl

/-! ## The law -/

/-- No message has been lost, repeated or moved ahead of another. -/
structure Faithful (e : Exchange) : Prop where
  /-- Until the machine leaves, what was received and what still waits is what was accepted. -/
  answers : e.channel.machine = true → e.received ++ e.channel.answers = e.accepted
  /-- After that, what was received is the beginning of it. -/
  received : e.received <+: e.accepted
  /-- A request has received nothing and was cancelled, or has received one answer and replied it. -/
  served : ∀ q ∈ e.served, q.received = [] ∧ q.reply = .refused .cancelled ∨
    ∃ raw, q.received = [raw] ∧ q.reply = .ofAnswer raw
  /-- The replies that are no cancellations are the answers received, one by one. -/
  replies : (e.served.map Served.reply).filter (· ≠ .refused .cancelled) =
    (e.served.flatMap Served.received).map Reply.ofAnswer
  cancelled : ∀ q ∈ e.served, q.reply = .refused .cancelled ↔ q.received = []
  /-- As long as the operator is there, what it has taken and what still waits is what was shown. -/
  results : e.channel.operator = true → e.taken ++ e.channel.results.toList = e.emitted
  taken : e.taken <+: e.emitted

end Exchange

/-- However the actions of the two ends are mixed, the channel keeps every message. -/
theorem channel_keeps_every_message (acts : List Exchange.Act) : (({} : Exchange).play acts).Faithful := by
  obtain ⟨ha, hr⟩ := Exchange.kept_play acts (e := {})
    ⟨nofun, nofun, nofun, fun _ => rfl, List.prefix_refl _⟩ ⟨nofun, fun _ => rfl, List.prefix_refl _⟩
  exact ⟨ha.all, ha.beginning, ha.served, Exchange.replies_eq _ ha.served,
    fun q hq => (ha.served q hq).cancelled_iff, hr.all, hr.beginning⟩

end StackMachine
