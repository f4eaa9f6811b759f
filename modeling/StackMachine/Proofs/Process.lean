/-
Sessions taken apart: a process is a session in the middle of whatever it is doing, together with
what is to be done next and what has happened so far. It works one atomic action at a time, looking
at the stop flag, fetching, counting, one access of an operation, one action of the device, and
between two of them anybody may raise the flag and the outside may change the device.

Processes are what sessions are made of: every tick is a number of actions done without a break
(`Process.tick_leads`), so every run is (`Process.run_leads`), and every reachable session is that
of a process (`Process.of_reachable`).
-/
import StackMachine.Proofs.Request
import StackMachine.Proofs.Session

namespace StackMachine

/-- What a process does next. -/
inductive Stage (σ : Type)
  /-- No run is under way. -/
  | idle
  /-- The top of the loop: look at the stop flag. -/
  | look
  | fetch
  /-- Count the instruction in hand. -/
  | charge (op : Operation)
  /-- Go on with the operation begun at `pc`. -/
  | script (pc : Int) (op : Operation) (rest : Script)
  /-- Ask the device for the answer to an `RD`. -/
  | ask
  | request (rest : Request σ)
  /-- Show the value that the operation begun at `pc` has printed. -/
  | emit (pc : Int) (op : Operation) (v : Word)
  | record (pc : Int) (op : Operation)
  | advance (op : Operation)
  | finish (e : Ending)

/-- What an observer of a process notes down. -/
inductive Event
  | completed (op : Operation)
  | requested
  | emitted (v : Word)
  | ended (o : Outcome)
  deriving DecidableEq

structure Process (σ : Type) where
  session : Session σ
  stage : Stage σ := .idle
  /-- What has happened, the latest event first. -/
  history : List Event := []

/-- What fetching leads to. -/
def Stage.ofFetch {σ : Type} : Option (Except DecodeError Operation) → Stage σ
  | none => .finish .endOfProgram
  | some (.error e) => .finish (.fault (.undecodable e))
  | some (.ok .hlt) => .finish .halt
  | some (.ok op) => .charge op

theorem Stage.ofFetch_executable {σ : Type} {op : Operation} (h : op ≠ .hlt) :
    (ofFetch (some (.ok op)) : Stage σ) = .charge op := by
  cases op with
  | hlt => exact absurd rfl h
  | _ => rfl

theorem Stage.ofFetch_ne_request {σ : Type} (r : Option (Except DecodeError Operation))
    (rest : Request σ) : ofFetch r ≠ .request rest := by
  rcases r with _ | _ | op
  · exact fun h => nomatch h
  · exact fun h => nomatch h
  · cases op <;> exact fun h => nomatch h

/-- What the answer to an `RD` leads to. -/
def Stage.ofReply {σ : Type} (pc : Int) : Reply → Stage σ
  | .answer v => .script pc .rd (.push v (.done .nothing))
  | .refused e => .finish (.fault e.toFault)
  | .pending | .waiting => .ask

/-- The instruction begun at `pc` is done: its entry goes into the trace, if one is kept. -/
def Session.noted {σ : Type} (s : Session σ) (pc : Int) (op : Operation) : Session σ :=
  { s with
    machine := s.recorded pc op
    log := if s.settings.trace then s.log.push (.step s.machine.steps pc op s.machine.sp) else s.log }

namespace Process

variable {σ : Type}

/-! ## Working -/

/-- The next action of an operation in hand. -/
def workScript (p : Process σ) (pc : Int) (op : Operation) : Script → Process σ
  | .done .nothing => { p with stage := .record pc op }
  | .done (.output v) => { p with stage := .emit pc op v }
  | .done .input =>
    { session := { p.session with phase := .reading }, stage := .ask, history := .requested :: p.history }
  | .fail f => { p with stage := .finish (.fault f) }
  | rest =>
    { p with
      session := { p.session with machine := (rest.step p.session.machine).2 }
      stage := .script pc op (rest.step p.session.machine).1 }

theorem workScript_step (p : Process σ) (pc : Int) (op : Operation) {rest : Script}
    (h : 0 < rest.length p.session.machine) :
    p.workScript pc op rest =
      { p with
        session := { p.session with machine := (rest.step p.session.machine).2 }
        stage := .script pc op (rest.step p.session.machine).1 } := by
  cases rest with
  | done d => cases h
  | fail f => cases h
  | _ => rfl

/-- The next action of a request. -/
def workRequest (p : Process σ) : Request σ → Process σ
  | .reply r => { p with stage := .ofReply p.session.machine.pc r }
  | .look next => { p with stage := .request (next p.session.stopped) }
  | .act effect next =>
    { p with
      session := (p.session.consult effect).2
      stage := .request (next p.session.device) }

variable [Device σ] [Stepwise σ]

/-- One atomic action. -/
def work (p : Process σ) : Process σ :=
  match p.stage with
  | .idle => p
  | .look => { p with stage := if p.session.stopped then .finish .stopped else .fetch }
  | .fetch => { p with stage := .ofFetch (p.session.image.fetch? p.session.machine.pc) }
  | .charge op =>
    match p.session.machine.charge p.session.settings.stepLimit with
    | .error f => { p with stage := .finish (.fault f) }
    | .ok m =>
      { p with
        session := { p.session with machine := m }
        stage := .script m.pc op (op.script p.session.image.labels) }
  | .script pc op rest => p.workScript pc op rest
  | .ask =>
    if Stepwise.ready p.session.device then
      { p with stage := .request (Stepwise.request p.session.device) }
    else p
  | .request rest => p.workRequest rest
  | .emit pc op v =>
    { session := p.session.shown v, stage := .record pc op, history := .emitted v :: p.history }
  | .record pc op => { p with session := p.session.noted pc op, stage := .advance op }
  | .advance op =>
    { session := { p.session with machine := p.session.machine.advance, phase := .running }
      stage := .look
      history := .completed op :: p.history }
  | .finish e =>
    { session := (p.session.finish e).2
      stage := .idle
      history := .ended (p.session.outcome e) :: p.history }

theorem work_ready {s : Session σ} (h : Stepwise.ready s.device = true) (history : List Event) :
    work ⟨s, .ask, history⟩ = ⟨s, .request (Stepwise.request s.device), history⟩ := if_pos h

/-- A process that is held up does not get anywhere. -/
theorem work_blocked {s : Session σ} (h : Stepwise.ready s.device = false) (history : List Event) :
    work ⟨s, .ask, history⟩ = ⟨s, .ask, history⟩ := if_neg (by rw [h]; exact Bool.false_ne_true)

end Process

/-! ## Commands -/

/-- What can happen while a run is under way. -/
inductive Process.Move (σ : Type)
  | work
  /-- Somebody raises the stop flag. -/
  | stop
  /-- The device changes by itself: input arrives, an operator answers or leaves. -/
  | outside (change : σ → σ)

/-- What can happen to a process. -/
inductive Process.Command (σ : Type)
  /-- Start a run; a process in the middle of one is not started again. -/
  | run
  | reset
  | move (m : Process.Move σ)

namespace Process

variable {σ : Type}

def create (settings : Settings) (program : Program) (device : σ) : Process σ :=
  { session := .create settings program device }

def stop (p : Process σ) : Process σ := { p with session := p.session.stop }

def outside (change : σ → σ) (p : Process σ) : Process σ :=
  { p with session := { p.session with device := change p.session.device } }

def reset (p : Process σ) : Process σ := { p with session := p.session.reset, stage := .idle }

/-- A halted session refuses to run. -/
def start (p : Process σ) : Process σ :=
  match p.stage with
  | .idle =>
    if p.session.phase = .halted then
      { p with history := .ended (p.session.outcome (.fault .alreadyHalted)) :: p.history }
    else
      { p with
        session := { p.session with
          phase := .running
          log := p.session.log.push (.runStarted p.session.image.code.size) }
        stage := .look }
  | _ => p

/-- Where a process stands between two ticks. -/
def between (s : Session σ) (history : List Event) : Process σ where
  session := s
  stage := match s.phase with
    | .ready | .halted => .idle
    | .running => .look
    | .reading => .ask
  history := history

theorem between_idle {s : Session σ} (h : s.phase = .ready ∨ s.phase = .halted) (history : List Event) :
    between s history = ⟨s, .idle, history⟩ := by
  rcases h with h | h <;> simp only [between, h]

theorem between_running {s : Session σ} (h : s.phase = .running) (history : List Event) :
    between s history = ⟨s, .look, history⟩ := by
  simp only [between, h]

theorem between_reading {s : Session σ} (h : s.phase = .reading) (history : List Event) :
    between s history = ⟨s, .ask, history⟩ := by
  simp only [between, h]

variable [Device σ] [Stepwise σ]

def move (p : Process σ) : Move σ → Process σ
  | .work => p.work
  | .stop => p.stop
  | .outside change => p.outside change

def command (p : Process σ) : Command σ → Process σ
  | .run => p.start
  | .reset => p.reset
  | .move m => p.move m

/-- Makes moves one after the other. -/
def follow (p : Process σ) (moves : List (Move σ)) : Process σ := moves.foldl move p

/-- Carries commands out one after the other. -/
def play (p : Process σ) (commands : List (Command σ)) : Process σ := commands.foldl command p

/-- What every command keeps holds of every process that a session can come to. -/
theorem play_keeps {P : Process σ → Prop} (hP : ∀ p c, P p → P (p.command c)) :
    ∀ (commands : List (Command σ)) {p : Process σ}, P p → P (p.play commands)
  | [], _, hp => hp
  | c :: commands, p, hp => play_keeps hP commands (hP p c hp)

theorem follow_keeps {P : Process σ → Prop} (hP : ∀ p m, P p → P (p.move m)) :
    ∀ (moves : List (Move σ)) {p : Process σ}, P p → P (p.follow moves)
  | [], _, hp => hp
  | m :: moves, p, hp => follow_keeps hP moves (hP p m hp)

/-! ## Actions without a break -/

/-- `q` is what some commands make of `p`. -/
def Leads (p q : Process σ) : Prop := ∃ commands, p.play commands = q

theorem Leads.refl (p : Process σ) : p.Leads p := ⟨[], rfl⟩

theorem Leads.trans {p q r : Process σ} : p.Leads q → q.Leads r → p.Leads r := by
  rintro ⟨first, rfl⟩ ⟨second, rfl⟩
  exact ⟨first ++ second, List.foldl_append⟩

theorem Leads.command {p q : Process σ} (c : Command σ) (h : (p.command c).Leads q) : p.Leads q :=
  Leads.trans ⟨[c], rfl⟩ h

/-- The action comes first. -/
theorem Leads.work {p q : Process σ} : p.work.Leads q → p.Leads q := Leads.command (.move .work)

/-- The actions of a script lead to where executing it ends. -/
theorem script_leads (pc : Int) (op : Operation) (history : List Event) :
    ∀ (n : Nat) (rest : Script) (s : Session σ), rest.length s.machine = n →
      (∀ d m, rest.exec s.machine = .ok d m →
        Leads ⟨s, .script pc op rest, history⟩ ⟨{ s with machine := m }, .script pc op (.done d), history⟩) ∧
      ∀ f m, rest.exec s.machine = .error f m →
        Leads ⟨s, .script pc op rest, history⟩ ⟨{ s with machine := m }, .script pc op (.fail f), history⟩
  | 0, rest, s, hn => by
    rcases rest.length_eq_zero hn with ⟨d, rfl⟩ | ⟨f, rfl⟩
    · exact ⟨fun _ _ he => by cases he; exact .refl _, fun _ _ he => nomatch he⟩
    · exact ⟨(fun _ _ he => nomatch he), fun _ _ he => by cases he; exact .refl _⟩
  | n + 1, rest, s, hn => by
    -- each action leaves one action less to do and the same result to come
    have hlength := rest.length_step s.machine
    obtain ⟨hok, herror⟩ := script_leads pc op history n (rest.step s.machine).1
      { s with machine := (rest.step s.machine).2 } (by rw [hlength, hn]; rfl)
    simp only [rest.exec_step] at hok herror
    have hwork : (⟨s, .script pc op rest, history⟩ : Process σ).work = _ :=
      workScript_step ⟨s, .script pc op rest, history⟩ pc op (by rw [hn]; exact Nat.succ_pos n)
    exact ⟨fun d m he => .work (hwork ▸ hok d m he), fun f m he => .work (hwork ▸ herror f m he)⟩

theorem request_leads (history : List Event) (rest : Request σ) (s : Session σ) :
    Leads ⟨s, .request rest, history⟩
      ⟨(s.consult (rest.ask s.stopped)).2, .request (.reply (rest.ask s.stopped s.device).reply),
        history⟩ := by
  induction rest generalizing s with
  | reply r =>
    simp only [Session.consult_eq, Request.ask, List.map_nil, Array.append_empty, Bool.or_false]
    exact .refl _
  | look next ih => exact .work (ih s.stopped s)
  | act effect next ih =>
    have h := ih s.device (s.consult effect).2
    simp only [Session.consult_eq, Request.ask, List.map_append, ← List.append_toArray, Array.append_assoc,
      Bool.or_assoc] at h ⊢
    exact .work h

/-! ## Ticks and runs -/

/-- An instruction that begins gets as far as its operation takes it. -/
theorem begins_leads {s : Session σ} {op : Operation} (hb : s.Begins op) (history : List Event) :
    (∀ d m, op.execute s.image.labels s.machine.counted = .ok d m →
      (between s history).Leads ⟨{ s with machine := m }, .script s.machine.pc op (.done d), history⟩) ∧
    ∀ f m, op.execute s.image.labels s.machine.counted = .error f m →
      (between s history).Leads ⟨{ s with machine := m }, .script s.machine.pc op (.fail f), history⟩ := by
  have hstart : (between s history).Leads
      ⟨{ s with machine := s.machine.counted }, .script s.machine.pc op (op.script s.image.labels),
        history⟩ := by
    rw [between_running hb.running]
    refine .work (.work (.work ?_))
    simp only [work, hb.unstopped, Bool.false_eq_true, if_false, hb.fetched,
      Stage.ofFetch_executable hb.executable, Machine.charge_within hb.within]
    exact .refl _
  obtain ⟨hok, herror⟩ := script_leads s.machine.pc op history _ (op.script s.image.labels)
    { s with machine := s.machine.counted } rfl
  simp only [op.exec_script] at hok herror
  exact ⟨fun d m he => hstart.trans (hok d m he), fun f m he => hstart.trans (herror f m he)⟩

/-- What a tick that does `r` makes of a process that has come as far as `p`. -/
def Ticked (p : Process σ) (r : Progress × Session σ) : Prop :=
  ∃ later, p.Leads (between r.2 later) ∧ ∀ o, r.1 = .ended o → later.head? = some (.ended o)

theorem ticked_running {p : Process σ} {s : Session σ} (later : List Event)
    (h : p.Leads (between s later)) : p.Ticked (.running, s) :=
  ⟨later, h, fun _ ho => nomatch ho⟩

theorem ticked_retire {p : Process σ} {s : Session σ} {pc : Int} {op : Operation} (history : List Event)
    (h : p.Leads ⟨s, .record pc op, history⟩) : p.Ticked (s.retire pc op) := by
  rw [Session.retire_eq]
  refine ticked_running (.completed op :: history) (h.trans ?_)
  rw [between_running rfl]
  refine .work (.work ?_)
  exact .refl _

theorem ticked_finish {p : Process σ} {s : Session σ} {e : Ending} (history : List Event)
    (h : p.Leads ⟨s, .finish e, history⟩) : p.Ticked (s.finish e) := by
  refine ⟨.ended (s.outcome e) :: history, h.trans ?_, fun o ho => by cases ho; rfl⟩
  rw [between_idle (.inr rfl)]
  refine .work ?_
  exact .refl _

/-- A request that is not held up gets as far as its reply. -/
theorem asked_leads {s : Session σ} (hp : s.phase = .reading) (history : List Event)
    (hr : Stepwise.ready s.device = true) :
    (between s history).Leads
      ⟨s.asked, .ofReply s.machine.pc (Device.ask s.stopped s.device).reply, history⟩ := by
  rw [between_reading hp]
  refine .work ?_
  rw [work_ready hr]
  refine (request_leads history (Stepwise.request s.device) s).trans (.work ?_)
  simp only [work, workRequest, Session.consult_eq, Stepwise.ask_ready s.stopped s.device hr]
  exact .refl _

/-- Where a reply is worth asking for, the device is not held up. -/
theorem ready_of_reply {s : Session σ} {r : Reply} (hr : (Device.ask s.stopped s.device).reply = r)
    (h : r ≠ .waiting) : Stepwise.ready s.device = true := by
  by_contra hb
  rw [Bool.not_eq_true] at hb
  rw [Stepwise.ask_blocked s.stopped s.device hb] at hr
  exact h hr.symm

theorem asked_blocked {s : Session σ} (h : Stepwise.ready s.device = false) : s.asked = s := by
  simp only [Session.asked, Session.consult_eq, Stepwise.ask_blocked s.stopped s.device h, List.map_nil,
    Array.append_empty, Bool.or_false]

/-- The answer to an `RD` goes on the stack. -/
theorem answer_leads {s : Session σ} {v : Word} (hp : s.phase = .reading) (history : List Event)
    (hr : (Device.ask s.stopped s.device).reply = .answer v) :
    (∀ m, (Script.push v (.done .nothing)).exec s.machine = .ok .nothing m →
      (between s history).Leads ⟨{ s.asked with machine := m }, .record s.machine.pc .rd, history⟩) ∧
    ∀ f m, (Script.push v (.done .nothing)).exec s.machine = .error f m →
      (between s history).Leads ⟨{ s.asked with machine := m }, .finish (.fault f), history⟩ := by
  have hasked := asked_leads hp history (ready_of_reply hr nofun)
  rw [hr] at hasked
  obtain ⟨hok, herror⟩ :=
    script_leads s.machine.pc .rd history _ (.push v (.done .nothing)) s.asked rfl
  refine ⟨fun m he => (hasked.trans (hok .nothing m he)).trans (.work ?_),
    fun f m he => (hasked.trans (herror f m he)).trans (.work ?_)⟩
  · exact .refl _
  · exact .refl _

theorem ticks_leads {s : Session σ} {r : Progress × Session σ} (ht : s.Ticks r) (history : List Event) :
    (between s history).Ticked r := by
  cases ht with
  | start hp =>
    apply ticked_running history
    rw [between_idle (.inl hp), between_running rfl]
    refine .command .run ?_
    simp only [command, start, hp]
    exact .refl _
  | refuse hp =>
    refine ⟨.ended _ :: history, ?_, fun o ho => by cases ho; rfl⟩
    rw [between_idle (.inr hp), between_idle (.inr hp)]
    refine .command .run ?_
    simp only [command, start, hp, if_true]
    exact .refl _
  | finish hp he =>
    apply ticked_finish history
    rw [between_running hp]
    cases he with
    | stopped hs =>
      refine .work ?_
      simp only [work, hs, if_true]
      exact .refl _
    | left hs hf =>
      refine .work (.work ?_)
      simp only [work, hs, Bool.false_eq_true, if_false, hf]
      exact .refl _
    | undecodable hs hf =>
      refine .work (.work ?_)
      simp only [work, hs, Bool.false_eq_true, if_false, hf]
      exact .refl _
    | halt hs hf =>
      refine .work (.work ?_)
      simp only [work, hs, Bool.false_eq_true, if_false, hf]
      exact .refl _
    | limit hs hf hop hn hle =>
      refine .work (.work (.work ?_))
      simp only [work, hs, Bool.false_eq_true, if_false, hf, Stage.ofFetch_executable hop,
        Machine.charge_beyond hn hle]
      exact .refl _
  | fail hb he =>
    apply ticked_finish history
    refine ((begins_leads hb history).2 _ _ he).trans (.work ?_)
    exact .refl _
  | work hb he =>
    apply ticked_retire history
    refine ((begins_leads hb history).1 _ _ he).trans (.work ?_)
    exact .refl _
  | @print op v m hb he =>
    apply ticked_retire (.emitted v :: history)
    refine ((begins_leads hb history).1 _ _ he).trans (.work (.work ?_))
    exact .refl _
  | read hb he =>
    apply ticked_running (.requested :: history)
    refine ((begins_leads hb history).1 _ _ he).trans (.work ?_)
    rw [between_reading rfl]
    exact .refl _
  | pending hp hr =>
    have h := asked_leads hp history (ready_of_reply hr (by simp))
    rw [hr] at h
    exact ticked_running history (between_reading (s := s.asked) hp history ▸ h)
  | waiting hp hr =>
    refine ⟨history, ?_, fun _ ho => nomatch ho⟩
    by_cases hready : Stepwise.ready s.device = true
    · have h := asked_leads hp history hready
      rw [hr] at h
      exact between_reading (s := s.asked) hp history ▸ h
    · -- a request that is held up has not begun, so the tick changes nothing
      rw [Bool.not_eq_true] at hready
      show (between s history).Leads (between s.asked history)
      rw [asked_blocked hready]
      exact .refl _
  | refused hp hr =>
    have h := asked_leads hp history (ready_of_reply hr (by simp))
    rw [hr] at h
    exact ticked_finish history h
  | overflow hp hr hc => exact ticked_finish history ((answer_leads hp history hr).2 _ _ (if_neg hc))
  | answer hp hr hc => exact ticked_retire history ((answer_leads hp history hr).1 _ (if_pos hc))

/-- A tick is a number of actions done without a break. -/
theorem tick_leads (s : Session σ) (history : List Event) : (between s history).Ticked s.tick :=
  ticks_leads s.tick_ticks history

/-- So is a run, and the outcome that it gives is the one that the process has ended with. -/
theorem run_leads : ∀ (n : Nat) (s : Session σ) (history : List Event),
    ∃ later, (between s history).Leads (between (s.run n).2 later) ∧
      ∀ o, (s.run n).1 = .ended o → later.head? = some (.ended o)
  | 0, s, history => ⟨history, .refl _, fun _ ho => nomatch ho⟩
  | n + 1, s, history => by
    obtain ⟨later, hleads, hended⟩ := tick_leads s history
    rw [Session.run]
    rcases ht : s.tick with ⟨r, t⟩
    rw [ht] at hleads hended
    cases r with
    | ended o => exact ⟨later, hleads, hended⟩
    | waiting => exact ⟨later, hleads, hended⟩
    | running =>
      obtain ⟨last, hleads', hended'⟩ := run_leads n t later
      exact ⟨last, hleads.trans hleads', hended'⟩

/-- Every session that can be reached is the session of a process between two ticks. -/
theorem of_reachable {settings : Settings} {program : Program} {s : Session σ}
    (h : s.Reachable settings program) :
    ∃ device history, (create settings program device).Leads (between s history) := by
  induction h with
  | create device => exact ⟨device, [], .refl _⟩
  | @tick s _ ih =>
    obtain ⟨device, history, hs⟩ := ih
    obtain ⟨later, ht, -⟩ := tick_leads s history
    exact ⟨device, later, hs.trans ht⟩
  | stop _ ih =>
    obtain ⟨device, history, hs⟩ := ih
    exact ⟨device, history, hs.trans (.command (.move .stop) (.refl _))⟩
  | reset _ ih =>
    obtain ⟨device, history, hs⟩ := ih
    exact ⟨device, history, hs.trans (.command .reset (.refl _))⟩
  | outside d _ ih =>
    obtain ⟨device, history, hs⟩ := ih
    exact ⟨device, history, hs.trans (.command (.move (.outside fun _ => d)) (.refl _))⟩

end Process

end StackMachine
