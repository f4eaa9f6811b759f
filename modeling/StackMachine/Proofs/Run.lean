/-
What runs add up to. A tick takes nothing back: it counts at most one instruction more and only
adds to the output and to the trace (`Session.Grows`). A kept trace has one entry for each
instruction that is over (`Session.Recorded`). And a run whose requests are all answered or
refused goes on for as many instructions as one likes, or ends (`Session.run_progress`).
-/
import StackMachine.Proofs.Request
import StackMachine.Proofs.Session

namespace StackMachine

/-- A reply that a request is over with. -/
def Reply.IsFinal : Reply → Prop
  | .answer _ | .refused _ => True
  | _ => False

/-- Asking long enough leads to an answer or a refusal. -/
def Device.Returns {σ : Type} [Device σ] (stopped : Bool) (d : σ) : Prop :=
  ∃ n, (Device.request n stopped d).reply.IsFinal

/-- A device that never raises the stop flag. -/
structure Device.Unassuming (σ : Type) [Device σ] : Prop where
  ask : ∀ (stopped : Bool) (d : σ), (Device.ask stopped d).raisesStop = false
  emit : ∀ (v : Word) (d : σ), (Device.emit v d).raisesStop = false

theorem Scripted.unassuming : Device.Unassuming Scripted where
  ask stopped d := by
    show (d.ask stopped).raisesStop = false
    unfold Scripted.ask
    split
    · rfl
    · split <;> rfl
  emit _ _ := rfl

theorem Terminal.unassuming : Device.Unassuming Terminal where
  ask stopped t := by
    show (t.ask stopped).raisesStop = false
    unfold Terminal.ask
    split
    · exact t.readLine_raisesStop stopped
    · split <;> rfl
  emit v t := by
    show (t.emit v).raisesStop = false
    unfold Terminal.emit
    split <;> rfl

theorem Reply.ofAnswer_final (raw : String) : (Reply.ofAnswer raw).IsFinal := by
  unfold ofAnswer
  split <;> trivial

/-- A line that has come settles the request. -/
theorem Terminal.replyTo_final (stopped : Bool) (line : List UInt8) : (replyTo stopped line).IsFinal := by
  unfold replyTo
  split
  · trivial
  · split
    · trivial
    · split
      · trivial
      · simp only [Reply.ofAnswer_final]

theorem Device.returns_of_ask {σ : Type} [Device σ] {stopped : Bool} {d : σ}
    (h : (Device.ask stopped d).reply.IsFinal) : Device.Returns stopped d := by
  refine ⟨1, ?_⟩
  simp only [Device.request]
  split
  · rename_i hr
    rw [hr] at h
    cases h
  · exact h

namespace Session

variable {σ : Type}

/-! ## What a tick adds -/

/-- What has been recorded of a run so far; a run that ends hands its trace over. -/
def account (r : Progress × Session σ) : Array TraceEntry :=
  match r.1 with
  | .ended o => o.trace
  | _ => r.2.machine.trace

/-- What lies between a session and what a tick makes of it. -/
structure Grows (s : Session σ) (r : Progress × Session σ) : Prop where
  begun : ∀ op, s.Begins op → r.2.machine.steps = s.machine.steps + 1
  idle : (∀ op, ¬s.Begins op) → r.2.machine.steps = s.machine.steps
  output : s.machine.output.toList <+: r.2.machine.output.toList
  trace : s.machine.trace.toList <+: (account r).toList
  silent : s.settings.trace = false → account r = s.machine.trace

theorem Grows.steps {s : Session σ} {r : Progress × Session σ} (h : s.Grows r) :
    s.machine.steps ≤ r.2.machine.steps := by
  by_cases hb : ∃ op, s.Begins op
  · obtain ⟨op, hb⟩ := hb
    rw [h.begun op hb]
    exact Nat.le_succ _
  · exact Nat.le_of_eq (h.idle fun op hop => hb ⟨op, hop⟩).symm

theorem Ends.not_begins {s : Session σ} {e : Ending} (he : s.Ends e) (op : Operation) :
    ¬s.Begins op := by
  intro hb
  cases he with
  | stopped hs => rw [hb.unstopped] at hs; cases hs
  | left hs hf => rw [hb.fetched] at hf; cases hf
  | undecodable hs hf => rw [hb.fetched] at hf; cases hf
  | halt hs hf => rw [hb.fetched] at hf; cases hf; exact hb.executable rfl
  | @limit _ n hs hf hop hn hle => have := hb.within n hn; omega

theorem not_begins_of_phase {s : Session σ} {p : Phase} (hp : s.phase = p) (hne : p ≠ .running)
    (op : Operation) : ¬s.Begins op :=
  fun hb => hne (hp.symm.trans hb.running)

theorem account_retire (s : Session σ) (pc : Int) (op : Operation) :
    account (s.retire pc op) =
      if s.settings.trace then s.machine.trace.push (s.machine.entry pc op) else s.machine.trace := by
  rw [retire_eq]
  rfl

/-- The end of an instruction takes nothing back. -/
theorem grows_retire {s t : Session σ} (pc : Int) (op : Operation)
    (hbegun : ∀ op, s.Begins op → t.machine.steps = s.machine.steps + 1)
    (hidle : (∀ op, ¬s.Begins op) → t.machine.steps = s.machine.steps)
    (houtput : s.machine.output.toList <+: t.machine.output.toList)
    (htrace : t.machine.trace = s.machine.trace) (hsettings : t.settings = s.settings) :
    s.Grows (t.retire pc op) := by
  have hm : (t.retire pc op).2.machine = (t.recorded pc op).advance := by rw [retire_eq]
  refine ⟨fun op hb => ?_, fun hb => ?_, ?_, ?_, fun hoff => ?_⟩
  · rw [hm]; exact hbegun op hb
  · rw [hm]; exact hidle hb
  · rw [hm]; exact houtput
  · rw [account_retire, htrace]
    split
    · rw [Array.toList_push]; exact List.prefix_append _ _
    · exact List.prefix_refl _
  · rw [account_retire, htrace, hsettings, hoff]; rfl

/-- Nothing is added where no instruction is begun. -/
theorem grows_idle {s : Session σ} {r : Progress × Session σ} (hb : ∀ op, ¬s.Begins op)
    (hsteps : r.2.machine.steps = s.machine.steps) (houtput : r.2.machine.output = s.machine.output)
    (htrace : account r = s.machine.trace) : s.Grows r := by
  refine ⟨fun op h => absurd h (hb op), fun _ => hsteps, ?_, ?_, fun _ => htrace⟩
  · exact houtput ▸ List.prefix_refl _
  · exact htrace ▸ List.prefix_refl _

theorem Valid.execute_counts {settings : Settings} {program : Program} {s : Session σ}
    (h : s.Valid settings program) {op : Operation} (hb : s.Begins op) {d : Demand} {m : Machine}
    (he : op.execute s.image.labels s.machine.counted = .ok d m) :
    m.steps = s.machine.steps + 1 ∧ m.trace = s.machine.trace :=
  ⟨(h.execute_ok hb he).1.steps, (h.execute_ok hb he).1.trace⟩

variable [Device σ]

/-- A tick takes nothing back. -/
theorem Ticks.grows {settings : Settings} {program : Program} {s : Session σ}
    {r : Progress × Session σ} (ht : s.Ticks r) (h : s.Valid settings program) : s.Grows r := by
  cases ht with
  | start hp | refuse hp => exact grows_idle (not_begins_of_phase hp nofun) rfl rfl rfl
  | finish hp he => exact grows_idle he.not_begins rfl rfl rfl
  | pending hp | waiting hp | refused hp | overflow hp =>
    exact grows_idle (not_begins_of_phase hp nofun) rfl rfl rfl
  | answer hp =>
    exact grows_retire _ _ (fun op hb => absurd hb (not_begins_of_phase hp nofun op)) (fun _ => rfl)
      (List.prefix_refl _) rfl rfl
  | @fail op f m hb he =>
    obtain ⟨hm, hq, -⟩ := h.execute_error hb he
    have hsteps : m.steps = s.machine.steps + 1 := hm.steps
    have houtput : m.output = s.machine.output := hq.output
    have htrace : m.trace = s.machine.trace := hm.trace
    refine ⟨fun _ _ => hsteps, fun hn => absurd hb (hn op), ?_, ?_, fun _ => htrace⟩
    · exact houtput ▸ List.prefix_refl m.output.toList
    · exact htrace ▸ List.prefix_refl m.trace.toList
  | @work op m hb he =>
    obtain ⟨hsteps, htrace⟩ := h.execute_counts hb he
    have houtput : m.output = s.machine.output := (h.execute_ok hb he).2.output
    refine grows_retire _ _ (fun _ _ => hsteps) (fun hn => absurd hb (hn op)) ?_ htrace rfl
    exact houtput ▸ List.prefix_refl m.output.toList
  | @print op v m hb he =>
    obtain ⟨hsteps, htrace⟩ := h.execute_counts hb he
    have houtput : m.output = s.machine.output.push v := (h.execute_ok hb he).2.output
    refine grows_retire _ _ (fun _ _ => hsteps) (fun hn => absurd hb (hn op)) ?_ htrace rfl
    show _ <+: m.output.toList
    rw [houtput, Array.toList_push]
    exact List.prefix_append _ _
  | @read op m hb he =>
    rw [(h.execute_ok hb he).2.reads_only rfl]
    exact ⟨fun _ _ => rfl, fun hn => absurd hb (hn op), List.prefix_refl _, List.prefix_refl _, fun _ => rfl⟩

/-- A run takes nothing back, and records nothing unless it is told to. -/
theorem run_grows {settings : Settings} {program : Program} :
    ∀ (n : Nat) {s : Session σ}, s.Valid settings program →
      s.machine.steps ≤ (s.run n).2.machine.steps ∧
      s.machine.output.toList <+: (s.run n).2.machine.output.toList ∧
      s.machine.trace.toList <+: (account (s.run n)).toList ∧
      (settings.trace = false → account (s.run n) = s.machine.trace)
  | 0, s, _ => ⟨Nat.le_refl _, List.prefix_refl _, List.prefix_refl _, fun _ => rfl⟩
  | n + 1, s, h => by
    have hg := s.tick_ticks.grows h
    have hv := s.tick_ticks.valid h
    have hsilent := hg.silent
    rw [h.settings_eq] at hsilent
    rw [run]
    rcases ht : s.tick with ⟨r, t⟩
    rw [ht] at hg hv hsilent
    cases r with
    | ended o => exact ⟨hg.steps, hg.output, hg.trace, hsilent⟩
    | waiting => exact ⟨hg.steps, hg.output, hg.trace, hsilent⟩
    | running =>
      obtain ⟨h1, h2, h3, h4⟩ := run_grows n hv
      exact ⟨Nat.le_trans hg.steps h1, hg.output.trans h2, hg.trace.trans h3,
        fun hoff => (h4 hoff).trans (hsilent hoff)⟩

theorem run_valid {settings : Settings} {program : Program} (n : Nat) {s : Session σ}
    (h : s.Valid settings program) : (s.run n).2.Valid settings program :=
  run_keeps (fun t ht => t.tick_ticks.valid ht) n h

/-- A tick raises the stop flag only if the device does. -/
theorem Ticks.unstopped (hd : Device.Unassuming σ) {s : Session σ} {r : Progress × Session σ} (ht : s.Ticks r)
    (hs : s.stopped = false) : r.2.stopped = false := by
  have hasked : s.asked.stopped = false := by
    show (s.stopped || (Device.ask s.stopped s.device).raisesStop) = false
    rw [hs, hd.ask, Bool.or_false]
  cases ht with
  | print =>
    rw [retire_eq]
    show (s.stopped || (Device.emit _ s.device).raisesStop) = false
    rw [hs, hd.emit, Bool.or_false]
  | pending | waiting | refused | overflow => exact hasked
  | answer => rw [retire_eq]; exact hasked
  | work => rw [retire_eq]; exact hs
  | start | refuse | finish | fail | read => exact hs

/-- The outcome of a run counts the steps of the machine it leaves. -/
theorem ended_steps {s : Session σ} {n : Nat} {o : Outcome} (hp : s.phase ≠ .halted)
    (h : (s.run n).1 = .ended o) : o.steps = (s.run n).2.machine.steps := by
  have hr : s.run n = (.ended o, (s.run n).2) := Prod.ext h rfl
  obtain ⟨t, -, -, ht⟩ := run_ended (P := fun _ => True) (fun _ _ => trivial) trivial hp hr
  generalize (s.run n).2 = s' at ht ⊢
  have hticks := t.tick_ticks
  rw [ht] at hticks
  generalize hr : ((.ended o, s') : Progress × Session σ) = r at hticks
  cases hticks with
  | refuse | finish | fail | refused | overflow => cases hr; rfl
  | work | print | answer => rw [retire_eq] at hr; cases hr
  | _ => cases hr

/-- A run that is not over goes on from where it is. -/
theorem run_from {m : Nat} {s t : Session σ} (h : s.run m = (.running, t)) (n : Nat) :
    s.run (m + n) = t.run n := by
  rw [run_add, h]

/-! ## Complete traces -/

/-- A kept trace has an entry for each instruction begun, an `RD` in progress excepted. -/
def Recorded (s : Session σ) : Prop :=
  s.settings.trace = true →
    match s.phase with
    | .reading => s.machine.trace.size + 1 = s.machine.steps
    | .halted => True
    | _ => s.machine.trace.size = s.machine.steps

omit [Device σ] in
theorem recorded_retire {s : Session σ} (pc : Int) (op : Operation)
    (h : s.settings.trace = true → s.machine.trace.size + 1 = s.machine.steps) :
    (s.retire pc op).2.Recorded := by
  rw [retire_eq]
  intro hon
  have hon : s.settings.trace = true := hon
  show (s.recorded pc op).trace.size = s.machine.steps
  rw [recorded, if_pos hon, Array.size_push]
  exact h hon

omit [Device σ] in
/-- An operation that is done is one entry ahead of the trace. -/
theorem Recorded.begun {settings : Settings} {program : Program} {s : Session σ} (hr : s.Recorded)
    (h : s.Valid settings program) {op : Operation} (hb : s.Begins op) {d : Demand} {m : Machine}
    (he : op.execute s.image.labels s.machine.counted = .ok d m) (hon : s.settings.trace = true) :
    m.trace.size + 1 = m.steps := by
  obtain ⟨hsteps, htrace⟩ := h.execute_counts hb he
  rw [Recorded, hb.running] at hr
  rw [htrace, hsteps]
  exact congrArg (· + 1) (hr hon)

theorem Ticks.recorded {settings : Settings} {program : Program} {s : Session σ}
    {r : Progress × Session σ} (ht : s.Ticks r) (h : s.Valid settings program) (hr : s.Recorded) :
    r.2.Recorded := by
  cases ht with
  | start hp => rw [Recorded, hp] at hr; exact hr
  | refuse hp => exact hr
  | finish | fail | refused | overflow => exact fun _ => trivial
  | work hb he => exact recorded_retire _ _ (hr.begun h hb he)
  | print hb he => exact recorded_retire _ _ (hr.begun h hb he)
  | @read op m hb he =>
    exact hr.begun h hb he
  | pending | waiting => exact hr
  | answer hp =>
    rw [Recorded, hp] at hr
    exact recorded_retire _ _ hr

/-! ## Progress -/

/-- Every request that the run makes returns. -/
def Answered (s : Session σ) : Prop :=
  ∀ n t, s.run n = (.running, t) → t.phase = .reading → Device.Returns t.stopped t.device

theorem Answered.from {s t : Session σ} (h : s.Answered) {m : Nat} (hr : s.run m = (.running, t)) :
    t.Answered :=
  fun n u hu hp => h (m + n) u ((run_from hr n).trans hu) hp

/-- The run from `s` comes to an end, or to the top of the loop with `K` instructions begun. -/
def Proceeds (s : Session σ) (K : Nat) : Prop :=
  ∃ n, (∃ o, (s.run n).1 = .ended o) ∨
    ∃ t, s.run n = (.running, t) ∧ t.phase = .running ∧ K ≤ t.machine.steps

theorem Proceeds.after {s t : Session σ} {K m : Nat} (hr : s.run m = (.running, t))
    (h : t.Proceeds K) : s.Proceeds K := by
  obtain ⟨n, ⟨o, ho⟩ | ⟨u, hu, hp, hK⟩⟩ := h
  · exact ⟨m + n, .inl ⟨o, by rw [run_from hr, ho]⟩⟩
  · exact ⟨m + n, .inr ⟨u, by rw [run_from hr, hu], hp, hK⟩⟩

theorem run_one {s t : Session σ} (h : s.tick = (.running, t)) : s.run 1 = (.running, t) := by
  rw [run, h]; rfl

theorem proceeds_of_ended {s t : Session σ} {K : Nat} {o : Outcome} (h : s.tick = (.ended o, t)) :
    s.Proceeds K :=
  ⟨1, .inl ⟨o, by rw [run, h]⟩⟩

theorem proceeds_now {s : Session σ} {K : Nat} (hp : s.phase = .running) (hK : K ≤ s.machine.steps) :
    s.Proceeds K :=
  ⟨0, .inr ⟨s, rfl, hp, hK⟩⟩

theorem proceeds_of_retire {s t : Session σ} {K : Nat} {pc : Int} {op : Operation}
    (h : s.tick = t.retire pc op) (hK : K ≤ t.machine.steps) : s.Proceeds K := by
  rw [retire_eq] at h
  exact .after (run_one h) (proceeds_now rfl hK)

/-- A request that returns is over after finitely many ticks. -/
theorem proceeds_reading : ∀ (n : Nat) {s : Session σ}, s.phase = .reading →
    (Device.request n s.stopped s.device).reply.IsFinal → s.Proceeds s.machine.steps
  | 0, s, _, h => h.elim
  | n + 1, s, hp, h => by
    have ht := s.tick_ticks
    generalize hr : s.tick = r at ht
    cases ht with
    | start h' | refuse h' => rw [hp] at h'; cases h'
    | finish h' => rw [hp] at h'; cases h'
    | fail hb | work hb | print hb | read hb => cases hp.symm.trans hb.running
    | waiting _ ha => simp only [Device.request, ha, Reply.IsFinal] at h
    | refused | overflow => exact proceeds_of_ended hr
    | answer => exact proceeds_of_retire hr (Nat.le_refl _)
    | pending _ ha =>
      -- what the device has raised by then is what the next asking shows it
      simp only [Device.request, ha] at h
      exact .after (run_one hr) (proceeds_reading n (s := s.asked) hp h)

/-- From the top of the loop a run whose requests return ends or begins one more instruction. -/
theorem proceeds_running {settings : Settings} {program : Program} {s : Session σ}
    (h : s.Valid settings program) (ha : s.Answered) (hp : s.phase = .running) :
    s.Proceeds (s.machine.steps + 1) := by
  have ht := s.tick_ticks
  generalize hr : s.tick = r at ht
  cases ht with
  | start h' | refuse h' => rw [hp] at h'; cases h'
  | finish | fail => exact proceeds_of_ended hr
  | work hb he => exact proceeds_of_retire hr (Nat.le_of_eq (h.execute_counts hb he).1.symm)
  | print hb he => exact proceeds_of_retire hr (Nat.le_of_eq (h.execute_counts hb he).1.symm)
  | @read op m hb he =>
    have hsteps := (h.execute_counts hb he).1
    obtain ⟨n, hn⟩ := ha 1 _ (run_one hr) rfl
    have := proceeds_reading n (s := { s with machine := m, phase := .reading }) rfl hn
    exact .after (run_one hr) (hsteps ▸ this)
  | pending h' | waiting h' | refused h' | overflow h' | answer h' => rw [hp] at h'; cases h'

/-- A run whose requests return ends or begins as many instructions as one likes. -/
theorem run_progress {settings : Settings} {program : Program} {s : Session σ}
    (h : s.Valid settings program) (ha : s.Answered) (hp : s.phase = .ready) :
    ∀ K, s.Proceeds K
  | 0 => by
    have htick : s.tick = (.running, { s with
        phase := .running
        log := s.log.push (.runStarted s.image.code.size) }) := by
      rw [tick, hp]
    exact .after (run_one htick) (proceeds_now rfl (Nat.zero_le _))
  | K + 1 => by
    obtain ⟨n, hended | ⟨t, ht, htp, hK⟩⟩ := run_progress h ha hp K
    · exact ⟨n, .inl hended⟩
    · have hv : t.Valid settings program := by
        have := run_valid n h
        rwa [ht] at this
      obtain ⟨k, ho | ⟨u, hu, hup, hsteps⟩⟩ := proceeds_running hv (ha.from ht) htp
      · exact .after ht ⟨k, .inl ho⟩
      · exact .after ht ⟨k, .inr ⟨u, hu, hup, by omega⟩⟩

end Session

end StackMachine
