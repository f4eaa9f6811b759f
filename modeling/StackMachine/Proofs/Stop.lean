/-
Stopping a run. The stop flag may go up between any two actions of a run, of an operation or of a
request. `stop_is_heeded`: from then on at most one more instruction is completed and at most one
more value is shown, the run is over after a number of actions that does not depend on what happens
outside, and it ends as stopped or with what the instruction in hand leads to; what it has printed
is the beginning of what it would have printed. A run that is started with the flag up does nothing.

The argument has three parts, each an invariant of the moves after the stop: what the stopped
process still does (`Process.Winds`), how it differs from the one that was not stopped
(`Process.Follows`), and how many actions it has left (`Stage.Due`).
-/
import StackMachine.Proofs.WindDown

namespace StackMachine

namespace Process

variable {σ : Type}

/-! ## Beside the run that is not stopped -/

/-- The values printed so far. -/
def output (p : Process σ) : List Word := p.session.machine.output.toList

/-- The flag has been seen: the process is about to end by it, or has ended. -/
def Resigned (p : Process σ) : Prop :=
  match p.stage with
  | .finish .stopped | .finish (.fault .inputCancelled) | .request (.reply (.refused .cancelled)) => True
  | .idle => ∃ o history, p.history = .ended o :: history ∧
    (o.ending = .stopped ∨ o.ending = .fault .inputCancelled)
  | _ => False

/-- A request under way heeds the flag. -/
def Attentive (p : Process σ) : Prop := ∀ rest, p.stage = .request rest → ∃ n, rest.Heeds n

/-- How a stopped process `q` stands to `u`, which was not stopped: it does the same until it sees
the flag, and then it ends, with less printed. -/
def Follows (q u : Process σ) : Prop := q = u.stop ∨ q.Resigned ∧ q.output <+: u.output

section Follows

variable {p q u : Process σ}

theorem workScript_output (p : Process σ) (pc : Int) (op : Operation) (rest : Script) :
    p.output <+: (p.workScript pc op rest).output := by
  rcases rest.done_or_fail_or_pos p.session.machine with ⟨d, rfl⟩ | ⟨f, rfl⟩ | hn
  · cases d <;> exact List.prefix_refl _
  · exact List.prefix_refl _
  · rw [workScript_step p pc op hn]
    exact rest.output_step p.session.machine

/-- Whatever the flag was, what is left of a request after a look still heeds it. -/
theorem heeds_look {n : Nat} {next : Bool → Request σ} (h : (Request.look next).Heeds n) (stopped : Bool) :
    ∃ k, (next stopped).Heeds k := by
  cases n with
  | zero => exact h.elim
  | succ n =>
    cases stopped with
    | true => exact ⟨0, by rw [h.1]; trivial⟩
    | false => exact ⟨n, h.2⟩

theorem workScript_stage_ne (p : Process σ) (pc : Int) (op : Operation) (rest : Script)
    (request : Request σ) : (p.workScript pc op rest).stage ≠ .request request := by
  rcases rest.done_or_fail_or_pos p.session.machine with ⟨d, rfl⟩ | ⟨f, rfl⟩ | hn
  · cases d <;> exact fun h => nomatch h
  · exact fun h => nomatch h
  · rw [workScript_step p pc op hn]
    exact fun h => nomatch h

variable [Device σ] [Stepwise σ]

theorem output_work (p : Process σ) : p.output <+: p.work.output := by
  obtain ⟨s, stage, history⟩ := p
  cases stage with
  | charge op =>
    simp only [Process.work]
    cases hc : s.machine.charge s.settings.stepLimit with
    | error f => exact List.prefix_refl _
    | ok m =>
      obtain ⟨-, rfl⟩ := Machine.charge_ok hc
      exact List.prefix_refl _
  | script pc op rest => exact workScript_output _ pc op rest
  | ask =>
    simp only [Process.work]
    split <;> exact List.prefix_refl _
  | request rest => cases rest <;> exact List.prefix_refl _
  | _ => exact List.prefix_refl _

theorem Resigned.work (h : q.Resigned) : q.work.Resigned ∧ q.work.output = q.output := by
  obtain ⟨s, stage, history⟩ := q
  unfold Resigned at h
  split at h
  · rename_i he
    cases he
    exact ⟨⟨_, _, rfl, .inl rfl⟩, rfl⟩
  · rename_i he
    cases he
    exact ⟨⟨_, _, rfl, .inr rfl⟩, rfl⟩
  · rename_i he
    cases he
    exact ⟨trivial, rfl⟩
  · rename_i he
    cases he
    exact ⟨h, rfl⟩
  · exact h.elim

/-- One action with the flag up, beside the same action without. Only a look at the flag makes a
difference. -/
theorem work_stop (hu : u.Attentive) : u.stop.work.Follows u.work := by
  obtain ⟨s, stage, history⟩ := u
  cases stage with
  | look =>
    -- the stopped process leaves the loop here and the other one goes on
    exact .inr ⟨trivial, List.prefix_refl _⟩
  | charge op =>
    simp only [Process.work, Process.stop, Session.stop]
    cases s.machine.charge s.settings.stepLimit <;> exact .inl rfl
  | script pc op rest =>
    cases rest with
    | done d => cases d <;> exact .inl rfl
    | _ => exact .inl rfl
  | ask =>
    refine .inl ?_
    show work ⟨s.stop, .ask, history⟩ = (work ⟨s, .ask, history⟩).stop
    cases hr : Stepwise.ready s.device with
    | true => rw [work_ready hr, work_ready (s := s.stop) hr]; rfl
    | false => rw [work_blocked hr, work_blocked (s := s.stop) hr]; rfl
  | request rest =>
    cases rest with
    | reply r => exact .inl rfl
    | look next =>
      obtain ⟨n, hn⟩ := hu _ rfl
      cases n with
      | zero => exact hn.elim
      | succ n =>
        refine .inr ⟨?_, List.prefix_refl _⟩
        show (⟨s.stop, .request (next true), history⟩ : Process σ).Resigned
        rw [hn.1]
        trivial
    | act effect next =>
      refine .inl ?_
      simp [Process.work, Process.workRequest, Process.stop, Session.stop, Session.consult_eq]
  | emit pc op v =>
    refine .inl ?_
    simp [Process.work, Process.stop, Session.stop, Session.shown, Session.consult_eq]
  | _ => exact .inl rfl

theorem Follows.move (h : q.Follows u) (hu : u.Attentive) (m : Move σ) : (q.move m).Follows (u.move m) := by
  rcases h with rfl | ⟨hr, ho⟩
  · cases m with
    | work => exact work_stop hu
    | stop => exact .inl rfl
    | outside change => exact .inl rfl
  · cases m with
    | work =>
      obtain ⟨hr', ho'⟩ := hr.work
      refine .inr ⟨hr', ?_⟩
      show q.work.output <+: u.work.output
      rw [ho']
      exact ho.trans (output_work u)
    | stop => exact .inr ⟨hr, ho⟩
    | outside change => exact .inr ⟨hr, ho⟩

theorem Attentive.work [Cooperative σ] (h : p.Attentive) : p.work.Attentive := by
  obtain ⟨s, stage, history⟩ := p
  intro rest hr
  cases stage with
  | look =>
    simp only [Process.work] at hr
    split at hr <;> cases hr
  | fetch => exact absurd hr (Stage.ofFetch_ne_request _ rest)
  | charge op =>
    simp only [Process.work] at hr
    split at hr <;> cases hr
  | script pc op earlier => exact absurd hr (workScript_stage_ne _ pc op earlier rest)
  | ask =>
    simp only [Process.work] at hr
    split at hr
    · cases hr
      exact ⟨2, Cooperative.heeds s.device⟩
    · cases hr
  | request earlier =>
    obtain ⟨n, hn⟩ := h earlier rfl
    cases earlier with
    | reply r => cases r <;> cases hr
    | look next =>
      cases hr
      exact heeds_look hn s.stopped
    | act effect next =>
      cases hr
      cases n with
      | zero => exact hn.elim
      | succ n => exact ⟨n, hn s.device⟩
  | _ => cases hr

theorem Attentive.move [Cooperative σ] (h : p.Attentive) (m : Move σ) : (p.move m).Attentive := by
  cases m with
  | work => exact h.work
  | stop => exact h
  | outside change => exact h

theorem Attentive.command [Cooperative σ] (h : p.Attentive) (c : Command σ) : (p.command c).Attentive := by
  cases c with
  | run =>
    intro rest hr
    simp only [Process.command, Process.start] at hr
    split at hr
    · rename_i hst
      split at hr
      · cases hst.symm.trans hr
      · cases hr
    · exact h rest hr
  | reset =>
    intro rest hr
    cases hr
  | move m => exact h.move m

theorem attentive_play [Cooperative σ] (settings : Settings) (program : Program) (device : σ)
    (commands : List (Command σ)) : ((create settings program device).play commands).Attentive :=
  play_keeps (fun _ c h => h.command c) commands fun _ hr => nomatch hr

theorem follows_follow [Cooperative σ] : ∀ (moves : List (Move σ)) {q u : Process σ}, q.Follows u →
    u.Attentive → (q.follow moves).Follows (u.follow moves)
  | [], _, _, h, _ => h
  | m :: moves, _, _, h, hu => follows_follow moves (h.move hu m) (hu.move m)

end Follows

end Process

/-! ## The actions that are left -/

/-- With the flag up, a process that is about to do this has at most `k` actions left. -/
def Stage.Due {σ : Type} (s : Session σ) (k : Nat) : Stage σ → Prop
  | .idle => True
  | .finish _ => 1 ≤ k
  | .look => 2 ≤ k
  | .advance _ => 3 ≤ k
  | .record _ _ => 4 ≤ k
  | .emit _ _ _ | .ask => 5 ≤ k
  | .request rest => ∃ n, rest.Heeds n ∧ (rest.Settles ∧ n + 2 ≤ k ∨ n + 10 ≤ k)
  | .script _ _ rest => rest.length s.machine + 6 ≤ k
  | .charge op => (op.script s.image.labels).length s.machine.counted + 7 ≤ k
  | .fetch => 2 ≤ k ∧ ∀ op, s.image.fetch? s.machine.pc = some (.ok op) →
    (op.script s.image.labels).length s.machine.counted + 8 ≤ k

theorem Stage.due_zero {σ : Type} {s : Session σ} {stage : Stage σ} (h : stage.Due s 0) : stage = .idle := by
  cases stage with
  | idle => rfl
  | request rest =>
    obtain ⟨n, -, h⟩ := h
    omega
  | fetch => exact absurd h.1 (by omega)
  | script | charge => exact absurd h (by simp [Stage.Due])
  | _ => cases h

namespace Process

variable {σ : Type}

section Due

variable {p : Process σ} {k : Nat}

theorem exists_due (h : p.Attentive) : ∃ k, p.stage.Due p.session k := by
  obtain ⟨s, stage, history⟩ := p
  cases stage with
  | idle => exact ⟨0, trivial⟩
  | request rest =>
    obtain ⟨n, hn⟩ := h rest rfl
    exact ⟨n + 10, n, hn, .inr (Nat.le_refl _)⟩
  | fetch =>
    cases hf : s.image.fetch? s.machine.pc with
    | none => exact ⟨2, Nat.le_refl _, fun op ho => by rw [hf] at ho; cases ho⟩
    | some r =>
      cases r with
      | error e => exact ⟨2, Nat.le_refl _, fun op ho => by rw [hf] at ho; cases ho⟩
      | ok op =>
        refine ⟨(op.script s.image.labels).length s.machine.counted + 8, by omega, fun op' ho => ?_⟩
        rw [hf] at ho
        cases ho
        exact Nat.le_refl _
  | _ => exact ⟨_, Nat.le_refl _⟩

theorem due_workScript {pc : Int} {op : Operation} {rest : Script}
    (h : rest.length p.session.machine + 6 ≤ k) :
    (p.workScript pc op rest).stage.Due (p.workScript pc op rest).session (k - 1) := by
  rcases rest.done_or_fail_or_pos p.session.machine with ⟨d, rfl⟩ | ⟨f, rfl⟩ | hn
  · cases d <;> simp only [workScript, Stage.Due] <;> omega
  · simp only [workScript, Stage.Due]
    omega
  · rw [workScript_step p pc op hn]
    show (rest.step _).1.length (rest.step _).2 + 6 ≤ k - 1
    rw [rest.length_step]
    omega

theorem length_push (v : Word) (m : Machine) : (Script.push v (.done .nothing)).length m ≤ 3 := by
  simp only [Script.push, Script.length]
  split <;> omega

/-- A look at the flag is the last thing but one that a request does. -/
theorem due_workRequest {rest : Request σ} (hs : p.session.stopped = true) {n : Nat} (hn : rest.Heeds n)
    (h : rest.Settles ∧ n + 2 ≤ k ∨ n + 10 ≤ k) :
    (p.workRequest rest).stage.Due (p.workRequest rest).session (k - 1) := by
  cases rest with
  | reply r =>
    rcases h with ⟨⟨e, rfl⟩, hk⟩ | hk
    · simp only [workRequest, Stage.ofReply, Stage.Due]
      omega
    · cases r with
      | answer v =>
        -- the flag came too late for this answer, so the instruction is carried to its end
        have := length_push v p.session.machine
        simp only [workRequest, Stage.ofReply, Stage.Due]
        omega
      | _ =>
        simp only [workRequest, Stage.ofReply, Stage.Due]
        omega
  | look next =>
    cases n with
    | zero => exact hn.elim
    | succ n =>
      refine ⟨0, ?_, .inl ⟨?_, by omega⟩⟩
      · rw [hs, hn.1]
        trivial
      · rw [hs, hn.1]
        exact ⟨_, rfl⟩
  | act effect next =>
    cases n with
    | zero => exact hn.elim
    | succ n =>
      refine ⟨n, hn _, ?_⟩
      rcases h with ⟨hsettles, hk⟩ | hk
      · exact .inl ⟨hsettles _, by omega⟩
      · exact .inr (by omega)

variable [Device σ] [Stepwise σ]

/-- The process waits for something that has to happen outside. -/
def blocked (p : Process σ) : Bool :=
  match p.stage with
  | .ask => !Stepwise.ready p.session.device
  | _ => false

/-- The number of actions among the moves, those at which the process was held up apart. -/
def efforts : Process σ → List (Move σ) → Nat
  | _, [] => 0
  | p, .work :: moves => (if p.blocked then 0 else 1) + p.work.efforts moves
  | p, .stop :: moves => p.stop.efforts moves
  | p, .outside change :: moves => (p.outside change).efforts moves

theorem due_work [Cooperative σ] (hs : p.session.stopped = true) (hb : p.blocked = false)
    (h : p.stage.Due p.session k) : p.work.stage.Due p.work.session (k - 1) := by
  obtain ⟨s, stage, history⟩ := p
  cases stage with
  | idle => trivial
  | look =>
    have hk : 2 ≤ k := h
    simp only [Process.work, show s.stopped = true from hs, if_true, Stage.Due]
    omega
  | fetch =>
    obtain ⟨hk, hop⟩ := h
    simp only [Process.work]
    cases hf : s.image.fetch? s.machine.pc with
    | none => show 1 ≤ k - 1; omega
    | some r =>
      cases r with
      | error e => show 1 ≤ k - 1; omega
      | ok op =>
        by_cases hne : op = .hlt
        · subst hne
          show 1 ≤ k - 1
          omega
        · have := hop op hf
          rw [Stage.ofFetch_executable hne]
          simp only [Stage.Due] at this ⊢
          omega
  | charge op =>
    simp only [Stage.Due] at h
    simp only [Process.work]
    cases hc : s.machine.charge s.settings.stepLimit with
    | error f => show 1 ≤ k - 1; omega
    | ok m =>
      obtain ⟨-, rfl⟩ := Machine.charge_ok hc
      simp only [Stage.Due]
      omega
  | script pc op rest => exact due_workScript h
  | ask =>
    have hk : 5 ≤ k := h
    have hr : Stepwise.ready s.device = true := by simpa [blocked] using hb
    rw [work_ready hr]
    exact ⟨2, Cooperative.heeds s.device, .inl ⟨Cooperative.settles s.device, by omega⟩⟩
  | request rest =>
    obtain ⟨n, hn, hk⟩ := h
    exact due_workRequest hs hn hk
  | emit | record | advance =>
    simp only [Stage.Due, Process.work] at h ⊢
    omega
  | finish e => trivial

theorem blocked_work (h : p.blocked = true) : p.work = p := by
  obtain ⟨s, stage, history⟩ := p
  cases stage with
  | ask => exact work_blocked (by simpa [blocked] using h) history
  | _ => cases h

/-- However the moves go, a stopped process is idle once it has made as many actions as it had left. -/
theorem due_follow [Cooperative σ] : ∀ (moves : List (Move σ)) {p : Process σ} {k : Nat},
    p.session.stopped = true → p.stage.Due p.session k → k ≤ p.efforts moves →
      (p.follow moves).stage = .idle
  | [], p, k, _, h, hk => by
    cases Nat.le_zero.1 hk
    exact Stage.due_zero h
  | .work :: moves, p, k, hs, h, hk => by
    rw [efforts] at hk
    by_cases hb : p.blocked = true
    · rw [if_pos hb, blocked_work hb, Nat.zero_add] at hk
      show (p.work.follow moves).stage = .idle
      rw [blocked_work hb]
      exact due_follow moves hs h hk
    · rw [if_neg hb] at hk
      rw [Bool.not_eq_true] at hb
      exact due_follow moves (p := p.work) (stopped_work hs) (due_work hs hb h) (by omega)
  | .stop :: moves, p, k, _, h, hk => by
    refine due_follow moves (p := p.stop) rfl ?_ hk
    obtain ⟨s, stage, history⟩ := p
    cases stage <;> exact h
  | .outside change :: moves, p, k, hs, h, hk => by
    refine due_follow moves (p := p.outside change) hs ?_ hk
    obtain ⟨s, stage, history⟩ := p
    cases stage <;> exact h

end Due

/-! ## Starting with the flag up -/

/-- What a run that was started at `p` with the flag up does: it ends at once. -/
def Refrains (p q : Process σ) : Prop :=
  match q.stage with
  | .look | .finish .stopped =>
    q.history = p.history ∧ q.session.machine.steps = 0 ∧ q.session.machine.output = #[]
  | .idle => ∃ o, q.history = .ended o :: p.history ∧ o.ending = .stopped ∧ o.steps = 0 ∧ o.output = #[]
  | _ => False

section Refrains

variable {p q : Process σ}

theorem start_ready (hstage : p.stage = .idle) (hphase : p.session.phase = .ready) :
    p.start.stage = .look ∧ p.start.history = p.history ∧
      p.start.session.machine = p.session.machine := by
  obtain ⟨s, stage, history⟩ := p
  cases hstage
  have hne : s.phase ≠ .halted := by rw [show s.phase = .ready from hphase]; simp
  simp only [start, if_neg hne, and_self]

theorem refrains_start {settings : Settings} {program : Program} (h : p.Sound settings program)
    (hstage : p.stage = .idle) (hphase : p.session.phase = .ready) : p.Refrains p.start := by
  obtain ⟨hlook, hhistory, hmachine⟩ := start_ready hstage hphase
  simp only [Refrains, hlook, hhistory, hmachine, h.fresh hstage hphase]
  exact ⟨trivial, rfl, rfl⟩

theorem stopped_start (h : p.session.stopped = true) : p.start.session.stopped = true := by
  unfold start
  split
  · split <;> exact h
  · exact h

variable [Device σ] [Stepwise σ]

theorem Refrains.move (hs : q.session.stopped = true) (h : p.Refrains q) (m : Move σ) :
    (q.move m).session.stopped = true ∧ p.Refrains (q.move m) := by
  cases m with
  | work =>
    refine ⟨stopped_work hs, ?_⟩
    obtain ⟨s, stage, history⟩ := q
    unfold Refrains at h
    split at h
    · rename_i he
      cases he
      simp only [Process.move, Process.work, show s.stopped = true from hs, if_true]
      exact h
    · rename_i he
      cases he
      obtain ⟨hh, hsteps, hout⟩ := h
      exact ⟨s.outcome .stopped, congrArg _ hh, rfl, hsteps, hout⟩
    · rename_i he
      cases he
      exact h
    · exact h.elim
  | stop => exact ⟨rfl, h⟩
  | outside change => exact ⟨hs, h⟩

theorem refrains_follow {settings : Settings} {program : Program} (h : p.Sound settings program)
    (hstage : p.stage = .idle) (hphase : p.session.phase = .ready) (hs : p.session.stopped = true)
    (moves : List (Move σ)) : p.Refrains (p.start.follow moves) :=
  (follow_keeps (P := fun q => q.session.stopped = true ∧ p.Refrains q)
    (fun _ m hq => Refrains.move hq.1 hq.2 m) moves
    ⟨stopped_start hs, refrains_start h hstage hphase⟩).2

end Refrains

end Process

/-- A session that has not run yet is fresh, so a run that is stopped before it begins has done
nothing. -/
theorem Session.run_stopped {σ : Type} [Device σ] {settings : Settings} {program : Program} {s : Session σ}
    (h : s.Reachable settings program) (hp : s.phase = .ready) (hs : s.stopped = true) (n : Nat) :
    ∃ o t, s.run (n + 2) = (.ended o, t) ∧ o.ending = .stopped ∧ o.steps = 0 ∧ o.output = #[] ∧
      t.device = s.device := by
  have hfresh := h.fresh hp
  have hrun : s.run (n + 2) =
      { s with phase := .running, log := s.log.push (.runStarted s.image.code.size) }.finish .stopped := by
    simp only [run, tick, hp, cycle, hs, if_true]
    rfl
  refine ⟨_, _, hrun, rfl, ?_, ?_, rfl⟩
  · show s.machine.steps = 0
    rw [hfresh]
    rfl
  · show s.machine.output = #[]
    rw [hfresh]
    rfl

/-! ## The law -/

/-- The flag went up at `p`; `q` is what some moves make of the run then, and `u` what they make of
it if the flag stays down. -/
structure Process.Stops {σ : Type} (settings : Settings) (program : Program) (p q u : Process σ) : Prop where
  completions : q.completions ≤ p.completions + 1
  emissions : q.emissions ≤ p.emissions + 1
  output : q.output <+: u.output
  /-- The run ends as stopped, or before another instruction is completed: then with what the
  instruction in hand leads to anyway, or because its request has seen the flag. -/
  ending : q.stage = .idle → ∃ o history, q.history = .ended o :: history ∧ o.output.toList = q.output ∧
    (o.ending = .stopped ∨
      q.completions = p.completions ∧ p.Concludes settings program o ∧
        (o.ending = .fault .inputCancelled ∨ u.history = q.history))

/-- What stopping means for machines with this kind of device. -/
structure StopLaw (σ : Type) [Device σ] [Stepwise σ] : Prop where
  raised : ∀ settings program (device : σ) commands moves,
    let p := (Process.create settings program device).play commands
    p.stage ≠ .idle → p.Stops settings program (p.stop.follow moves) (p.follow moves)
  /-- A request that looks at the raised flag is refused. -/
  seen : ∀ settings program (device : σ) commands next,
    let p := (Process.create settings program device).play commands
    p.stage = .request (.look next) → p.stop.work.work.stage = .finish (.fault .inputCancelled)
  /-- The run is over after a number of actions, however they are mixed with what happens outside. -/
  ends : ∀ settings program (device : σ) commands,
    let p := (Process.create settings program device).play commands
    ∃ k, ∀ moves, k ≤ p.stop.efforts moves → (p.stop.follow moves).stage = .idle
  /-- A run that is started with the flag up shows and asks for nothing. -/
  started : ∀ settings program (device : σ) commands moves,
    let p := (Process.create settings program device).play commands
    p.stage = .idle → p.session.phase = .ready → p.session.stopped = true →
      p.Refrains (p.start.follow moves) ∧ (2 ≤ p.start.efforts moves → (p.start.follow moves).stage = .idle)
  /-- What a run returns is what the process that it is has ended with. -/
  outcome : ∀ n (s : Session σ) history, ∃ later,
    (Process.between s history).Leads (.between (s.run n).2 later) ∧
      ∀ o, (s.run n).1 = .ended o → later.head? = some (.ended o)
  run : ∀ settings program (s : Session σ), s.Reachable settings program → s.phase = .ready →
    s.stopped = true → ∀ n, ∃ o t, s.run (n + 2) = (.ended o, t) ∧ o.ending = .stopped ∧
      o.isSuccess = true ∧ o.steps = 0 ∧ o.output = #[] ∧ t.device = s.device

section Cooperative

variable {σ : Type} [Device σ] [Stepwise σ]

theorem Process.seen_look {p : Process σ} (h : p.Attentive) {next : Bool → Request σ}
    (hp : p.stage = .request (.look next)) : p.stop.work.work.stage = .finish (.fault .inputCancelled) := by
  obtain ⟨s, stage, history⟩ := p
  cases hp
  obtain ⟨n, hn⟩ := h _ rfl
  cases n with
  | zero => exact hn.elim
  | succ n =>
    show (work ⟨s.stop, .request (next true), history⟩).stage = _
    rw [hn.1]
    rfl

variable [Cooperative σ]

theorem Process.stops_follow {settings : Settings} {program : Program} {p : Process σ}
    (hsound : p.Sound settings program) (hattentive : p.Attentive) (hrun : p.stage ≠ .idle)
    (moves : List (Move σ)) : p.Stops settings program (p.stop.follow moves) (p.follow moves) := by
  have hwinds := (stopped_follow hsound hrun moves).winds
  have hfollows := follows_follow moves (.inl rfl : p.stop.Follows p) hattentive
  refine ⟨hwinds.nearly.completions, hwinds.nearly.emissions, ?_, fun hidle => ?_⟩
  · rcases hfollows with he | ⟨-, ho⟩
    · exact he ▸ List.prefix_refl _
    · exact ho
  · rw [hidle] at hwinds
    obtain ⟨o, history, hh, hout, ⟨hstopped, -⟩ | ⟨hc, -, hconcludes⟩⟩ := hwinds
    · exact ⟨o, history, hh, congrArg _ hout, .inl hstopped⟩
    · refine ⟨o, history, hh, congrArg _ hout, ?_⟩
      rcases hfollows with he | ⟨hr, -⟩
      · exact .inr ⟨hc, hconcludes, .inr (by rw [he]; rfl)⟩
      · -- the flag was seen, so the process has ended by it
        rw [Resigned, hidle] at hr
        obtain ⟨o', history', hh', hend⟩ := hr
        rw [hh] at hh'
        cases hh'
        exact hend.imp id fun hcancelled => ⟨hc, hconcludes, .inl hcancelled⟩

/-- Cooperative devices make for machines that can be stopped. -/
theorem stopLaw_of_cooperative : StopLaw σ where
  raised settings program device commands moves := by
    intro p hrun
    exact p.stops_follow (Process.sound_play settings program device commands)
      (Process.attentive_play settings program device commands) hrun moves
  seen settings program device commands next := by
    intro p hp
    exact Process.seen_look (Process.attentive_play settings program device commands) hp
  ends settings program device commands := by
    intro p
    obtain ⟨k, hk⟩ := Process.exists_due (p := p.stop)
      (Process.attentive_play settings program device commands)
    exact ⟨k, fun moves => Process.due_follow moves rfl hk⟩
  started settings program device commands moves := by
    intro p hstage hphase hs
    have hsound := Process.sound_play settings program device commands
    refine ⟨Process.refrains_follow hsound hstage hphase hs moves, fun hk => ?_⟩
    refine Process.due_follow moves (Process.stopped_start hs) ?_ hk
    rw [(Process.start_ready hstage hphase).1]
    exact Nat.le_refl 2
  outcome := Process.run_leads
  run settings program s h hp hs n := by
    obtain ⟨o, t, hrun, hend, hrest⟩ := Session.run_stopped h hp hs n
    exact ⟨o, t, hrun, hend, by rw [Outcome.isSuccess, hend]; rfl, hrest⟩

end Cooperative

/-- Stopping a run, with prepared answers, at a terminal and with an operator at a channel. Only at a
terminal can a stopped run be held up, by a line that it has begun to read and that has not come. -/
theorem stop_is_heeded :
    StopLaw Scripted ∧ StopLaw Terminal ∧ StopLaw Channel ∧
    (∀ p : Process Scripted, p.blocked = false) ∧ (∀ p : Process Channel, p.blocked = false) ∧
    ∀ p : Process Terminal, p.blocked = true ↔ p.stage = .ask ∧ p.session.device.reading = true ∧
      p.session.device.closed = false ∧ Terminal.newline ∉ p.session.device.input := by
  refine ⟨stopLaw_of_cooperative, stopLaw_of_cooperative, stopLaw_of_cooperative, ?_, ?_, ?_⟩
  · rintro ⟨s, stage, history⟩
    cases stage <;> rfl
  · rintro ⟨s, stage, history⟩
    cases stage <;> rfl
  · rintro ⟨s, stage, history⟩
    cases stage with
    | ask =>
      show (!(!s.device.reading || s.device.hasLine)) = true ↔ _
      simp [Terminal.hasLine]
    | _ => simp [Process.blocked]

/-- Waits for an answer. -/
def asking : Program where
  instructions := [⟨"", "RD", "", ""⟩]

theorem stop_is_heeded_asking :
    let p := (Process.create { memory := 1 } asking ({} : Channel)).play
      (.run :: List.replicate 6 (.move .work))
    let q := p.stop.follow (List.replicate 6 .work)
    p.session.phase = .reading ∧
      q.history = [.ended ⟨.fault .inputCancelled, #[], 1, 0, -1, #[]⟩, .requested] ∧
      p.Stops { memory := 1 } asking q (p.follow (List.replicate 6 .work)) := by
  intro p q
  have hphase : p.session.phase = .reading := by decide +kernel
  have hsound : p.Sound { memory := 1 } asking := Process.sound_play _ _ _ _
  have hrun : p.stage ≠ .idle := by
    intro hidle
    rcases hsound.idle hidle with h | ⟨h, -⟩ <;> rw [hphase] at h <;> cases h
  exact ⟨hphase, by decide +kernel, stop_is_heeded.2.2.1.raised { memory := 1 } asking {} _ _ hrun⟩

end StackMachine
