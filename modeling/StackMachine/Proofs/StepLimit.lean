/-
The step limit only cuts runs off. A run that stays within the limit is the run without a limit,
tick by tick; a run that would go beyond it ends with the fault of the limit, at the moment the
instruction after the last allowed one would be begun, and what it has printed and recorded until
then is what the unlimited run has printed and recorded until then (`stepLimit_cuts_off`).

The two runs are compared on the same machine: `limitTo` changes nothing but the limit, and
`tick_limitTo` says that a tick does the same with and without it, unless it begins an instruction
for which no step is left.
-/
import StackMachine.Device.Scripted
import StackMachine.Proofs.Run

namespace StackMachine

namespace Session

variable {σ : Type}

/-- The session with another step limit. -/
def limitTo (s : Session σ) (limit : Option Nat) : Session σ :=
  { s with settings := { s.settings with stepLimit := limit } }

theorem retire_limitTo (s : Session σ) (limit : Option Nat) (pc : Int) (op : Operation) :
    (s.limitTo limit).retire pc op = ((s.retire pc op).1, (s.retire pc op).2.limitTo limit) := by
  rw [retire_eq, retire_eq]
  rfl

variable [Device σ]

/-! ## One tick with and without a limit -/

theorem perform_limitTo (s : Session σ) (limit : Option Nat) (op : Operation) :
    (s.limitTo limit).perform op = ((s.perform op).1, (s.perform op).2.limitTo limit) := by
  have hsame : op.execute (s.limitTo limit).image.labels (s.limitTo limit).machine =
    op.execute s.image.labels s.machine := rfl
  rw [perform_eq, perform_eq, hsame]
  rcases op.execute s.image.labels s.machine with ⟨d, m⟩ | ⟨f, m⟩
  · cases d with
    | nothing => exact retire_limitTo { s with machine := m } limit _ op
    | input => rfl
    | output v => exact retire_limitTo ({ s with machine := m }.shown v) limit _ op
  · rfl

theorem await_limitTo (s : Session σ) (limit : Option Nat) :
    (s.limitTo limit).await = (s.await.1, s.await.2.limitTo limit) := by
  have ha : s.consult (Device.ask s.stopped) = ((Device.ask s.stopped s.device).reply, s.asked) := rfl
  have ha' : (s.limitTo limit).consult (Device.ask (s.limitTo limit).stopped) =
    ((Device.ask s.stopped s.device).reply, s.asked.limitTo limit) := rfl
  unfold await
  rw [ha, ha']
  cases (Device.ask s.stopped s.device).reply with
  | pending => rfl
  | waiting => rfl
  | refused e => rfl
  | answer v =>
    have hm : (s.asked.limitTo limit).machine = s.asked.machine := rfl
    simp only [hm]
    rcases Exec.push v s.asked.machine with ⟨_, m⟩ | ⟨f, m⟩
    · exact retire_limitTo { s.asked with machine := m } limit _ .rd
    · rfl

/-- A tick that begins no instruction, or one that a step is left for, does not depend on the
limit. -/
theorem tick_limitTo {s : Session σ} {N : Nat} (hn : s.settings.stepLimit = none)
    (hw : ∀ op, s.Begins op → s.machine.steps < N) :
    (s.limitTo (some N)).tick = (s.tick.1, s.tick.2.limitTo (some N)) := by
  have hphase : (s.limitTo (some N)).phase = s.phase := rfl
  unfold tick
  rw [hphase]
  cases hp : s.phase with
  | ready => rfl
  | halted => rfl
  | reading => exact await_limitTo s (some N)
  | running =>
    show (s.limitTo (some N)).cycle = (s.cycle.1, s.cycle.2.limitTo (some N))
    have hfetch : (s.limitTo (some N)).image.fetch? (s.limitTo (some N)).machine.pc =
      s.image.fetch? s.machine.pc := rfl
    unfold cycle
    by_cases hs : s.stopped = true
    · rw [if_pos hs, if_pos (show (s.limitTo (some N)).stopped = true from hs)]
      rfl
    rw [if_neg hs, if_neg (show ¬(s.limitTo (some N)).stopped = true from hs), hfetch]
    rw [Bool.not_eq_true] at hs
    split
    · rfl
    · rfl
    · rfl
    · rename_i op hop hf
      have hb : s.Begins op := ⟨hp, hs, hf, fun h => hop h, by rw [hn]; exact nofun⟩
      have hc : s.machine.charge s.settings.stepLimit = .ok s.machine.counted := by
        rw [hn]
        rfl
      have hc' : (s.limitTo (some N)).machine.charge (s.limitTo (some N)).settings.stepLimit =
          .ok s.machine.counted :=
        Machine.charge_within fun n h => by cases h; exact hw op hb
      rw [hc, hc']
      exact perform_limitTo { s with machine := s.machine.counted } (some N) op

/-- Where no step is left, the run is cut off. -/
theorem tick_cut_off {s : Session σ} {N : Nat} {op : Operation} (hb : s.Begins op)
    (hN : N ≤ s.machine.steps) :
    (s.limitTo (some N)).tick = (s.limitTo (some N)).finish (.fault (.stepLimitExceeded N)) :=
  Ends.tick (.limit hb.unstopped hb.fetched hb.executable rfl hN) hb.running

/-! ## Runs with and without a limit -/

section

variable {settings : Settings} {program : Program} {N : Nat}

/-- A run that needs no more steps than the limit is the run without a limit. -/
theorem run_limitTo (hn : settings.stepLimit = none) :
    ∀ (n : Nat) {s : Session σ}, s.Valid settings program → (s.run n).2.machine.steps ≤ N →
      (s.limitTo (some N)).run n = ((s.run n).1, (s.run n).2.limitTo (some N))
  | 0, s, _, _ => rfl
  | n + 1, s, h, hN => by
    have hg := s.tick_ticks.grows h
    have hv := s.tick_ticks.valid h
    have hlimit : s.settings.stepLimit = none := by rw [h.settings_eq, hn]
    -- the last step of the run bounds the steps after its first tick
    have hw : ∀ op, s.Begins op → s.machine.steps < N := by
      intro op hb
      have hbegun := hg.begun op hb
      suffices s.tick.2.machine.steps ≤ N by omega
      rw [run] at hN
      rcases ht : s.tick with ⟨r, t⟩
      rw [ht] at hN hv
      cases r with
      | ended o => exact hN
      | waiting => exact hN
      | running => exact Nat.le_trans (run_grows n hv).1 hN
    rw [run, run, tick_limitTo hlimit hw]
    rw [run] at hN
    rcases ht : s.tick with ⟨r, t⟩
    rw [ht] at hN hv
    cases r with
    | ended o => rfl
    | waiting => rfl
    | running => exact run_limitTo hn n hv hN

/-- A run that needs more steps than `N` comes to the instruction after the `N`-th. -/
theorem run_beyond :
    ∀ (n : Nat) {s : Session σ}, s.Valid settings program → s.machine.steps ≤ N →
      N < (s.run n).2.machine.steps →
      ∃ m t op, m < n ∧ s.run m = (.running, t) ∧ t.Begins op ∧ t.machine.steps = N
  | 0, s, _, hle, hlt => absurd hle (Nat.not_le.2 hlt)
  | n + 1, s, h, hle, hlt => by
    have hg := s.tick_ticks.grows h
    have hv := s.tick_ticks.valid h
    by_cases hnow : (∃ op, s.Begins op) ∧ s.machine.steps = N
    · obtain ⟨⟨op, hb⟩, hs⟩ := hnow
      exact ⟨0, s, op, Nat.succ_pos n, rfl, hb, hs⟩
    · have hnext : s.tick.2.machine.steps ≤ N := by
        by_cases hb : ∃ op, s.Begins op
        · obtain ⟨op, hb⟩ := hb
          have hne : s.machine.steps ≠ N := fun hs => hnow ⟨⟨op, hb⟩, hs⟩
          rw [hg.begun op hb]
          omega
        · rw [hg.idle fun op hop => hb ⟨op, hop⟩]
          exact hle
      rw [run] at hlt
      rcases ht : s.tick with ⟨r, t⟩
      rw [ht] at hlt hnext hv
      cases r with
      | ended o => exact absurd hnext (Nat.not_le.2 hlt)
      | waiting => exact absurd hnext (Nat.not_le.2 hlt)
      | running =>
        obtain ⟨m, u, op, hm, hu, hb, hs⟩ := run_beyond n hv hnext hlt
        refine ⟨m + 1, u, op, Nat.succ_lt_succ hm, ?_, hb, hs⟩
        rw [run, ht]
        exact hu

/-- How the run with limit `N` ends where the run from `s` needs more steps: with the fault of the
limit, after the same ticks as that run, having printed and recorded the same. -/
def CutOff (s : Session σ) (N : Nat) : Prop :=
  ∃ m o, ((s.limitTo (some N)).run m).1 = .ended o ∧ o.ending = .fault (.stepLimitExceeded N) ∧
    o.steps = N ∧ ∀ k, m ≤ k → o.output.toList <+: (s.run k).2.machine.output.toList ∧
      o.trace.toList = (account (s.run k)).toList.take N

theorem cutOff_of_beyond {s : Session σ} (h : s.Valid settings program) (hrec : s.Recorded)
    (hn : settings.stepLimit = none) (htrace : s.machine.trace = #[]) (hle : s.machine.steps ≤ N)
    {n : Nat} (hlt : N < (s.run n).2.machine.steps) : s.CutOff N := by
  obtain ⟨m, t, op, -, ht, hb, hN⟩ := run_beyond n h hle hlt
  have hboth := run_keeps (P := fun s => s.Valid settings program ∧ s.Recorded)
    (fun u hu => ⟨u.tick_ticks.valid hu.1, u.tick_ticks.recorded hu.1 hu.2⟩) m ⟨h, hrec⟩
  rw [ht] at hboth
  obtain ⟨hv, hr⟩ := hboth
  have hrun : (s.limitTo (some N)).run m = (.running, t.limitTo (some N)) := by
    rw [run_limitTo hn m h (by rw [ht]; exact Nat.le_of_eq hN), ht]
  refine ⟨m + 1, (t.limitTo (some N)).outcome (.fault (.stepLimitExceeded N)), ?_, rfl, hN, fun k hk => ?_⟩
  · rw [run_from hrun, run, tick_cut_off hb (Nat.le_of_eq hN.symm)]
    rfl
  · obtain ⟨j, rfl⟩ := Nat.exists_eq_add_of_le (Nat.le_of_succ_le hk)
    obtain ⟨-, hout, hpre, hsilent⟩ := run_grows j hv
    rw [run_from ht]
    refine ⟨hout, ?_⟩
    show t.machine.trace.toList = _
    cases hon : settings.trace with
    | true =>
      unfold Recorded at hr
      rw [hv.settings_eq, hb.running] at hr
      have hlen : t.machine.trace.toList.length = N := (hr hon).trans hN
      obtain ⟨rest, hrest⟩ := hpre
      rw [← hrest, ← hlen, List.take_left]
    | false =>
      -- nothing is ever recorded, before `t` or after it
      have hempty : t.machine.trace = #[] := by
        have := (run_grows m h).2.2.2 hon
        rw [ht] at this
        exact this.trans htrace
      rw [hsilent hon, hempty, Array.toList_empty, List.take_nil]

end

end Session

/-- The step limit only cuts runs off: a run that needs at most `N` steps has the same outcome,
machine and device with limit `N`; one that needs more, or never ends though its requests return,
is cut off after `N` steps; and a limited run whose requests return always ends. -/
theorem stepLimit_cuts_off {σ : Type} [Device σ] (settings : Settings) (program : Program)
    (device : σ) (N : Nat) :
    let free : Session σ := .create { settings with stepLimit := none } program device
    let limited : Session σ := .create { settings with stepLimit := some N } program device
    (∀ n o, (free.run n).1 = .ended o → o.steps ≤ N →
      limited.run n = (.ended o, (free.run n).2.limitTo (some N))) ∧
    ((∃ n, N < (free.run n).2.machine.steps) ∨ (free.Answered ∧ ∀ n o, (free.run n).1 ≠ .ended o) →
      ∃ m o, (limited.run m).1 = .ended o ∧ o.ending = .fault (.stepLimitExceeded N) ∧ o.steps = N ∧
        ∀ k, m ≤ k → o.output.toList <+: (free.run k).2.machine.output.toList ∧
          o.trace.toList = (Session.account (free.run k)).toList.take N) ∧
    (limited.Answered → ∃ n o, (limited.run n).1 = .ended o) := by
  intro free limited
  have hfree : free.Valid { settings with stepLimit := none } program :=
    (Session.Reachable.create device).valid
  have hrec : free.Recorded := fun _ => rfl
  have hlimited : limited.Valid { settings with stepLimit := some N } program :=
    (Session.Reachable.create device).valid
  refine ⟨fun n o ho hN => ?_, ?_, fun ha => ?_⟩
  · have hready : free.phase ≠ .halted := nofun
    rw [Session.ended_steps hready ho] at hN
    have := Session.run_limitTo rfl n hfree hN
    rwa [ho] at this
  · rintro (⟨n, hn⟩ | ⟨ha, hnever⟩)
    · exact Session.cutOff_of_beyond hfree hrec rfl rfl (Nat.zero_le N) hn
    · -- the run goes on for ever, so it begins the instruction after the `N`-th
      obtain ⟨n, ⟨o, ho⟩ | ⟨t, ht, -, hK⟩⟩ := Session.run_progress hfree ha rfl (N + 1)
      · exact absurd ho (hnever n o)
      · exact Session.cutOff_of_beyond hfree hrec rfl rfl (Nat.zero_le N) (n := n) (by rw [ht]; exact hK)
  · obtain ⟨n, ⟨o, ho⟩ | ⟨t, ht, -, hK⟩⟩ := Session.run_progress hlimited ha rfl (N + 1)
    · exact ⟨n, o, ho⟩
    · have hv := Session.run_valid n hlimited
      rw [ht] at hv
      exact absurd (hv.bounded.steps N rfl) (Nat.not_le.2 hK)

/-- Prepared answers never keep a request waiting. -/
theorem Scripted.returns (stopped : Bool) (d : Scripted) : Device.Returns stopped d := by
  apply Device.returns_of_ask
  show (d.ask stopped).reply.IsFinal
  simp only [Scripted.ask]
  split
  · trivial
  · split
    · trivial
    · simp only [Reply.ofAnswer_final]

/-- Goes round between its two instructions. -/
def looping : Program where
  instructions := [⟨"L1", "NULL", "", ""⟩, ⟨"", "JMP", "L1", ""⟩]

theorem stepLimit_cuts_off_looping :
    let settings : Settings := { memory := 1, trace := true }
    let free : Session Scripted := .create { settings with stepLimit := none } looping {}
    let limited : Session Scripted := .create { settings with stepLimit := some 3 } looping {}
    3 < (free.run 6).2.machine.steps ∧
    (∃ m o, (limited.run m).1 = .ended o ∧ o.ending = .fault (.stepLimitExceeded 3) ∧ o.steps = 3 ∧
      ∀ k, m ≤ k → o.output.toList <+: (free.run k).2.machine.output.toList ∧
        o.trace.toList = (Session.account (free.run k)).toList.take 3) ∧
    ∃ n o, (limited.run n).1 = .ended o := by
  intro settings free limited
  have hbeyond : 3 < (free.run 6).2.machine.steps := by decide +kernel
  obtain ⟨-, hcut, hends⟩ := stepLimit_cuts_off settings looping ({} : Scripted) 3
  exact ⟨hbeyond, hcut (.inl ⟨6, hbeyond⟩), hends fun _ t _ _ => Scripted.returns t.stopped t.device⟩

end StackMachine
