/-
Devices that a machine cannot tell apart. One device imitates another if it gives the same replies
in the end, with a bounded number of pending ones before each (`Device.Imitates`). Sessions that are
alike but for the device then do the same: a tick of one is a tick of the other, or the imitating
device takes its time (`Session.Alike.tick`), so whatever one run comes to the other comes to as
well, in both directions (`Session.Alike.run_to`, `Session.Alike.run_of`).
-/
import StackMachine.Proofs.Session

namespace StackMachine

/-- `R` holds between the states of two devices, under a stop flag, that go on giving the same
replies. The first one may keep a request pending where the second does not, and `lag` bounds for how
long. -/
structure Device.Imitates {σ τ : Type} [Device σ] [Device τ] (R : Bool → σ → τ → Prop) (lag : σ → Nat) :
    Prop where
  ask : ∀ {stopped : Bool} {d : σ} {e : τ}, R stopped d e →
    let r := Device.ask stopped d
    let q := Device.ask stopped e
    (r.reply = q.reply ∧ r.raisesStop = q.raisesStop ∧ R (stopped || r.raisesStop) r.device q.device) ∨
      (r.reply = .pending ∧ r.raisesStop = false ∧ R stopped r.device e ∧ lag r.device < lag d)
  emit : ∀ {stopped : Bool} {d : σ} {e : τ} (v : Word), R stopped d e →
    let r := Device.emit v d
    let q := Device.emit v e
    r.raisesStop = q.raisesStop ∧ R (stopped || r.raisesStop) r.device q.device

/-- What `R` relates stays related when a value is printed, and one device raises the stop flag if the other
does. -/
structure Device.TakesAlike {σ τ : Type} [Device σ] [Device τ] (R : Bool → σ → τ → Prop) : Prop where
  emit : ∀ {stopped : Bool} {d : σ} {e : τ} (v : Word), R stopped d e →
    (Device.emit v d).raisesStop = (Device.emit v e).raisesStop ∧
      R (stopped || (Device.emit v d).raisesStop) (Device.emit v d).device (Device.emit v e).device

theorem Device.Imitates.takesAlike {σ τ : Type} [Device σ] [Device τ] {R : Bool → σ → τ → Prop} {lag : σ → Nat}
    (h : Device.Imitates R lag) : Device.TakesAlike R :=
  ⟨h.emit⟩

namespace Session

variable {σ τ : Type} {R : Bool → σ → τ → Prop} {lag : σ → Nat} {s : Session σ} {t : Session τ}

/-- The sessions are the same but for their devices, which are related, and their logs. -/
structure Alike (R : Bool → σ → τ → Prop) (s : Session σ) (t : Session τ) : Prop where
  settings : s.settings = t.settings
  image : s.image = t.image
  machine : s.machine = t.machine
  stopped : s.stopped = t.stopped
  phase : s.phase = t.phase
  device : R s.stopped s.device t.device

/-- Two runs have come equally far and left sessions that are alike. -/
structure Agree (R : Bool → σ → τ → Prop) (r : Progress × Session σ) (q : Progress × Session τ) : Prop where
  progress : r.1 = q.1
  session : r.2.Alike R q.2

/-! ## One tick -/

theorem Alike.outcome (h : s.Alike R t) (e : Ending) : s.outcome e = t.outcome e := by
  rw [Session.outcome, Session.outcome, h.machine]

theorem Alike.finish (h : s.Alike R t) (e : Ending) : Agree R (s.finish e) (t.finish e) := by
  refine ⟨congrArg _ (h.outcome e), h.settings, h.image, ?_, h.stopped, rfl, h.device⟩
  show { s.machine with trace := #[] } = { t.machine with trace := #[] }
  rw [h.machine]

theorem Alike.with_machine (h : s.Alike R t) (m : Machine) :
    { s with machine := m }.Alike R { t with machine := m } :=
  ⟨h.settings, h.image, rfl, h.stopped, h.phase, h.device⟩

theorem Alike.retire (h : s.Alike R t) (pc : Int) (op : Operation) :
    Agree R (s.retire pc op) (t.retire pc op) := by
  rw [retire_eq, retire_eq]
  refine ⟨rfl, h.settings, h.image, ?_, h.stopped, rfl, h.device⟩
  show (s.recorded pc op).advance = (t.recorded pc op).advance
  rw [recorded, recorded, h.settings, h.machine]

variable [Device σ] [Device τ]

theorem Alike.shown (hR : Device.TakesAlike R) (h : s.Alike R t) (v : Word) :
    (s.shown v).Alike R (t.shown v) := by
  obtain ⟨hraises, hdevice⟩ := hR.emit v h.device
  refine ⟨h.settings, h.image, h.machine, ?_, h.phase, hdevice⟩
  show (s.stopped || _) = (t.stopped || _)
  rw [h.stopped, hraises]

theorem Alike.perform (hR : Device.TakesAlike R) (h : s.Alike R t) (op : Operation) :
    Agree R (s.perform op) (t.perform op) := by
  have hexec : op.execute s.image.labels s.machine = op.execute t.image.labels t.machine := by
    rw [h.image, h.machine]
  have hpc : s.machine.pc = t.machine.pc := by rw [h.machine]
  rw [perform_eq, perform_eq, hexec, hpc]
  rcases op.execute t.image.labels t.machine with ⟨d, m⟩ | ⟨f, m⟩
  · cases d with
    | nothing => exact (h.with_machine m).retire _ op
    | output v => exact ((h.with_machine m).shown hR v).retire _ op
    | input => exact ⟨rfl, h.settings, h.image, rfl, h.stopped, rfl, h.device⟩
  · exact (h.with_machine m).finish _

theorem Alike.cycle (hR : Device.TakesAlike R) (h : s.Alike R t) : Agree R s.cycle t.cycle := by
  have hfetch : s.image.fetch? s.machine.pc = t.image.fetch? t.machine.pc := by rw [h.image, h.machine]
  have hcharge : s.machine.charge s.settings.stepLimit = t.machine.charge t.settings.stepLimit := by
    rw [h.machine, h.settings]
  unfold Session.cycle
  rw [hfetch, hcharge]
  by_cases hs : s.stopped = true
  · rw [if_pos hs, if_pos (h.stopped ▸ hs)]
    exact h.finish _
  · rw [if_neg hs, if_neg (h.stopped ▸ hs)]
    split
    · exact h.finish _
    · exact h.finish _
    · exact h.finish _
    · split
      · exact h.finish _
      · exact (h.with_machine _).perform hR _

theorem Alike.asked (h : s.Alike R t)
    (hraises : (Device.ask s.stopped s.device).raisesStop = (Device.ask s.stopped t.device).raisesStop)
    (hdevice : R (s.stopped || (Device.ask s.stopped s.device).raisesStop)
      (Device.ask s.stopped s.device).device (Device.ask s.stopped t.device).device) :
    s.asked.Alike R t.asked := by
  rw [h.stopped] at hraises hdevice
  refine ⟨h.settings, h.image, h.machine, ?_, h.phase, ?_⟩
  · show (s.stopped || (Device.ask s.stopped s.device).raisesStop) =
      (t.stopped || (Device.ask t.stopped t.device).raisesStop)
    rw [h.stopped, hraises]
  · show R (s.stopped || (Device.ask s.stopped s.device).raisesStop) (Device.ask s.stopped s.device).device
      (Device.ask t.stopped t.device).device
    rw [h.stopped]
    exact hdevice

/-- Asking related devices: they reply the same, or the first one keeps the request pending. -/
theorem Alike.await (hR : Device.Imitates R lag) (h : s.Alike R t) :
    Agree R s.await t.await ∨
      s.await.1 = .running ∧ s.await.2.Alike R t ∧ lag s.await.2.device < lag s.device := by
  have hs : s.consult (Device.ask s.stopped) = ((Device.ask s.stopped s.device).reply, s.asked) := rfl
  have ht : t.consult (Device.ask t.stopped) = ((Device.ask t.stopped t.device).reply, t.asked) := rfl
  unfold Session.await
  rw [hs, ht, ← h.stopped]
  rcases hR.ask h.device with ⟨hreply, hraises, hdevice⟩ | ⟨hpending, hraises, hdevice, hlag⟩
  · left
    have hasked := h.asked hraises hdevice
    rw [hreply]
    cases (Device.ask s.stopped t.device).reply with
    | pending => exact ⟨rfl, hasked⟩
    | waiting => exact ⟨rfl, hasked⟩
    | refused e => exact hasked.finish _
    | answer v =>
      simp only [hasked.machine]
      rcases Exec.push v t.asked.machine with ⟨_, m⟩ | ⟨f, m⟩
      · exact (hasked.with_machine m).retire _ _
      · exact (hasked.with_machine m).finish _
  · right
    rw [hpending]
    refine ⟨rfl, ⟨h.settings, h.image, h.machine, ?_, h.phase, ?_⟩, hlag⟩
    · show (s.stopped || (Device.ask s.stopped s.device).raisesStop) = t.stopped
      rw [hraises, Bool.or_false, h.stopped]
    · show R (s.stopped || (Device.ask s.stopped s.device).raisesStop) _ t.device
      rw [hraises, Bool.or_false]
      exact hdevice

/-- Where no request is going on, a tick of one session is a tick of the other. -/
theorem Alike.tick_unread (hR : Device.TakesAlike R) (h : s.Alike R t) (hp : s.phase ≠ .reading) :
    Agree R s.tick t.tick := by
  unfold Session.tick
  rw [← h.phase]
  cases hphase : s.phase with
  | ready => exact ⟨rfl, h.settings, h.image, h.machine, h.stopped, rfl, h.device⟩
  | running => exact h.cycle hR
  | reading => exact absurd hphase hp
  | halted => exact ⟨congrArg _ (h.outcome _), h⟩

/-- A tick of one session is a tick of the other, or the imitating device takes its time. -/
theorem Alike.tick (hR : Device.Imitates R lag) (h : s.Alike R t) :
    Agree R s.tick t.tick ∨
      s.tick.1 = .running ∧ s.tick.2.Alike R t ∧ lag s.tick.2.device < lag s.device := by
  by_cases hp : s.phase = .reading
  · unfold Session.tick
    rw [← h.phase, hp]
    exact h.await hR
  · exact .inl (h.tick_unread hR.takesAlike hp)

theorem Alike.tick_lockstep (hR : Device.Imitates R fun _ => 0) (h : s.Alike R t) :
    Agree R s.tick t.tick := by
  rcases h.tick hR with hagree | ⟨-, -, hlag⟩
  · exact hagree
  · exact absurd hlag (Nat.lt_irrefl 0)

/-! ## Runs -/

omit [Device τ] in
theorem run_succ_running (h : s.tick.1 = .running) (n : Nat) : s.run (n + 1) = s.tick.2.run n := by
  rcases hs : s.tick with ⟨r, s'⟩
  rw [hs] at h
  cases h
  rw [run, hs]

/-- Runs that agree after one tick agree if what is left of them agrees. -/
theorem Agree.run_succ (h : Agree R s.tick t.tick) {m n : Nat}
    (hrest : s.tick.1 = .running → Agree R (s.tick.2.run m) (t.tick.2.run n)) :
    Agree R (s.run (m + 1)) (t.run (n + 1)) := by
  by_cases hr : s.tick.1 = .running
  · rw [run_succ_running hr, run_succ_running (h.progress ▸ hr)]
    exact hrest hr
  · obtain ⟨hprogress, hsession⟩ := h
    rw [run, run]
    rcases hs : s.tick with ⟨r, s'⟩
    rcases ht : t.tick with ⟨q, t'⟩
    rw [hs] at hr hprogress hsession
    rw [ht] at hprogress hsession
    cases hprogress
    cases r with
    | running => exact absurd rfl hr
    | ended o => exact ⟨rfl, hsession⟩
    | waiting => exact ⟨rfl, hsession⟩

/-- Whatever the run with the imitating device comes to, the other run comes to. -/
theorem Alike.run_to (hR : Device.Imitates R lag) : ∀ (n : Nat) {s : Session σ} {t : Session τ},
    s.Alike R t → ∃ m, Agree R (s.run n) (t.run m)
  | 0, s, t, h => ⟨0, rfl, h⟩
  | n + 1, s, t, h => by
    rcases h.tick hR with hagree | ⟨hr, halike, -⟩
    · obtain ⟨m, hm⟩ := Alike.run_to hR n hagree.session
      exact ⟨m + 1, hagree.run_succ fun _ => hm⟩
    · obtain ⟨m, hm⟩ := Alike.run_to hR n halike
      exact ⟨m, by rw [run_succ_running hr]; exact hm⟩

/-- Whatever the other run comes to, the run with the imitating device comes to, after the delays
that `lag` bounds. -/
theorem Alike.run_of (hR : Device.Imitates R lag) : ∀ (n : Nat) {s : Session σ} {t : Session τ},
    s.Alike R t → ∃ m, Agree R (s.run m) (t.run n)
  | 0, s, t, h => ⟨0, rfl, h⟩
  | n + 1, s, t, h => by
    rcases h.tick hR with hagree | ⟨hr, halike, hlag⟩
    · obtain ⟨m, hm⟩ := Alike.run_of hR n hagree.session
      exact ⟨m + 1, hagree.run_succ fun _ => hm⟩
    · obtain ⟨m, hm⟩ := Alike.run_of hR (n + 1) halike
      exact ⟨m + 1, by rw [run_succ_running hr]; exact hm⟩
  termination_by n s => (n, lag s.device)

/-- Without delays the two runs go tick by tick. -/
theorem Alike.run (hR : Device.Imitates R fun _ => 0) : ∀ (n : Nat) {s : Session σ} {t : Session τ},
    s.Alike R t → Agree R (s.run n) (t.run n)
  | 0, s, t, h => ⟨rfl, h⟩
  | n + 1, s, t, h => by
    have hagree := h.tick_lockstep hR
    exact hagree.run_succ fun _ => Alike.run hR n hagree.session

end Session

end StackMachine
