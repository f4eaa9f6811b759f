/-
Sessions and what has become of them. A session's past is a list of turns: runs with the outcomes they
had, stops and resets (`Session.Past`). Of all this the next run sees little (`run_afresh_or_refused`):
with no run since the last reset it is the run of a new session, and with one it is refused.
-/
import Mathlib.Data.List.Forall2
import StackMachine.Device.Scripted
import StackMachine.Proofs.Imitation

namespace StackMachine

/-- What happens outside between two ticks: somebody may raise the stop flag, and the device may
change. -/
structure Incident (σ : Type) where
  raises : Bool := false
  change : σ → σ := id

/-- What happens to the one device leaves it related to the other, and the stop flag is raised for both. -/
structure Incident.Alike {σ τ : Type} (R : Bool → σ → τ → Prop) (i : Incident σ) (j : Incident τ) : Prop where
  raises : i.raises = j.raises
  change : ∀ b d e, R b d e → R (b || i.raises) (i.change d) (j.change e)

/-- What a session says that is halted after a run with this outcome and is to run again. -/
def Outcome.refusal (o : Outcome) : Outcome := { o with ending := .fault .alreadyHalted, trace := #[] }

namespace Session

variable {σ τ : Type}

def meet (s : Session σ) (i : Incident σ) : Session σ :=
  { s with stopped := s.stopped || i.raises, device := i.change s.device }

/-- The session is halted after a run with this outcome. It shows the same machine, and the trace is
gone. -/
structure Halted (o : Outcome) (s : Session σ) : Prop where
  phase : s.phase = .halted
  shows : s.outcome o.ending = { o with trace := #[] }

theorem Halted.outside {s : Session σ} {o : Outcome} (h : s.Halted o) (stopped : Bool) (device : σ) :
    { s with stopped := stopped, device := device }.Halted o :=
  ⟨h.phase, h.shows⟩

theorem Valid.outside {settings : Settings} {program : Program} {s : Session σ}
    (h : s.Valid settings program) (stopped : Bool) (device : σ) :
    { s with stopped := stopped, device := device }.Valid settings program :=
  ⟨h.settings_eq, h.image_eq, h.bounded, h.reading⟩

/-! ## Runs while something happens outside -/

section Run

variable [Device σ]

/-- A run with an incident before each of its ticks, for as many ticks as there are incidents. A run
that waits for the outside goes on with the next one. -/
def runAmid : List (Incident σ) → Session σ → Progress × Session σ
  | [], s => (.running, s)
  | i :: is, s =>
    match (s.meet i).tick with
    | (.ended o, t) => (.ended o, t)
    | (_, t) => runAmid is t

theorem runAmid_cons_ended {s t : Session σ} {i : Incident σ} {o : Outcome}
    (h : (s.meet i).tick = (.ended o, t)) (is : List (Incident σ)) : s.runAmid (i :: is) = (.ended o, t) := by
  rw [runAmid, h]

theorem runAmid_cons {s : Session σ} {i : Incident σ} (h : ∀ o, (s.meet i).tick.1 ≠ .ended o)
    (is : List (Incident σ)) : s.runAmid (i :: is) = (s.meet i).tick.2.runAmid is := by
  rw [runAmid]
  rcases ht : (s.meet i).tick with ⟨r, t⟩
  rw [ht] at h
  cases r with
  | ended o => exact absurd rfl (h o)
  | waiting => rfl
  | running => rfl

/-- A run that is over within `n` ticks is one with `n` incidents in which nothing happens. -/
theorem runAmid_quiet : ∀ {n : Nat} {s t : Session σ} {o : Outcome}, s.run n = (.ended o, t) →
    s.runAmid (List.replicate n {}) = (.ended o, t)
  | 0, _, _, _, h => by cases h
  | n + 1, s, t, o, h => by
    have hmeet : s.meet {} = s := by simp [meet]
    rw [List.replicate_succ]
    rw [run] at h
    rcases ht : s.tick with ⟨r, u⟩
    rw [ht] at h
    cases r with
    | ended o' =>
      cases h
      exact runAmid_cons_ended (by rw [hmeet, ht]) _
    | waiting => cases h
    | running =>
      rw [runAmid_cons (by simp [hmeet, ht]), hmeet, ht]
      exact runAmid_quiet h

/-- What every incident and every tick keeps, a run keeps. -/
theorem runAmid_keeps {P : Session σ → Prop} {A : Incident σ → Prop}
    (hmeet : ∀ s i, A i → P s → P (s.meet i)) (htick : ∀ s, P s → P s.tick.2) :
    ∀ {is : List (Incident σ)} {s : Session σ}, (∀ i ∈ is, A i) → P s → P (s.runAmid is).2
  | [], s, _, hs => hs
  | i :: is, s, his, hs => by
    rw [List.forall_mem_cons] at his
    have ht := htick _ (hmeet s i his.1 hs)
    by_cases he : ∃ o, (s.meet i).tick.1 = .ended o
    · obtain ⟨o, he⟩ := he
      rw [runAmid_cons_ended (o := o) (Prod.ext he rfl)]
      exact ht
    · rw [runAmid_cons fun o ho => he ⟨o, ho⟩]
      exact runAmid_keeps hmeet htick his.2 ht

/-- The tick that a run of a session not halted ends with, and what the incidents and ticks before it
keep. -/
theorem runAmid_ended {P : Session σ → Prop} (hmeet : ∀ s i, P s → P (s.meet i))
    (htick : ∀ s, P s → P s.tick.2) :
    ∀ {is : List (Incident σ)} {s s' : Session σ} {o : Outcome}, P s → s.phase ≠ .halted →
      s.runAmid is = (.ended o, s') → ∃ t, P t ∧ t.phase ≠ .halted ∧ t.tick = (.ended o, s')
  | [], _, _, _, _, _, h => by cases h
  | i :: is, s, s', o, hs, hp, h => by
    have hm := hmeet s i hs
    by_cases he : ∃ o, (s.meet i).tick.1 = .ended o
    · obtain ⟨o', he⟩ := he
      rw [runAmid_cons_ended (o := o') (Prod.ext he rfl)] at h
      cases h
      exact ⟨s.meet i, hm, hp, Prod.ext he rfl⟩
    · have hlive : ∀ o, (s.meet i).tick.1 ≠ .ended o := fun o ho => he ⟨o, ho⟩
      rw [runAmid_cons hlive] at h
      exact runAmid_ended hmeet htick (htick _ hm) ((s.meet i).tick_ticks.live hlive) h

theorem Halted.tick {s : Session σ} {o : Outcome} (h : s.Halted o) : s.tick = (.ended o.refusal, s) := by
  rw [Session.tick, h.phase]
  show (Progress.ended { s.outcome o.ending with ending := .fault .alreadyHalted }, s) = _
  rw [h.shows]
  rfl

theorem Halted.run {s : Session σ} {o : Outcome} (h : s.Halted o) (n : Nat) :
    s.run (n + 1) = (.ended o.refusal, s) := by
  rw [Session.run, h.tick]

theorem Halted.runAmid {s : Session σ} {o : Outcome} (h : s.Halted o) (i : Incident σ)
    (is : List (Incident σ)) : s.runAmid (i :: is) = (.ended o.refusal, s.meet i) :=
  runAmid_cons_ended (h.outside (s.stopped || i.raises) (i.change s.device)).tick is

omit [Device σ] in
theorem Halted.refused {s : Session σ} {o : Outcome} (h : s.Halted o) : s.Halted o.refusal := by
  refine ⟨h.phase, ?_⟩
  show { s.outcome o.ending with ending := .fault .alreadyHalted } = _
  rw [h.shows]
  rfl

/-- A run that ends leaves a halted session. -/
theorem Ticks.halted {s t : Session σ} {o : Outcome} (hp : s.phase ≠ .halted) (ht : s.Ticks (.ended o, t)) :
    t.Halted o := by
  generalize hr : ((.ended o, t) : Progress × Session σ) = r at ht
  cases ht with
  | refuse h => exact absurd h hp
  | finish | fail | refused | overflow => cases hr; exact ⟨rfl, rfl⟩
  | work | print | answer => rw [retire_eq] at hr; cases hr
  | _ => cases hr

end Run

/-! ## Runs of sessions that are alike -/

section Alike

variable {R : Bool → σ → τ → Prop}

theorem Alike.meet {s : Session σ} {t : Session τ} (h : s.Alike R t) {i : Incident σ} {j : Incident τ}
    (hraises : i.raises = j.raises)
    (hchange : ∀ b d e, R b d e → R (b || i.raises) (i.change d) (j.change e)) :
    (s.meet i).Alike R (t.meet j) := by
  refine ⟨h.settings, h.image, h.machine, ?_, h.phase, hchange _ _ _ h.device⟩
  show (s.stopped || i.raises) = (t.stopped || j.raises)
  rw [h.stopped, hraises]

variable [Device σ] [Device τ]

/-- Sessions that agree after a tick, as long as the first one is as `P` says, run alike if related things
happen to the devices. -/
theorem Alike.runAmid_lockstep {P : Session σ → Prop} (hmeet : ∀ s i, P s → P (s.meet i))
    (htick : ∀ s, P s → P s.tick.2) (hagree : ∀ {s : Session σ} {t : Session τ}, P s → s.Alike R t →
      Agree R s.tick t.tick) {is : List (Incident σ)} {js : List (Incident τ)}
    (h : List.Forall₂ (Incident.Alike R) is js) :
    ∀ {s : Session σ} {t : Session τ}, P s → s.Alike R t → Agree R (s.runAmid is) (t.runAmid js) := by
  induction h with
  | nil => exact fun _ h => ⟨rfl, h⟩
  | @cons i j is js hij _ ih =>
    intro s t hs h
    have hs' := hmeet s i hs
    have hagrees := hagree hs' (h.meet hij.raises hij.change)
    by_cases he : ∃ o, (t.meet j).tick.1 = .ended o
    · obtain ⟨o, he⟩ := he
      rw [runAmid_cons_ended (o := o) (Prod.ext he rfl),
        runAmid_cons_ended (o := o) (Prod.ext (hagrees.progress.trans he) rfl)]
      exact ⟨rfl, hagrees.session⟩
    · have hlive : ∀ o, (t.meet j).tick.1 ≠ .ended o := fun o ho => he ⟨o, ho⟩
      rw [runAmid_cons hlive, runAmid_cons fun o => hagrees.progress ▸ hlive o]
      exact ih (htick _ hs') hagrees.session

/-- Sessions with related devices run alike if related things happen to the devices. -/
theorem Alike.runAmid_map (hR : Device.Imitates R fun _ => 0) {ι : Type} {f : ι → Incident σ}
    {g : ι → Incident τ} (hraises : ∀ k, (f k).raises = (g k).raises)
    (hchange : ∀ k b d e, R b d e → R (b || (g k).raises) ((f k).change d) ((g k).change e))
    (ks : List ι) {s : Session σ} {t : Session τ} (h : s.Alike R t) :
    Agree R (s.runAmid (ks.map f)) (t.runAmid (ks.map g)) := by
  have halike : List.Forall₂ (Incident.Alike R) (ks.map f) (ks.map g) := by
    rw [List.forall₂_map_left_iff, List.forall₂_map_right_iff, List.forall₂_same]
    intro k _
    refine ⟨hraises k, fun b d e hde => ?_⟩
    rw [hraises]
    exact hchange k b d e hde
  exact Alike.runAmid_lockstep (P := fun _ => True) (fun _ _ h => h) (fun _ h => h)
    (fun _ h => h.tick_lockstep hR) halike trivial h

theorem Alike.runAmid (hR : Device.Imitates R fun _ => 0) {f : Incident τ → Incident σ}
    (hraises : ∀ i, (f i).raises = i.raises)
    (hchange : ∀ i b d e, R b d e → R (b || i.raises) ((f i).change d) (i.change e))
    (is : List (Incident τ)) {s : Session σ} {t : Session τ} (h : s.Alike R t) :
    Agree R (s.runAmid (is.map f)) (t.runAmid is) := by
  have hagree := h.runAmid_map hR (g := id) hraises hchange is
  rwa [List.map_id] at hagree

end Alike

/-! ## The past of a session -/

/-- What can be done with a session. A run is noted with the outcome it had, and a stop may be anybody's,
the device's too. -/
inductive Turn
  | run (o : Outcome)
  | stop
  | reset

/-- The outcome of the latest run since the last reset. The latest turn comes first. -/
def lastRun? : List Turn → Option Outcome
  | .run o :: _ => some o
  | .stop :: turns => lastRun? turns
  | .reset :: _ => none
  | [] => none

/-- Whether a stop was asked for since the last reset. -/
def stopAsked : List Turn → Bool
  | .run _ :: turns => stopAsked turns
  | .stop :: _ => true
  | .reset :: _ => false
  | [] => false

variable [Device σ]

/-- The session has been created with this device and has had these turns, the latest one first.
Before each of its ticks and between two turns the device may have changed in the ways that are
allowed; before each tick the stop flag may have been raised. -/
inductive Past (allowed : (σ → σ) → Prop) (settings : Settings) (program : Program) (device : σ) :
    List Turn → Session σ → Prop
  | create : Past allowed settings program device [] (create settings program device)
  | run {turns : List Turn} {s t : Session σ} {is : List (Incident σ)} {o : Outcome} :
    Past allowed settings program device turns s → (∀ i ∈ is, allowed i.change) →
    s.runAmid is = (.ended o, t) → Past allowed settings program device (.run o :: turns) t
  | stop {turns : List Turn} {s : Session σ} :
    Past allowed settings program device turns s → Past allowed settings program device (.stop :: turns) s.stop
  | reset {turns : List Turn} {s : Session σ} :
    Past allowed settings program device turns s → Past allowed settings program device (.reset :: turns) s.reset
  | outside {turns : List Turn} {s : Session σ} {change : σ → σ} :
    Past allowed settings program device turns s → allowed change →
    Past allowed settings program device turns { s with device := change s.device }

/-- A run that nothing happens to is a turn like any other. -/
theorem Past.run_undisturbed {allowed : (σ → σ) → Prop} {settings : Settings} {program : Program} {device : σ}
    {turns : List Turn} {s : Session σ} {n : Nat} {o : Outcome} (hid : allowed id)
    (h : Past allowed settings program device turns s) (hrun : (s.run n).1 = .ended o) :
    Past allowed settings program device (.run o :: turns) (s.run n).2 := by
  refine .run h (fun i hi => ?_) (runAmid_quiet (Prod.ext hrun rfl))
  rw [List.eq_of_mem_replicate hi]
  exact hid

/-- What the turns of a session tell about it. -/
structure Remembers (settings : Settings) (program : Program) (turns : List Turn) (s : Session σ) : Prop where
  valid : s.Valid settings program
  fresh : lastRun? turns = none →
    s.phase = .ready ∧ s.machine = .fresh settings.memory ∧ s.stopped = stopAsked turns
  halted : ∀ o, lastRun? turns = some o → s.Halted o

section Past

variable {allowed : (σ → σ) → Prop} {settings : Settings} {program : Program} {device : σ}
  {turns : List Turn} {s : Session σ}

omit [Device σ] in
theorem Remembers.not_halted_iff (h : s.Remembers settings program turns) :
    s.phase ≠ .halted ↔ lastRun? turns = none := by
  cases hlast : lastRun? turns with
  | none => simp [(h.fresh hlast).1]
  | some o => simp [(h.halted o hlast).phase]

theorem Valid.runAmid (h : s.Valid settings program) (is : List (Incident σ)) :
    (s.runAmid is).2.Valid settings program :=
  runAmid_keeps (A := fun _ => True) (fun _ _ _ hs => hs.outside _ _) (fun s hs => s.tick_ticks.valid hs)
    (fun _ _ => trivial) h

theorem Remembers.runAmid (h : s.Remembers settings program turns) {is : List (Incident σ)} {t : Session σ}
    {o : Outcome} (hrun : s.runAmid is = (.ended o, t)) : t.Remembers settings program (.run o :: turns) := by
  have hvalid := h.valid.runAmid is
  rw [hrun] at hvalid
  refine ⟨hvalid, fun hnone => (by cases hnone), fun o' ho' => ?_⟩
  cases ho'
  cases hlast : lastRun? turns with
  | none =>
    obtain ⟨u, -, hu, htick⟩ := runAmid_ended (P := fun _ => True) (fun _ _ _ => trivial)
      (fun _ _ => trivial) trivial (h.not_halted_iff.2 hlast) hrun
    exact (htick ▸ u.tick_ticks).halted hu
  | some o' =>
    -- the run was refused, and a refusal shows what the outcome before it showed
    have hhalted := h.halted o' hlast
    cases is with
    | nil => cases hrun
    | cons i is =>
      rw [hhalted.runAmid] at hrun
      cases hrun
      exact (hhalted.outside _ _).refused

theorem Past.remembers (h : Past allowed settings program device turns s) :
    s.Remembers settings program turns := by
  induction h with
  | create => exact ⟨(Reachable.create device).valid, fun _ => ⟨rfl, rfl, rfl⟩, fun o ho => (by cases ho)⟩
  | run _ _ hrun ih => exact ih.runAmid hrun
  | stop _ ih =>
    obtain ⟨hv, hfresh, hhalted⟩ := ih
    refine ⟨hv.outside true _, fun hrun => ?_, fun o hrun => (hhalted o hrun).outside true _⟩
    obtain ⟨hp, hm, -⟩ := hfresh hrun
    exact ⟨hp, hm, rfl⟩
  | reset _ ih =>
    obtain ⟨hv, -, -⟩ := ih
    refine ⟨⟨hv.settings_eq, hv.image_eq, hv.bounded.reset, nofun⟩, fun _ => ⟨rfl, ?_, rfl⟩,
      fun o ho => (by cases ho)⟩
    show Machine.reset _ = _
    rw [Machine.reset_eq_fresh, hv.bounded.capacity]
  | outside _ _ ih =>
    obtain ⟨hv, hfresh, hhalted⟩ := ih
    exact ⟨hv.outside _ _, hfresh, fun o hrun => (hhalted o hrun).outside _ _⟩

end Past

end Session

/-- Every device imitates itself. -/
theorem Device.imitates_refl {σ : Type} [Device σ] :
    Device.Imitates (fun (_ : Bool) (d e : σ) => d = e) fun _ => 0 where
  ask h := by
    subst h
    exact .inl ⟨rfl, rfl, rfl⟩
  emit v h := by
    subst h
    exact ⟨rfl, rfl⟩

/-- Of a session's past, its next run depends only on the time since the last reset. If the session has
not run since, the run is that of a new session with the device as it now is, stopped if a stop was
asked for since: the two come equally far, to the same outcome if they end, and leave the same machine,
device and stop flag, whatever happens meanwhile. If it has run, it refuses to run again; it shows the
outcome of that run, without the trace, and stays as it is. -/
theorem run_afresh_or_refused {σ : Type} [Device σ] {settings : Settings} {program : Program} {device : σ}
    {turns : List Session.Turn} {s : Session σ}
    (h : s.Past (fun _ => True) settings program device turns) :
    (Session.lastRun? turns = none →
      let new : Session σ := { Session.create settings program s.device with stopped := Session.stopAsked turns }
      (∀ n, Session.Agree (fun _ d e => d = e) (s.run n) (new.run n)) ∧
        ∀ is, Session.Agree (fun _ d e => d = e) (s.runAmid is) (new.runAmid is)) ∧
    ∀ o, Session.lastRun? turns = some o →
      (∀ n, s.run (n + 1) = (.ended o.refusal, s)) ∧
        ∀ i is, s.runAmid (i :: is) = (.ended o.refusal, s.meet i) := by
  have hpast := h.remembers
  constructor
  · intro hrun new
    obtain ⟨hphase, hmachine, hstopped⟩ := hpast.fresh hrun
    have halike : s.Alike (fun _ d e => d = e) new :=
      ⟨hpast.valid.settings_eq, hpast.valid.image_eq, hmachine, hstopped, hphase, rfl⟩
    refine ⟨fun n => halike.run Device.imitates_refl n, fun is => ?_⟩
    have hagree := Session.Alike.runAmid Device.imitates_refl (f := id) (fun _ => rfl)
      (fun i _ d e (hde : d = e) => congrArg i.change hde) is halike
    rwa [List.map_id] at hagree
  · intro o hrun
    exact ⟨(hpast.halted o hrun).run, (hpast.halted o hrun).runAmid⟩

/-- Prints its answer. -/
def printing : Program where
  instructions := [⟨"", "RD", "", ""⟩, ⟨"", "PRN", "", ""⟩]

/-- The answer is printed, the machine stopped, and a second run refused. A run after a reset and
another stop ends where it begins. -/
theorem run_afresh_or_refused_printing :
    let first : Session Scripted := .create { memory := 1 } printing { answers := ["7", "8"] }
    let o : Outcome := ⟨.endOfProgram, #[7], 2, 2, -1, #[]⟩
    let halted := (first.run 6).2.stop
    halted.run 1 = (.ended o.refusal, halted) ∧
      (halted.reset.stop.run 2).1 = .ended ⟨.stopped, #[], 0, 0, -1, #[]⟩ := by
  intro first o halted
  have hrun : (first.run 6).1 = .ended o := by decide +kernel
  have hpast : halted.Past (fun _ => True) { memory := 1 } printing { answers := ["7", "8"] } [.stop, .run o] :=
    .stop (.run_undisturbed trivial .create hrun)
  refine ⟨((run_afresh_or_refused hpast).2 o rfl).1 0, ?_⟩
  rw [(((run_afresh_or_refused hpast.reset.stop).1 rfl).1 2).progress]
  rfl

end StackMachine
