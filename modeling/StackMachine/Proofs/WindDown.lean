/-
What a process that has been stopped still does. Whenever the flag goes up, at most one more
instruction is completed and at most one more value is shown; and the process ends as stopped, or
with what the instruction in hand leads to (`Process.Winds`). One action keeps this (`Winds.work`), so
all moves after the stop do (`stopped_follow`).
-/
import StackMachine.Proofs.Bounds

namespace StackMachine

@[simp] def Event.isCompletion : Event → Bool
  | .completed _ => true
  | _ => false

@[simp] def Event.isEmission : Event → Bool
  | .emitted _ => true
  | _ => false

namespace Process

variable {σ : Type}

/-- The number of instructions completed so far. -/
def completions (p : Process σ) : Nat := p.history.countP Event.isCompletion

/-- The number of values shown so far. -/
def emissions (p : Process σ) : Nat := p.history.countP Event.isEmission

/-- The place of the instruction in hand. -/
def place (p : Process σ) : Int :=
  match p.stage with
  | .script pc _ _ | .emit pc _ _ | .record pc _ => pc
  | _ => p.session.machine.pc

/-! ## Winding down -/

/-- Since `p`, no instruction has been completed and nothing has been shown, and the same instruction
is in hand. -/
structure Holds (p q : Process σ) : Prop where
  completions : q.completions = p.completions
  emissions : q.emissions = p.emissions
  place : q.place = p.place

/-- At most one instruction has been completed since `p`, and at most one value shown. -/
structure Nearly (p q : Process σ) : Prop where
  completions : q.completions ≤ p.completions + 1
  emissions : q.emissions ≤ p.emissions + 1

/-- `o` is what the instruction that was in hand at `p` leads to: an instruction that was being
fetched may turn out to be the end, and a fault is one of that instruction's. -/
structure Concludes (settings : Settings) (program : Program) (p : Process σ) (o : Outcome) : Prop where
  place : o.pc = p.place
  fetched : o.ending = .halt ∨ o.ending = .endOfProgram → p.stage = .fetch ∨ p.stage = .finish o.ending
  fault : ∀ f, o.ending = .fault f →
    ∃ i, program.at? o.pc = some i ∧ f.Explained settings program i o.steps

/-- What a process that has been stopped at `p` and is about to do this has done since. -/
def Winds (settings : Settings) (program : Program) (p q : Process σ) : Stage σ → Prop
  | .idle => ∃ o history, q.history = .ended o :: history ∧ o.output = q.session.machine.output ∧
    (o.ending = .stopped ∧ p.Nearly q ∨
      q.completions = p.completions ∧ q.emissions = p.emissions ∧ p.Concludes settings program o)
  | .look | .finish .stopped => p.Nearly q
  | .record _ _ | .advance _ => q.completions = p.completions ∧ q.emissions ≤ p.emissions + 1
  | .fetch => p.Holds q ∧ p.stage = .fetch
  | .finish e => p.Holds q ∧ (e = .halt ∨ e = .endOfProgram → p.stage = .fetch ∨ p.stage = .finish e)
  | .charge _ | .script _ _ _ | .ask | .request _ | .emit _ _ _ => p.Holds q

section Winds

variable {settings : Settings} {program : Program} {p q : Process σ}

theorem Holds.nearly (h : p.Holds q) : p.Nearly q :=
  ⟨by rw [h.completions]; omega, by rw [h.emissions]; omega⟩

theorem winds_refl (p : Process σ) (h : p.stage ≠ .idle) : p.Winds settings program p.stop p.stage := by
  have hholds : p.Holds p.stop := ⟨rfl, rfl, rfl⟩
  obtain ⟨s, stage, history⟩ := p
  cases stage with
  | idle => exact absurd rfl h
  | look => exact hholds.nearly
  | record | advance => exact ⟨rfl, Nat.le_succ _⟩
  | fetch => exact ⟨hholds, rfl⟩
  | finish e =>
    cases e with
    | stopped => exact hholds.nearly
    | _ => exact ⟨hholds, fun _ => .inr rfl⟩
  | _ => exact hholds

theorem completions_congr {r : Process σ} (h : r.history = q.history) : r.completions = q.completions := by
  rw [completions, completions, h]

theorem emissions_congr {r : Process σ} (h : r.history = q.history) : r.emissions = q.emissions := by
  rw [emissions, emissions, h]

theorem place_congr {r : Process σ} (hstage : r.stage = q.stage)
    (hmachine : r.session.machine = q.session.machine) : r.place = q.place := by
  rw [place, place, hstage, hmachine]

/-- The flag and the device are free. -/
theorem Winds.congr {r : Process σ} (h : p.Winds settings program q q.stage) (hstage : r.stage = q.stage)
    (hhistory : r.history = q.history) (hmachine : r.session.machine = q.session.machine) :
    p.Winds settings program r r.stage := by
  have hcompletions := completions_congr hhistory
  have hemissions := emissions_congr hhistory
  have hplace := place_congr hstage hmachine
  have hholds : p.Holds q → p.Holds r := fun hq =>
    ⟨hcompletions.trans hq.completions, hemissions.trans hq.emissions, hplace.trans hq.place⟩
  have hnearly : p.Nearly q → p.Nearly r := fun hq =>
    ⟨by rw [hcompletions]; exact hq.completions, by rw [hemissions]; exact hq.emissions⟩
  rw [hstage]
  generalize q.stage = stage at h
  cases stage with
  | idle =>
    obtain ⟨o, before, ho, hout, hend⟩ := h
    refine ⟨o, before, hhistory.trans ho, by rw [hmachine]; exact hout, ?_⟩
    rw [hcompletions, hemissions]
    exact hend.imp (fun hs => ⟨hs.1, hnearly hs.2⟩) id
  | look => exact hnearly h
  | record | advance =>
    simp only [Winds, hcompletions, hemissions]
    exact h
  | fetch => exact ⟨hholds h.1, h.2⟩
  | finish e =>
    cases e with
    | stopped => exact hnearly h
    | _ => exact ⟨hholds h.1, h.2⟩
  | _ => exact hholds h

theorem Winds.nearly (h : p.Winds settings program q q.stage) : p.Nearly q := by
  obtain ⟨s, stage, history⟩ := q
  cases stage with
  | idle =>
    obtain ⟨o, before, -, -, ⟨-, hn⟩ | ⟨hc, he, -⟩⟩ := h
    · exact hn
    · exact ⟨by rw [hc]; omega, by rw [he]; omega⟩
  | look => exact h
  | record | advance => exact ⟨by rw [h.1]; omega, h.2⟩
  | fetch => exact h.1.nearly
  | finish e =>
    cases e with
    | stopped => exact h
    | _ => exact h.1.nearly
  | _ => exact Holds.nearly h

/-- An instruction that fails was neither a `HLT` nor past the end. -/
theorem winds_fault (h : p.Holds q) (f : Fault) : p.Winds settings program q (.finish (.fault f)) := by
  refine ⟨h, ?_⟩
  rintro (he | he) <;> cases he

theorem Winds.fetch (h : p.Holds q) (hp : p.stage = .fetch) (hplace : q.place = q.session.machine.pc)
    (r : Option (Except DecodeError Operation)) :
    p.Winds settings program { q with stage := .ofFetch r } (.ofFetch r) := by
  have hholds : ∀ stage : Stage σ, ({ q with stage } : Process σ).place = q.session.machine.pc →
      p.Holds { q with stage } :=
    fun stage hst => ⟨h.completions, h.emissions, by rw [hst, ← hplace, h.place]⟩
  match r with
  | none => exact ⟨hholds _ rfl, fun _ => .inl hp⟩
  | some (.error e) => exact winds_fault (hholds _ rfl) _
  | some (.ok op) =>
    by_cases hop : op = .hlt
    · subst hop
      exact ⟨hholds _ rfl, fun _ => .inl hp⟩
    · rw [Stage.ofFetch_executable hop]
      exact hholds _ rfl

/-- An operation that is done has shown nothing yet; one that has failed, or asks for an answer, has
not moved the counter. -/
theorem Winds.workScript {pc : Int} {op : Operation} {rest : Script}
    (hu : op.Underway settings program.labels pc rest q.session.machine)
    (hst : q.stage = .script pc op rest) (h : p.Holds q) :
    p.Winds settings program (q.workScript pc op rest) (q.workScript pc op rest).stage := by
  have hplace : pc = p.place := by rw [← h.place, place, hst]
  rcases rest.done_or_fail_or_pos q.session.machine with ⟨d, rfl⟩ | ⟨f, rfl⟩ | hn
  · cases d with
    | nothing => exact ⟨h.completions, by show q.emissions ≤ _; rw [h.emissions]; omega⟩
    | output v => exact ⟨h.completions, h.emissions, hplace⟩
    | input =>
      obtain ⟨-, hinput⟩ := hu.done
      refine ⟨?_, ?_, (hinput rfl).2.trans hplace⟩
      · simpa [completions, Process.workScript] using h.completions
      · simpa [emissions, Process.workScript] using h.emissions
  · refine winds_fault ?_ f
    exact ⟨h.completions, h.emissions, hu.failed.1.trans hplace⟩
  · rw [workScript_step q pc op hn]
    exact ⟨h.completions, h.emissions, hplace⟩

theorem Winds.workRequest (h : p.Holds q) (hplace : q.place = q.session.machine.pc) (rest : Request σ) :
    p.Winds settings program (q.workRequest rest) (q.workRequest rest).stage := by
  have hpc : q.session.machine.pc = p.place := hplace.symm.trans h.place
  cases rest with
  | reply r =>
    cases r with
    | refused e =>
      refine winds_fault ?_ e.toFault
      exact ⟨h.completions, h.emissions, hpc⟩
    | _ => exact ⟨h.completions, h.emissions, hpc⟩
  | look next => exact ⟨h.completions, h.emissions, hpc⟩
  | act effect next => exact ⟨h.completions, h.emissions, hpc⟩

variable [Device σ] [Stepwise σ]

theorem Winds.work (hs : q.session.stopped = true) (hq : q.Sound settings program)
    (h : p.Winds settings program q q.stage) : p.Winds settings program q.work q.work.stage := by
  obtain ⟨s, stage, history⟩ := q
  cases stage with
  | idle => exact h
  | look =>
    -- the flag is up, so the loop is left
    simp only [Process.work, show s.stopped = true from hs, if_true]
    exact ⟨h.completions, h.emissions⟩
  | fetch =>
    -- the flag went up between the look and the fetch
    exact Winds.fetch h.1 h.2 rfl _
  | charge op =>
    simp only [Process.work]
    cases hc : s.machine.charge s.settings.stepLimit with
    | error f =>
      refine winds_fault ?_ f
      exact ⟨h.completions, h.emissions, h.place⟩
    | ok m =>
      obtain ⟨-, rfl⟩ := Machine.charge_ok hc
      exact ⟨h.completions, h.emissions, h.place⟩
  | script pc op rest => exact Winds.workScript hq.stage.2 rfl h
  | ask =>
    simp only [Process.work]
    split
    · exact ⟨h.completions, h.emissions, h.place⟩
    · exact h
  | request rest => exact Winds.workRequest h rfl rest
  | emit pc op v =>
    refine ⟨?_, ?_⟩
    · simpa [completions, Process.work] using h.completions
    · simpa [emissions, Process.work, List.countP_cons] using Nat.le_of_eq h.emissions
  | record pc op => exact h
  | advance op =>
    refine ⟨?_, ?_⟩
    · simpa [completions, Process.work, List.countP_cons] using Nat.le_of_eq h.1
    · simpa [emissions, Process.work] using h.2
  | finish e =>
    have hcompletions : completions (Process.work ⟨s, .finish e, history⟩) =
        completions ⟨s, .finish e, history⟩ := by
      simp [completions, Process.work]
    have hemissions : emissions (Process.work ⟨s, .finish e, history⟩) =
        emissions ⟨s, .finish e, history⟩ := by
      simp [emissions, Process.work]
    refine ⟨s.outcome e, history, rfl, rfl, ?_⟩
    rw [hcompletions, hemissions]
    by_cases he : e = .stopped
    · subst he
      exact .inl ⟨rfl, hcompletions ▸ h.completions, hemissions ▸ h.emissions⟩
    · have hholds : p.Holds ⟨s, .finish e, history⟩ ∧
          (e = .halt ∨ e = .endOfProgram → p.stage = .fetch ∨ p.stage = .finish e) := by
        cases e with
        | stopped => exact absurd rfl he
        | _ => exact h
      exact .inr ⟨hholds.1.completions, hholds.1.emissions, hholds.1.place, hholds.2, hq.stage⟩

theorem stopped_work (h : q.session.stopped = true) : q.work.session.stopped = true := by
  obtain ⟨s, stage, history⟩ := q
  have hs : s.stopped = true := h
  cases stage with
  | charge op =>
    simp only [Process.work]
    split <;> exact hs
  | script pc op rest =>
    simp only [Process.work, Process.workScript]
    split <;> exact hs
  | ask =>
    simp only [Process.work]
    split <;> exact hs
  | request rest =>
    cases rest with
    | act effect next =>
      show (s.stopped || _) = true
      rw [hs, Bool.true_or]
    | _ => exact hs
  | emit pc op v =>
    show (s.stopped || _) = true
    rw [hs, Bool.true_or]
  | _ => exact hs

/-- What is true of a process that has been stopped at `p`. -/
structure Stopped (settings : Settings) (program : Program) (p q : Process σ) : Prop where
  flag : q.session.stopped = true
  sound : q.Sound settings program
  winds : p.Winds settings program q q.stage

theorem Stopped.move (h : p.Stopped settings program q) (m : Move σ) :
    p.Stopped settings program (q.move m) := by
  cases m with
  | work => exact ⟨stopped_work h.flag, h.sound.work, h.winds.work h.flag h.sound⟩
  | stop => exact ⟨rfl, h.sound.stop, h.winds.congr rfl rfl rfl⟩
  | outside change => exact ⟨h.flag, h.sound.outside change, h.winds.congr rfl rfl rfl⟩

theorem stopped_follow (hp : p.Sound settings program) (hrun : p.stage ≠ .idle) (moves : List (Move σ)) :
    p.Stopped settings program (p.stop.follow moves) :=
  follow_keeps (fun _ m h => h.move m) moves ⟨rfl, hp.stop, winds_refl p hrun⟩

end Winds

end Process

end StackMachine
