/-
What an instruction that fails leaves behind. Most operations are two or three actions one after the
other, any of which may fail, and a failed operation keeps what it has done up to then; `Operation.Leftover`
says for each operation how much that can be.

Actions that fail are taken apart by the action that refused (`Exec.bind_eq_error`), and the loops of `ALLOC`
and `DALLOC` by induction, so `Operation.execute_leftover` has one case for each place an operation can fail
at. The device may still refuse the answer to an `RD`, and other things may happen between two actions:
`Process.Attempts` is what holds of a process until the instruction in hand is over.
-/
import StackMachine.Proofs.Framing
import StackMachine.Proofs.WindDown

namespace StackMachine

/-! ## Actions that fail -/

namespace Exec

variable {m m' : Machine} {f : Fault}

theorem bind_eq_error {α β : Type} {x : Exec α} {next : α → Exec β} :
    (x >>= next) m = .error f m' ↔
      x m = .error f m' ∨ ∃ a m₁, x m = .ok a m₁ ∧ next a m₁ = .error f m' := by
  show EStateM.bind x next m = _ ↔ _
  unfold EStateM.bind
  cases x m with
  | ok a m₁ => simp
  | error e m₁ => simp

theorem pure_ne_error {α : Type} {a : α} : (pure a : Exec α) m ≠ .error f m' := by
  rintro ⟨⟩

theorem load_eq_error {a : Int} :
    load a m = .error f m' ↔ ¬m.memory.Contains a ∧ f = m.memory.outside a ∧ m = m' := by
  unfold load
  split <;> simp_all [eq_comm]

theorem store_eq_error {a : Int} {v : Word} :
    store a v m = .error f m' ↔ ¬m.memory.Contains a ∧ f = m.memory.outside a ∧ m = m' := by
  unfold store
  split <;> simp_all [eq_comm]

theorem push_eq_error {v : Word} :
    push v m = .error f m' ↔
      ¬m.memory.Contains (m.sp + 1) ∧ f = m.memory.outside (m.sp + 1) ∧ m = m' := by
  unfold push
  dsimp only
  split <;> simp_all [eq_comm]

theorem pop_eq_error :
    pop m = .error f m' ↔ ¬m.memory.Contains m.sp ∧ f = m.memory.outside m.sp ∧ m = m' := by
  unfold pop
  split <;> simp_all [eq_comm]

theorem resolve_eq_error {labels : Labels} {l : String} :
    resolve labels l m = .error f m' ↔ labels.get? l = none ∧ f = .unresolvedLabel l ∧ m = m' := by
  unfold resolve Labels.resolve
  cases labels.get? l with
  | none =>
    show EStateM.Result.error _ m = _ ↔ _
    simp [eq_comm]
  | some n => exact ⟨fun h => absurd h pure_ne_error, fun h => nomatch h.1⟩

theorem goTo_ne_error {place : Nat} : goTo place m ≠ .error f m' := by
  rintro ⟨⟩

/-- Pushing cells that fails has written above the stack only. -/
theorem pushCells_error {base : Word} (n : Nat) :
    ∀ {i : Nat} {m : Machine}, pushCells base i n m = .error f m' →
      m.sp ≤ m'.sp ∧ ∀ a ≤ m.sp, m'.memory.get a = m.memory.get a := by
  induction n with
  | zero => exact fun h => absurd h pure_ne_error
  | succ n ih =>
    intro i m h
    simp only [pushCells, bind_eq_error, load_eq_error, load_eq_ok, push_eq_error, push_eq_ok] at h
    rcases h with ⟨-, -, rfl⟩ | ⟨v, _, ⟨-, -, rfl⟩, ⟨-, -, rfl⟩ | ⟨_, _, ⟨-, rfl⟩, h⟩⟩
    · exact ⟨Int.le_refl _, fun _ _ => rfl⟩
    · exact ⟨Int.le_refl _, fun _ _ => rfl⟩
    · obtain ⟨hsp, hcells⟩ := ih h
      simp only at hsp hcells
      refine ⟨by omega, fun a ha => ?_⟩
      rw [hcells a (by omega), Memory.get_set_of_ne _ (by omega)]

/-- Popping into cells that fails has written to these cells only. -/
theorem popCells_error {base : Word} (n : Nat) :
    ∀ {m : Machine}, popCells base n m = .error f m' →
      m'.sp ≤ m.sp ∧
        ∀ a, ¬(base.toInt ≤ a ∧ a < base.toInt + n) → m'.memory.get a = m.memory.get a := by
  induction n with
  | zero => exact fun h => absurd h pure_ne_error
  | succ n ih =>
    intro m h
    simp only [popCells, bind_eq_error, pop_eq_error, pop_eq_ok, store_eq_error, store_eq_ok] at h
    rcases h with ⟨-, -, rfl⟩ | ⟨v, _, ⟨-, -, rfl⟩, ⟨-, -, rfl⟩ | ⟨_, _, ⟨-, rfl⟩, h⟩⟩
    · exact ⟨Int.le_refl _, fun _ _ => rfl⟩
    · exact ⟨by simp only; omega, fun _ _ => rfl⟩
    · obtain ⟨hsp, hcells⟩ := ih h
      simp only at hsp hcells
      refine ⟨by omega, fun a ha => ?_⟩
      -- an address that is held at the largest word still lies in the frame
      have hne : Word.clampAdd base.toInt n ≠ a := by
        have hbase : base.toInt ≤ Word.greatest := base.toInt_le
        unfold Word.clampAdd
        omega
      rw [hcells a (by omega), Memory.get_set_of_ne _ hne]

end Exec

/-! ## Operations that fail -/

namespace Operation

/-- How far an operation that was begun in `m₀` can have disturbed cells and stack when it fails. -/
def Disturbs (m₀ m : Machine) : Operation → Prop
  | .str _ | .jmpf _ => m.memory = m₀.memory ∧ m₀.sp - 1 ≤ m.sp ∧ m.sp ≤ m₀.sp
  | .binary _ => m.memory = m₀.memory ∧ m₀.sp - 2 ≤ m.sp ∧ m.sp ≤ m₀.sp
  | .alloc _ _ => m₀.sp ≤ m.sp ∧ ∀ a ≤ m₀.sp, m.memory.get a = m₀.memory.get a
  | .dalloc base count => m.sp ≤ m₀.sp ∧ ∀ a, ¬InFrame base count a → m.memory.get a = m₀.memory.get a
  | _ => m.memory = m₀.memory ∧ m.sp = m₀.sp

/-- What an operation that was begun in `m₀` leaves behind when it fails. -/
structure Leftover (op : Operation) (m₀ m : Machine) : Prop where
  pc : m.pc = m₀.pc
  output : m.output = m₀.output
  steps : m.steps = m₀.steps
  capacity : m.memory.capacity = m₀.memory.capacity
  disturbs : op.Disturbs m₀ m

open Exec

theorem execute_disturbs {labels : Labels} {op : Operation} {m m' : Machine} {f : Fault}
    (h : op.execute labels m = .error f m') : op.Disturbs m m' := by
  cases op with
  | ldc v =>
    simp only [execute, bind_eq_error, push_eq_error, pure_ne_error, and_false, exists_false, or_false] at h
    obtain ⟨-, -, rfl⟩ := h
    exact ⟨rfl, rfl⟩
  | ldv a =>
    simp only [execute, bind_eq_error, load_eq_error, load_eq_ok, push_eq_error, pure_ne_error, and_false,
      exists_false, or_false] at h
    rcases h with ⟨-, -, rfl⟩ | ⟨v, _, ⟨-, -, rfl⟩, -, -, rfl⟩
    · exact ⟨rfl, rfl⟩
    · exact ⟨rfl, rfl⟩
  | binary o =>
    simp only [execute, bind_eq_error, pop_eq_error, pop_eq_ok] at h
    rcases h with ⟨-, -, rfl⟩ | ⟨b, _, ⟨-, -, rfl⟩, ⟨-, -, rfl⟩ | ⟨a, _, ⟨-, -, rfl⟩, h⟩⟩
    · exact ⟨rfl, by omega, by omega⟩
    · exact ⟨rfl, by simp only; omega, by simp only; omega⟩
    · -- both operands are gone, whatever becomes of the result
      cases hv : o.eval? a b with
      | none =>
        rw [hv] at h
        cases h
        exact ⟨rfl, by simp only; omega, by simp only; omega⟩
      | some v =>
        simp only [hv, bind_eq_error, push_eq_error, pure_ne_error, and_false, exists_false, or_false] at h
        obtain ⟨-, -, rfl⟩ := h
        exact ⟨rfl, by simp only; omega, by simp only; omega⟩
  | unary o =>
    simp only [execute, bind_eq_error, pop_eq_error, pop_eq_ok, push_eq_error, pure_ne_error, and_false,
      exists_false, or_false] at h
    rcases h with ⟨-, -, rfl⟩ | ⟨v, _, ⟨hvalue, -, rfl⟩, hfull, -, rfl⟩
    · exact ⟨rfl, rfl⟩
    · -- the result takes the place of the value that was popped
      rw [Int.sub_add_cancel] at hfull
      exact absurd hvalue hfull
  | str a =>
    simp only [execute, bind_eq_error, pop_eq_error, pop_eq_ok, store_eq_error, pure_ne_error, and_false,
      exists_false, or_false] at h
    rcases h with ⟨-, -, rfl⟩ | ⟨v, _, ⟨-, -, rfl⟩, -, -, rfl⟩
    · exact ⟨rfl, by omega, by omega⟩
    · exact ⟨rfl, by simp only; omega, by simp only; omega⟩
  | rd => exact absurd h pure_ne_error
  | prn =>
    simp only [execute, bind_eq_error, pop_eq_error, pop_eq_ok] at h
    rcases h with ⟨-, -, rfl⟩ | ⟨v, _, ⟨-, -, rfl⟩, h | ⟨_, _, -, h⟩⟩
    · exact ⟨rfl, rfl⟩
    · cases h
    · cases h
  | call l =>
    simp only [execute, bind_eq_error, resolve_eq_error, resolve_eq_ok, push_eq_error, goTo_ne_error,
      pure_ne_error, and_false, exists_false, or_false] at h
    rcases h with ⟨-, -, rfl⟩ | ⟨place, _, ⟨-, rfl⟩, h | ⟨_, _, hget, -, -, rfl⟩⟩
    · exact ⟨rfl, rfl⟩
    · cases h
    · cases hget
      exact ⟨rfl, rfl⟩
  | ret =>
    simp only [execute, bind_eq_error, pop_eq_error, pop_eq_ok] at h
    rcases h with ⟨-, -, rfl⟩ | ⟨v, _, ⟨-, -, rfl⟩, h | ⟨_, _, -, h⟩⟩
    · exact ⟨rfl, rfl⟩
    · cases h
    · cases h
  | jmp l =>
    simp only [execute, bind_eq_error, resolve_eq_error, goTo_ne_error, pure_ne_error, and_false,
      exists_false, or_false] at h
    obtain ⟨-, -, rfl⟩ := h
    exact ⟨rfl, rfl⟩
  | jmpf l =>
    simp only [execute, bind_eq_error, pop_eq_error, pop_eq_ok] at h
    rcases h with ⟨-, -, rfl⟩ | ⟨v, _, ⟨-, -, rfl⟩, h⟩
    · exact ⟨rfl, by omega, by omega⟩
    · by_cases hv : v = 0
      · simp only [hv, if_true, bind_eq_error, resolve_eq_error, goTo_ne_error, pure_ne_error, and_false,
          exists_false, or_false] at h
        obtain ⟨-, -, rfl⟩ := h
        exact ⟨rfl, by simp only; omega, by simp only; omega⟩
      · rw [if_neg hv] at h
        cases h
  | alloc base count =>
    simp only [execute, bind_eq_error, pure_ne_error, and_false, exists_false, or_false] at h
    exact pushCells_error _ h
  | dalloc base count =>
    simp only [execute, bind_eq_error, pure_ne_error, and_false, exists_false, or_false] at h
    obtain ⟨hsp, hcells⟩ := popCells_error _ h
    refine ⟨hsp, fun a ha => hcells a fun hin => ha ?_⟩
    constructor <;> omega
  | hlt => exact absurd h pure_ne_error
  | nop => exact absurd h pure_ne_error

theorem execute_leftover {labels : Labels} {op : Operation} {m m' : Machine} {f : Fault} (hlow : -1 ≤ m.sp)
    (hhigh : m.sp < m.memory.capacity) (h : op.execute labels m = .error f m') : op.Leftover m m' := by
  obtain ⟨hmidway, hquiet, -⟩ := execute_error hlow hhigh h
  exact ⟨hquiet.pc, hquiet.output, hmidway.steps, hmidway.capacity, execute_disturbs h⟩

/-- `rest`, carried out in `m`, comes to what `op` does in `m₀`. For an `RD` that is known when its answer is. -/
def Remains (labels : Labels) (op : Operation) (m₀ : Machine) (rest : Script) (m : Machine) : Prop :=
  rest.exec m = op.execute labels m₀ ∨ op = .rd ∧ ∃ v, rest.exec m = (ldc v).execute labels m₀

section Remains

variable {labels : Labels} {op : Operation} {m₀ m : Machine}

theorem remains_script (labels : Labels) (op : Operation) (m : Machine) :
    op.Remains labels m (op.script labels) m := by
  left
  rw [exec_script]

theorem remains_answer (labels : Labels) (v : Word) (m : Machine) :
    Remains labels .rd m (.push v (.done .nothing)) m := by
  right
  refine ⟨rfl, v, ?_⟩
  exact congrFun (exec_script labels (.ldc v)) m

theorem Remains.step {rest : Script} (h : op.Remains labels m₀ rest m) :
    op.Remains labels m₀ (rest.step m).1 (rest.step m).2 := by
  rw [Remains, rest.exec_step]
  exact h

/-- Only an `RD` ever needs an answer, and nothing has been done before it is asked for. -/
theorem Remains.asks (hlow : -1 ≤ m₀.sp) (hhigh : m₀.sp < m₀.memory.capacity)
    (h : op.Remains labels m₀ (.done .input) m) : op = .rd ∧ m = m₀ := by
  rcases h with h | ⟨rfl, v, h⟩
  · obtain ⟨-, hleaves⟩ := execute_ok hlow hhigh h.symm
    exact ⟨hleaves.reads.1 rfl, hleaves.reads_only rfl⟩
  · obtain ⟨-, hleaves⟩ := execute_ok hlow hhigh h.symm
    exact absurd (hleaves.reads.1 rfl) (by simp)

theorem Remains.leftover (hlow : -1 ≤ m₀.sp) (hhigh : m₀.sp < m₀.memory.capacity) {f : Fault}
    (h : op.Remains labels m₀ (.fail f) m) : op.Leftover m₀ m := by
  rcases h with h | ⟨rfl, v, h⟩
  · exact execute_leftover hlow hhigh h.symm
  · -- pushing an answer fails as pushing a constant does
    obtain ⟨hpc, houtput, hsteps, hcapacity, hdisturbs⟩ := execute_leftover hlow hhigh h.symm
    exact ⟨hpc, houtput, hsteps, hcapacity, hdisturbs⟩

end Remains

theorem leftover_refused (m : Machine) : rd.Leftover m m := ⟨rfl, rfl, rfl, rfl, rfl, rfl⟩

end Operation

/-! ## Instructions that fail -/

instance {σ : Type} (e : Ending) : DecidablePred fun stage : Stage σ => stage = .finish e
  | .finish e' => decidable_of_iff (e' = e) (by simp)
  | .idle | .look | .fetch | .charge _ | .script _ _ _ | .ask | .request _ | .emit _ _ _ | .record _ _
  | .advance _ => isFalse nofun

def Event.shown? : Event → Option Word
  | .emitted v => some v
  | _ => none

namespace Process

variable {σ : Type}

/-- The values that the device has been given to show, the latest first. -/
def shownValues (p : Process σ) : List Word := p.history.filterMap Event.shown?

/-- The process of a session that is about to carry `op` out. -/
def about (s : Session σ) (op : Operation) (history : List Event) : Process σ :=
  ⟨s, .script s.machine.pc op (op.script s.image.labels), history⟩

/-- Since `p`, nothing has been shown, and the session is as much halted as it was. -/
structure Silent (p q : Process σ) : Prop where
  shownValues : q.shownValues = p.shownValues
  isHalted : q.session.isHalted = p.session.isHalted

/-- What has become of a process that set about `op` at `p`, if it is about to do this and the instruction is
not over. An instruction that only has to be recorded does not fail any more. -/
def Attempts (op : Operation) (p q : Process σ) : Stage σ → Prop
  | .script _ _ rest =>
    p.Silent q ∧ op.Remains p.session.image.labels p.session.machine rest q.session.machine
  | .ask | .request _ => p.Silent q ∧ op = .rd ∧ q.session.machine = p.session.machine
  | .finish _ => p.Silent q ∧ op.Leftover p.session.machine q.session.machine
  | .emit _ _ _ | .record _ _ | .advance _ | .idle => True
  | .look | .fetch | .charge _ => False

section Attempts

variable {op : Operation} {p q : Process σ}

theorem Silent.congr {r : Process σ} (h : p.Silent q) (hshown : r.shownValues = q.shownValues)
    (hhalted : r.session.isHalted = q.session.isHalted) : p.Silent r :=
  ⟨hshown.trans h.shownValues, hhalted.trans h.isHalted⟩

/-- The flag and the device are free. -/
theorem Attempts.congr {r : Process σ} (h : p.Attempts op q q.stage) (hstage : r.stage = q.stage)
    (hhistory : r.history = q.history) (hphase : r.session.phase = q.session.phase)
    (hmachine : r.session.machine = q.session.machine) : p.Attempts op r r.stage := by
  have hsilent : p.Silent q → p.Silent r := fun hq =>
    hq.congr (by rw [shownValues, shownValues, hhistory]) (by rw [Session.isHalted, Session.isHalted, hphase])
  rw [hstage]
  generalize q.stage = stage at h
  cases stage with
  | script pc op' rest => exact ⟨hsilent h.1, hmachine ▸ h.2⟩
  | ask => exact ⟨hsilent h.1, h.2.1, hmachine.trans h.2.2⟩
  | request rest => exact ⟨hsilent h.1, h.2.1, hmachine.trans h.2.2⟩
  | finish e => exact ⟨hsilent h.1, hmachine ▸ h.2⟩
  | _ => exact h

theorem Attempts.workScript {pc : Int} {op' : Operation} {rest : Script}
    (hlow : -1 ≤ p.session.machine.sp) (hhigh : p.session.machine.sp < p.session.machine.memory.capacity)
    (hlive : p.session.isHalted = false) (h : p.Attempts op q (.script pc op' rest)) :
    p.Attempts op (q.workScript pc op' rest) (q.workScript pc op' rest).stage := by
  obtain ⟨hsilent, hremains⟩ := h
  rcases rest.done_or_fail_or_pos q.session.machine with ⟨d, rfl⟩ | ⟨f, rfl⟩ | hpos
  · cases d with
    | nothing => trivial
    | output v => trivial
    | input =>
      obtain ⟨hop, hmachine⟩ := hremains.asks hlow hhigh
      exact ⟨⟨hsilent.shownValues, hlive.symm⟩, hop, hmachine⟩
  · exact ⟨hsilent.congr rfl rfl, hremains.leftover hlow hhigh⟩
  · rw [workScript_step q pc op' hpos]
    exact ⟨hsilent.congr rfl rfl, hremains.step⟩

theorem Attempts.workRequest {rest : Request σ} (h : p.Attempts op q (.request rest)) :
    p.Attempts op (q.workRequest rest) (q.workRequest rest).stage := by
  obtain ⟨hsilent, rfl, hmachine⟩ := h
  cases rest with
  | reply r =>
    cases r with
    | answer v =>
      refine ⟨hsilent.congr rfl rfl, ?_⟩
      show Operation.Remains _ _ _ _ q.session.machine
      rw [hmachine]
      exact Operation.remains_answer _ v _
    | refused e =>
      refine ⟨hsilent.congr rfl rfl, ?_⟩
      show Operation.Leftover _ _ q.session.machine
      rw [hmachine]
      exact Operation.leftover_refused _
    | pending => exact ⟨hsilent.congr rfl rfl, rfl, hmachine⟩
    | waiting => exact ⟨hsilent.congr rfl rfl, rfl, hmachine⟩
  | look next => exact ⟨hsilent.congr rfl rfl, rfl, hmachine⟩
  | act effect next => exact ⟨hsilent.congr rfl rfl, rfl, hmachine⟩

variable [Device σ] [Stepwise σ]

/-- Instructions that are completed stay completed. -/
theorem completions_le_work (q : Process σ) : q.completions ≤ q.work.completions := by
  obtain ⟨s, stage, history⟩ := q
  cases stage with
  | charge op =>
    simp only [Process.work]
    split <;> exact Nat.le_refl _
  | script pc op rest =>
    rcases rest.done_or_fail_or_pos s.machine with ⟨d, rfl⟩ | ⟨f, rfl⟩ | hpos
    · cases d <;> simp [Process.work, Process.workScript, completions]
    · exact Nat.le_refl _
    · simp only [Process.work, workScript_step ⟨s, .script pc op rest, history⟩ pc op hpos]
      exact Nat.le_refl _
  | ask =>
    simp only [Process.work]
    split <;> exact Nat.le_refl _
  | request rest => cases rest <;> exact Nat.le_refl _
  | emit | advance | finish => simp [Process.work, completions, List.countP_cons]
  | _ => exact Nat.le_refl _

/-- An instruction that an action does not complete is still being attempted. -/
theorem Attempts.work (hlow : -1 ≤ p.session.machine.sp)
    (hhigh : p.session.machine.sp < p.session.machine.memory.capacity) (hlive : p.session.isHalted = false)
    (h : p.Attempts op q q.stage) (hsame : q.work.completions = q.completions) :
    p.Attempts op q.work q.work.stage := by
  obtain ⟨s, stage, history⟩ := q
  cases stage with
  | look | fetch | charge => exact h.elim
  | script pc op' rest => exact h.workScript hlow hhigh hlive
  | ask =>
    simp only [Process.work]
    split
    · exact ⟨h.1.congr rfl rfl, h.2⟩
    · exact h
  | request rest => exact h.workRequest
  | advance op' => simp [Process.work, completions, List.countP_cons] at hsame
  | idle | emit | record | finish => trivial

/-- Until the instruction is completed, it is being attempted. -/
structure Underway (op : Operation) (p q : Process σ) : Prop where
  completions : p.completions ≤ q.completions
  attempts : q.completions = p.completions → p.Attempts op q q.stage

theorem Underway.move (hlow : -1 ≤ p.session.machine.sp)
    (hhigh : p.session.machine.sp < p.session.machine.memory.capacity) (hlive : p.session.isHalted = false)
    (h : p.Underway op q) (m : Move σ) : p.Underway op (q.move m) := by
  cases m with
  | work =>
    have hle := q.completions_le_work
    refine ⟨Nat.le_trans h.completions hle, fun hsame => ?_⟩
    have hbefore : q.completions = p.completions := Nat.le_antisymm (hsame ▸ hle) h.completions
    exact (h.attempts hbefore).work hlow hhigh hlive (hsame.trans hbefore.symm)
  | stop => exact ⟨h.completions, fun hsame => (h.attempts hsame).congr rfl rfl rfl rfl⟩
  | outside change => exact ⟨h.completions, fun hsame => (h.attempts hsame).congr rfl rfl rfl rfl⟩

theorem underway_follow {s : Session σ} (hlow : -1 ≤ s.machine.sp)
    (hhigh : s.machine.sp < s.machine.memory.capacity) (hlive : s.isHalted = false) (op : Operation)
    (history : List Event) (moves : List (Move σ)) :
    (about s op history).Underway op ((about s op history).follow moves) := by
  apply follow_keeps fun q m hq => hq.move hlow hhigh hlive m
  refine ⟨Nat.le_refl _, fun _ => ⟨⟨rfl, rfl⟩, ?_⟩⟩
  exact Operation.remains_script _ op _

end Attempts

end Process

/-- An instruction that fails leaves a known state behind. In any session that has not halted and whose stack is
in memory, let any operation be set about, and let anything happen meanwhile. When the process is about to
end with a fault and the instruction has not been completed, then counter, output and count of steps are
what they were, nothing has been shown by the device, and the session has not halted. The cells are what
they were unless the operation is an `ALLOC`, which has written above the stack only, or a `DALLOC`, which has
written to its frame only. `STR` and `JMPF` have taken at most one value off the stack and a binary operation
at most two, `ALLOC` has taken none off and `DALLOC` put none on, and all others have left the stack pointer
where it was. The same is true where the machine's part of the operation fails by itself. -/
theorem failing_instruction_leftover {σ : Type} [Device σ] [Stepwise σ] {s : Session σ}
    (hlow : -1 ≤ s.machine.sp) (hhigh : s.machine.sp < s.machine.memory.capacity) (hlive : s.isHalted = false)
    (op : Operation) :
    (∀ f m, op.execute s.image.labels s.machine = .error f m → op.Leftover s.machine m) ∧
    ∀ history moves q f, (Process.about s op history).follow moves = q → q.stage = .finish (.fault f) →
      q.completions = (Process.about s op history).completions →
      op.Leftover s.machine q.session.machine ∧ q.session.isHalted = s.isHalted ∧
        q.shownValues = (Process.about s op history).shownValues := by
  refine ⟨fun f m => Operation.execute_leftover hlow hhigh, ?_⟩
  rintro history moves q f rfl hfault hsame
  have hattempts := (Process.underway_follow hlow hhigh hlive op history moves).attempts hsame
  rw [hfault] at hattempts
  obtain ⟨hsilent, hleftover⟩ := hattempts
  exact ⟨hleftover, hsilent.isHalted, hsilent.shownValues⟩

/-- An `ALLOC` that has run out of room after two cells. The stop flag has been raised meanwhile. -/
theorem failing_instruction_leftover_alloc :
    let s : Session Scripted :=
      { Session.create { memory := 3 } {} {} with
        machine := { memory := ⟨#[5, 6, 7]⟩, sp := 0 }, phase := .running }
    let q := (Process.about s (.alloc 0 9) []).follow (.stop :: List.replicate 12 .work)
    q.stage = .finish (.fault (.outOfBounds 3 3)) ∧ q.session.machine.memory = ⟨#[5, 5, 5]⟩ ∧
      (Operation.alloc 0 9).Leftover s.machine q.session.machine ∧ q.session.isHalted = false ∧
      q.shownValues = [] := by
  intro s q
  have hfault : q.stage = .finish (.fault (.outOfBounds 3 3)) := by decide +kernel
  have hsame : q.completions = (Process.about s (.alloc 0 9) []).completions := by decide +kernel
  obtain ⟨-, hprocess⟩ :=
    failing_instruction_leftover (s := s) (by decide) (by decide) rfl (.alloc 0 9)
  obtain ⟨hleftover, hhalted, hshown⟩ := hprocess [] _ q _ rfl hfault hsame
  exact ⟨hfault, by decide +kernel, hleftover, hhalted.trans rfl, hshown.trans rfl⟩

end StackMachine
