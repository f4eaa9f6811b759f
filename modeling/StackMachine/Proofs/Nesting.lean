/-
Calls and returns. The return address of a `CALL` is an ordinary cell on the stack, and whatever runs
after the `CALL` may use the same stack: `call_returns` says that the `RETURN` that finds the address on
top of the stack goes on behind the `CALL`, with the stack as it was before, if the cell has been spared
in between.

What runs in between is a stretch of the run (`Session.Stretch`), of any length and with whatever
happens outside. One tick leaves a cell that it spares on the stack with its value
(`Session.Ticks.keeps`), and so does a stretch (`Session.Stretch.keeps`).
-/
import StackMachine.Proofs.Access
import StackMachine.Proofs.Past
import Mathlib.Logic.Relation

namespace StackMachine

/-! ## The two operations -/

namespace Operation

open Exec

/-- A call pushes its place and leaves the counter one before the label. -/
theorem execute_call {labels : Labels} {l : String} {m m' : Machine} {d : Demand}
    (h : (call l).execute labels m = .ok d m') :
    d = .nothing ∧ m.memory.Contains (m.sp + 1) ∧
      ∃ place : Nat, labels.get? l = some place ∧
        m' = { m with
          memory := m.memory.set (m.sp + 1) (Int64.ofInt m.pc)
          sp := m.sp + 1
          pc := (place : Int) - 1 } := by
  simp only [execute, bind_eq_ok, resolve_eq_ok, push_eq_ok] at h
  obtain ⟨place, _, ⟨hplace, rfl⟩, _, _, hget, _, _, ⟨hpush, rfl⟩, _, _, hgo, h⟩ := h
  cases hget
  cases hgo
  cases h
  exact ⟨rfl, hpush, place, hplace, rfl⟩

/-- A return takes the counter off the stack. -/
theorem execute_ret (labels : Labels) {m : Machine} (h : m.memory.Contains m.sp) :
    ret.execute labels m =
      .ok .nothing { m with sp := m.sp - 1, pc := (m.memory.get m.sp).toInt } := by
  simp only [execute, bind, EStateM.bind, pop, if_pos h]
  rfl

end Operation

namespace Session

variable {σ : Type}

/-! ## Stretches of a run -/

/-- The instruction that is begun here, if one is, spares the cell. -/
def Spares (cell : Int) (s : Session σ) : Prop := ∀ op, s.Begins op → op.Spares cell s.machine.sp

/-- The operation in hand, if the program has one here. -/
def inHand? (s : Session σ) : Option Operation :=
  match s.image.fetch? s.machine.pc with
  | some (.ok op) => some op
  | _ => none

theorem spares_of_inHand {cell : Int} {s : Session σ}
    (h : ∀ op ∈ s.inHand?, op.Spares cell s.machine.sp) : s.Spares cell := by
  intro op hb
  apply h
  simp only [inHand?, hb.fetched, Option.mem_def]

/-- The cell is on the stack and holds this value. -/
structure Keeps (cell : Int) (v : Word) (s : Session σ) : Prop where
  onStack : cell ≤ s.machine.sp
  value : s.machine.memory.get cell = v

variable [Device σ]

/-- A run goes on by a tick that does not end it, `P` holding before the tick, or something happens
outside. -/
inductive GoesOn (P : Session σ → Prop) : Session σ → Session σ → Prop
  | tick {s : Session σ} : P s → (∀ o, s.tick.1 ≠ .ended o) → GoesOn P s s.tick.2
  | meet {s : Session σ} (i : Incident σ) : GoesOn P s (s.meet i)

/-- `t` comes after `s` in one run, and `P` has held before every tick between them. -/
def Stretch (P : Session σ → Prop) : Session σ → Session σ → Prop := Relation.ReflTransGen (GoesOn P)

section Keeps

variable {settings : Settings} {program : Program} {s t : Session σ} {cell : Int} {v : Word}

theorem Stretch.mono {P Q : Session σ → Prop} (hPQ : ∀ u, P u → Q u) (h : s.Stretch P t) :
    s.Stretch Q t := by
  induction h with
  | refl => exact .refl
  | tail _ hstep ih =>
    cases hstep with
    | tick hP hlive => exact ih.tail (.tick (hPQ _ hP) hlive)
    | meet i => exact ih.tail (.meet i)

theorem Stretch.valid {P : Session σ → Prop} (h : s.Stretch P t) (hvalid : s.Valid settings program) :
    t.Valid settings program := by
  induction h with
  | refl => exact hvalid
  | tail _ hstep ih =>
    cases hstep with
    | tick _ _ => exact (tick_ticks _).valid ih
    | meet i => exact ih.outside _ _

/-- A tick leaves a cell that it spares on the stack with its value. -/
theorem Ticks.keeps {r : Progress × Session σ} (ht : s.Ticks r) (hlive : ∀ o, r.1 ≠ .ended o)
    (hvalid : s.Valid settings program) (hspares : s.Spares cell) (h : s.Keeps cell v) :
    r.2.Keeps cell v := by
  cases ht with
  | start => exact ⟨h.onStack, h.value⟩
  | refuse | finish | fail | refused | overflow => exact absurd rfl (hlive _)
  | work hb he | print hb he =>
    obtain ⟨hsp, hget⟩ := (hspares _ hb).keeps (m := s.machine.counted) h.onStack he (by simp)
    rw [retire_eq]
    exact ⟨hsp, hget.trans h.value⟩
  | read hb he =>
    have hm := (hvalid.execute_ok hb he).2.reads_only rfl
    subst hm
    exact ⟨h.onStack, h.value⟩
  | pending | waiting => exact ⟨h.onStack, h.value⟩
  | answer =>
    have hsp := h.onStack
    rw [retire_eq]
    constructor
    · show cell ≤ s.machine.sp + 1
      omega
    · show (s.machine.memory.set (s.machine.sp + 1) _).get cell = v
      rw [Memory.get_set_of_ne _ (by omega), h.value]

/-- So does a stretch that spares it. -/
theorem Stretch.keeps (hst : s.Stretch (Spares cell) t) (hvalid : s.Valid settings program)
    (h : s.Keeps cell v) : t.Valid settings program ∧ t.Keeps cell v := by
  induction hst with
  | refl => exact ⟨hvalid, h⟩
  | tail _ hstep ih =>
    obtain ⟨hvalid, h⟩ := ih
    cases hstep with
    | tick hspares hlive =>
      exact ⟨(tick_ticks _).valid hvalid, (tick_ticks _).keeps hlive hvalid hspares h⟩
    | meet i => exact ⟨hvalid.outside _ _, h.onStack, h.value⟩

/-- A run that has not ended after `n` ticks is a stretch. -/
theorem stretch_run {P : Session σ → Prop} : ∀ {n : Nat},
    (∀ k < n, P (s.run k).2 ∧ (s.run (k + 1)).1 = .running) → s.Stretch P (s.run n).2
  | 0, _ => .refl
  | n + 1, h => by
    have hrun : (s.run n).1 = .running := by
      cases n with
      | zero => rfl
      | succ n => exact (h n (by omega)).2
    obtain ⟨hP, hlive⟩ := h n (by omega)
    have hadd : s.run (n + 1) = (s.run n).2.tick := by
      rw [run_add, ← Prod.eta (s.run n), hrun]
      simp only [run]
      rcases (s.run n).2.tick with ⟨r, u⟩
      cases r <;> rfl
    rw [hadd] at hlive ⊢
    exact (stretch_run fun k hk => h k (by omega)).tail (.tick hP (by simp [hlive]))

end Keeps

/-! ## Calling and returning -/

section Calls

variable {settings : Settings} {program : Program} {s t : Session σ}

/-- A call that succeeds leaves its place on top of the stack. -/
theorem Begins.called {l : String} (hb : s.Begins (.call l)) (hok : s.tick.1 = .running) :
    s.tick.2.machine.sp = s.machine.sp + 1 ∧
      s.tick.2.Keeps (s.machine.sp + 1) (Int64.ofInt s.machine.pc) := by
  rw [hb.tick, perform_eq] at hok ⊢
  cases he : (Operation.call l).execute s.image.labels s.machine.counted with
  | error f m =>
    simp only [he] at hok
    cases hok
  | ok d m =>
    obtain ⟨rfl, hpush, place, -, rfl⟩ := Operation.execute_call he
    simp only [retire_eq]
    exact ⟨rfl, Int.le_refl _, Memory.get_set_self hpush _⟩

/-- A return goes on behind the place that is on top of the stack. -/
theorem Begins.returned (hb : s.Begins .ret) (hc : s.machine.memory.Contains s.machine.sp) :
    s.tick.1 = .running ∧
      s.tick.2.machine.pc = Word.clampAdd (s.machine.memory.get s.machine.sp).toInt 1 ∧
      s.tick.2.machine.sp = s.machine.sp - 1 := by
  rw [hb.tick, perform_eq]
  simp only [Operation.execute_ret s.image.labels (m := s.machine.counted) hc, retire_eq]
  exact ⟨trivial, rfl, rfl⟩

omit [Device σ] in
/-- An instruction in hand has its place in the program. -/
theorem Begins.place {op : Operation} (hb : s.Begins op) (hvalid : s.Valid settings program) :
    0 ≤ s.machine.pc ∧ s.machine.pc < program.size := by
  have hf := hb.fetched
  rw [hvalid.image_eq] at hf
  obtain ⟨i, hi, -⟩ := Image.fetch?_eq_some hf
  exact Program.at?_eq_some hi

end Calls

end Session

/-- A call returns. Let a `CALL` succeed, and let the run go on in any way that spares the cell with the
return address: no pop reads it, and no `STR` or `DALLOC` writes it. Then a `RETURN` that is executed with
this cell on top of the stack succeeds, and leads to the instruction behind the `CALL`, with the stack
pointer that the `CALL` was executed with. -/
theorem call_returns {σ : Type} [Device σ] {settings : Settings} {program : Program}
    (hsize : (program.size : Int) ≤ Word.greatest) {s t : Session σ} {l : String}
    (hs : s.Reachable settings program) (hcall : s.Begins (.call l)) (hok : s.tick.1 = .running)
    (hstretch : s.tick.2.Stretch (Session.Spares (s.machine.sp + 1)) t) (hret : t.Begins .ret)
    (hsp : t.machine.sp = s.machine.sp + 1) :
    t.tick.1 = .running ∧ t.tick.2.machine.pc = s.machine.pc + 1 ∧
      t.tick.2.machine.sp = s.machine.sp := by
  obtain ⟨-, hpushed⟩ := hcall.called hok
  obtain ⟨hvalid, hkept⟩ := hstretch.keeps ((Session.tick_ticks s).valid hs.valid) hpushed
  -- the address is where the stack ends, and it is still the place of the call
  have hlow := hs.valid.bounded.sp_low
  have hcontains : t.machine.memory.Contains t.machine.sp :=
    ⟨by omega, hvalid.bounded.sp_lt⟩
  obtain ⟨hrunning, hpc, hsp'⟩ := hret.returned hcontains
  obtain ⟨hplace, hplace'⟩ := hcall.place hs.valid
  have hword : (Int64.ofInt s.machine.pc).toInt = s.machine.pc := by
    unfold Word.greatest at hsize
    exact Int64.toInt_ofInt_of_le (by omega) (by omega)
  refine ⟨hrunning, ?_, by omega⟩
  rw [hpc, hsp, hkept.value, hword, Word.clampAdd]
  omega

/-- Calls `F`, which sets up a frame, calls `G` from within it and takes the frame down again. -/
def nested : Program where
  instructions := [⟨"", "CALL", "F", ""⟩, ⟨"", "HLT", "", ""⟩,
    ⟨"F", "NULL", "", ""⟩, ⟨"", "ALLOC", "0", "1"⟩, ⟨"", "CALL", "G", ""⟩, ⟨"", "DALLOC", "3", "1"⟩,
    ⟨"", "RETURN", "", ""⟩,
    ⟨"G", "NULL", "", ""⟩, ⟨"", "RETURN", "", ""⟩]

theorem call_returns_nested :
    let s := (Session.create { memory := 4 } nested ({} : Scripted)).tick.2
    let t := (s.tick.2.run 6).2
    s.Begins (.call "F") ∧ s.tick.2.Stretch (Session.Spares (s.machine.sp + 1)) t ∧ t.Begins .ret ∧
      t.machine.sp = s.machine.sp + 1 ∧ t.tick.1 = .running ∧
      t.tick.2.machine.pc = 1 ∧ t.tick.2.machine.sp = -1 := by
  intro s t
  have hs : s.Reachable { memory := 4 } nested := .tick (.create _)
  have hcall : s.Begins (.call "F") := ⟨rfl, rfl, by decide +kernel, by simp, nofun⟩
  -- the frame and the inner call with its return
  have hsteps : ∀ k < 6,
      (∀ op ∈ (s.tick.2.run k).2.inHand?, op.Spares (s.machine.sp + 1) (s.tick.2.run k).2.machine.sp) ∧
        (s.tick.2.run (k + 1)).1 = .running := by
    decide +kernel
  have hstretch : s.tick.2.Stretch (Session.Spares (s.machine.sp + 1)) t :=
    Session.stretch_run fun k hk => ⟨Session.spares_of_inHand (hsteps k hk).1, (hsteps k hk).2⟩
  have hlimit : t.settings.stepLimit = none := by decide +kernel
  have hret : t.Begins .ret :=
    ⟨by decide +kernel, by decide +kernel, by decide +kernel, by simp, by simp [hlimit]⟩
  have hsp : t.machine.sp = s.machine.sp + 1 := by decide +kernel
  obtain ⟨hrunning, hpc, hsp'⟩ := call_returns (by decide) hs hcall (by decide +kernel) hstretch hret hsp
  exact ⟨hcall, hstretch, hret, hsp, hrunning, hpc.trans (by decide +kernel), hsp'.trans (by decide +kernel)⟩

end StackMachine
