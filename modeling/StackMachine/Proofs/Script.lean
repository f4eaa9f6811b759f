/-
Operations taken apart: the script of an operation is what `Operation.execute` does as a sequence
of single memory accesses and register updates. Running a script to its end is executing the
operation (`Operation.exec_script`), and a script can be stopped and looked at after each of them.

`Script.Safe` says that an assertion holds at every such moment, and what holds at the two ways a
script can end. `Operation.script_fits` is its one use for all operations: in the middle of any
operation the stack pointer stays between -1 and the last cell, and a failing operation has not
moved the program counter.
-/
import StackMachine.Machine
import StackMachine.Proofs.Program
import Mathlib.Tactic.Common

namespace StackMachine

/-- What is left to do of an operation, one action at a time. -/
inductive Script
  | done (d : Demand)
  | fail (f : Fault)
  /-- Go on as the registers say. -/
  | inspect (next : Machine → Script)
  | load (address : Int) (next : Word → Script)
  | store (address : Int) (v : Word) (next : Script)
  | setSp (sp : Int) (next : Script)
  | setPc (pc : Int) (next : Script)
  | print (v : Word) (next : Script)

namespace Script

/-! ## Running a script -/

/-- The first action of a script. A refused access leaves nothing to do but to fail. -/
def step : Script → Machine → Script × Machine
  | .done d, m => (.done d, m)
  | .fail f, m => (.fail f, m)
  | .inspect next, m => (next m, m)
  | .load a next, m =>
    if m.memory.Contains a then (next (m.memory.get a), m) else (.fail (m.memory.outside a), m)
  | .store a v next, m =>
    if m.memory.Contains a then (next, { m with memory := m.memory.set a v })
    else (.fail (m.memory.outside a), m)
  | .setSp i next, m => (next, { m with sp := i })
  | .setPc i next, m => (next, { m with pc := i })
  | .print v next, m => (next, { m with output := m.output.push v })

/-- All actions of a script. -/
def exec : Script → Exec Demand
  | .done d, m => .ok d m
  | .fail f, m => .error f m
  | .inspect next, m => (next m).exec m
  | .load a next, m =>
    if m.memory.Contains a then (next (m.memory.get a)).exec m else .error (m.memory.outside a) m
  | .store a v next, m =>
    if m.memory.Contains a then next.exec { m with memory := m.memory.set a v }
    else .error (m.memory.outside a) m
  | .setSp i next, m => next.exec { m with sp := i }
  | .setPc i next, m => next.exec { m with pc := i }
  | .print v next, m => next.exec { m with output := m.output.push v }

/-- The number of actions before a script is done or has failed. -/
def length : Script → Machine → Nat
  | .done _, _ | .fail _, _ => 0
  | .inspect next, m => (next m).length m + 1
  | .load a next, m => if m.memory.Contains a then (next (m.memory.get a)).length m + 1 else 1
  | .store a v next, m =>
    if m.memory.Contains a then next.length { m with memory := m.memory.set a v } + 1 else 1
  | .setSp i next, m => next.length { m with sp := i } + 1
  | .setPc i next, m => next.length { m with pc := i } + 1
  | .print v next, m => next.length { m with output := m.output.push v } + 1

theorem exec_step (s : Script) (m : Machine) : (s.step m).1.exec (s.step m).2 = s.exec m := by
  cases s with
  | load a next => by_cases h : m.memory.Contains a <;> simp [step, exec, h]
  | store a v next => by_cases h : m.memory.Contains a <;> simp [step, exec, h]
  | _ => rfl

theorem length_step (s : Script) (m : Machine) :
    (s.step m).1.length (s.step m).2 = s.length m - 1 := by
  cases s with
  | load a next => by_cases h : m.memory.Contains a <;> simp [step, length, h]
  | store a v next => by_cases h : m.memory.Contains a <;> simp [step, length, h]
  | _ => rfl

theorem length_eq_zero {s : Script} {m : Machine} (h : s.length m = 0) :
    (∃ d, s = .done d) ∨ ∃ f, s = .fail f := by
  cases s with
  | done d => exact .inl ⟨d, rfl⟩
  | fail f => exact .inr ⟨f, rfl⟩
  | load a next => unfold length at h; split at h <;> cases h
  | store a v next => unfold length at h; split at h <;> cases h
  | _ => cases h

/-- A script is done, has failed, or has an action to take. -/
theorem done_or_fail_or_pos (s : Script) (m : Machine) :
    (∃ d, s = .done d) ∨ (∃ f, s = .fail f) ∨ 0 < s.length m := by
  rcases Nat.eq_zero_or_pos (s.length m) with h | h
  · exact (length_eq_zero h).imp id .inl
  · exact .inr (.inr h)

/-- An action takes back nothing that was printed. -/
theorem output_step (s : Script) (m : Machine) : m.output.toList <+: (s.step m).2.output.toList := by
  cases s with
  | load a next => by_cases h : m.memory.Contains a <;> simp [step, h]
  | store a v next => by_cases h : m.memory.Contains a <;> simp [step, h]
  | print v next => simp [step]
  | _ => exact List.prefix_refl _

/-! ## Parts of scripts -/

def push (v : Word) (next : Script) : Script :=
  .inspect fun m => .store (m.sp + 1) v (.setSp (m.sp + 1) next)

def pop (next : Word → Script) : Script :=
  .inspect fun m => .load m.sp fun v => .setSp (m.sp - 1) (next v)

def resolve (labels : Labels) (label : String) (next : Nat → Script) : Script :=
  match labels.resolve label with
  | .ok place => next place
  | .error f => .fail f

def goTo (place : Nat) : Script := .setPc ((place : Int) - 1) (.done .nothing)

def pushCells (base : Word) (i : Nat) : Nat → Script → Script
  | 0, next => next
  | n + 1, next => .load (Word.clampAdd base.toInt i) fun v => push v (pushCells base (i + 1) n next)

def popCells (base : Word) : Nat → Script → Script
  | 0, next => next
  | n + 1, next => pop fun v => .store (Word.clampAdd base.toInt n) v (popCells base n next)

theorem exec_done (d : Demand) : (done d).exec = pure d := rfl

theorem exec_load (a : Int) (next : Word → Script) :
    (load a next).exec = Exec.load a >>= fun v => (next v).exec := by
  funext m
  simp only [exec, bind, EStateM.bind, Exec.load]
  split <;> rfl

theorem exec_store (a : Int) (v : Word) (next : Script) :
    (store a v next).exec = Exec.store a v >>= fun _ => next.exec := by
  funext m
  simp only [exec, bind, EStateM.bind, Exec.store]
  split <;> rfl

theorem exec_push (v : Word) (next : Script) :
    (push v next).exec = Exec.push v >>= fun _ => next.exec := by
  funext m
  simp only [push, exec, bind, EStateM.bind, Exec.push]
  split <;> rfl

theorem exec_pop (next : Word → Script) : (pop next).exec = Exec.pop >>= fun v => (next v).exec := by
  funext m
  simp only [pop, exec, bind, EStateM.bind, Exec.pop]
  split <;> rfl

theorem exec_resolve (labels : Labels) (label : String) (next : Nat → Script) :
    (resolve labels label next).exec = Exec.resolve labels label >>= fun n => (next n).exec := by
  funext m
  simp only [resolve, Exec.resolve, bind, EStateM.bind]
  cases labels.resolve label <;> rfl

theorem exec_goTo (place : Nat) :
    (goTo place).exec = Exec.goTo place >>= fun _ => pure .nothing := rfl

theorem exec_pushCells (base : Word) (n : Nat) (next : Script) :
    ∀ i, (pushCells base i n next).exec = Exec.pushCells base i n >>= fun _ => next.exec := by
  induction n with
  | zero => intro i; rfl
  | succ n ih =>
    intro i
    simp only [pushCells, Exec.pushCells, exec_load, exec_push, ih, bind_assoc]

theorem exec_popCells (base : Word) (n : Nat) (next : Script) :
    (popCells base n next).exec = Exec.popCells base n >>= fun _ => next.exec := by
  induction n with
  | zero => rfl
  | succ n ih => simp only [popCells, Exec.popCells, exec_pop, exec_store, ih, bind_assoc]

end Script

/-! ## The scripts of the operations -/

open Script in
/-- The machine's part of an operation, action by action. -/
def Operation.script (labels : Labels) : Operation → Script
  | .ldc v => push v (.done .nothing)
  | .ldv a => .load a.toInt fun v => push v (.done .nothing)
  | .binary o => pop fun b => pop fun a =>
    match o.eval? a b with
    | some v => push v (.done .nothing)
    | none => .fail .divisionByZero
  | .unary o => pop fun a => push (o.apply a) (.done .nothing)
  | .str a => pop fun v => .store a.toInt v (.done .nothing)
  | .rd => .done .input
  | .prn => pop fun v => .print v (.done (.output v))
  | .call l => resolve labels l fun place => .inspect fun m => push (Int64.ofInt m.pc) (goTo place)
  | .ret => pop fun v => .setPc v.toInt (.done .nothing)
  | .jmp l => resolve labels l goTo
  | .jmpf l => pop fun v => if v = 0 then resolve labels l goTo else .done .nothing
  | .alloc base count => pushCells base 0 count.toInt.toNat (.done .nothing)
  | .dalloc base count => popCells base count.toInt.toNat (.done .nothing)
  | .hlt => .done .nothing
  | .nop => .done .nothing

open Script in
/-- Running the script of an operation is executing the operation. -/
theorem Operation.exec_script (labels : Labels) (op : Operation) :
    (op.script labels).exec = op.execute labels := by
  cases op with
  | ldc v => exact exec_push v _
  | ldv a => simp only [script, execute, exec_load, exec_push, exec_done]
  | binary o =>
    simp only [script, execute, exec_pop]
    congr 1; funext b; congr 1; funext a
    cases o.eval? a b with
    | none => rfl
    | some v => exact exec_push v _
  | unary o => simp only [script, execute, exec_pop, exec_push, exec_done]
  | str a => simp only [script, execute, exec_pop, exec_store, exec_done]
  | prn => exact exec_pop _
  | call l =>
    simp only [script, execute, exec_resolve]
    congr 1; funext place; funext m
    simp only [exec, exec_push, exec_goTo]
    rfl
  | ret => exact exec_pop _
  | jmp l => simp only [script, execute, exec_resolve, exec_goTo]
  | jmpf l =>
    simp only [script, execute, exec_pop]
    congr 1; funext v
    by_cases h : v = 0
    · simp only [h, if_true, exec_resolve, exec_goTo]
    · simp only [h, if_false, exec_done]
  | alloc base count => simp only [script, execute, exec_pushCells, exec_done]
  | dalloc base count => simp only [script, execute, exec_popCells, exec_done]
  | _ => rfl

/-! ## Assertions along a script -/

namespace Script

section Safe

variable {I : Machine → Prop} {E : Fault → Machine → Prop} {Q : Demand → Machine → Prop}

/-- `I` holds now and after each action, `E` if the script fails, and `Q` when it is done. -/
def Safe (I : Machine → Prop) (E : Fault → Machine → Prop) (Q : Demand → Machine → Prop) :
    Script → Machine → Prop
  | .done d, m => I m ∧ Q d m
  | .fail f, m => I m ∧ E f m
  | .inspect next, m => I m ∧ (next m).Safe I E Q m
  | .load a next, m =>
    I m ∧ if m.memory.Contains a then (next (m.memory.get a)).Safe I E Q m else E (m.memory.outside a) m
  | .store a v next, m =>
    I m ∧ if m.memory.Contains a then next.Safe I E Q { m with memory := m.memory.set a v }
      else E (m.memory.outside a) m
  | .setSp i next, m => I m ∧ next.Safe I E Q { m with sp := i }
  | .setPc i next, m => I m ∧ next.Safe I E Q { m with pc := i }
  | .print v next, m => I m ∧ next.Safe I E Q { m with output := m.output.push v }

theorem Safe.now {s : Script} {m : Machine} (h : s.Safe I E Q m) : I m := by
  cases s <;> exact h.1

/-- What is asserted of the two ends may be weakened. -/
theorem Safe.weaken {E' : Fault → Machine → Prop} {Q' : Demand → Machine → Prop}
    (hE : ∀ f m, E f m → E' f m) (hQ : ∀ d m, Q d m → Q' d m) {s : Script} {m : Machine}
    (h : s.Safe I E Q m) : s.Safe I E' Q' m := by
  induction s generalizing m with
  | done d => exact ⟨h.1, hQ d m h.2⟩
  | fail f => exact ⟨h.1, hE f m h.2⟩
  | load a next ih =>
    refine ⟨h.1, ?_⟩
    have h' := h.2
    split at h' <;> rename_i ha
    · rw [if_pos ha]; exact ih _ h'
    · rw [if_neg ha]; exact hE _ _ h'
  | store a v next ih =>
    refine ⟨h.1, ?_⟩
    have h' := h.2
    split at h' <;> rename_i ha
    · rw [if_pos ha]; exact ih h'
    · rw [if_neg ha]; exact hE _ _ h'
  | inspect next ih => exact ⟨h.1, ih _ h.2⟩
  | setSp i next ih => exact ⟨h.1, ih h.2⟩
  | setPc i next ih => exact ⟨h.1, ih h.2⟩
  | print v next ih => exact ⟨h.1, ih h.2⟩

theorem Safe.step {s : Script} {m : Machine} (h : s.Safe I E Q m) :
    (s.step m).1.Safe I E Q (s.step m).2 := by
  cases s with
  | done d => exact h
  | fail f => exact h
  | load a next =>
    obtain ⟨hI, h⟩ := h
    by_cases ha : m.memory.Contains a
    · rw [if_pos ha] at h
      simpa [Script.step, ha] using h
    · rw [if_neg ha] at h
      simpa [Script.step, ha] using ⟨hI, h⟩
  | store a v next =>
    obtain ⟨hI, h⟩ := h
    by_cases ha : m.memory.Contains a
    · rw [if_pos ha] at h
      simpa [Script.step, ha] using h
    · rw [if_neg ha] at h
      simpa [Script.step, ha] using ⟨hI, h⟩
  | _ => exact h.2

/-- What holds when all actions are done, or one has failed. -/
theorem Safe.exec {s : Script} {m : Machine} (h : s.Safe I E Q m) :
    (∀ d m', s.exec m = .ok d m' → I m' ∧ Q d m') ∧
      ∀ f m', s.exec m = .error f m' → I m' ∧ E f m' := by
  induction s generalizing m with
  | done d => exact ⟨fun _ _ he => by cases he; exact h, fun _ _ he => nomatch he⟩
  | fail f => exact ⟨(fun _ _ he => nomatch he), fun _ _ he => by cases he; exact h⟩
  | load a next ih =>
    obtain ⟨hI, h⟩ := h
    by_cases ha : m.memory.Contains a
    · rw [if_pos ha] at h
      simpa only [Script.exec, if_pos ha] using ih _ h
    · rw [if_neg ha] at h
      simp only [Script.exec, if_neg ha]
      exact ⟨(fun _ _ he => nomatch he), fun _ _ he => by cases he; exact ⟨hI, h⟩⟩
  | store a v next ih =>
    obtain ⟨hI, h⟩ := h
    by_cases ha : m.memory.Contains a
    · rw [if_pos ha] at h
      simpa only [Script.exec, if_pos ha] using ih h
    · rw [if_neg ha] at h
      simp only [Script.exec, if_neg ha]
      exact ⟨(fun _ _ he => nomatch he), fun _ _ he => by cases he; exact ⟨hI, h⟩⟩
  | inspect next ih => exact ih _ h.2
  | setSp i next ih => exact ih h.2
  | setPc i next ih => exact ih h.2
  | print v next ih => exact ih h.2

end Safe

end Script

/-! ## What operations do and do not do -/

/-- What is true of the machine at every moment of an operation that was begun in `m₀`. -/
structure Machine.Midway (m₀ m : Machine) : Prop where
  capacity : m.memory.capacity = m₀.memory.capacity
  sp_low : -1 ≤ m.sp
  sp_high : m.sp < m₀.memory.capacity
  steps : m.steps = m₀.steps
  trace : m.trace = m₀.trace

/-- The counter and the output are free. -/
theorem Machine.Midway.with_registers {m₀ m : Machine} (h : m₀.Midway m) (pc : Int) (output : Array Word) :
    m₀.Midway { m with pc := pc, output := output } :=
  ⟨h.capacity, h.sp_low, h.sp_high, h.steps, h.trace⟩

/-- Neither the counter nor the output has changed since `m₀`. -/
structure Machine.Quiet (m₀ m : Machine) : Prop where
  pc : m.pc = m₀.pc
  output : m.output = m₀.output

namespace Operation

/-- The faults that an operation can raise by itself. -/
inductive Raises (labels : Labels) (capacity : Nat) : Operation → Fault → Prop
  | outside {op : Operation} {a : Int} :
    ¬(0 ≤ a ∧ a < capacity) → Raises labels capacity op (.outOfBounds a capacity)
  | division : Raises labels capacity (.binary .divi) .divisionByZero
  | unresolved {op : Operation} {l : String} :
    op.label? = some l → labels.get? l = none → Raises labels capacity op (.unresolvedLabel l)

/-- How an operation begun in `m₀` fails. -/
def Fails (labels : Labels) (op : Operation) (m₀ : Machine) (f : Fault) (m : Machine) : Prop :=
  m₀.Quiet m ∧ op.Raises labels m₀.memory.capacity f

/-- The counter after an operation begun at `pc`, before it is advanced: where it was, one before a
label, or the word that has just been popped. -/
def Continues (labels : Labels) (op : Operation) (pc : Int) (m : Machine) : Prop :=
  m.pc = pc ∨
    (∃ l place, op.label? = some l ∧ labels.get? l = some place ∧ m.pc = (place : Int) - 1) ∨
    op = .ret ∧ m.pc = (m.memory.get (m.sp + 1)).toInt

/-- What an operation begun in `m₀` leaves behind when it is done, apart from cells and stack. -/
structure Leaves (labels : Labels) (op : Operation) (m₀ : Machine) (d : Demand) (m : Machine) :
    Prop where
  pc : op.Continues labels m₀.pc m
  output : m.output = match d with
    | .output v => m₀.output.push v
    | _ => m₀.output
  prints : (∃ v, d = .output v) → op = .prn
  reads : d = .input ↔ op = .rd
  reads_only : d = .input → m = m₀

/-- A script that keeps what all operations keep. -/
abbrev Fits (labels : Labels) (op : Operation) (m₀ : Machine) : Script → Machine → Prop :=
  Script.Safe m₀.Midway (op.Fails labels m₀) (op.Leaves labels m₀)

section Fits

variable {labels : Labels} {op : Operation} {m₀ m : Machine}

theorem fails_outside (h : m₀.Midway m) (hq : m₀.Quiet m) {a : Int} (ha : ¬m.memory.Contains a) :
    op.Fails labels m₀ (m.memory.outside a) m := by
  refine ⟨hq, ?_⟩
  rw [Memory.outside, h.capacity]
  rw [Memory.Contains, h.capacity] at ha
  exact .outside ha

theorem fits_load {a : Int} {next : Word → Script} (h : m₀.Midway m) (hq : m₀.Quiet m)
    (hn : op.Fits labels m₀ (next (m.memory.get a)) m) : op.Fits labels m₀ (.load a next) m := by
  refine ⟨h, ?_⟩
  split
  · exact hn
  · rename_i ha
    exact fails_outside h hq ha

theorem fits_store {a : Int} {v : Word} {next : Script} (h : m₀.Midway m) (hq : m₀.Quiet m)
    (hn : ∀ m', m₀.Midway m' → m₀.Quiet m' → op.Fits labels m₀ next m') :
    op.Fits labels m₀ (.store a v next) m := by
  refine ⟨h, ?_⟩
  split
  · refine hn _ ⟨?_, h.sp_low, h.sp_high, h.steps, h.trace⟩ ⟨hq.pc, hq.output⟩
    rw [Memory.capacity_set, h.capacity]
  · rename_i ha
    exact fails_outside h hq ha

theorem fits_push {v : Word} {next : Script} (h : m₀.Midway m) (hq : m₀.Quiet m)
    (hn : ∀ m', m₀.Midway m' → m₀.Quiet m' → op.Fits labels m₀ next m') :
    op.Fits labels m₀ (.push v next) m := by
  refine ⟨h, h, ?_⟩
  split
  · rename_i ha
    have hc : (m.memory.set (m.sp + 1) v).capacity = m₀.memory.capacity := by
      rw [Memory.capacity_set, h.capacity]
    have hi := h.sp_low
    have ha' := ha.2
    rw [h.capacity] at ha'
    refine ⟨⟨hc, h.sp_low, h.sp_high, h.steps, h.trace⟩, ?_⟩
    exact hn _ ⟨hc, by show -1 ≤ m.sp + 1; omega, ha', h.steps, h.trace⟩ ⟨hq.pc, hq.output⟩
  · rename_i ha
    exact fails_outside h hq ha

/-- The cell that a pop has read stays where it was, right above the stack. -/
theorem fits_pop {next : Word → Script} (h : m₀.Midway m) (hq : m₀.Quiet m)
    (hn : ∀ m', m₀.Midway m' → m₀.Quiet m' →
      op.Fits labels m₀ (next (m'.memory.get (m'.sp + 1))) m') :
    op.Fits labels m₀ (.pop next) m := by
  refine ⟨h, h, ?_⟩
  split
  · rename_i ha
    have hlow := ha.1
    have hhigh := h.sp_high
    refine ⟨h, ?_⟩
    have := hn { m with sp := m.sp - 1 }
      ⟨h.capacity, by show -1 ≤ m.sp - 1; omega, by show m.sp - 1 < _; omega, h.steps, h.trace⟩
      ⟨hq.pc, hq.output⟩
    simpa only [Int.sub_add_cancel] using this
  · rename_i ha
    exact fails_outside h hq ha

theorem fits_resolve {l : String} {next : Nat → Script} (h : m₀.Midway m) (hq : m₀.Quiet m)
    (hl : op.label? = some l)
    (hn : ∀ place, labels.get? l = some place → op.Fits labels m₀ (next place) m) :
    op.Fits labels m₀ (.resolve labels l next) m := by
  unfold Script.resolve Labels.resolve
  cases hp : labels.get? l with
  | none => exact ⟨h, hq, .unresolved hl hp⟩
  | some place => exact hn place hp

theorem fits_goTo {l : String} {place : Nat} (h : m₀.Midway m) (hq : m₀.Quiet m)
    (hl : op.label? = some l) (hp : labels.get? l = some place) :
    op.Fits labels m₀ (.goTo place) m := by
  have h' : m₀.Midway { m with pc := (place : Int) - 1 } := h.with_registers _ _
  refine ⟨h, h', .inr (.inl ⟨l, place, hl, hp, rfl⟩), hq.output, nofun, ⟨nofun, ?_⟩, nofun⟩
  rintro rfl
  cases hl

theorem fits_done (h : m₀.Midway m) (hq : m₀.Quiet m) (hop : op ≠ .rd) :
    op.Fits labels m₀ (.done .nothing) m :=
  ⟨h, .inl hq.pc, hq.output, nofun, ⟨nofun, fun h => absurd h hop⟩, nofun⟩

theorem fits_pushCells {base : Word} {next : Script} (n : Nat)
    (hn : ∀ m', m₀.Midway m' → m₀.Quiet m' → op.Fits labels m₀ next m') :
    ∀ (i : Nat) (m : Machine), m₀.Midway m → m₀.Quiet m →
      op.Fits labels m₀ (.pushCells base i n next) m := by
  induction n with
  | zero => intro i m h hq; exact hn m h hq
  | succ n ih =>
    intro i m h hq
    exact fits_load h hq (fits_push h hq fun m' h' hq' => ih (i + 1) m' h' hq')

theorem fits_popCells {base : Word} {next : Script} (n : Nat)
    (hn : ∀ m', m₀.Midway m' → m₀.Quiet m' → op.Fits labels m₀ next m') :
    ∀ m, m₀.Midway m → m₀.Quiet m → op.Fits labels m₀ (.popCells base n next) m := by
  induction n with
  | zero => exact hn
  | succ n ih =>
    intro m h hq
    exact fits_pop h hq fun m' h' hq' => fits_store h' hq' ih

end Fits

/-- In the middle of any operation the stack pointer is -1 or the address of a cell, no cell is
lost, and nothing is counted or recorded; an operation that fails has not moved the counter. -/
theorem script_fits (labels : Labels) (op : Operation) {m : Machine} (hlow : -1 ≤ m.sp)
    (hhigh : m.sp < m.memory.capacity) : op.Fits labels m (op.script labels) m := by
  have h : m.Midway m := ⟨rfl, hlow, hhigh, rfl, rfl⟩
  have hq : m.Quiet m := ⟨rfl, rfl⟩
  cases op with
  | ldc v => exact fits_push h hq fun m' h' hq' => fits_done h' hq' (by simp)
  | ldv a => exact fits_load h hq (fits_push h hq fun m' h' hq' => fits_done h' hq' (by simp))
  | binary o =>
    refine fits_pop h hq fun m₁ h₁ hq₁ => fits_pop h₁ hq₁ fun m₂ h₂ hq₂ => ?_
    split
    · exact fits_push h₂ hq₂ fun m' h' hq' => fits_done h' hq' (by simp)
    · rename_i he
      cases o with
      | divi => exact ⟨h₂, hq₂, .division⟩
      | _ => cases he
  | unary o =>
    exact fits_pop h hq fun m₁ h₁ hq₁ => fits_push h₁ hq₁ fun m' h' hq' => fits_done h' hq' (by simp)
  | str a =>
    exact fits_pop h hq fun m₁ h₁ hq₁ => fits_store h₁ hq₁ fun m' h' hq' => fits_done h' hq' (by simp)
  | rd => exact ⟨h, .inl rfl, rfl, nofun, by simp, fun _ => rfl⟩
  | prn =>
    refine fits_pop h hq fun m₁ h₁ hq₁ => ⟨h₁, h₁.with_registers _ _, ?_⟩
    exact ⟨.inl hq₁.pc, by show m₁.output.push _ = _; rw [hq₁.output], fun _ => rfl, by simp, nofun⟩
  | call l =>
    refine fits_resolve h hq rfl fun place hp => ⟨h, ?_⟩
    exact fits_push h hq fun m' h' hq' => fits_goTo h' hq' rfl hp
  | ret =>
    refine fits_pop h hq fun m₁ h₁ hq₁ => ⟨h₁, h₁.with_registers _ _, ?_⟩
    -- the popped word is still in its cell, so the counter can be read off the memory
    exact ⟨.inr (.inr ⟨rfl, rfl⟩), hq₁.output, nofun, by simp, nofun⟩
  | jmp l => exact fits_resolve h hq rfl fun place hp => fits_goTo h hq rfl hp
  | jmpf l =>
    refine fits_pop h hq fun m₁ h₁ hq₁ => ?_
    split
    · exact fits_resolve h₁ hq₁ rfl fun place hp => fits_goTo h₁ hq₁ rfl hp
    · exact fits_done h₁ hq₁ (by simp)
  | alloc base count =>
    exact fits_pushCells _ (fun m' h' hq' => fits_done h' hq' (by simp)) 0 m h hq
  | dalloc base count =>
    exact fits_popCells _ (fun m' h' hq' => fits_done h' hq' (by simp)) m h hq
  | hlt => exact fits_done h hq (by simp)
  | nop => exact fits_done h hq (by simp)

/-- An executed operation leaves behind what its script does. -/
theorem execute_ok {labels : Labels} {op : Operation} {m m' : Machine} {d : Demand}
    (hlow : -1 ≤ m.sp) (hhigh : m.sp < m.memory.capacity)
    (h : op.execute labels m = .ok d m') : m.Midway m' ∧ op.Leaves labels m d m' := by
  rw [← exec_script] at h
  exact (script_fits labels op hlow hhigh).exec.1 d m' h

theorem execute_error {labels : Labels} {op : Operation} {m m' : Machine} {f : Fault}
    (hlow : -1 ≤ m.sp) (hhigh : m.sp < m.memory.capacity)
    (h : op.execute labels m = .error f m') : m.Midway m' ∧ op.Fails labels m f m' := by
  rw [← exec_script] at h
  exact (script_fits labels op hlow hhigh).exec.2 f m' h

end Operation

end StackMachine
