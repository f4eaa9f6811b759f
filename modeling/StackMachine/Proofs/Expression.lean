/-
Expressions and their code. The code of an expression is its nodes in postfix order, operands first, and the
machine evaluates it on the stack, which lies in the same memory as the cells that the expression reads.

An expression is evaluated in a session that is ready for it (`Session.ReadyFor`): there is room for the values
in between, and the cells that are read lie below these values. Evaluating it either pushes its value and
changes nothing below (`Session.Pushes`), or ends the run at the first division by zero
(`Session.DividesAt`). The induction is on the expression, over all sessions: the right operand is evaluated
on top of the value of the left one.
-/
import StackMachine.Proofs.Access
import StackMachine.Proofs.Run

namespace StackMachine

inductive Expression
  | const (v : Word)
  | cell (address : Word)
  | unary (o : UnaryOp) (operand : Expression)
  | binary (o : BinaryOp) (left right : Expression)
  deriving DecidableEq

namespace Expression

/-- The operation of the topmost node. -/
def operation : Expression → Operation
  | .const v => .ldc v
  | .cell a => .ldv a
  | .unary o _ => .unary o
  | .binary o _ _ => .binary o

/-- All nodes in postfix order. -/
def nodes : Expression → List Expression
  | .const v => [.const v]
  | .cell a => [.cell a]
  | .unary o e => e.nodes ++ [.unary o e]
  | .binary o l r => l.nodes ++ (r.nodes ++ [.binary o l r])

def code (e : Expression) : List Operation := e.nodes.map operation

/-- The largest number of values that are on the stack at once while the expression is evaluated. -/
def depth : Expression → Nat
  | .const _ | .cell _ => 1
  | .unary _ e => e.depth
  | .binary _ l r => max l.depth (r.depth + 1)

/-- The value of an expression, if there is no division by zero in it. -/
def eval? (read : Int → Word) : Expression → Option Word
  | .const v => some v
  | .cell a => some (read a.toInt)
  | .unary o e => (e.eval? read).map o.apply
  | .binary o l r => (l.eval? read).bind fun a => (r.eval? read).bind fun b => o.eval? a b

/-- The topmost node is a division by zero. -/
def dividesByZero (read : Int → Word) : Expression → Bool
  | .binary .divi _ r => r.eval? read = some 0
  | _ => false

/-- The index of the first division by zero among the nodes in postfix order. -/
def firstDivision? (read : Int → Word) (e : Expression) : Option Nat :=
  e.nodes.findIdx? (dividesByZero read)

/-- The expression reads no cell above `top`. -/
def Within (top : Int) : Expression → Prop
  | .const _ => True
  | .cell a => 0 ≤ a.toInt ∧ a.toInt ≤ top
  | .unary _ e => e.Within top
  | .binary _ l r => l.Within top ∧ r.Within top

instance decidableWithin (top : Int) : (e : Expression) → Decidable (e.Within top)
  | .const _ => inferInstanceAs (Decidable True)
  | .cell _ => inferInstanceAs (Decidable (_ ∧ _))
  | .unary _ e => decidableWithin top e
  | .binary _ l r => @instDecidableAnd _ _ (decidableWithin top l) (decidableWithin top r)

theorem code_unary (o : UnaryOp) (e : Expression) : (unary o e).code = e.code ++ [.unary o] := by
  simp [code, nodes, operation]

theorem code_binary (o : BinaryOp) (l r : Expression) :
    (binary o l r).code = l.code ++ (r.code ++ [.binary o]) := by
  simp [code, nodes, operation]

theorem length_code (e : Expression) : e.code.length = e.nodes.length := List.length_map _

theorem one_le_depth (e : Expression) : 1 ≤ e.depth := by
  induction e with
  | const | cell => exact Nat.le_refl 1
  | unary o e ih => exact ih
  | binary o l r ihl ihr => exact Nat.le_trans ihl (Nat.le_max_left _ _)

end Expression

/-- A binary operation has no result exactly if it is a division by zero. -/
theorem BinaryOp.eval?_eq_none {o : BinaryOp} {a b : Word} : o.eval? a b = none ↔ o = .divi ∧ b = 0 := by
  cases o <;> simp [eval?, Word.floorDiv?]

namespace Expression

variable {read : Int → Word}

theorem dividesByZero_binary {o : BinaryOp} {l r : Expression} {a b : Word} (h : r.eval? read = some b) :
    dividesByZero read (.binary o l r) = (o.eval? a b).isNone := by
  rw [Bool.eq_iff_iff, Option.isNone_iff_eq_none, BinaryOp.eval?_eq_none]
  cases o <;> simp [dividesByZero, h]

theorem firstDivision?_unary (o : UnaryOp) (e : Expression) :
    (unary o e).firstDivision? read = e.firstDivision? read := by
  simp [firstDivision?, nodes, List.findIdx?_append, dividesByZero]

theorem firstDivision?_binary (o : BinaryOp) (l r : Expression) :
    (binary o l r).firstDivision? read =
      (l.firstDivision? read).or (((r.firstDivision? read).or
        (if dividesByZero read (.binary o l r) then some r.code.length else none)).map (l.code.length + ·)) := by
  simp only [firstDivision?, nodes, List.findIdx?_append, List.findIdx?_singleton, length_code, Nat.add_comm]
  split <;> simp

end Expression

/-! ## The operations of expressions -/

namespace Operation

open Exec

variable {labels : Labels} {m : Machine}

theorem execute_ldc (v : Word) (hroom : m.memory.Contains (m.sp + 1)) :
    (ldc v).execute labels m =
      .ok .nothing { m with memory := m.memory.set (m.sp + 1) v, sp := m.sp + 1 } := by
  simp only [execute, bind_eq_ok, push_eq_ok, pure_eq_ok]
  exact ⟨(), _, ⟨hroom, rfl⟩, trivial, rfl⟩

theorem execute_ldv {a : Word} (hcell : m.memory.Contains a.toInt) (hroom : m.memory.Contains (m.sp + 1)) :
    (ldv a).execute labels m =
      .ok .nothing { m with memory := m.memory.set (m.sp + 1) (m.memory.get a.toInt), sp := m.sp + 1 } := by
  simp only [execute, bind_eq_ok, load_eq_ok, push_eq_ok, pure_eq_ok]
  exact ⟨_, m, ⟨hcell, rfl, rfl⟩, (), _, ⟨hroom, rfl⟩, trivial, rfl⟩

/-- The result takes the place of the operand. -/
theorem execute_unary (o : UnaryOp) (hvalue : m.memory.Contains m.sp) :
    (unary o).execute labels m =
      .ok .nothing { m with memory := m.memory.set m.sp (o.apply (m.memory.get m.sp)) } := by
  simp only [execute, bind_eq_ok, pop_eq_ok, push_eq_ok, pure_eq_ok]
  refine ⟨_, _, ⟨hvalue, rfl, rfl⟩, (), _, ⟨?_, rfl⟩, trivial, ?_⟩
  · simpa only [Int.sub_add_cancel] using hvalue
  · simp only [Int.sub_add_cancel]

/-- The operand on top of the stack is the right one. -/
theorem execute_binary {o : BinaryOp} {v : Word} (hright : m.memory.Contains m.sp)
    (hleft : m.memory.Contains (m.sp - 1))
    (hv : o.eval? (m.memory.get (m.sp - 1)) (m.memory.get m.sp) = some v) :
    (binary o).execute labels m =
      .ok .nothing { m with memory := m.memory.set (m.sp - 1) v, sp := m.sp - 1 } := by
  simp only [execute, bind_eq_ok, pop_eq_ok]
  refine ⟨_, _, ⟨hright, rfl, rfl⟩, _, _, ⟨hleft, rfl, rfl⟩, ?_⟩
  simp only [hv, bind_eq_ok, push_eq_ok, pure_eq_ok]
  refine ⟨(), _, ⟨?_, rfl⟩, trivial, ?_⟩
  · simpa only [Int.sub_add_cancel] using hleft
  · simp only [Int.sub_add_cancel]

theorem execute_binary_zero {o : BinaryOp} (hright : m.memory.Contains m.sp)
    (hleft : m.memory.Contains (m.sp - 1))
    (hv : o.eval? (m.memory.get (m.sp - 1)) (m.memory.get m.sp) = none) :
    (binary o).execute labels m = .error .divisionByZero { m with sp := m.sp - 1 - 1 } := by
  simp only [execute, bind, EStateM.bind, pop, hright, hleft, if_true, hv]
  rfl

end Operation

/-! ## Straight-line code -/

namespace Session

variable {σ : Type}

/-- The session is about to execute this code, with nothing to keep it from doing so. -/
structure AtCode (code : List Operation) (s : Session σ) : Prop where
  running : s.phase = .running
  unstopped : s.stopped = false
  placed : ∀ k < code.length, s.image.fetch? (s.machine.pc + k) = code[k]?.map .ok
  budget : ∀ n, s.settings.stepLimit = some n → s.machine.steps + code.length ≤ n
  size : (s.image.code.size : Int) ≤ Word.greatest

theorem AtCode.left {first rest : List Operation} {s : Session σ} (h : s.AtCode (first ++ rest)) :
    s.AtCode first := by
  refine ⟨h.running, h.unstopped, fun k hk => ?_, fun n hn => ?_, h.size⟩
  · rw [h.placed k (by rw [List.length_append]; omega), List.getElem?_append_left hk]
  · have hbudget := h.budget n hn
    rw [List.length_append] at hbudget
    omega

theorem AtCode.begins {op : Operation} {rest : List Operation} {s : Session σ} (h : s.AtCode (op :: rest))
    (hop : op ≠ .hlt) : s.Begins op := by
  refine ⟨h.running, h.unstopped, ?_, hop, fun n hn => ?_⟩
  · have hplaced := h.placed 0 (Nat.succ_pos _)
    rwa [Int.natCast_zero, Int.add_zero] at hplaced
  · have hbudget := h.budget n hn
    rw [List.length_cons] at hbudget
    omega

/-- The counter does not stick in the code. -/
theorem AtCode.clampAdd_pc {op : Operation} {rest : List Operation} {s : Session σ}
    (h : s.AtCode (op :: rest)) : Word.clampAdd s.machine.pc 1 = s.machine.pc + 1 := by
  have hplaced := h.placed 0 (Nat.succ_pos _)
  have hsize := h.size
  rw [Int.natCast_zero, Int.add_zero, Image.fetch?] at hplaced
  split at hplaced
  · have hlt : s.machine.pc.toNat < s.image.code.size := (Array.getElem?_eq_some_iff.1 hplaced).1
    unfold Word.clampAdd
    omega
  · cases hplaced

variable [Device σ]

/-- After `k` ticks the session has come to `t`, `k` instructions further, and has printed nothing. -/
structure Advances (k : Nat) (s t : Session σ) : Prop where
  run : s.run k = (.running, t)
  settings : t.settings = s.settings
  image : t.image = s.image
  device : t.device = s.device
  stopped : t.stopped = s.stopped
  phase : t.phase = s.phase
  pc : t.machine.pc = s.machine.pc + k
  steps : t.machine.steps = s.machine.steps + k
  output : t.machine.output = s.machine.output
  capacity : t.machine.memory.capacity = s.machine.memory.capacity

theorem advances_zero (s : Session σ) : s.Advances 0 s :=
  ⟨rfl, rfl, rfl, rfl, rfl, rfl, (Int.add_zero _).symm, rfl, rfl, rfl⟩

theorem Advances.trans {k l : Nat} {s t u : Session σ} (h : s.Advances k t) (h' : t.Advances l u) :
    s.Advances (k + l) u := by
  refine ⟨?_, h'.settings.trans h.settings, h'.image.trans h.image, h'.device.trans h.device,
    h'.stopped.trans h.stopped, h'.phase.trans h.phase, ?_, ?_, h'.output.trans h.output,
    h'.capacity.trans h.capacity⟩
  · rw [run_from h.run, h'.run]
  · rw [h'.pc, h.pc]
    omega
  · rw [h'.steps, h.steps]
    omega

/-- Behind the first part of the code comes the rest. -/
theorem Advances.atCode {first rest : List Operation} {s t : Session σ} (h : s.Advances first.length t)
    (hcode : s.AtCode (first ++ rest)) : t.AtCode rest := by
  refine ⟨h.phase.trans hcode.running, h.stopped.trans hcode.unstopped, fun k hk => ?_, fun n hn => ?_, ?_⟩
  · have hplaced := hcode.placed (first.length + k) (by rw [List.length_append]; omega)
    rw [List.getElem?_append_right (Nat.le_add_right _ _), Nat.add_sub_cancel_left] at hplaced
    rw [h.image, h.pc, ← hplaced, Int.natCast_add, Int.add_assoc]
  · rw [h.settings] at hn
    have hbudget := hcode.budget n hn
    rw [List.length_append] at hbudget
    rw [h.steps]
    omega
  · rw [h.image]
    exact hcode.size

/-- After `k` instructions the run is ended by a division by zero, with nothing printed and no cell of the stack
changed. -/
def DividesAt (k : Nat) (s : Session σ) : Prop :=
  ∃ o t, s.run (k + 1) = (.ended o, t) ∧ o.ending = .fault .divisionByZero ∧ o.pc = s.machine.pc + k ∧
    o.output = s.machine.output ∧ t.device = s.device ∧
    ∀ a ≤ s.machine.sp, t.machine.memory.get a = s.machine.memory.get a

theorem Advances.dividesAt {k l : Nat} {s t : Session σ} (h : s.Advances k t)
    (hcells : ∀ a ≤ s.machine.sp, t.machine.memory.get a = s.machine.memory.get a)
    (hsp : s.machine.sp ≤ t.machine.sp) (hd : t.DividesAt l) : s.DividesAt (k + l) := by
  obtain ⟨o, u, hrun, hending, hpc, houtput, hdevice, hkept⟩ := hd
  refine ⟨o, u, ?_, hending, ?_, houtput.trans h.output, hdevice.trans h.device, fun a ha => ?_⟩
  · rw [Nat.add_assoc, run_from h.run, hrun]
  · rw [hpc, h.pc]
    omega
  · rw [hkept a (by omega), hcells a ha]

/-- After one instruction the session has come to `t`, with this cell set and on top of the stack. -/
structure Sets (a : Int) (v : Word) (s t : Session σ) : Prop where
  advances : s.Advances 1 t
  memory : t.machine.memory = s.machine.memory.set a v
  sp : t.machine.sp = a

section Sets

variable {s : Session σ}

theorem AtCode.sets {op : Operation} (h : s.AtCode [op]) (hop : op ≠ .hlt) {a : Int} {v : Word}
    (he : op.execute s.image.labels s.machine.counted =
      .ok .nothing { s.machine.counted with memory := s.machine.memory.set a v, sp := a }) :
    ∃ t, s.Sets a v t := by
  have htick := (h.begins hop).tick
  rw [perform_eq] at htick
  simp only [he, retire_eq] at htick
  refine ⟨_, ⟨run_one htick, rfl, rfl, rfl, rfl, h.running.symm, h.clampAdd_pc, rfl, rfl, ?_⟩, rfl, rfl⟩
  exact Memory.capacity_set _ _ _

theorem AtCode.ldc {v : Word} (h : s.AtCode [.ldc v]) (hroom : s.machine.memory.Contains (s.machine.sp + 1)) :
    ∃ t, s.Sets (s.machine.sp + 1) v t :=
  h.sets (by simp) (Operation.execute_ldc (m := s.machine.counted) v hroom)

theorem AtCode.ldv {a : Word} (h : s.AtCode [.ldv a]) (hcell : s.machine.memory.Contains a.toInt)
    (hroom : s.machine.memory.Contains (s.machine.sp + 1)) :
    ∃ t, s.Sets (s.machine.sp + 1) (s.machine.memory.get a.toInt) t :=
  h.sets (by simp) (Operation.execute_ldv (m := s.machine.counted) hcell hroom)

theorem AtCode.unary {o : UnaryOp} (h : s.AtCode [.unary o])
    (hvalue : s.machine.memory.Contains s.machine.sp) :
    ∃ t, s.Sets s.machine.sp (o.apply (s.machine.memory.get s.machine.sp)) t :=
  h.sets (by simp) (Operation.execute_unary (m := s.machine.counted) o hvalue)

section Binary

variable {o : BinaryOp} (h : s.AtCode [.binary o]) (hright : s.machine.memory.Contains s.machine.sp)
  (hleft : s.machine.memory.Contains (s.machine.sp - 1))

include h hright hleft

theorem AtCode.binary {v : Word}
    (hv : o.eval? (s.machine.memory.get (s.machine.sp - 1)) (s.machine.memory.get s.machine.sp) = some v) :
    ∃ t, s.Sets (s.machine.sp - 1) v t :=
  h.sets (by simp) (Operation.execute_binary (m := s.machine.counted) hright hleft hv)

theorem AtCode.dividesAt
    (hv : o.eval? (s.machine.memory.get (s.machine.sp - 1)) (s.machine.memory.get s.machine.sp) = none) :
    s.DividesAt 0 := by
  have htick := (h.begins (by simp)).tick
  have he : (Operation.binary o).execute s.image.labels s.machine.counted = _ :=
    Operation.execute_binary_zero (m := s.machine.counted) hright hleft hv
  rw [perform_eq] at htick
  simp only [he] at htick
  have hrun : s.run 1 = s.tick := by
    rw [run, htick]
    rfl
  exact ⟨_, _, hrun.trans htick, rfl, (Int.add_zero _).symm, rfl, rfl, fun _ _ => rfl⟩

end Binary

end Sets

/-! ## Evaluation -/

/-- After `k` ticks the session has come to `t`, with this value on top of the stack and nothing changed
below it. -/
structure Pushes (k : Nat) (v : Word) (s t : Session σ) : Prop where
  advances : s.Advances k t
  sp : t.machine.sp = s.machine.sp + 1
  value : t.machine.memory.get (s.machine.sp + 1) = v
  cells : ∀ a ≤ s.machine.sp, t.machine.memory.get a = s.machine.memory.get a

/-- An instruction that sets the cell above the stack of `s` completes the evaluation. -/
theorem Advances.pushes {k : Nat} {v : Word} {s t u : Session σ} (h : s.Advances k t)
    (hset : t.Sets (s.machine.sp + 1) v u) (hroom : s.machine.memory.Contains (s.machine.sp + 1))
    (hcells : ∀ a ≤ s.machine.sp, t.machine.memory.get a = s.machine.memory.get a) : s.Pushes (k + 1) v u := by
  have hroom' : t.machine.memory.Contains (s.machine.sp + 1) := by
    rw [Memory.Contains, h.capacity]
    exact hroom
  refine ⟨h.trans hset.advances, hset.sp, ?_, fun a ha => ?_⟩
  · rw [hset.memory, Memory.get_set_self hroom']
  · rw [hset.memory, Memory.get_set_of_ne _ (by omega), hcells a ha]

/-- After `k` ticks the session has come to `t`, with two values on top of the stack and nothing changed below
them. -/
structure PushesBoth (k : Nat) (a b : Word) (s t : Session σ) : Prop where
  advances : s.Advances k t
  sp : t.machine.sp = s.machine.sp + 2
  left : t.machine.memory.get (s.machine.sp + 1) = a
  right : t.machine.memory.get (s.machine.sp + 2) = b
  cells : ∀ c ≤ s.machine.sp, t.machine.memory.get c = s.machine.memory.get c

theorem Pushes.both {k l : Nat} {a b : Word} {s t u : Session σ} (hp : s.Pushes k a t) (hq : t.Pushes l b u) :
    s.PushesBoth (k + l) a b u := by
  have hsp := hp.sp
  refine ⟨hp.advances.trans hq.advances, ?_, ?_, ?_, fun c hc => ?_⟩
  · rw [hq.sp, hsp]
    omega
  · rw [hq.cells _ (by omega), hp.value]
  · rw [← hq.value, hsp, Int.add_assoc]
    rfl
  · rw [hq.cells c (by omega), hp.cells c hc]

section PushesBoth

variable {k : Nat} {a b : Word} {s t : Session σ} {o : BinaryOp} (h : s.PushesBoth k a b t)
  (hcode : t.AtCode [.binary o]) (hlow : -1 ≤ s.machine.sp)
  (hroom : s.machine.sp + 2 < s.machine.memory.capacity)

omit hcode in
include h hlow hroom in
theorem PushesBoth.operands :
    t.machine.memory.Contains t.machine.sp ∧ t.machine.memory.Contains (t.machine.sp - 1) ∧
      t.machine.sp - 1 = s.machine.sp + 1 := by
  have hsp := h.sp
  have hcapacity := h.advances.capacity
  refine ⟨⟨?_, ?_⟩, ⟨?_, ?_⟩, ?_⟩ <;> omega

include h hcode hlow hroom

/-- An operation on both values leaves its result in the place of the left one. -/
theorem PushesBoth.pushes {v : Word} (hv : o.eval? a b = some v) : ∃ u, s.Pushes (k + 1) v u := by
  obtain ⟨hright, hleft, hsp⟩ := h.operands hlow hroom
  obtain ⟨u, hu⟩ := hcode.binary hright hleft (by rw [hsp, h.left, h.sp, h.right, hv])
  rw [hsp] at hu
  exact ⟨u, h.advances.pushes hu ⟨by omega, by omega⟩ h.cells⟩

theorem PushesBoth.dividesAt (hv : o.eval? a b = none) : s.DividesAt k := by
  obtain ⟨hright, hleft, hsp⟩ := h.operands hlow hroom
  have hdivides := hcode.dividesAt hright hleft (by rw [hsp, h.left, h.sp, h.right, hv])
  exact h.advances.dividesAt h.cells (by omega) hdivides

end PushesBoth

/-- The session is about to evaluate `e`. There is room for the values in between, and the cells up to `top`,
the only ones that `e` reads, hold what `read` says. -/
structure ReadyFor (read : Int → Word) (top : Int) (e : Expression) (s : Session σ) : Prop where
  code : s.AtCode e.code
  low : -1 ≤ s.machine.sp
  top_le : top ≤ s.machine.sp
  room : s.machine.sp + e.depth < s.machine.memory.capacity
  within : e.Within top
  reads : ∀ a, 0 ≤ a → a ≤ top → s.machine.memory.get a = read a

/-- How the code of an expression is evaluated: its value is pushed, or the run ends at the first division by
zero. -/
def Evaluates (read : Int → Word) (e : Expression) (s : Session σ) : Prop :=
  match e.firstDivision? read with
  | none => ∃ v t, e.eval? read = some v ∧ s.Pushes e.code.length v t
  | some k => e.eval? read = none ∧ s.DividesAt k

section Evaluation

variable {read : Int → Word} {top : Int} {s t : Session σ} {e l r : Expression} {v : Word}

omit [Device σ] in
/-- There is room for the value. -/
theorem ReadyFor.contains (h : s.ReadyFor read top e) : s.machine.memory.Contains (s.machine.sp + 1) := by
  have hlow := h.low
  have hroom := h.room
  have hdepth := e.one_le_depth
  constructor <;> omega

omit [Device σ] in
theorem ReadyFor.operand {o : UnaryOp} (h : s.ReadyFor read top (.unary o e)) : s.ReadyFor read top e := by
  have hcode := h.code
  rw [Expression.code_unary] at hcode
  exact ⟨hcode.left, h.low, h.top_le, h.room, h.within, h.reads⟩

omit [Device σ] in
theorem ReadyFor.left {o : BinaryOp} (h : s.ReadyFor read top (.binary o l r)) : s.ReadyFor read top l := by
  have hcode := h.code
  have hroom := h.room
  rw [Expression.code_binary] at hcode
  rw [Expression.depth] at hroom
  exact ⟨hcode.left, h.low, h.top_le, by omega, h.within.1, h.reads⟩

/-- The right operand is evaluated on top of the value of the left one. -/
theorem ReadyFor.right {o : BinaryOp} (h : s.ReadyFor read top (.binary o l r)) (hp : s.Pushes l.code.length v t) :
    t.ReadyFor read top r := by
  obtain ⟨hcode, hlow, htop, hroom, hwithin, hreads⟩ := h
  rw [Expression.code_binary] at hcode
  rw [Expression.depth] at hroom
  refine ⟨(hp.advances.atCode hcode).left, ?_, ?_, ?_, hwithin.2, fun a ha ha' => ?_⟩
  · rw [hp.sp]
    omega
  · rw [hp.sp]
    omega
  · rw [hp.sp, hp.advances.capacity]
    omega
  · rw [hp.cells a (by omega), hreads a ha ha']

theorem evaluates_const (h : s.ReadyFor read top (.const v)) : s.Evaluates read (.const v) := by
  obtain ⟨t, ht⟩ := h.code.ldc h.contains
  exact ⟨v, t, rfl, s.advances_zero.pushes ht h.contains fun _ _ => rfl⟩

theorem evaluates_cell {a : Word} (h : s.ReadyFor read top (.cell a)) : s.Evaluates read (.cell a) := by
  obtain ⟨ha, ha'⟩ := h.within
  have hcell : s.machine.memory.Contains a.toInt := by
    have htop := h.top_le
    have hroom := h.room
    constructor <;> omega
  obtain ⟨t, ht⟩ := h.code.ldv hcell h.contains
  rw [h.reads a.toInt ha ha'] at ht
  exact ⟨_, t, rfl, s.advances_zero.pushes ht h.contains fun _ _ => rfl⟩

theorem evaluates_unary {o : UnaryOp} (h : s.ReadyFor read top (.unary o e)) (ih : s.Evaluates read e) :
    s.Evaluates read (.unary o e) := by
  unfold Evaluates at ih ⊢
  rw [Expression.firstDivision?_unary]
  cases hfirst : e.firstDivision? read with
  | some k =>
    rw [hfirst] at ih
    obtain ⟨hnone, hdivides⟩ := ih
    exact ⟨by rw [Expression.eval?, hnone]; rfl, hdivides⟩
  | none =>
    rw [hfirst] at ih
    obtain ⟨v, t, hv, hp⟩ := ih
    have hcode := h.code
    rw [Expression.code_unary] at hcode
    have hvalue : t.machine.memory.Contains t.machine.sp := by
      rw [Memory.Contains, hp.sp, hp.advances.capacity]
      exact h.contains
    obtain ⟨u, hu⟩ := (hp.advances.atCode hcode).unary hvalue
    rw [hp.sp, hp.value] at hu
    refine ⟨o.apply v, u, by rw [Expression.eval?, hv]; rfl, ?_⟩
    rw [Expression.code_unary, List.length_append]
    exact hp.advances.pushes hu h.contains hp.cells

theorem evaluates_binary {o : BinaryOp} (h : s.ReadyFor read top (.binary o l r)) (ihl : s.Evaluates read l)
    (ihr : ∀ t : Session σ, t.ReadyFor read top r → t.Evaluates read r) : s.Evaluates read (.binary o l r) := by
  unfold Evaluates at ihl ⊢
  rw [Expression.firstDivision?_binary]
  cases hfirst : l.firstDivision? read with
  | some k =>
    -- the run ends in the left operand, and the right one is not reached
    rw [hfirst] at ihl
    obtain ⟨hnone, hdivides⟩ := ihl
    exact ⟨by rw [Expression.eval?, hnone]; rfl, hdivides⟩
  | none =>
    rw [hfirst] at ihl
    obtain ⟨a, t, ha, hp⟩ := ihl
    have hsp := hp.sp
    have ihr := ihr t (h.right hp)
    unfold Evaluates at ihr
    cases hfirst' : r.firstDivision? read with
    | some k =>
      rw [hfirst'] at ihr
      obtain ⟨hnone, hdivides⟩ := ihr
      refine ⟨by rw [Expression.eval?, ha, hnone]; rfl, ?_⟩
      exact hp.advances.dividesAt hp.cells (by omega) hdivides
    | none =>
      rw [hfirst'] at ihr
      obtain ⟨b, u, hb, hq⟩ := ihr
      have hboth := hp.both hq
      have hcode := h.code
      rw [Expression.code_binary] at hcode
      have hlast := hq.advances.atCode (hp.advances.atCode hcode)
      have hroom := h.room
      have hdepth := r.one_le_depth
      rw [Expression.depth] at hroom
      have heval : (Expression.binary o l r).eval? read = o.eval? a b := by
        rw [Expression.eval?, ha, hb]
        rfl
      -- both operands have values, so the node itself is the first division by zero or there is none
      rw [Expression.dividesByZero_binary (a := a) hb, heval]
      cases hv : o.eval? a b with
      | none => exact ⟨rfl, hboth.dividesAt hlast h.low (by omega) hv⟩
      | some v =>
        obtain ⟨w, hw⟩ := hboth.pushes hlast h.low (by omega) hv
        refine ⟨v, w, rfl, ?_⟩
        rw [Expression.code_binary, List.length_append, List.length_append, ← Nat.add_assoc]
        exact hw

/-- The code of an expression is evaluated wherever a session is ready for it. -/
theorem ReadyFor.evaluates (e : Expression) : ∀ {s : Session σ}, s.ReadyFor read top e → s.Evaluates read e := by
  induction e with
  | const v => exact evaluates_const
  | cell a => exact evaluates_cell
  | unary o e ih => exact fun h => evaluates_unary h (ih h.operand)
  | binary o l r ihl ihr => exact fun h => evaluates_binary h (ihl h.left) fun t ht => ihr ht

end Evaluation

end Session

/-- The code of an expression evaluates it. Let a session be about to execute the code, anywhere in a program,
with the cells that the expression reads on its stack, room for the values in between, enough budget and no
stop. If there is no division by zero in the expression, the run comes to the instruction behind the code
with the value of the expression on top of the stack, nothing printed and nothing changed below. Otherwise
it ends with that fault at the first division by zero in postfix order, with nothing changed below. -/
theorem expression_code_evaluates {σ : Type} [Device σ] (e : Expression) {s : Session σ}
    (hcode : s.AtCode e.code) (hlow : -1 ≤ s.machine.sp)
    (hroom : s.machine.sp + e.depth < s.machine.memory.capacity) (hcells : e.Within s.machine.sp) :
    (e.firstDivision? s.machine.memory.get = none →
      ∃ v t, e.eval? s.machine.memory.get = some v ∧ s.Pushes e.code.length v t) ∧
    ∀ k, e.firstDivision? s.machine.memory.get = some k →
      e.eval? s.machine.memory.get = none ∧ s.DividesAt k := by
  have hready : s.ReadyFor s.machine.memory.get s.machine.sp e :=
    ⟨hcode, hlow, Int.le_refl _, hroom, hcells, fun _ _ _ => rfl⟩
  have hevaluates := hready.evaluates
  unfold Session.Evaluates at hevaluates
  refine ⟨fun hnone => ?_, fun k hsome => ?_⟩
  · rwa [hnone] at hevaluates
  · rwa [hsome] at hevaluates

/-- The quotient of two cells less 5, and a quotient of them whose divisor comes out as 0. -/
def quotients : Program where
  instructions := [⟨"", "LDC", "7", ""⟩, ⟨"", "LDC", "2", ""⟩,
    ⟨"", "LDV", "0", ""⟩, ⟨"", "LDV", "1", ""⟩, ⟨"", "DIVI", "", ""⟩, ⟨"", "LDC", "5", ""⟩, ⟨"", "INV", "", ""⟩,
    ⟨"", "ADD", "", ""⟩,
    ⟨"", "LDV", "0", ""⟩, ⟨"", "LDV", "1", ""⟩, ⟨"", "LDC", "2", ""⟩, ⟨"", "SUB", "", ""⟩, ⟨"", "DIVI", "", ""⟩]

theorem expression_code_evaluates_quotients :
    let s := ((Session.create { memory := 6 } quotients ({} : Scripted)).run 3).2
    let t := (s.run 6).2
    let e : Expression := .binary .add (.binary .divi (.cell 0) (.cell 1)) (.unary .inv (.const 5))
    let e' : Expression := .binary .divi (.cell 0) (.binary .sub (.cell 1) (.const 2))
    (s.AtCode e.code ∧ ∃ u, s.Pushes e.code.length (-2) u) ∧ t.AtCode e'.code ∧ t.DividesAt 4 := by
  intro s t e e'
  have hlimit : s.settings.stepLimit = none := by decide +kernel
  have hlimit' : t.settings.stepLimit = none := by decide +kernel
  have hcode : s.AtCode e.code :=
    ⟨by decide +kernel, by decide +kernel, by decide +kernel, by simp [hlimit], by decide +kernel⟩
  have hcode' : t.AtCode e'.code :=
    ⟨by decide +kernel, by decide +kernel, by decide +kernel, by simp [hlimit'], by decide +kernel⟩
  have hvalue : e.eval? s.machine.memory.get = some (-2) := by decide +kernel
  constructor
  · obtain ⟨hpushes, -⟩ := expression_code_evaluates e hcode (by decide +kernel) (by decide +kernel)
      (by decide +kernel)
    obtain ⟨v, u, hv, hu⟩ := hpushes (by decide +kernel)
    cases hvalue.symm.trans hv
    exact ⟨hcode, u, hu⟩
  · obtain ⟨-, hdivides⟩ := expression_code_evaluates e' hcode' (by decide +kernel) (by decide +kernel)
      (by decide +kernel)
    exact ⟨hcode', (hdivides 4 (by decide +kernel)).2⟩

end StackMachine
