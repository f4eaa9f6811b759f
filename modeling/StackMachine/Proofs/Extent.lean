/-
The extent of frames: which frames `ALLOC` and `DALLOC` can save and restore from where, and how long they
take to find out. Base and count may be any words, also negative ones and ones so large that their sum is
not a word.

The addresses of a frame are sums that are held at the largest word, and that is never the address of a
cell (`Memory.contains_clampAdd`). So an operation succeeds exactly if the frame lies in memory and the stack
has the room or the values (`Memory.contains_run`). Either operation is a loop over the cells of the frame,
and each round of it that succeeds brings the stack nearer to its end (`Exec.rounds_le`), so that the loop
is short even where the count is not.
-/
import StackMachine.Proofs.Copying

namespace StackMachine

/-- Consecutive addresses all name cells exactly if they begin and end in memory. -/
theorem Memory.contains_run {m : Memory} {a : Int} {n : Nat} (hn : 0 < n) :
    (∀ j < n, m.Contains (a + j)) ↔ 0 ≤ a ∧ a + n ≤ m.capacity := by
  constructor
  · intro h
    have hfirst := (h 0 hn).1
    have hlast := (h (n - 1) (by omega)).2
    constructor <;> omega
  · rintro ⟨hlow, hhigh⟩ j hj
    constructor <;> omega

/-! ## Loops -/

namespace Exec

/-- The number of rounds that a loop begins. A round that fails is the last one. -/
def rounds (body : Nat → Exec Unit) : List Nat → Machine → Nat
  | [], _ => 0
  | i :: is, m =>
    match body i m with
    | .ok _ m' => rounds body is m' + 1
    | .error _ _ => 1

/-- A loop whose rounds lower a measure if they succeed begins at most one round more than the measure. -/
theorem rounds_le {body : Nat → Exec Unit} (measure : Machine → Nat)
    (h : ∀ i m m', body i m = .ok () m' → measure m' < measure m) (is : List Nat) (m : Machine) :
    rounds body is m ≤ measure m + 1 := by
  induction is generalizing m with
  | nil => exact Nat.zero_le _
  | cons i is ih =>
    rw [rounds]
    cases hround : body i m with
    | ok _ m' =>
      have hlower := h i m m' hround
      have hrest := ih m'
      simp only
      omega
    | error _ _ => exact Nat.le_add_left 1 _

/-- A loop that is cut off behind the rounds it begins is the same loop. -/
theorem forM_take {body : Nat → Exec Unit} {is : List Nat} {m : Machine} {k : Nat}
    (h : rounds body is m ≤ k) : forM (is.take k) body m = forM is body m := by
  induction is generalizing m k with
  | nil => rw [List.take_nil]
  | cons i is ih =>
    rw [rounds] at h
    cases k with
    | zero =>
      -- at least one round is begun
      split at h <;> cases h
    | succ k =>
      simp only [List.take_succ_cons, List.forM_cons, bind, EStateM.bind]
      cases hround : body i m with
      | ok _ m' =>
        rw [hround] at h
        exact ih (Nat.le_of_succ_le_succ h)
      | error f m' => rfl

/-- Pushes the value of the cell `base + i`. -/
def pushRound (base : Word) (i : Nat) : Exec Unit := do
  push (← load (Word.clampAdd base.toInt i))

/-- Pops into the cell `base + i`. -/
def popRound (base : Word) (i : Nat) : Exec Unit := do
  let v ← pop
  store (Word.clampAdd base.toInt i) v

theorem pushCells_eq_forM (base : Word) (n : Nat) :
    ∀ i, pushCells base i n = forM (List.range' i n) (pushRound base) := by
  induction n with
  | zero => exact fun _ => rfl
  | succ n ih =>
    intro i
    rw [pushCells, List.range'_succ, List.forM_cons, ih, pushRound, bind_assoc]

theorem popCells_eq_forM (base : Word) (n : Nat) :
    popCells base n = forM (List.range n).reverse (popRound base) := by
  induction n with
  | zero => rfl
  | succ n ih =>
    rw [popCells, List.range_succ, List.reverse_append, List.reverse_singleton, List.singleton_append,
      List.forM_cons, ih, popRound, bind_assoc]

/-- A cell that is pushed uses up one of the cells above the stack. -/
theorem rounds_pushRound_le (base : Word) (is : List Nat) (m : Machine) :
    rounds (pushRound base) is m ≤ (m.memory.capacity - (m.sp + 1)).toNat + 1 := by
  refine rounds_le (fun m => (m.memory.capacity - (m.sp + 1)).toNat) (fun i m m' h => ?_) is m
  simp only [pushRound, bind_eq_ok, load_eq_ok, push_eq_ok] at h
  obtain ⟨v, _, ⟨-, -, rfl⟩, ⟨-, hroom⟩, rfl⟩ := h
  simp only [Memory.capacity_set]
  omega

/-- A value that is popped leaves one less on the stack. -/
theorem rounds_popRound_le (base : Word) (is : List Nat) (m : Machine) :
    rounds (popRound base) is m ≤ (m.sp + 1).toNat + 1 := by
  refine rounds_le (fun m => (m.sp + 1).toNat) (fun i m m' h => ?_) is m
  simp only [popRound, bind_eq_ok, pop_eq_ok, store_eq_ok] at h
  obtain ⟨v, _, ⟨⟨hvalue, -⟩, -, rfl⟩, -, rfl⟩ := h
  simp only
  omega

end Exec

/-! ## The operations -/

namespace Operation

open Exec

/-- The operation succeeds exactly under this condition, and then moves the stack pointer by `distance`. It
fails only by using an address that names no cell. -/
structure Defined (labels : Labels) (op : Operation) (m : Machine) (condition : Prop) (distance : Int) :
    Prop where
  succeeds : (∃ m', op.execute labels m = .ok .nothing m') ↔ condition
  moves : ∀ d m', op.execute labels m = .ok d m' → d = .nothing ∧ m'.sp = m.sp + distance
  fails : ∀ f m', op.execute labels m = .error f m' →
    ∃ a, f = .outOfBounds a m.memory.capacity ∧ ¬m.memory.Contains a

/-- The operation is a loop over these numbers. From here it begins at most `k` rounds, and what it does is
done in these. -/
structure Loops (labels : Labels) (op : Operation) (body : Nat → Exec Unit) (is : List Nat) (m : Machine)
    (k : Nat) : Prop where
  loop : op.execute labels = do
    forM is body
    return .nothing
  rounds : rounds body is m ≤ k
  within : forM (is.take k) body m = forM is body m

/-- An operation that neither divides nor names a label fails only outside memory. -/
theorem fails_outside_only {labels : Labels} {op : Operation} {m m' : Machine} {f : Fault} (hlow : -1 ≤ m.sp)
    (hhigh : m.sp < m.memory.capacity) (hop : op ≠ .binary .divi) (hlabel : op.label? = none)
    (h : op.execute labels m = .error f m') :
    ∃ a, f = .outOfBounds a m.memory.capacity ∧ ¬m.memory.Contains a := by
  obtain ⟨-, -, hraises⟩ := execute_error hlow hhigh h
  cases hraises with
  | outside ha => exact ⟨_, rfl, ha⟩
  | division => exact absurd rfl hop
  | unresolved hl => rw [hlabel] at hl; cases hl

section Extent

variable {labels : Labels} {m : Machine} {base count : Word}

theorem execute_alloc_idle (labels : Labels) (m : Machine) (base : Word) (h : count.toInt ≤ 0) :
    (alloc base count).execute labels m = .ok .nothing m := by
  rw [execute, Int.toNat_of_nonpos h]
  rfl

theorem execute_dalloc_idle (labels : Labels) (m : Machine) (base : Word) (h : count.toInt ≤ 0) :
    (dalloc base count).execute labels m = .ok .nothing m := by
  rw [execute, Int.toNat_of_nonpos h]
  rfl

/-- A frame can be saved exactly if it lies in memory and there is room for it on the stack. -/
theorem defined_alloc (hwords : (m.memory.capacity : Int) ≤ Word.greatest) (hlow : -1 ≤ m.sp)
    (hhigh : m.sp < m.memory.capacity) (hcount : 0 < count.toInt) :
    (alloc base count).Defined labels m
      (0 ≤ base.toInt ∧ base.toInt + count.toInt ≤ m.memory.capacity ∧
        m.sp + count.toInt < m.memory.capacity) count.toInt := by
  have hn : 0 < count.toInt.toNat := by omega
  refine ⟨?_, fun d m' h => ?_, fun f m' => fails_outside_only hlow hhigh (by simp) rfl⟩
  · simp only [execute_alloc_eq_ok hwords, Memory.contains_run hn, true_and, exists_and_left, exists_eq,
      and_true]
    omega
  · obtain ⟨rfl, -, -, rfl⟩ := (execute_alloc_eq_ok hwords).1 h
    simp only [true_and]
    omega

/-- A frame can be restored exactly if it lies in memory and there are the values for it on the stack. -/
theorem defined_dalloc (hwords : (m.memory.capacity : Int) ≤ Word.greatest) (hlow : -1 ≤ m.sp)
    (hhigh : m.sp < m.memory.capacity) (hcount : 0 < count.toInt) :
    (dalloc base count).Defined labels m
      (0 ≤ base.toInt ∧ base.toInt + count.toInt ≤ m.memory.capacity ∧ count.toInt ≤ m.sp + 1)
      (-count.toInt) := by
  have hn : 0 < count.toInt.toNat := by omega
  -- the stack is in memory as a whole, so only its lower end can be missed
  have hvalues : (∀ j < count.toInt.toNat, m.memory.Contains (m.sp - j)) ↔ count.toInt ≤ m.sp + 1 := by
    constructor
    · intro h
      have hlast := (h (count.toInt.toNat - 1) (by omega)).1
      omega
    · intro h j hj
      constructor <;> omega
  refine ⟨?_, fun d m' h => ?_, fun f m' => fails_outside_only hlow hhigh (by simp) rfl⟩
  · simp only [execute_dalloc_eq_ok hwords, Memory.contains_run hn, hvalues, true_and, exists_and_left,
      exists_eq, and_true]
    omega
  · obtain ⟨rfl, -, -, rfl⟩ := (execute_dalloc_eq_ok hwords).1 h
    simp only [true_and]
    omega

theorem loops_alloc (hlow : -1 ≤ m.sp) :
    (alloc base count).Loops labels (pushRound base) (List.range count.toInt.toNat) m
      (m.memory.capacity + 1) := by
  have hrounds := rounds_pushRound_le base (List.range count.toInt.toNat) m
  have hle : rounds (pushRound base) (List.range count.toInt.toNat) m ≤ m.memory.capacity + 1 := by omega
  refine ⟨?_, hle, forM_take hle⟩
  rw [execute, pushCells_eq_forM, List.range_eq_range']

theorem loops_dalloc (hhigh : m.sp < m.memory.capacity) :
    (dalloc base count).Loops labels (popRound base) (List.range count.toInt.toNat).reverse m
      (m.memory.capacity + 1) := by
  have hrounds := rounds_popRound_le base (List.range count.toInt.toNat).reverse m
  have hle : rounds (popRound base) (List.range count.toInt.toNat).reverse m ≤ m.memory.capacity + 1 := by
    omega
  refine ⟨?_, hle, forM_take hle⟩
  rw [execute, popCells_eq_forM]

end Extent

end Operation

/-- Where all addresses are words, an address that was held at the largest word names no cell. -/
theorem Memory.not_contains_held {m : Memory} (hwords : (m.capacity : Int) ≤ Word.greatest) {a : Int} {i : Nat}
    (h : Word.clampAdd a i ≠ a + i) : ¬m.Contains (Word.clampAdd a i) :=
  fun hc => h (clampAdd_eq hwords ((contains_clampAdd hwords a i).1 hc))

/-- What `ALLOC` and `DALLOC` do with any base and any count, on every machine whose stack is in memory and
whose cells all have words for their addresses. A count that is not positive leaves the machine as it is.
With a positive one, `ALLOC` succeeds exactly if the frame lies in memory and the stack has room for it, and
`DALLOC` exactly if the frame lies in memory and the stack has the values for it; the stack pointer is then
moved by the count, and all failures are accesses outside memory. Neither begins more rounds than there are
cells and one more, however large the count is, and an address that is held at the largest word is never
taken for a cell. -/
theorem alloc_dalloc_exact_domain (labels : Labels) {m : Machine}
    (hwords : (m.memory.capacity : Int) ≤ Word.greatest) (hlow : -1 ≤ m.sp) (hhigh : m.sp < m.memory.capacity)
    (base count : Word) :
    (count.toInt ≤ 0 →
      (Operation.alloc base count).execute labels m = .ok .nothing m ∧
        (Operation.dalloc base count).execute labels m = .ok .nothing m) ∧
    (0 < count.toInt →
      (Operation.alloc base count).Defined labels m
        (0 ≤ base.toInt ∧ base.toInt + count.toInt ≤ m.memory.capacity ∧
          m.sp + count.toInt < m.memory.capacity) count.toInt ∧
      (Operation.dalloc base count).Defined labels m
        (0 ≤ base.toInt ∧ base.toInt + count.toInt ≤ m.memory.capacity ∧ count.toInt ≤ m.sp + 1)
        (-count.toInt)) ∧
    (Operation.alloc base count).Loops labels (Exec.pushRound base) (List.range count.toInt.toNat) m
      (m.memory.capacity + 1) ∧
    (Operation.dalloc base count).Loops labels (Exec.popRound base) (List.range count.toInt.toNat).reverse m
      (m.memory.capacity + 1) ∧
    ∀ i : Nat, Word.clampAdd base.toInt i ≠ base.toInt + i →
      ¬m.memory.Contains (Word.clampAdd base.toInt i) := by
  refine ⟨fun hcount => ?_, fun hcount => ?_, ?_, ?_, fun i => ?_⟩
  · exact ⟨Operation.execute_alloc_idle labels m base hcount, Operation.execute_dalloc_idle labels m base hcount⟩
  · exact ⟨Operation.defined_alloc hwords hlow hhigh hcount, Operation.defined_dalloc hwords hlow hhigh hcount⟩
  · exact Operation.loops_alloc hlow
  · exact Operation.loops_dalloc hhigh
  · exact Memory.not_contains_held hwords

/-- Two cells fit above a stack of one value and can be saved there. As many as there are words cannot, which
is found out in four rounds. -/
theorem alloc_dalloc_exact_domain_largest :
    let m : Machine := { memory := ⟨#[10, 11, 12]⟩, sp := 0 }
    (∃ m', (Operation.alloc 1 2).execute .empty m = .ok .nothing m') ∧
      (¬∃ m', (Operation.dalloc 1 2).execute .empty m = .ok .nothing m') ∧
      (¬∃ m', (Operation.alloc 1 9223372036854775807).execute .empty m = .ok .nothing m') ∧
      Exec.rounds (Exec.pushRound 1) (List.range (9223372036854775807 : Word).toInt.toNat) m ≤ 4 := by
  intro m
  have hwords : (m.memory.capacity : Int) ≤ Word.greatest := by decide
  have hlow : -1 ≤ m.sp := by decide
  have hhigh : m.sp < m.memory.capacity := by decide
  obtain ⟨-, htwo, -⟩ := alloc_dalloc_exact_domain .empty hwords hlow hhigh 1 2
  obtain ⟨-, hall, hloops, -⟩ := alloc_dalloc_exact_domain .empty hwords hlow hhigh 1 9223372036854775807
  obtain ⟨halloc, hdalloc⟩ := htwo (by decide)
  refine ⟨halloc.succeeds.2 (by decide), fun h => ?_, fun h => ?_, hloops.rounds⟩
  · exact absurd (hdalloc.succeeds.1 h) (by decide)
  · exact absurd ((hall (by decide)).1.succeeds.1 h) (by decide)

end StackMachine
