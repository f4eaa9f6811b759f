/-
The balance of the stack: the stack pointer is what the instructions executed so far make of it, whatever
values they worked on and whichever way the run went. Each operation moves it by a fixed distance
(`Operation.effect`), which is what its accesses come to (`Operation.foldl_accesses`).

`Session.executed` is the sequence of instructions that a run has completed. Every tick keeps the balance
(`Session.Balanced.tick`), so every run does, and the trace shows it entry by entry (`Tally`).
-/
import StackMachine.Proofs.Bounds
import StackMachine.Proofs.Nesting
import StackMachine.Proofs.Tracing

namespace StackMachine

/-! ## Effects -/

/-- The stack pointer after an access. -/
def Access.move (sp : Int) : Access → Int
  | .pop _ => sp - 1
  | .push _ => sp + 1
  | .read _ | .write _ => sp

theorem Machine.Uses.sp {m m' : Machine} {as : List Access} (h : m.Uses as m') :
    m'.sp = as.foldl Access.move m.sp := by
  induction h with
  | done _ hsp => exact hsp
  | pop _ _ ih => exact ih
  | push _ _ _ ih => exact ih
  | read _ _ ih => exact ih
  | write _ _ _ ih => exact ih

namespace Operation

/-- How far an operation moves the stack pointer. -/
def effect : Operation → Int
  | .ldc _ | .ldv _ | .rd | .call _ => 1
  | .binary _ | .str _ | .prn | .ret | .jmpf _ => -1
  | .unary _ | .jmp _ | .nop | .hlt => 0
  | .alloc _ count => max count.toInt 0
  | .dalloc _ count => -max count.toInt 0

theorem foldl_pushCellsAccesses (base : Word) (n : Nat) :
    ∀ (i : Nat) (sp x : Int), (pushCellsAccesses base i sp n).foldl Access.move x = x + n := by
  induction n with
  | zero => exact fun _ _ x => (Int.add_zero x).symm
  | succ n ih =>
    intro i sp x
    simp only [pushCellsAccesses, List.foldl_cons, Access.move, ih]
    omega

theorem foldl_popCellsAccesses (base : Word) (n : Nat) :
    ∀ sp x : Int, (popCellsAccesses base sp n).foldl Access.move x = x - n := by
  induction n with
  | zero => exact fun _ x => (Int.sub_zero x).symm
  | succ n ih =>
    intro sp x
    simp only [popCellsAccesses, List.foldl_cons, Access.move, ih]
    omega

/-- The effect of an operation is that of its accesses. -/
theorem foldl_accesses (op : Operation) (sp : Int) :
    (op.accesses sp).foldl Access.move sp = sp + op.effect := by
  cases op with
  | alloc base count =>
    rw [accesses, foldl_pushCellsAccesses, effect]
    omega
  | dalloc base count =>
    rw [accesses, foldl_popCellsAccesses, effect]
    omega
  | _ => simp only [accesses, effect, List.foldl_cons, List.foldl_nil, Access.move] <;> omega

/-- An operation that comes to its end has moved the stack pointer by its effect. -/
theorem execute_effect {labels : Labels} {op : Operation} {m m' : Machine} {d : Demand}
    (h : op.execute labels m = .ok d m') (hd : d ≠ .input) : m'.sp = m.sp + op.effect := by
  rw [(execute_uses h hd).sp, foldl_accesses]

end Operation

/-- The stack pointer after these operations, begun with an empty stack. -/
def spAfter (ops : List Operation) : Int := ops.foldl (fun sp op => sp + op.effect) (-1)

theorem spAfter_concat (ops : List Operation) (op : Operation) :
    spAfter (ops ++ [op]) = spAfter ops + op.effect := by
  rw [spAfter, List.foldl_append]
  rfl

/-- The stack pointer stays within a memory of this size all the way through these operations. -/
def StaysWithin (memory : Nat) (ops : List Operation) : Prop :=
  ∀ k, -1 ≤ spAfter (ops.take k) ∧ spAfter (ops.take k) ≤ memory - 1

theorem staysWithin_concat {memory : Nat} {ops : List Operation} {op : Operation} (h : StaysWithin memory ops)
    (hlow : -1 ≤ spAfter (ops ++ [op])) (hhigh : spAfter (ops ++ [op]) < memory) :
    StaysWithin memory (ops ++ [op]) := by
  intro k
  by_cases hk : k ≤ ops.length
  · rw [List.take_append_of_le_length hk]
    exact h k
  · rw [List.take_of_length_le (by simp; omega)]
    omega

/-! ## Tallies -/

/-- The stack pointer before the entry with this index. -/
def spBefore (entries : Array TraceEntry) : Nat → Int
  | 0 => -1
  | k + 1 => (entries[k]?.map TraceEntry.sp).getD (-1)

/-- The entries are those of these operations, and each one shows the stack pointer of the one before it,
moved by the effect of its operation. -/
structure Tally (entries : Array TraceEntry) (ops : List Operation) : Prop where
  operations : entries.toList.map TraceEntry.operation = ops
  moves : ∀ k e, entries[k]? = some e → e.sp = spBefore entries k + e.operation.effect

theorem tally_nil : Tally #[] [] := ⟨rfl, by simp⟩

theorem spBefore_push {entries : Array TraceEntry} {k : Nat} (hk : k ≤ entries.size) (e : TraceEntry) :
    spBefore (entries.push e) k = spBefore entries k := by
  cases k with
  | zero => rfl
  | succ k => rw [spBefore, spBefore, Array.getElem?_push_lt hk, Array.getElem?_eq_getElem hk]

/-- A tally sums up to the stack pointer after its operations. -/
theorem Tally.spBefore_eq {entries : Array TraceEntry} {ops : List Operation} (h : Tally entries ops) :
    ∀ k ≤ entries.size, spBefore entries k = spAfter (ops.take k) := by
  intro k
  induction k with
  | zero => exact fun _ => rfl
  | succ k ih =>
    intro hk
    obtain ⟨e, he⟩ : ∃ e, entries[k]? = some e := ⟨_, Array.getElem?_eq_getElem hk⟩
    have hop : ops[k]? = some e.operation := by
      rw [← h.operations, List.getElem?_map, Array.getElem?_toList, he]
      rfl
    rw [List.take_add_one, hop, Option.toList_some, spAfter_concat, ← ih (by omega), ← h.moves k e he, spBefore, he]
    rfl

theorem Tally.push {entries : Array TraceEntry} {ops : List Operation} {e : TraceEntry}
    (h : Tally entries ops) (hsp : e.sp = spAfter ops + e.operation.effect) :
    Tally (entries.push e) (ops ++ [e.operation]) := by
  constructor
  · rw [Array.toList_push, List.map_append, h.operations]
    rfl
  · intro k e' hk
    have hlt : k < (entries.push e).size := (Array.getElem?_eq_some_iff.1 hk).1
    rw [Array.size_push] at hlt
    rw [spBefore_push (Nat.le_of_lt_succ hlt)]
    rcases Nat.lt_or_eq_of_le (Nat.le_of_lt_succ hlt) with hlt | rfl
    · rw [Array.getElem?_push_lt hlt, ← Array.getElem?_eq_getElem hlt] at hk
      exact h.moves k e' hk
    · rw [Array.getElem?_push_size] at hk
      cases hk
      have hsize : entries.size = ops.length := by rw [← h.operations]; simp
      rw [h.spBefore_eq _ (Nat.le_refl _), hsize, List.take_length, hsp]

/-! ## Runs -/

namespace Session

variable {σ : Type}

section Executed

variable [Device σ]

/-- The instruction that the next tick completes. An `RD` is completed when its answer has come. -/
def completed? (s : Session σ) : Option Operation :=
  match s.phase, s.tick.2.phase with
  | .running, .running | .reading, .running => s.inHand?
  | _, _ => none

/-- The instructions that a run completes while these things happen outside, the first one first. -/
def executed : List (Incident σ) → Session σ → List Operation
  | [], _ => []
  | i :: is, s =>
    (s.meet i).completed?.toList ++
      match (s.meet i).tick with
      | (.ended _, _) => []
      | (_, t) => executed is t

theorem executed_cons_ended {s t : Session σ} {i : Incident σ} {o : Outcome}
    (h : (s.meet i).tick = (.ended o, t)) (is : List (Incident σ)) :
    s.executed (i :: is) = (s.meet i).completed?.toList := by
  rw [executed, h]
  exact List.append_nil _

theorem executed_cons {s : Session σ} {i : Incident σ} (h : ∀ o, (s.meet i).tick.1 ≠ .ended o)
    (is : List (Incident σ)) :
    s.executed (i :: is) = (s.meet i).completed?.toList ++ (s.meet i).tick.2.executed is := by
  rw [executed]
  rcases ht : (s.meet i).tick with ⟨r, t⟩
  rw [ht] at h
  cases r with
  | ended o => exact absurd rfl (h o)
  | waiting => rfl
  | running => rfl

end Executed

/-- The session has completed these instructions and nothing else, apart from the `RD` that it is in. -/
structure Balanced (ops : List Operation) (s : Session σ) : Prop where
  sp : s.machine.sp = spAfter ops
  within : StaysWithin s.settings.memory ops
  count : ops.length + (if s.phase = .reading then 1 else 0) = s.machine.steps
  tally : s.settings.trace = true → Tally s.machine.trace ops

end Session

/-- The outcome is that of a run that has completed these instructions and nothing else. A run that a raised
fault has ended has begun one more. -/
structure Outcome.Balanced (settings : Settings) (ops : List Operation) (o : Outcome) : Prop where
  sp : o.ending.isRaised = false → o.sp = spAfter ops
  within : StaysWithin settings.memory ops
  count : ops.length + (if o.ending.isRaised then 1 else 0) = o.steps
  tally : settings.trace = true → Tally o.trace ops

namespace Session

variable {σ : Type} {settings : Settings} {program : Program} {s : Session σ} {ops : List Operation}

/-- An instruction that is over adds its effect to the balance. -/
theorem balanced_retire (pc : Int) {op : Operation} (h : StaysWithin s.settings.memory ops)
    (hcount : ops.length + 1 = s.machine.steps) (htally : s.settings.trace = true → Tally s.machine.trace ops)
    (hsp : s.machine.sp = spAfter ops + op.effect) (hbounded : s.machine.Bounded s.settings) :
    (s.retire pc op).2.Balanced (ops ++ [op]) := by
  rw [retire_eq]
  have hafter : s.machine.sp = spAfter (ops ++ [op]) := by rw [spAfter_concat, hsp]
  refine ⟨hafter, ?_, ?_, fun hon => ?_⟩
  · apply staysWithin_concat h
    · rw [← hafter]
      exact hbounded.sp_low
    · rw [← hafter]
      exact hbounded.sp_high
  · rw [List.length_append]
    exact hcount
  · have hon : s.settings.trace = true := hon
    show Tally (s.recorded pc op).trace _
    rw [recorded, if_pos hon]
    exact Tally.push (e := s.machine.entry pc op) (htally hon) hsp

theorem Balanced.meet (h : s.Balanced ops) (i : Incident σ) : (s.meet i).Balanced ops :=
  ⟨h.sp, h.within, h.count, h.tally⟩

/-- An operation that is done has been counted and has moved the stack pointer by its effect. -/
theorem Balanced.begun (h : s.Valid settings program) (hbal : s.Balanced ops) {op : Operation}
    (hb : s.Begins op) {d : Demand} {m : Machine} (hd : d ≠ .input)
    (he : op.execute s.image.labels s.machine.counted = .ok d m) :
    ops.length + 1 = m.steps ∧ (s.settings.trace = true → Tally m.trace ops) ∧
      m.sp = spAfter ops + op.effect ∧ m.Bounded s.settings := by
  obtain ⟨hsteps, htrace⟩ := h.execute_counts hb he
  have hcount := hbal.count
  rw [hb.running] at hcount
  have hsp : m.sp = s.machine.sp + op.effect := Operation.execute_effect (m := s.machine.counted) he hd
  refine ⟨?_, ?_, ?_, ?_⟩
  · rw [hsteps]
    exact congrArg (· + 1) hcount
  · rw [htrace]
    exact hbal.tally
  · rw [hsp, hbal.sp]
  · rw [h.settings_eq]
    exact (h.counted hb).midway (h.execute_ok hb he).1

variable [Device σ]

theorem completed?_begun {op : Operation} (hb : s.Begins op) (h : s.tick.2.phase = .running) :
    s.completed? = some op := by
  simp only [completed?, hb.running, h, inHand?, hb.fetched]

/-- A tick that leaves the loop, or that leaves an `RD` waiting for its answer, completes nothing. -/
theorem completed?_eq_none (h : s.tick.2.phase ≠ .running) : s.completed? = none := by
  unfold completed?
  split
  · rename_i hp
    exact absurd hp h
  · rename_i hp
    exact absurd hp h
  · rfl

/-- A tick that does not end the run adds what it completes to the balance. -/
theorem Balanced.tick (h : s.Valid settings program) (hbal : s.Balanced ops)
    (hlive : ∀ o, s.tick.1 ≠ .ended o) : s.tick.2.Balanced (ops ++ s.completed?.toList) := by
  have ht := s.tick_ticks
  generalize hr : s.tick = r at ht hlive
  cases ht with
  | refuse | finish | fail | refused | overflow => exact absurd rfl (hlive _)
  | start hp =>
    have hnone : s.completed? = none := by simp only [completed?, hp]
    have hcount := hbal.count
    rw [hp] at hcount
    rw [hnone, Option.toList_none, List.append_nil]
    exact ⟨hbal.sp, hbal.within, hcount, hbal.tally⟩
  | @work op m hb he =>
    obtain ⟨hcount, htally, hsp, hbounded⟩ := hbal.begun h hb (by simp) he
    rw [completed?_begun hb (by rw [hr, retire_eq])]
    exact balanced_retire (s := { s with machine := m }) _ hbal.within hcount htally hsp hbounded
  | @print op v m hb he =>
    obtain ⟨hcount, htally, hsp, hbounded⟩ := hbal.begun h hb (by simp) he
    rw [completed?_begun hb (by rw [hr, retire_eq])]
    exact balanced_retire (s := { s with machine := m }.shown v) _ hbal.within hcount htally hsp hbounded
  | @read op m hb he =>
    -- the `RD` is counted, and is completed when its answer has come
    have hcount := hbal.count
    rw [hb.running] at hcount
    rw [completed?_eq_none (by rw [hr]; exact nofun), Option.toList_none, List.append_nil,
      (h.execute_ok hb he).2.reads_only rfl]
    exact ⟨hbal.sp, hbal.within, congrArg (· + 1) hcount, hbal.tally⟩
  | pending hp | waiting hp =>
    have hphase : s.asked.phase ≠ .running := by
      show s.phase ≠ .running
      rw [hp]
      exact nofun
    rw [completed?_eq_none (by rw [hr]; exact hphase), Option.toList_none, List.append_nil]
    exact ⟨hbal.sp, hbal.within, hbal.count, hbal.tally⟩
  | @answer v hp ha hroom =>
    have hsome : s.completed? = some .rd := by
      simp only [completed?, hp, hr, retire_eq, inHand?, h.reading hp]
    have hcount := hbal.count
    rw [hp] at hcount
    have hlow := h.bounded.sp_low
    have hhigh := hroom.2
    rw [hsome, Option.toList_some]
    refine balanced_retire (s := { s.asked with machine := _ }) _ hbal.within hcount hbal.tally ?_ ?_
    · show s.machine.sp + 1 = _
      rw [hbal.sp]
      rfl
    · show Machine.Bounded s.settings _
      rw [h.settings_eq]
      rw [h.bounded.capacity] at hhigh
      exact ⟨(Memory.capacity_set _ _ _).trans h.bounded.capacity, by simp only; omega, hhigh, h.bounded.steps⟩

/-- A tick that ends the run completes nothing, and the outcome shows the balance. -/
theorem Balanced.ended (h : s.Valid settings program) (hbal : s.Balanced ops) (hp : s.phase ≠ .halted)
    {o : Outcome} {t : Session σ} (ho : s.tick = (.ended o, t)) :
    s.completed? = none ∧ o.Balanced settings ops := by
  have ht := s.tick_ticks
  rw [ho] at ht
  have hhalted : s.tick.2.phase = .halted := by
    rw [ho]
    exact (ht.halted hp).phase
  refine ⟨completed?_eq_none (by rw [hhalted]; exact nofun), ?_⟩
  obtain ⟨hsp, hwithin, hcount, htally⟩ := hbal
  rw [h.settings_eq] at hwithin htally
  generalize hr : ((.ended o, t) : Progress × Session σ) = r at ht
  cases ht with
  | refuse hh => exact absurd hh hp
  | @finish e hrunning he =>
    cases hr
    rw [hrunning] at hcount
    refine ⟨fun _ => hsp, hwithin, ?_, htally⟩
    show ops.length + (if e.isRaised then 1 else 0) = s.machine.steps
    rw [he.not_raised]
    exact hcount
  | @fail op f m hb he =>
    cases hr
    obtain ⟨hmidway, -, hraises⟩ := h.execute_error hb he
    have htrace : m.trace = s.machine.trace := hmidway.trace
    have hsteps : m.steps = s.machine.steps + 1 := hmidway.steps
    have hraised : (Ending.fault f).isRaised = true := hraises.isRaised
    rw [hb.running] at hcount
    refine ⟨fun hquiet => ?_, hwithin, ?_, ?_⟩
    · exact absurd (hraised.symm.trans hquiet) (by simp)
    · show ops.length + (if (Ending.fault f).isRaised then 1 else 0) = m.steps
      rw [hraised, hsteps]
      exact congrArg (· + 1) hcount
    · show settings.trace = true → Tally m.trace ops
      rw [htrace]
      exact htally
  | @refused e hreading ha =>
    cases hr
    rw [hreading] at hcount
    refine ⟨fun _ => hsp, hwithin, ?_, htally⟩
    cases e <;> exact hcount
  | overflow hreading ha hout =>
    cases hr
    rw [hreading] at hcount
    exact ⟨fun _ => hsp, hwithin, hcount, htally⟩
  | work | print | answer => rw [retire_eq] at hr; cases hr
  | _ => cases hr

/-- A run adds all that it completes to the balance. -/
theorem Balanced.runAmid : ∀ (is : List (Incident σ)) {s : Session σ} {ops : List Operation},
    s.Valid settings program → s.Balanced ops → s.phase ≠ .halted →
      ((s.runAmid is).1 = .running → (s.runAmid is).2.Balanced (ops ++ s.executed is)) ∧
        ∀ o, (s.runAmid is).1 = .ended o → o.Balanced settings (ops ++ s.executed is)
  | [], s, ops, _, hbal, _ => by
    rw [executed, List.append_nil]
    exact ⟨fun _ => hbal, fun o ho => nomatch ho⟩
  | i :: is, s, ops, h, hbal, hp => by
    have hvalid : (s.meet i).Valid settings program := h.outside _ _
    have hmeet := hbal.meet i
    by_cases he : ∃ o, (s.meet i).tick.1 = .ended o
    · obtain ⟨o, he⟩ := he
      have htick : (s.meet i).tick = (.ended o, (s.meet i).tick.2) := Prod.ext he rfl
      obtain ⟨hnone, hended⟩ := hmeet.ended hvalid hp htick
      rw [runAmid_cons_ended htick, executed_cons_ended htick, hnone, Option.toList_none, List.append_nil]
      constructor
      · rintro ⟨⟩
      · rintro o' ⟨⟩
        exact hended
    · have hlive : ∀ o, (s.meet i).tick.1 ≠ .ended o := fun o ho => he ⟨o, ho⟩
      rw [runAmid_cons hlive, executed_cons hlive, ← List.append_assoc]
      exact Balanced.runAmid is ((s.meet i).tick_ticks.valid hvalid) (hmeet.tick hvalid hlive)
        ((s.meet i).tick_ticks.live hlive)

theorem balanced_ready (h : s.Reachable settings program) (hp : s.phase = .ready) : s.Balanced [] := by
  have hfresh := h.fresh hp
  refine ⟨?_, fun k => ?_, ?_, fun _ => ?_⟩
  · rw [hfresh]
    rfl
  · rw [List.take_nil]
    show (-1 : Int) ≤ -1 ∧ (-1 : Int) ≤ s.settings.memory - 1
    omega
  · rw [hp, hfresh]
    rfl
  · rw [hfresh]
    exact tally_nil

end Session

/-- The stack pointer depends only on which instructions have been executed. Whatever the program, the settings
and the device, and whatever happens meanwhile, a run from the ready state has the stack pointer -1 moved by
the effects of the instructions that it has completed: an `RD` in hand, or the instruction that has failed,
is counted among the steps and not among these. All the way the stack pointer stays between -1 and the last
cell. A trace has these instructions in this order, and each entry shows the stack pointer of the entry
before it, -1 at the start, moved by the effect of its operation. -/
theorem sp_counts_executed {σ : Type} [Device σ] {settings : Settings} {program : Program} {s : Session σ}
    (hs : s.Reachable settings program) (hready : s.phase = .ready) (is : List (Incident σ)) :
    ((s.runAmid is).1 = .running → (s.runAmid is).2.Balanced (s.executed is)) ∧
      ∀ o, (s.runAmid is).1 = .ended o → o.Balanced settings (s.executed is) :=
  Session.Balanced.runAmid is hs.valid (Session.balanced_ready hs hready) (by rw [hready]; exact nofun)

/-- Does not jump, saves less than nothing, and saves two cells and takes them back. -/
def detouring : Program where
  instructions := [⟨"", "LDC", "1", ""⟩, ⟨"", "JMPF", "L", ""⟩, ⟨"", "ALLOC", "0", "-3"⟩, ⟨"", "RD", "", ""⟩,
    ⟨"", "ALLOC", "0", "2"⟩, ⟨"", "DALLOC", "1", "2"⟩, ⟨"L", "PRN", "", ""⟩]

theorem sp_counts_executed_detouring :
    let s := Session.create { memory := 3, trace := true } detouring ({ answers := ["7"] } : Scripted)
    let is := List.replicate 10 {}
    let o : Outcome := ⟨.endOfProgram, #[7], 7, 7, -1,
      #[⟨1, 0, .ldc 1, 0, none⟩, ⟨2, 1, .jmpf "L", -1, none⟩, ⟨3, 2, .alloc 0 (-3), -1, none⟩, ⟨4, 3, .rd, 0, none⟩,
        ⟨5, 4, .alloc 0 2, 2, none⟩, ⟨6, 5, .dalloc 1 2, 0, none⟩, ⟨7, 6, .prn, -1, some (.printed 7)⟩]⟩
    s.executed is = [.ldc 1, .jmpf "L", .alloc 0 (-3), .rd, .alloc 0 2, .dalloc 1 2, .prn] ∧
      (s.runAmid is).1 = .ended o ∧ o.Balanced { memory := 3, trace := true } (s.executed is) := by
  intro s is o
  have hrun : (s.runAmid is).1 = .ended o := by decide +kernel
  have hs : s.Reachable { memory := 3, trace := true } detouring := .create _
  exact ⟨by decide +kernel, hrun, (sp_counts_executed hs rfl is).2 o hrun⟩

end StackMachine
