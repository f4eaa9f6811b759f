/-
Labels and jumps. The table of labels is made by declaring them one after another as the instructions
come, and what it says in the end is what a search from the front would find: the first `NULL` with the
label (`Program.labels_get?_eq_some`).

A jump sets the counter one before the place of its label, and the end of the instruction sets it right
(`Session.Begins.jumps`), also at place 0, where it has been -1 in between. So jumps stay inside the
program, and no other instruction but a `RETURN` goes further than to the one behind it
(`Session.Ticks.leaves`). `jumps_land_on_first_mark` is all of this together.
-/
import StackMachine.Proofs.Bounds
import StackMachine.Proofs.Nesting
import Mathlib.Order.Bounds.Basic

namespace StackMachine

/-! ## The table of labels -/

namespace Program

/-- The program with one instruction more, at its end. -/
def push (p : Program) (i : Instruction) : Program := { p with instructions := p.instructions ++ [i] }

/-- A label is declared when its instruction is added, at the place that the instruction gets. -/
theorem labels_push (p : Program) (i : Instruction) :
    (p.push i).labels =
      if i.opcode = Opcode.null.mnemonic then p.labels.declare i.label p.size else p.labels := by
  simp only [labels, push, Labels.ofInstructions, List.zipIdx_append, List.foldl_append, size]
  simp [Instruction.declaresLabel]

/-- The places that hold an instruction. -/
def Inside (p : Program) (pc : Int) : Prop := 0 ≤ pc ∧ pc < p.size

/-- The instruction at this place is a `NULL` with this label. -/
def Marks (p : Program) (name : String) (place : Nat) : Prop :=
  ∃ i, p.get? place = some i ∧ i.opcode = Opcode.null.mnemonic ∧ i.label = name

theorem marks_iff {p : Program} {name : String} {place : Nat} :
    p.Marks name place ↔
      ∃ h : place < p.instructions.length, p.instructions[place].declares name = true := by
  simp only [Marks, get?, List.getElem?_eq_some_iff, Instruction.declares_iff]
  constructor
  · rintro ⟨_, ⟨h, rfl⟩, hi⟩
    exact ⟨h, hi⟩
  · rintro ⟨h, hi⟩
    exact ⟨_, ⟨h, rfl⟩, hi⟩

/-- A label stands for the first place that is marked with it. -/
theorem labels_get?_eq_some {p : Program} {name : String} {place : Nat} :
    p.labels.get? name = some place ↔ IsLeast {k | p.Marks name k} place := by
  rw [labels_get?, List.findIdx?_eq_some_iff_getElem]
  constructor
  · rintro ⟨hlt, hd, hbefore⟩
    refine ⟨marks_iff.2 ⟨hlt, hd⟩, fun k hk => ?_⟩
    obtain ⟨hk, hdk⟩ := marks_iff.1 hk
    by_contra hlt'
    exact hbefore k (Nat.lt_of_not_le hlt') hdk
  · rintro ⟨hmark, hleast⟩
    obtain ⟨hlt, hd⟩ := marks_iff.1 hmark
    refine ⟨hlt, hd, fun k hk hdk => ?_⟩
    have := hleast (marks_iff.2 ⟨Nat.lt_trans hk hlt, hdk⟩)
    omega

/-- A label is unresolved exactly if no place is marked with it. -/
theorem resolve_eq_error {p : Program} {name : String} :
    p.labels.resolve name = .error (.unresolvedLabel name) ↔ ∀ k, ¬p.Marks name k := by
  unfold Labels.resolve
  cases hplace : p.labels.get? name with
  | some place =>
    have hmark := (labels_get?_eq_some.1 hplace).1
    constructor
    · intro h
      cases h
    · intro h
      exact absurd hmark (h place)
  | none =>
    rw [labels_get?, List.findIdx?_eq_none_iff] at hplace
    refine ⟨fun _ k hk => ?_, fun _ => rfl⟩
    obtain ⟨hlt, hd⟩ := marks_iff.1 hk
    rw [hplace _ (List.getElem_mem hlt)] at hd
    cases hd

/-- A marked place holds an instruction that does nothing. -/
theorem Marks.holds {p : Program} {name : String} {place : Nat} (h : p.Marks name place) :
    place < p.size ∧ p.Holds place .nop := by
  obtain ⟨i, hi, ho, -⟩ := h
  refine ⟨(List.getElem?_eq_some_iff.1 hi).1, i, ?_, ?_⟩
  · simp only [at?, Int.natCast_nonneg, if_true, Int.toNat_natCast, hi]
  · unfold Instruction.decode
    rw [ho, Opcode.ofMnemonic?_mnemonic]

end Program

/-! ## Instructions that name a label -/

/-- The opcodes whose first operand is a label. -/
def Opcode.labelled : List Opcode := [.call, .jmp, .jmpf]

namespace Instruction

/-- An instruction that has to name a label has an operation exactly if it names one. -/
theorem decode_labelled {i : Instruction} (ho : i.opcode ∈ Opcode.labelled.map Opcode.mnemonic) :
    (i.operand1 = "" → ∃ o, i.decode = .error (.invalidOperand o .label "")) ∧
      (i.operand1 ≠ "" → ∃ op, i.decode = .ok op ∧ op.label? = some i.operand1) := by
  have hdecode : ∀ o ∈ Opcode.labelled, o.mnemonic = i.opcode →
      ∃ f : String → Operation, (∀ l, (f l).label? = some l) ∧
        i.decode = (labelOperand o i.operand1 >>= fun l => pure (f l)) := by
    intro o hmem hm
    unfold decode
    rw [← hm, Opcode.ofMnemonic?_mnemonic]
    simp only [Opcode.labelled, List.mem_cons, List.not_mem_nil, or_false] at hmem
    rcases hmem with rfl | rfl | rfl
    · exact ⟨.call, fun _ => rfl, rfl⟩
    · exact ⟨.jmp, fun _ => rfl, rfl⟩
    · exact ⟨.jmpf, fun _ => rfl, rfl⟩
  obtain ⟨o, hmem, hm⟩ := List.mem_map.1 ho
  obtain ⟨f, hf, hd⟩ := hdecode o hmem hm
  refine ⟨fun he => ⟨o, ?_⟩, fun hne => ⟨f i.operand1, ?_, hf _⟩⟩
  · rw [hd, labelOperand, he]
    rfl
  · rw [hd, labelOperand, if_neg (by simpa using hne)]
    rfl

end Instruction

namespace Operation

open Exec

/-- The operation goes to its label if it is executed on this machine: a `CALL` finds a free cell for its
place, and a `JMPF` a zero. -/
def Jumps (m : Machine) : Operation → Prop
  | .call _ => m.memory.Contains (m.sp + 1)
  | .jmp _ => True
  | .jmpf _ => m.memory.Contains m.sp ∧ m.memory.get m.sp = 0
  | _ => False

variable {labels : Labels} {op : Operation} {l : String} {m m' : Machine}

/-- An operation that has come to its end had what it needed. -/
theorem jumps_of_ok {d : Demand} (hl : op.label? = some l)
    (hzero : op = .jmpf l → m.memory.get m.sp = 0) (h : op.execute labels m = .ok d m') : op.Jumps m := by
  cases op with
  | call => exact (execute_call h).2.1
  | jmp => trivial
  | jmpf =>
    cases hl
    simp only [execute, bind_eq_ok, pop_eq_ok] at h
    obtain ⟨v, _, ⟨hpop, -, -⟩, -⟩ := h
    exact ⟨hpop, hzero rfl⟩
  | _ => cases hl

/-- A jump leaves the counter one before its label. -/
theorem Jumps.execute_ok {place : Nat} (h : op.Jumps m) (hl : op.label? = some l)
    (hplace : labels.get? l = some place) :
    ∃ m', op.execute labels m = .ok .nothing m' ∧ m'.pc = (place : Int) - 1 := by
  have hresolve : ∀ m, Exec.resolve labels l m = .ok place m := fun m => resolve_eq_ok.2 ⟨hplace, rfl⟩
  cases op with
  | call =>
    cases hl
    refine ⟨{ m with
      memory := m.memory.set (m.sp + 1) (Int64.ofInt m.pc), sp := m.sp + 1, pc := (place : Int) - 1 }, ?_, rfl⟩
    simp only [execute, bind_eq_ok]
    exact ⟨place, m, hresolve m, m, m, rfl, (), _, push_eq_ok.2 ⟨h, rfl⟩, (), _, rfl, rfl⟩
  | jmp =>
    cases hl
    refine ⟨{ m with pc := (place : Int) - 1 }, ?_, rfl⟩
    simp only [execute, bind_eq_ok]
    exact ⟨place, m, hresolve m, (), _, rfl, rfl⟩
  | jmpf =>
    cases hl
    refine ⟨{ m with sp := m.sp - 1, pc := (place : Int) - 1 }, ?_, rfl⟩
    simp only [execute, bind_eq_ok]
    refine ⟨0, _, pop_eq_ok.2 ⟨h.1, h.2.symm, rfl⟩, ?_⟩
    simp only [if_true, bind_eq_ok]
    exact ⟨place, _, hresolve _, (), _, rfl, rfl⟩
  | _ => cases hl

/-- A jump to a label that no place is marked with fails. -/
theorem Jumps.execute_error (h : op.Jumps m) (hl : op.label? = some l) (hplace : labels.get? l = none) :
    ∃ m', op.execute labels m = .error (.unresolvedLabel l) m' := by
  have hresolve : ∀ m, Exec.resolve labels l m = .error (.unresolvedLabel l) m := by
    intro m
    simp only [Exec.resolve, Labels.resolve, hplace]
    rfl
  cases op with
  | call | jmp =>
    cases hl
    simp only [execute, bind, EStateM.bind, hresolve]
    exact ⟨m, rfl⟩
  | jmpf =>
    cases hl
    simp only [execute, bind, EStateM.bind, Exec.pop, if_pos h.1, h.2, if_true, hresolve]
    exact ⟨_, rfl⟩
  | _ => cases hl

end Operation

/-! ## Jumps in a run -/

namespace Session

variable {σ : Type} [Device σ] {settings : Settings} {program : Program} {s : Session σ}

/-- A tick at the top of the loop that does not end the run begins an instruction. -/
theorem begins_of_running (hp : s.phase = .running) (h : s.tick.1 = .running) : ∃ op, s.Begins op := by
  have ht := s.tick_ticks
  generalize s.tick = r at ht h
  cases ht with
  | start h' | refuse h' | pending h' | waiting h' | refused h' | overflow h' | answer h' =>
    rw [hp] at h'
    cases h'
  | finish | fail => cases h
  | work hb | print hb | read hb => exact ⟨_, hb⟩

/-- A jump that is executed goes on at its label, or ends the run if there is none. -/
theorem Begins.jumps {op : Operation} {l : String} (hb : s.Begins op) (hl : op.label? = some l)
    (hj : op.Jumps s.machine) :
    (∀ place, s.image.labels.get? l = some place →
      s.tick.1 = .running ∧ s.tick.2.machine.pc = Word.clampAdd ((place : Int) - 1) 1) ∧
    (s.image.labels.get? l = none →
      ∃ o, s.tick.1 = .ended o ∧ o.ending = .fault (.unresolvedLabel l)) := by
  have hj : op.Jumps s.machine.counted := by cases op <;> exact hj
  rw [hb.tick, perform_eq]
  refine ⟨fun place hplace => ?_, fun hplace => ?_⟩
  · obtain ⟨m, he, hpc⟩ := hj.execute_ok hl hplace
    simp only [he, retire_eq]
    refine ⟨trivial, ?_⟩
    show Word.clampAdd m.pc 1 = _
    rw [hpc]
  · obtain ⟨m, he⟩ := hj.execute_error hl hplace
    simp only [he]
    exact ⟨_, rfl, rfl⟩

/-- The instruction in hand, as the program has it, and as the machine will execute it. -/
theorem Valid.jump_in_hand (h : s.Valid settings program) {op : Operation} (hb : s.Begins op) {i : Instruction}
    (hi : program.at? s.machine.pc = some i) (ho : i.opcode ∈ Opcode.labelled.map Opcode.mnemonic)
    (hzero : i.opcode = Opcode.jmpf.mnemonic → s.machine.memory.get s.machine.sp = 0)
    (hok : s.tick.1 = .running) : op.label? = some i.operand1 ∧ op.Jumps s.machine := by
  obtain ⟨j, hj, hd⟩ := h.fetched hb.fetched
  rw [hi] at hj
  cases hj
  have hl : op.label? = some i.operand1 := by
    obtain ⟨hempty, hnamed⟩ := Instruction.decode_labelled ho
    by_cases he : i.operand1 = ""
    · obtain ⟨o, herror⟩ := hempty he
      rw [hd] at herror
      cases herror
    · obtain ⟨op', hd', hl⟩ := hnamed he
      rw [hd] at hd'
      cases hd'
      exact hl
  refine ⟨hl, ?_⟩
  have hopcode := (Instruction.decode_eq_ok hd).1 (Operation.opcode_of_label? hl).1
  rw [hb.tick, perform_eq] at hok
  cases he : op.execute s.image.labels s.machine.counted with
  | error f m =>
    simp only [he] at hok
    cases hok
  | ok d m =>
    have hj := Operation.jumps_of_ok (m := s.machine.counted) hl (fun hop => hzero (by rw [hopcode, hop]; rfl)) he
    cases op <;> exact hj

/-! ## Leaving the program -/

omit [Device σ] in
/-- An instruction that is over has led out of the program only from its last place, or by a `RETURN`. -/
theorem advance_leaves {pc : Int} (op : Operation) {m : Machine}
    (hsize : (program.size : Int) ≤ Word.greatest) (hin : program.Inside pc)
    (hc : op.Continues program.labels pc m) (hout : ¬program.Inside m.advance.pc) :
    op = .ret ∨ pc = program.size - 1 ∧ m.advance.pc = program.size := by
  have hadvance : m.advance.pc = min (m.pc + 1) Word.greatest := rfl
  unfold Program.Inside at hin hout
  rw [hadvance] at hout ⊢
  rcases hc with hpc | ⟨l, place, -, hl, hpc⟩ | ⟨hret, -⟩
  · right
    omega
  · have := Program.lt_size_of_labels_get? hl
    omega
  · exact .inl hret

/-- Only a `RETURN` or the last instruction leads out of the program. -/
theorem Ticks.leaves {r : Progress × Session σ} (ht : s.Ticks r) (h : s.Valid settings program)
    (hsize : (program.size : Int) ≤ Word.greatest) (hin : program.Inside s.machine.pc)
    (hout : ¬program.Inside r.2.machine.pc) :
    s.Begins .ret ∨ s.machine.pc = program.size - 1 ∧ r.2.machine.pc = program.size := by
  have hlabels : s.image.labels = program.labels := by rw [h.image_eq]; rfl
  cases ht with
  | start | refuse | finish | pending | waiting | refused | overflow => exact absurd hin hout
  | @fail op f m hb he =>
    have hpc : m.pc = s.machine.pc := (h.execute_error hb he).2.1.pc
    exact absurd (hpc ▸ hin) hout
  | @work op m hb he | @print op v m hb he =>
    have hc := (h.execute_ok hb he).2.pc
    rw [hlabels] at hc
    rw [retire_eq] at hout ⊢
    rcases advance_leaves op hsize hin hc hout with rfl | hlast
    · exact .inl hb
    · exact .inr hlast
  | @read op m hb he =>
    have hm := (h.execute_ok hb he).2.reads_only rfl
    subst hm
    exact absurd hin hout
  | answer hp =>
    rw [retire_eq] at hout ⊢
    rcases advance_leaves .rd hsize hin (.inl rfl) hout with hret | hlast
    · cases hret
    · exact .inr hlast

end Session

/-- Labels stand for the first place that is marked with them, and jumps land there. The table of labels
is kept as instructions are added; a label has a place in it exactly if that is the first `NULL` with the
label, and is unresolved exactly if there is none. In every run, a `CALL`, a `JMP` or a `JMPF` that finds a
zero goes on, if it completes, at the first place marked with its operand, and finds an instruction there
that does nothing; and only a `RETURN`, or going on behind the last instruction, leads out of the program. -/
theorem jumps_land_on_first_mark {σ : Type} [Device σ] (settings : Settings) (program : Program)
    (hsize : (program.size : Int) ≤ Word.greatest) :
    (∀ i, (program.push i).labels =
      if i.opcode = Opcode.null.mnemonic then program.labels.declare i.label program.size
      else program.labels) ∧
    (∀ name place, program.labels.get? name = some place ↔ IsLeast {k | program.Marks name k} place) ∧
    (∀ name, program.labels.resolve name = .error (.unresolvedLabel name) ↔ ∀ k, ¬program.Marks name k) ∧
    ∀ s : Session σ, s.Reachable settings program →
      (∀ i, program.at? s.machine.pc = some i → i.opcode ∈ Opcode.labelled.map Opcode.mnemonic →
        (i.opcode = Opcode.jmpf.mnemonic → s.machine.memory.get s.machine.sp = 0) →
        s.phase = .running → s.tick.1 = .running →
        ∃ place : Nat, IsLeast {k | program.Marks i.operand1 k} place ∧ s.tick.2.machine.pc = place ∧
          place < program.size ∧ program.Holds place .nop) ∧
      (program.Inside s.machine.pc → ¬program.Inside s.tick.2.machine.pc →
        s.Begins .ret ∨ s.machine.pc = program.size - 1 ∧ s.tick.2.machine.pc = program.size) := by
  refine ⟨program.labels_push, fun _ _ => Program.labels_get?_eq_some, fun _ => Program.resolve_eq_error,
    fun s hs => ⟨fun i hi ho hzero hp hrunning => ?_, s.tick_ticks.leaves hs.valid hsize⟩⟩
  obtain ⟨op, hb⟩ := Session.begins_of_running hp hrunning
  obtain ⟨hl, hj⟩ := hs.valid.jump_in_hand hb hi ho hzero hrunning
  have hlabels : s.image.labels = program.labels := by rw [hs.valid.image_eq]; rfl
  obtain ⟨hfound, hmissing⟩ := hb.jumps hl hj
  rw [hlabels] at hfound hmissing
  cases hplace : program.labels.get? i.operand1 with
  | none =>
    obtain ⟨o, ho, -⟩ := hmissing hplace
    rw [hrunning] at ho
    cases ho
  | some place =>
    have hleast := Program.labels_get?_eq_some.1 hplace
    have hlt := hleast.1.holds.1
    refine ⟨place, hleast, ?_, hleast.1.holds⟩
    rw [(hfound place hplace).2, Word.clampAdd]
    omega

/-- Asks until it is not given a zero. The label stands twice, and the first place is 0. -/
def retrying : Program where
  instructions := [⟨"L", "NULL", "", ""⟩, ⟨"", "RD", "", ""⟩, ⟨"", "JMPF", "L", ""⟩, ⟨"L", "NULL", "", ""⟩]

theorem jumps_land_on_first_mark_retrying :
    let s := Session.create { memory := 1 } retrying ({ answers := ["0", "1"] } : Scripted)
    let t := (s.run 4).2
    let u := (s.run 9).2
    (retrying.size : Int) ≤ Word.greatest ∧ t.tick.1 = .running ∧
      (∃ place : Nat, IsLeast {k | retrying.Marks "L" k} place ∧ t.tick.2.machine.pc = place ∧
        place < retrying.size ∧ retrying.Holds place .nop) ∧ t.tick.2.machine.pc = 0 ∧
      (u.Begins .ret ∨ u.machine.pc = retrying.size - 1 ∧ u.tick.2.machine.pc = retrying.size) := by
  intro s t u
  have hreachable : ∀ n, (s.run n).2.Reachable { memory := 1 } retrying :=
    fun n => Session.run_keeps (fun _ h => .tick h) n (.create _)
  have hsize : (retrying.size : Int) ≤ Word.greatest := by decide
  obtain ⟨-, -, -, hruns⟩ := jumps_land_on_first_mark (σ := Scripted) { memory := 1 } retrying hsize
  have hrunning : t.tick.1 = .running := by decide +kernel
  refine ⟨hsize, hrunning, ?_, by decide +kernel, ?_⟩
  · exact (hruns t (hreachable 4)).1 ⟨"", "JMPF", "L", ""⟩ (by decide +kernel) (by decide)
      (fun _ => by decide +kernel) (by decide +kernel) hrunning
  · exact (hruns u (hreachable 9)).2 ⟨by decide +kernel, by decide +kernel⟩
      (fun h => absurd h.2 (by decide +kernel))

end StackMachine
