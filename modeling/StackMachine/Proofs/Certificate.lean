/-
Outcomes tell the truth about the machine they come from. `run_certified`: however a run that was
not refused ends, its outcome shows the machine as it now is, the way it ended agrees with the
instruction at the reported place, and a fault is one that this instruction can raise.
-/
import StackMachine.Device.Scripted
import StackMachine.Proofs.Session

namespace StackMachine

/-- What a fault says about the instruction `i` that it is reported at, after `steps` instructions
have been begun. -/
structure Fault.Explained (settings : Settings) (program : Program) (i : Instruction) (steps : Nat)
    (f : Fault) : Prop where
  undecodable : ∀ e, f = .undecodable e ↔ i.decode = .error e
  limit : ∀ n, f = .stepLimitExceeded n →
    settings.stepLimit = some n ∧ steps = n ∧ ∃ op, i.decode = .ok op ∧ op ≠ .hlt
  division : f = .divisionByZero → i.opcode = Opcode.divi.mnemonic
  input : (∃ text, f = .invalidInput text) ∨ f = .inputCancelled → i.opcode = Opcode.rd.mnemonic
  label : ∀ l, f = .unresolvedLabel l →
    i.opcode ∈ [Opcode.call, .jmp, .jmpf].map Opcode.mnemonic ∧ i.operand1 = l ∧
      ∀ j ∈ program.instructions, j.opcode = Opcode.null.mnemonic → j.label ≠ l
  bounds : ∀ a capacity, f = .outOfBounds a capacity →
    capacity = settings.memory ∧ (a < 0 ∨ (capacity : Int) ≤ a)
  live : f ≠ .alreadyHalted

/-- An outcome agrees with the session `s` that its run has left. That an error comes with a fault (`reason`), and
that a fault is placed where the run ended, is carried by the type of outcomes; that the instruction there
explains the fault is not. -/
structure Outcome.Certified {σ : Type} (settings : Settings) (program : Program) (o : Outcome)
    (s : Session σ) : Prop where
  state : o.pc = s.machine.pc ∧ o.sp = s.machine.sp ∧ o.steps = s.machine.steps ∧
    o.output = s.machine.output
  reason : o.ending.name = "Error" ↔ o.ending.fault?.isSome
  halt : o.ending = .halt → ∃ i, program.at? o.pc = some i ∧ i.decode = .ok .hlt
  left : o.ending = .endOfProgram → o.pc < 0 ∨ program.size ≤ o.pc
  stopped : o.ending = .stopped → s.stopped = true
  fault : ∀ f, o.ending = .fault f → s.log.back? = some (.runFailed o.pc f) ∧
    ∃ i, program.at? o.pc = some i ∧ f.Explained settings program i o.steps

theorem Ending.name_eq_error_iff (e : Ending) : e.name = "Error" ↔ e.fault?.isSome := by
  cases e <;> simp [name, fault?]

/-! ## Faults of instructions -/

section Explained

variable {settings : Settings} {program : Program} {i : Instruction} {steps : Nat}

/-- Instructions that an operation is decoded from have no other reason to be undecodable. -/
theorem decode_ne_error {op : Operation} (hi : i.decode = .ok op) {f : Fault}
    (hf : ∀ e, f ≠ .undecodable e) (e : DecodeError) : f = .undecodable e ↔ i.decode = .error e := by
  rw [hi]
  exact ⟨fun h => absurd h (hf e), by simp⟩

/-- A fault that the operation raises by itself is explained. -/
theorem Operation.Raises.explained {op : Operation} {f : Fault} (hi : i.decode = .ok op)
    (h : op.Raises program.labels settings.memory f) : f.Explained settings program i steps := by
  cases h with
  | outside ha =>
    refine ⟨decode_ne_error hi (by simp), by simp, by simp, ?_, by simp, fun b c hf => ?_, by simp⟩
    · rintro (⟨_, h⟩ | h) <;> cases h
    · cases hf
      exact ⟨rfl, by omega⟩
  | division =>
    refine ⟨decode_ne_error hi (by simp), by simp, fun _ => ?_, ?_, by simp, by simp, by simp⟩
    · exact (Instruction.decode_eq_ok hi).1 (by simp)
    · rintro (⟨_, h⟩ | h) <;> cases h
  | @unresolved _ l hl hn =>
    obtain ⟨ho, hlabel⟩ := Instruction.decode_eq_ok hi
    refine ⟨decode_ne_error hi (by simp), by simp, by simp, ?_, fun l' hf => ?_, by simp, by simp⟩
    · rintro (⟨_, h⟩ | h) <;> cases h
    · cases hf
      obtain ⟨hop, hmem⟩ := Operation.opcode_of_label? hl
      refine ⟨?_, hlabel l hl, Program.labels_get?_eq_none.1 hn⟩
      rw [ho hop]
      exact List.mem_map_of_mem hmem

/-- A request that is not answered is an `RD`'s. -/
theorem DeviceError.explained (hi : i.decode = .ok .rd) (e : DeviceError) :
    e.toFault.Explained settings program i steps := by
  have ho : i.opcode = Opcode.rd.mnemonic := (Instruction.decode_eq_ok hi).1 (by simp)
  cases e <;> simp only [toFault] <;>
    exact ⟨decode_ne_error hi (by simp), by simp, by simp, fun _ => ho, by simp, by simp, by simp⟩

theorem explained_undecodable {e : DecodeError} (hi : i.decode = .error e) :
    (Fault.undecodable e).Explained settings program i steps := by
  refine ⟨fun e' => ?_, by simp, by simp, ?_, by simp, by simp, by simp⟩
  · rw [hi]
    exact ⟨fun h => by cases h; rfl, fun h => by cases h; rfl⟩
  · rintro (⟨_, h⟩ | h) <;> cases h

theorem explained_limit {op : Operation} (hi : i.decode = .ok op) (hop : op ≠ .hlt) {n : Nat}
    (hn : settings.stepLimit = some n) :
    (Fault.stepLimitExceeded n).Explained settings program i n := by
  refine ⟨decode_ne_error hi (by simp), fun k hk => ?_, by simp, ?_, by simp, by simp, by simp⟩
  · cases hk
    exact ⟨hn, rfl, op, hi, hop⟩
  · rintro (⟨_, h⟩ | h) <;> cases h

end Explained

/-! ## Outcomes of runs -/

namespace Session

variable {σ : Type} {settings : Settings} {program : Program} {s : Session σ}

theorem certified_fault {f : Fault} {i : Instruction} (hi : program.at? s.machine.pc = some i)
    (hf : f.Explained settings program i s.machine.steps) :
    (s.outcome (.fault f)).Certified settings program (s.finish (.fault f)).2 := by
  refine ⟨⟨rfl, rfl, rfl, rfl⟩, Ending.name_eq_error_iff _, nofun, nofun, nofun, fun g hg => ?_⟩
  cases hg
  exact ⟨Array.back?_push, i, hi, hf⟩

/-- The instruction that is fetched, as the program has it. -/
theorem Valid.fetched (h : s.Valid settings program) {r : Except DecodeError Operation}
    (hf : s.image.fetch? s.machine.pc = some r) :
    ∃ i, program.at? s.machine.pc = some i ∧ i.decode = r := by
  rw [h.image_eq] at hf
  exact Image.fetch?_eq_some hf

theorem Ends.certified (h : s.Valid settings program) {e : Ending} (he : s.Ends e) :
    (s.outcome e).Certified settings program (s.finish e).2 := by
  cases he with
  | stopped hs =>
    exact ⟨⟨rfl, rfl, rfl, rfl⟩, Ending.name_eq_error_iff _, nofun, nofun, fun _ => hs, fun _ h => nomatch h⟩
  | left hs hf =>
    rw [h.image_eq, Image.fetch?_ofProgram, Option.map_eq_none_iff] at hf
    exact ⟨⟨rfl, rfl, rfl, rfl⟩, Ending.name_eq_error_iff _, nofun, fun _ => Program.at?_eq_none.1 hf,
      nofun, fun _ h => nomatch h⟩
  | undecodable hs hf =>
    obtain ⟨i, hi, hd⟩ := h.fetched hf
    exact certified_fault hi (explained_undecodable hd)
  | halt hs hf =>
    obtain ⟨i, hi, hd⟩ := h.fetched hf
    exact ⟨⟨rfl, rfl, rfl, rfl⟩, Ending.name_eq_error_iff _, fun _ => ⟨i, hi, hd⟩, nofun, nofun,
      fun _ h => nomatch h⟩
  | @limit op n hs hf hop hn hle =>
    obtain ⟨i, hi, hd⟩ := h.fetched hf
    rw [h.settings_eq] at hn
    refine certified_fault hi ?_
    rw [h.bounded.steps_eq hn hle]
    exact explained_limit hd hop hn

variable [Device σ]

theorem Ticks.certified (h : s.Valid settings program) (hp : s.phase ≠ .halted)
    {r : Progress × Session σ} (ht : s.Ticks r) :
    ∀ o s', r = (.ended o, s') → o.Certified settings program s' := by
  intro o s' hr
  cases ht with
  | refuse hh => exact absurd hh hp
  | finish _ he => cases hr; exact he.certified h
  | @fail op f m hb he =>
    cases hr
    obtain ⟨i, hi, hd⟩ := h.fetched hb.fetched
    obtain ⟨-, hq, hraises⟩ := h.execute_error hb he
    have hlabels : s.image.labels = program.labels := by rw [h.image_eq]; rfl
    have hcapacity : s.machine.counted.memory.capacity = settings.memory := h.bounded.capacity
    rw [hlabels, hcapacity] at hraises
    -- a failing operation has not moved the counter, so it still shows the instruction's place
    have hpc : m.pc = s.machine.pc := hq.pc
    exact certified_fault (i := i) (by show program.at? m.pc = _; rw [hpc, hi]) (hraises.explained hd)
  | refused hr' ha =>
    cases hr
    obtain ⟨i, hi, hd⟩ := h.fetched (h.reading hr')
    exact certified_fault (s := s.asked) hi (DeviceError.explained hd _)
  | overflow hr' ha hc =>
    cases hr
    obtain ⟨i, hi, hd⟩ := h.fetched (h.reading hr')
    rw [Memory.Contains, h.bounded.capacity] at hc
    rw [Memory.outside, h.bounded.capacity]
    exact certified_fault (s := s.asked) hi (Operation.Raises.explained hd (.outside hc))
  | work | print | answer => rw [retire_eq] at hr; cases hr
  | _ => cases hr

end Session

/-- The outcome of every run agrees with the state the run leaves, and its fault with the
instruction at the reported place; and a run is refused exactly if the machine is halted. -/
theorem run_certified {σ : Type} [Device σ] {settings : Settings} {program : Program}
    {s : Session σ} {n : Nat} {o : Outcome} (hs : s.Reachable settings program)
    (hr : (s.run n).1 = .ended o) :
    (o.ending = .fault .alreadyHalted ↔ s.phase = .halted) ∧
      (s.phase ≠ .halted → o.Certified settings program (s.run n).2) := by
  have hr : s.run n = (.ended o, (s.run n).2) := Prod.ext hr rfl
  have hc : s.phase ≠ .halted → o.Certified settings program (s.run n).2 := by
    intro hp
    obtain ⟨t, ht, htp, htick⟩ := Session.run_ended (fun _ h => .tick h) hs hp hr
    exact (htick ▸ t.tick_ticks).certified ht.valid htp o _ rfl
  refine ⟨⟨fun hf => ?_, fun hp => ?_⟩, hc⟩
  · by_contra hp
    obtain ⟨-, i, -, hx⟩ := (hc hp).fault _ hf
    exact hx.live rfl
  · cases n with
    | zero => cases hr
    | succ n =>
      rw [Session.run, Session.tick, hp] at hr
      cases hr
      rfl

/-- Divides by zero at its third instruction. -/
def dividing : Program where
  instructions := [⟨"", "LDC", "1", ""⟩, ⟨"", "LDC", "0", ""⟩, ⟨"", "DIVI", "", ""⟩]

theorem run_certified_dividing :
    let s : Session Scripted := .create { memory := 2 } dividing {}
    let o : Outcome := ⟨.fault .divisionByZero, #[], 3, 2, -1, #[]⟩
    (s.run 4).1 = .ended o ∧ o.Certified { memory := 2 } dividing (s.run 4).2 := by
  refine ⟨rfl, ?_⟩
  exact (run_certified (.create _) rfl).2 nofun

end StackMachine
