/-
Instructions that are not reached. All instructions are decoded before a run begins, and one that cannot be
decoded is kept as its error. A run depends on the instructions that it fetches, on where the labels stand
and on the number of instructions, and on nothing else of its program (`unreached_instructions_irrelevant`).

Another program that has the same of all this has the session of the first one, renamed so that every label
keeps its name.
-/
import StackMachine.Proofs.Renaming

namespace StackMachine

/-! ## Every label keeps its name -/

theorem Operation.rename_id : Operation.rename id = id := by
  funext op
  cases op <;> rfl

theorem Fault.rename_id (f : Fault) : f.rename id = f := by cases f <;> rfl

theorem Ending.rename_id (e : Ending) : e.rename id = e := by
  cases e with
  | fault f => exact congrArg Ending.fault f.rename_id
  | _ => rfl

theorem TraceEntry.rename_id : TraceEntry.rename id = id := by
  funext e
  simp only [TraceEntry.rename, Operation.rename_id, id]

theorem LogEntry.rename_id : LogEntry.rename id = id := by
  funext e
  cases e with
  | step n pc op sp => simp only [LogEntry.rename, Operation.rename_id, id]
  | runFailed pc f => exact congrArg (LogEntry.runFailed pc) f.rename_id
  | _ => rfl

theorem Progress.rename_id (p : Progress) : p.rename id = p := by
  cases p with
  | ended o =>
    simp only [Progress.rename, Outcome.rename, Ending.rename_id, TraceEntry.rename_id, id, Array.map_id_fun']
  | _ => rfl

theorem Session.rename_id {σ : Type} (J : Image) (s : Session σ) : s.rename id J = { s with image := J } := by
  simp only [Session.rename, Machine.rename, TraceEntry.rename_id, LogEntry.rename_id, id, Array.map_id_fun']

/-! ## The same where it is looked at -/

/-- The two instructions do the same; their labels may differ. -/
structure Instruction.Coincides (i j : Instruction) : Prop where
  opcode : i.opcode = j.opcode
  operand1 : i.operand1 = j.operand1
  operand2 : i.operand2 = j.operand2

namespace Program

variable {p q : Program}

theorem recasts_id (hsize : q.size = p.size) (hlabels : ∀ l, q.labels.get? l = p.labels.get? l) :
    (Image.ofProgram p).Recasts id (.ofProgram q) where
  size := by simpa [Image.ofProgram, size] using hsize
  labels := hlabels

/-- Programs of one size have instructions at the same places. -/
theorem sameAt_id (hsize : q.size = p.size) {pc : Int}
    (hsame : ∀ i j, p.at? pc = some i → q.at? pc = some j → i.Coincides j) :
    (Image.ofProgram p).SameAt id (.ofProgram q) pc := by
  unfold Image.SameAt
  rw [Image.fetch?_ofProgram, Image.fetch?_ofProgram, Operation.rename_id]
  have hnone : q.at? pc = none ↔ p.at? pc = none := by rw [at?_eq_none, at?_eq_none, hsize]
  cases hi : p.at? pc with
  | none => rw [hnone.2 hi]; rfl
  | some i =>
    obtain ⟨j, hj⟩ : ∃ j, q.at? pc = some j := Option.ne_none_iff_exists'.1 (by simp [hnone, hi])
    obtain ⟨hopcode, h1, h2⟩ := hsame i j hi hj
    rw [hj, Option.map_some, Option.map_some, Option.map_some, Instruction.decode_congr hopcode h1 h2]
    cases j.decode <;> rfl

end Program

/-- What a run does not reach does not matter. If two programs have the same number of instructions, if their
labels stand in the same places and if they coincide wherever the run of the first one fetches an
instruction within `n` ticks, the run of the second one is the same: it comes equally far, to the same
outcome if it ends, with the same machine, device, stop flag and log. -/
theorem unreached_instructions_irrelevant {σ : Type} [Device σ] (settings : Settings) (device : σ)
    (first second : Program) (n : Nat) (hsize : second.size = first.size)
    (hlabels : ∀ l, second.labels.get? l = first.labels.get? l)
    (hfetched : ∀ m t, m < n → (Session.create settings first device).run m = (.running, t) → t.Fetches →
      ∀ i j, first.at? t.machine.pc = some i → second.at? t.machine.pc = some j → i.Coincides j) :
    let r := (Session.create settings first device).run n
    (Session.create settings second device).run n = (r.1, { r.2 with image := .ofProgram second }) := by
  intro r
  have hvalid : (Session.create settings first device).Valid settings first :=
    (Session.Reachable.create device).valid
  have hrun := Session.run_rename (Program.recasts_id hsize hlabels) n hvalid fun m t hm ht hf => by
    rw [(hvalid.run_running ht).image_eq]
    exact Program.sameAt_id hsize (hfetched m t hm ht hf)
  rw [Session.rename_id, Session.rename_id, Progress.rename_id] at hrun
  exact hrun

/-- Jumps over an instruction that does not exist if it is given a zero. -/
def avoiding : Program where
  instructions := [⟨"", "RD", "", ""⟩, ⟨"", "JMPF", "L", ""⟩, ⟨"", "WHAT", "", ""⟩, ⟨"L", "NULL", "", ""⟩,
    ⟨"", "LDC", "7", ""⟩, ⟨"", "PRN", "", ""⟩, ⟨"", "HLT", "", ""⟩, ⟨"L", "ADD", "", ""⟩]

/-- The same with other instructions where it does not come. -/
def avoidingToo : Program where
  instructions := [⟨"", "RD", "", ""⟩, ⟨"", "JMPF", "L", ""⟩, ⟨"", "LDC", "?", ""⟩, ⟨"L", "NULL", "", ""⟩,
    ⟨"", "LDC", "7", ""⟩, ⟨"", "PRN", "", ""⟩, ⟨"", "HLT", "", ""⟩, ⟨"L", "NULL", "", ""⟩]

theorem unreached_instructions_irrelevant_avoiding :
    let device : Scripted := { answers := ["0"] }
    let r := (Session.create { memory := 1 } avoiding device).run 9
    r.1 = .ended ⟨.halt, #[7], 5, 6, -1, #[]⟩ ∧
      (Session.create { memory := 1 } avoidingToo device).run 9 =
        (r.1, { r.2 with image := .ofProgram avoidingToo }) := by
  intro device r
  have hlabels : ∀ l, avoidingToo.labels.get? l = avoiding.labels.get? l := by
    intro l
    rw [Program.labels_get?, Program.labels_get?]
    by_cases hl : "L" = l <;>
      simp [avoiding, avoidingToo, List.findIdx?_cons, Instruction.declares, Instruction.declaresLabel,
        Opcode.mnemonic, hl]
  have hsame : ∀ m < 9, avoiding.at? ((Session.create { memory := 1 } avoiding device).run m).2.machine.pc =
      avoidingToo.at? ((Session.create { memory := 1 } avoiding device).run m).2.machine.pc := by
    decide +kernel
  have hrun := unreached_instructions_irrelevant { memory := 1 } device avoiding avoidingToo 9 rfl hlabels
    fun m t hm ht _ i j hi hj => by
      have hat := hsame m hm
      rw [ht, hi, hj] at hat
      cases hat
      exact ⟨rfl, rfl, rfl⟩
  have hended : r.1 = .ended ⟨.halt, #[7], 5, 6, -1, #[]⟩ := by decide +kernel
  refine ⟨hended, ?_⟩
  rw [hrun]

end StackMachine
