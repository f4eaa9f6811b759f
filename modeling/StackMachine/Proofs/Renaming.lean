/-
Other names for labels. The labels of a program can be renamed, those that are declared and those that
jumps name alike, as long as no two become the same and the empty one stays empty: the run of the renamed
program is the run of the program, with the new names in it (`renaming_preserves_run`).

A jump looks its label up in a table that has been made in the same way from the renamed declarations, so
it finds the same place there (`Program.labels_get?_rename`). No other operation knows of labels, and what
has been recorded of a run is seen by none; so a tick of the renamed session is the tick of the session,
renamed (`Session.tick_rename`).
-/
import StackMachine.Proofs.Guise
import StackMachine.Proofs.Jumps

namespace StackMachine

/-! ## Renaming -/

section Rename

variable (r : String → String)

def Operation.rename : Operation → Operation
  | .call l => .call (r l)
  | .jmp l => .jmp (r l)
  | .jmpf l => .jmpf (r l)
  | op => op

def Fault.rename : Fault → Fault
  | .unresolvedLabel l => .unresolvedLabel (r l)
  | f => f

def Ending.rename : Ending → Ending
  | .fault f => .fault (f.rename r)
  | e => e

def TraceEntry.rename (e : TraceEntry) : TraceEntry := { e with operation := e.operation.rename r }

def LogEntry.rename : LogEntry → LogEntry
  | .step n pc op sp => .step n pc (op.rename r) sp
  | .runFailed pc f => .runFailed pc (f.rename r)
  | e => e

/-- Names of labels stand in the fault and in the recorded operations only. -/
def Outcome.rename (o : Outcome) : Outcome :=
  { o with ending := o.ending.rename r, trace := o.trace.map (·.rename r) }

def Progress.rename : Progress → Progress
  | .ended o => .ended (o.rename r)
  | p => p

def Machine.rename (m : Machine) : Machine := { m with trace := m.trace.map (·.rename r) }

/-- An instruction that declares a label has it in its first field, and one that names a label has it in
its first operand. -/
def Instruction.rename (i : Instruction) : Instruction :=
  { i with
    label := if i.opcode = Opcode.null.mnemonic then r i.label else i.label
    operand1 := if i.opcode ∈ Opcode.labelled.map Opcode.mnemonic then r i.operand1 else i.operand1 }

def Program.rename (p : Program) : Program :=
  { p with instructions := p.instructions.map (Instruction.rename r) }

/-- The session with another image, and with the new names in what it has recorded. -/
def Session.rename {σ : Type} (image : Image) (s : Session σ) : Session σ :=
  { s with image := image, machine := s.machine.rename r, log := s.log.map (·.rename r) }

end Rename

variable {r : String → String}

/-! ## Programs -/

namespace Instruction

/-- Whether an operand is empty is not changed, so it is refused or taken as it was. -/
theorem labelOperand_rename (hempty : ∀ l, r l = "" ↔ l = "") (o : Opcode) (l : String) :
    labelOperand o (r l) = (labelOperand o l).map r := by
  unfold labelOperand
  by_cases hl : l = ""
  · subst hl
    rw [(hempty "").2 rfl]
    rfl
  · have hrl : r l ≠ "" := mt (hempty l).1 hl
    simp [hl, hrl, Except.map]

/-- The label of an instruction plays no part in what it does. -/
theorem decode_congr {i j : Instruction} (hopcode : i.opcode = j.opcode) (h1 : i.operand1 = j.operand1)
    (h2 : i.operand2 = j.operand2) : i.decode = j.decode := by
  unfold decode
  rw [hopcode, h1, h2]

theorem decode_rename (hempty : ∀ l, r l = "" ↔ l = "") (i : Instruction) :
    (i.rename r).decode = i.decode.map (Operation.rename r) := by
  by_cases hlabelled : i.opcode ∈ Opcode.labelled.map Opcode.mnemonic
  · have hoperand : (i.rename r).operand1 = r i.operand1 := if_pos hlabelled
    obtain ⟨o, ho, hm⟩ := List.mem_map.1 hlabelled
    unfold decode
    rw [hoperand, show (i.rename r).opcode = i.opcode from rfl, ← hm, Opcode.ofMnemonic?_mnemonic]
    simp only [Opcode.labelled, List.mem_cons, List.not_mem_nil, or_false] at ho
    rcases ho with rfl | rfl | rfl <;> simp only [labelOperand_rename hempty] <;>
      cases labelOperand _ i.operand1 <;> rfl
  · have hsame : (i.rename r).decode = i.decode := decode_congr rfl (if_neg hlabelled) rfl
    rw [hsame]
    cases hd : i.decode with
    | error e => rfl
    | ok op =>
      have hnone : op.label? = none := by
        by_contra hsome
        obtain ⟨l, hl⟩ := Option.ne_none_iff_exists'.1 hsome
        obtain ⟨hop, hmem⟩ := Operation.opcode_of_label? hl
        rw [(decode_eq_ok hd).1 hop] at hlabelled
        exact hlabelled (List.mem_map_of_mem hmem)
      cases op with
      | call | jmp | jmpf => cases hnone
      | _ => rfl

theorem declares_rename (hr : Function.Injective r) (i : Instruction) (name : String) :
    (i.rename r).declares (r name) = i.declares name := by
  rw [Bool.eq_iff_iff, declares_iff, declares_iff]
  refine and_congr_right fun hnull => ?_
  have hlabel : (i.rename r).label = r i.label := if_pos hnull
  rw [hlabel]
  exact hr.eq_iff

end Instruction

namespace Program

/-- A label stands where the label stood that it is the new name of. -/
theorem labels_get?_rename (hr : Function.Injective r) (p : Program) (name : String) :
    (p.rename r).labels.get? (r name) = p.labels.get? name := by
  rw [labels_get?, labels_get?, rename, List.findIdx?_map]
  congr 1
  funext i
  exact Instruction.declares_rename hr i name

theorem at?_rename (p : Program) (pc : Int) : (p.rename r).at? pc = (p.at? pc).map (Instruction.rename r) := by
  unfold at? get? rename
  split
  · exact List.getElem?_map
  · rfl

end Program

/-! ## Operations -/

namespace Exec

variable {α β : Type}

/-- The action, with the new names in its fault. -/
def rename (r : String → String) (x : Exec α) : Exec α := fun m =>
  match x m with
  | .ok a m' => .ok a m'
  | .error f m' => .error (f.rename r) m'

theorem rename_bind (x : Exec α) (f : α → Exec β) :
    rename r (x >>= f) = rename r x >>= fun a => rename r (f a) := by
  funext m
  simp only [rename, bind, EStateM.bind]
  cases x m <;> rfl

theorem rename_pure (a : α) : rename r (pure a) = pure a := rfl

theorem rename_get : rename r get = get := rfl

theorem rename_modify (update : Machine → Machine) : rename r (modify update) = modify update := rfl

/-- An action whose faults name no label. -/
theorem rename_eq_self {x : Exec α} (h : ∀ m f m', x m = .error f m' → f.rename r = f) : rename r x = x := by
  funext m
  unfold rename
  cases hx : x m with
  | ok a m' => rfl
  | error f m' => exact congrArg (EStateM.Result.error · m') (h m f m' hx)

theorem rename_load (a : Int) : rename r (load a) = load a := by
  refine rename_eq_self fun m f m' h => ?_
  unfold load at h
  split at h <;> cases h
  rfl

theorem rename_store (a : Int) (v : Word) : rename r (store a v) = store a v := by
  refine rename_eq_self fun m f m' h => ?_
  unfold store at h
  split at h <;> cases h
  rfl

theorem rename_push (v : Word) : rename r (push v) = push v := by
  refine rename_eq_self fun m f m' h => ?_
  unfold push at h
  dsimp only at h
  split at h <;> cases h
  rfl

theorem rename_pop : rename r pop = pop := by
  refine rename_eq_self fun m f m' h => ?_
  unfold pop at h
  split at h <;> cases h
  rfl

theorem rename_goTo (place : Nat) : rename r (goTo place) = goTo place := rfl

theorem rename_pushCells (base : Word) (n : Nat) : ∀ i, rename r (pushCells base i n) = pushCells base i n := by
  induction n with
  | zero => exact fun _ => rfl
  | succ n ih =>
    intro i
    simp only [pushCells, rename_bind, rename_load, rename_push, ih]

theorem rename_popCells (base : Word) (n : Nat) : rename r (popCells base n) = popCells base n := by
  induction n with
  | zero => rfl
  | succ n ih => simp only [popCells, rename_bind, rename_pop, rename_store, ih]

/-- A label that is looked up under its new name is found where it was, or missed under that name. -/
theorem rename_resolve {labels labels' : Labels} (h : ∀ l, labels'.get? (r l) = labels.get? l) (l : String) :
    rename r (resolve labels l) = resolve labels' (r l) := by
  unfold resolve Labels.resolve
  rw [h]
  cases labels.get? l <;> rfl

end Exec

namespace Operation

theorem rename_ne_hlt {op : Operation} (h : op ≠ .hlt) : op.rename r ≠ .hlt := by
  cases op with
  | hlt => exact absurd rfl h
  | _ => simp [rename]

open Exec in
/-- Under the new names an operation does what it did. -/
theorem execute_rename {labels labels' : Labels} (h : ∀ l, labels'.get? (r l) = labels.get? l)
    (op : Operation) : (op.rename r).execute labels' = Exec.rename r (op.execute labels) := by
  cases op with
  | binary o =>
    simp only [rename, execute, rename_bind, rename_pop]
    congr 1; funext b; congr 1; funext a
    cases o.eval? a b with
    | some v => simp only [rename_bind, rename_push, rename_pure]
    | none => rfl
  | jmpf l =>
    simp only [rename, execute, rename_bind, rename_pop]
    congr 1; funext v
    by_cases hv : v = 0
    · simp only [hv, if_true, rename_bind, rename_resolve h, rename_goTo, rename_pure]
    · simp only [hv, if_false, rename_pure]
  | _ =>
    simp only [rename, execute, rename_bind, rename_load, rename_store, rename_push, rename_pop,
      rename_pushCells, rename_popCells, rename_resolve h, rename_goTo, rename_get, rename_modify, rename_pure]

end Operation

/-- No operation looks at the trace. -/
theorem Machine.unseen_rename : Exec.Unseen (Machine.rename r) fun _ => True where
  load a m := by
    by_cases ha : m.memory.Contains a
    · simp only [Exec.load, if_pos ha]
      exact if_pos ha
    · simp only [Exec.load, if_neg ha]
      exact fun _ => if_neg ha
  store a v m := by
    by_cases ha : m.memory.Contains a
    · simp only [Exec.store, if_pos ha]
      exact if_pos ha
    · simp only [Exec.store, if_neg ha]
      exact fun _ => if_neg ha
  with_pc _ _ := rfl
  with_sp _ _ := rfl
  with_output _ _ := rfl

section Execute

variable {labels labels' : Labels} {op : Operation} {m m' : Machine}

theorem Operation.execute_rename_ok (h : ∀ l, labels'.get? (r l) = labels.get? l) {d : Demand}
    (he : op.execute labels m = .ok d m') :
    (op.rename r).execute labels' (m.rename r) = .ok d (m'.rename r) := by
  have hblind := (Machine.unseen_rename (r := r)).execute labels op m
  rw [he] at hblind
  rw [execute_rename h, Exec.rename, hblind]

theorem Operation.execute_rename_error (h : ∀ l, labels'.get? (r l) = labels.get? l) {f : Fault}
    (he : op.execute labels m = .error f m') :
    (op.rename r).execute labels' (m.rename r) = .error (f.rename r) (m'.rename r) := by
  have hblind := (Machine.unseen_rename (r := r)).execute labels op m
  rw [he] at hblind
  rw [execute_rename h, Exec.rename, hblind trivial]

end Execute

/-! ## Sessions -/

/-- The instructions of `J` are as many as those of `I`, and its labels stand where those of `I` do that they
are the new names of. -/
structure Image.Recasts (r : String → String) (I J : Image) : Prop where
  size : J.code.size = I.code.size
  labels : ∀ l, J.labels.get? (r l) = I.labels.get? l

/-- The two images have the same instruction at this place, but for the names of labels. -/
def Image.SameAt (r : String → String) (I J : Image) (pc : Int) : Prop :=
  J.fetch? pc = (I.fetch? pc).map (·.map (Operation.rename r))

theorem Machine.entry_rename (m : Machine) (pc : Int) (op : Operation) :
    (m.rename r).entry pc (op.rename r) = (m.entry pc op).rename r := by
  cases op <;> rfl

namespace Session

variable {σ : Type} {J : Image}

/-- The next tick looks for an instruction. -/
structure Fetches (s : Session σ) : Prop where
  running : s.phase = .running
  unstopped : s.stopped = false

theorem finish_rename (s : Session σ) (e : Ending) :
    (s.rename r J).finish (e.rename r) = ((s.finish e).1.rename r, (s.finish e).2.rename r J) := by
  cases e <;> simp only [finish, rename, Machine.rename, Ending.rename, Array.map_push, List.map_toArray,
    List.map_nil] <;> rfl

theorem recorded_rename (s : Session σ) (pc : Int) (op : Operation) :
    (s.rename r J).recorded pc (op.rename r) = (s.recorded pc op).rename r := by
  have hentry : (s.rename r J).machine.entry pc (op.rename r) = (s.machine.entry pc op).rename r :=
    Machine.entry_rename s.machine pc op
  unfold recorded
  rw [hentry]
  cases htrace : s.settings.trace <;> simp [rename, Machine.rename, htrace]

theorem retire_rename (s : Session σ) (pc : Int) (op : Operation) :
    (s.rename r J).retire pc (op.rename r) = ((s.retire pc op).1.rename r, (s.retire pc op).2.rename r J) := by
  rw [retire_eq, retire_eq, recorded_rename]
  cases htrace : s.settings.trace <;>
    simp only [rename, htrace, if_true, if_false, Bool.false_eq_true, Array.map_push] <;> rfl

theorem consult_rename {ρ : Type} (act : σ → Response σ ρ) (s : Session σ) :
    (s.rename r J).consult act = ((s.consult act).1, (s.consult act).2.rename r J) := by
  have hnotices : ∀ notices : List Notice,
      (notices.map LogEntry.device).toArray.map (·.rename r) = (notices.map .device).toArray := by
    intro notices
    simp [LogEntry.rename]
  rw [consult_eq, consult_eq]
  simp only [rename, Array.map_append, hnotices]

variable {s : Session σ}

theorem Begins.rename {op : Operation} (hb : s.Begins op) (hsame : s.image.SameAt r J s.machine.pc) :
    (s.rename r J).Begins (op.rename r) := by
  refine ⟨hb.running, hb.unstopped, ?_, Operation.rename_ne_hlt hb.executable, hb.within⟩
  show J.fetch? s.machine.pc = _
  rw [hsame, hb.fetched]
  rfl

theorem Ends.rename {e : Ending} (he : s.Ends e) (hsame : s.stopped = false → s.image.SameAt r J s.machine.pc) :
    (s.rename r J).Ends (e.rename r) := by
  have hfetch : ∀ {i}, s.stopped = false → s.image.fetch? s.machine.pc = i →
      (s.rename r J).image.fetch? (s.rename r J).machine.pc = i.map (·.map (Operation.rename r)) := by
    intro i hs hi
    rw [← hi]
    exact hsame hs
  cases he with
  | stopped hs => exact .stopped hs
  | left hs hf => exact .left hs (hfetch hs hf)
  | undecodable hs hf => exact .undecodable hs (hfetch hs hf)
  | halt hs hf => exact .halt hs (hfetch hs hf)
  | limit hs hf hop hn hle => exact .limit hs (hfetch hs hf) (Operation.rename_ne_hlt hop) hn hle

variable [Device σ]

/-- Whatever a tick does under the old names, one under the new names does too. -/
theorem Ticks.rename {res : Progress × Session σ} (ht : s.Ticks res) (hJ : s.image.Recasts r J)
    (hsame : s.Fetches → s.image.SameAt r J s.machine.pc) :
    (s.rename r J).Ticks (res.1.rename r, res.2.rename r J) := by
  have hbegins : ∀ {op}, s.Begins op → (s.rename r J).Begins (op.rename r) := fun hb =>
    hb.rename (hsame ⟨hb.running, hb.unstopped⟩)
  have hasked : (s.rename r J).asked = s.asked.rename r J := congrArg Prod.snd (consult_rename _ s)
  cases ht with
  | start hp =>
    have hlog : (s.log.push (.runStarted s.image.code.size)).map (·.rename r) =
        (s.log.map (·.rename r)).push (.runStarted J.code.size) := by
      rw [Array.map_push, hJ.size]
      rfl
    have hstart := Ticks.start (s := s.rename r J) hp
    simp only [Session.rename, hlog] at hstart ⊢
    exact hstart
  | refuse hp => exact .refuse hp
  | finish hp he =>
    rw [← finish_rename]
    exact .finish hp (he.rename fun hs => hsame ⟨hp, hs⟩)
  | fail hb he =>
    rw [← finish_rename]
    exact .fail (hbegins hb) (Operation.execute_rename_error hJ.labels he)
  | work hb he =>
    rw [← retire_rename]
    exact .work (hbegins hb) (Operation.execute_rename_ok hJ.labels he)
  | @print op v m hb he =>
    have hshown : ({ s with machine := m }.rename r J).shown v = ({ s with machine := m }.shown v).rename r J :=
      congrArg Prod.snd (consult_rename _ { s with machine := m })
    rw [← retire_rename, ← hshown]
    exact .print (hbegins hb) (Operation.execute_rename_ok hJ.labels he)
  | read hb he => exact .read (hbegins hb) (Operation.execute_rename_ok hJ.labels he)
  | pending hp hr =>
    rw [← hasked]
    exact .pending hp hr
  | waiting hp hr =>
    rw [← hasked]
    exact .waiting hp hr
  | @refused e hp hr =>
    -- no fault of a device names a label
    have he : (Ending.fault e.toFault).rename r = .fault e.toFault := by cases e <;> rfl
    rw [← finish_rename, ← hasked, he]
    exact .refused hp hr
  | overflow hp hr hc =>
    rw [← finish_rename, ← hasked]
    exact .overflow hp hr hc
  | answer hp hr hc =>
    rw [← retire_rename]
    have hanswer := Ticks.answer (s := s.rename r J) hp hr hc
    rw [hasked] at hanswer
    exact hanswer

/-- A tick of the renamed session is the tick of the session, renamed. -/
theorem tick_rename (hJ : s.image.Recasts r J) (hsame : s.Fetches → s.image.SameAt r J s.machine.pc) :
    (s.rename r J).tick = (s.tick.1.rename r, s.tick.2.rename r J) :=
  (s.tick_ticks.rename hJ hsame).tick_eq

/-! ## Runs -/

variable {settings : Settings} {program : Program}

/-- So is a run, if the images have the same instruction wherever the run looks for one. -/
theorem run_rename (hJ : (Image.ofProgram program).Recasts r J) :
    ∀ (n : Nat) {s : Session σ}, s.Valid settings program →
      (∀ m t, m < n → s.run m = (.running, t) → t.Fetches → t.image.SameAt r J t.machine.pc) →
      (s.rename r J).run n = ((s.run n).1.rename r, (s.run n).2.rename r J)
  | 0, _, _, _ => rfl
  | n + 1, s, h, hsame => by
    have hvalid := s.tick_ticks.valid h
    have htick : (s.rename r J).tick = (s.tick.1.rename r, s.tick.2.rename r J) :=
      tick_rename (h.image_eq ▸ hJ) (hsame 0 s (Nat.succ_pos n) rfl)
    rw [run, run, htick]
    rcases ht : s.tick with ⟨p, t⟩
    rw [ht] at hvalid
    cases p with
    | ended o => rfl
    | waiting => rfl
    | running =>
      refine run_rename hJ n hvalid fun m u hm hu => hsame (m + 1) u (Nat.succ_lt_succ hm) ?_
      rw [run, ht]
      exact hu

/-- The same with incidents. -/
theorem runAmid_rename (hJ : (Image.ofProgram program).Recasts r J)
    (hsame : ∀ pc, (Image.ofProgram program).SameAt r J pc) :
    ∀ (is : List (Incident σ)) {s : Session σ}, s.Valid settings program →
      (s.rename r J).runAmid is = ((s.runAmid is).1.rename r, (s.runAmid is).2.rename r J)
  | [], _, _ => rfl
  | i :: is, s, h => by
    have hmeet : (s.meet i).Valid settings program := h.outside _ _
    have hvalid := (s.meet i).tick_ticks.valid hmeet
    have htick : ((s.rename r J).meet i).tick =
        ((s.meet i).tick.1.rename r, (s.meet i).tick.2.rename r J) :=
      tick_rename (s := s.meet i) (hmeet.image_eq ▸ hJ) fun _ => hmeet.image_eq ▸ hsame _
    rw [runAmid, runAmid, htick]
    rcases ht : (s.meet i).tick with ⟨p, t⟩
    rw [ht] at hvalid
    cases p with
    | ended o => rfl
    | waiting => exact runAmid_rename hJ hsame is hvalid
    | running => exact runAmid_rename hJ hsame is hvalid

end Session

theorem Program.recasts_rename (hr : Function.Injective r) (p : Program) :
    (Image.ofProgram p).Recasts r (.ofProgram (p.rename r)) where
  size := by simp [Image.ofProgram, rename]
  labels := p.labels_get?_rename hr

theorem Program.sameAt_rename (hempty : ∀ l, r l = "" ↔ l = "") (p : Program) (pc : Int) :
    (Image.ofProgram p).SameAt r (.ofProgram (p.rename r)) pc := by
  unfold Image.SameAt
  rw [Image.fetch?_ofProgram, Image.fetch?_ofProgram, at?_rename]
  cases p.at? pc with
  | none => rfl
  | some i => exact congrArg some (Instruction.decode_rename hempty i)

/-- Names of labels do not matter. If no two labels become the same and just the empty one becomes empty, the
run of the renamed program is the run of the program, however many ticks it takes and whatever happens
outside meanwhile: with the same machine, device, stop flag and log and the same outcome, but with the
new name in the fault of a label that is missing and in the operations that have been recorded. -/
theorem renaming_preserves_run {σ : Type} [Device σ] (settings : Settings) (program : Program) (device : σ)
    (r : String → String) (hr : Function.Injective r) (hempty : ∀ l, r l = "" ↔ l = "") :
    let session := Session.create settings program device
    let renamed := Session.create settings (program.rename r) device
    let image := Image.ofProgram (program.rename r)
    (∀ n, renamed.run n = ((session.run n).1.rename r, (session.run n).2.rename r image)) ∧
    ∀ is, renamed.runAmid is = ((session.runAmid is).1.rename r, (session.runAmid is).2.rename r image) := by
  intro session renamed image
  have hrenamed : session.rename r image = renamed := by
    simp [session, renamed, Session.rename, Session.create, Machine.rename, Machine.fresh, image]
  have hvalid : session.Valid settings program := (Session.Reachable.create device).valid
  have hJ : (Image.ofProgram program).Recasts r image := program.recasts_rename hr
  have hsame : ∀ pc, (Image.ofProgram program).SameAt r image pc := program.sameAt_rename hempty
  rw [← hrenamed]
  refine ⟨fun n => ?_, fun is => Session.runAmid_rename hJ hsame is hvalid⟩
  apply Session.run_rename hJ n hvalid
  intro m t _ hm _
  rw [(hvalid.run_running hm).image_eq]
  exact hsame _

/-- Asks until it is not given a zero and then calls a label that does not stand anywhere. -/
def straying : Program where
  instructions := [⟨"L", "NULL", "", ""⟩, ⟨"", "RD", "", ""⟩, ⟨"", "JMPF", "L", ""⟩, ⟨"", "CALL", "M", ""⟩]

/-- The two labels change names. -/
theorem renaming_preserves_run_straying :
    let r : String → String := Equiv.swap "L" "M"
    let device : Scripted := { answers := ["0", "1"] }
    let session := Session.create { memory := 1 } straying device
    let renamed := Session.create { memory := 1 } (straying.rename r) device
    Function.Injective r ∧ (∀ l, r l = "" ↔ l = "") ∧
      renamed.run 12 =
        ((session.run 12).1.rename r, (session.run 12).2.rename r (.ofProgram (straying.rename r))) ∧
      (session.run 12).1 = .ended ⟨.fault (.unresolvedLabel "M"), #[], 7, 3, -1, #[]⟩ ∧
      (renamed.run 12).1 = .ended ⟨.fault (.unresolvedLabel "L"), #[], 7, 3, -1, #[]⟩ := by
  intro r device session renamed
  have hr : Function.Injective r := (Equiv.swap "L" "M").injective
  have hempty : ∀ l, r l = "" ↔ l = "" := fun l => hr.eq_iff' (by decide)
  have hrun := (renaming_preserves_run { memory := 1 } straying device r hr hempty).1 12
  have hmissed : (session.run 12).1 = .ended ⟨.fault (.unresolvedLabel "M"), #[], 7, 3, -1, #[]⟩ := by
    decide +kernel
  refine ⟨hr, hempty, hrun, hmissed, ?_⟩
  rw [hrun, hmissed]
  decide +kernel

end StackMachine
