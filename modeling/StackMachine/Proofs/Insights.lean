/-
What the counts of a program say about its runs (`insights_sound`). Opcodes are counted in the text of the
program; what a run executes was decoded from that text, so an operation in hand is counted under its opcode
(`Session.Valid.count_pos`). A count of zero therefore holds along every run: nothing is asked for without an
`RD`, nothing is printed without a `PRN`, and without a label no jump arrives.

Without labels and without `RETURN` the counter can only be advanced: it is the number of the instructions
begun, and an `RD` that waits for its answer is the last of these (`Session.Straight`).
-/
import Mathlib.Data.List.Nodup
import StackMachine.Program.Insights
import StackMachine.Proofs.Bounds
import StackMachine.Proofs.Jumps
import StackMachine.Proofs.Printed
import StackMachine.Proofs.Streaming
import StackMachine.Proofs.Tracing

namespace StackMachine

/-! ## Counted opcodes -/

namespace Program

variable {p : Program}

theorem count_pos {i : Instruction} {o : Opcode} (hi : i ∈ p.instructions) (ho : i.opcode = o.mnemonic) :
    0 < p.count o := by
  unfold count
  rw [List.countP_pos_iff]
  refine ⟨i, hi, ?_⟩
  rw [ho, Opcode.ofMnemonic?_mnemonic]
  exact beq_self_eq_true _

/-- Labels are declared by `NULL` only. -/
theorem labels_get?_of_count (h : p.count .null = 0) (name : String) : p.labels.get? name = none := by
  rw [labels_get?_eq_none]
  intro i hi ho
  have := count_pos hi ho
  omega

theorem mem_of_at? {pc : Int} {i : Instruction} (h : p.at? pc = some i) : i ∈ p.instructions := by
  unfold at? get? at h
  split at h
  · exact List.mem_of_getElem? h
  · cases h

/-- The places of the program from this one on. -/
def placesFrom (p : Program) (k : Nat) : List Int := (List.range' k (p.size - k)).map Int.ofNat

end Program

namespace Session

section Counted

variable {σ : Type} {settings : Settings} {program : Program} {s : Session σ} {op : Operation}

/-- An operation in hand is counted. -/
theorem Valid.count_pos (h : s.Valid settings program)
    (hf : s.image.fetch? s.machine.pc = some (.ok op)) (hop : op ≠ .nop) : 0 < program.count op.opcode := by
  obtain ⟨i, hi, hd⟩ := h.fetched hf
  exact Program.count_pos (Program.mem_of_at? hi) ((Instruction.decode_eq_ok hd).1 hop)

theorem Valid.not_begins (h : s.Valid settings program) (hb : s.Begins op) (hop : op ≠ .nop)
    (hnone : program.count op.opcode = 0) : False := by
  have := h.count_pos hb.fetched hop
  omega

theorem Valid.not_reading (h : s.Valid settings program) (hreads : program.count .rd = 0) :
    s.phase ≠ .reading := by
  intro hp
  exact absurd hreads (Nat.ne_of_gt (h.count_pos (h.reading hp) nofun))

theorem Valid.labels_get? (h : s.Valid settings program) (hlabels : program.count .null = 0) (name : String) :
    s.image.labels.get? name = none := by
  rw [h.image_eq]
  exact Program.labels_get?_of_count hlabels name

end Counted

end Session

/-! ## Counting requests -/

/-- A device, and how often it has been asked while somebody was counting. -/
structure Polled (σ : Type) where
  device : σ
  asked : Nat := 0

section Polled

variable {σ : Type}

/-- The same session, with somebody counting from now on. -/
def Session.polled (s : Session σ) : Session (Polled σ) where
  settings := s.settings
  image := s.image
  machine := s.machine
  device := { device := s.device }
  stopped := s.stopped
  phase := s.phase
  log := s.log

def Incident.polled (i : Incident σ) : Incident (Polled σ) where
  raises := i.raises
  change d := { d with device := i.change d.device }

theorem Session.Valid.polled {settings : Settings} {program : Program} {s : Session σ}
    (h : s.Valid settings program) : s.polled.Valid settings program :=
  ⟨h.settings_eq, h.image_eq, h.bounded, h.reading⟩

variable [Device σ]

/-- Whoever counts notices each asking, and the device does not notice. -/
instance : Device (Polled σ) where
  ask stopped d :=
    let r := Device.ask stopped d.device
    { reply := r.reply
      device := { device := r.device, asked := d.asked + 1 }
      raisesStop := r.raisesStop
      notices := r.notices }
  emit v d :=
    let r := Device.emit v d.device
    { reply := r.reply
      device := { d with device := r.device }
      raisesStop := r.raisesStop
      notices := r.notices }

theorem Polled.imitates :
    Device.Imitates (fun (_ : Bool) (d : Polled σ) (e : σ) => d.device = e) fun _ => 0 where
  ask h := by
    subst h
    exact .inl ⟨rfl, rfl, rfl⟩
  emit v h := by
    subst h
    exact ⟨rfl, rfl⟩

/-- Counting changes nothing. -/
theorem Session.polled_agrees (s : Session σ) (is : List (Incident σ)) :
    Session.Agree (fun _ d e => d.device = e) (s.polled.runAmid (is.map .polled)) (s.runAmid is) :=
  Session.Alike.runAmid Polled.imitates (f := .polled) (fun _ => rfl)
    (fun i _ d e (hde : d.device = e) => congrArg i.change hde) is ⟨rfl, rfl, rfl, rfl, rfl, rfl⟩

theorem Session.Ticks.unasked {s : Session (Polled σ)} {r : Progress × Session (Polled σ)} (ht : s.Ticks r)
    (hp : s.phase ≠ .reading) : r.2.device.asked = s.device.asked := by
  cases ht with
  | start | refuse | finish | fail | read => rfl
  | work => rw [retire_eq]
  | print => rw [retire_eq]; rfl
  | pending h | waiting h | refused h | overflow h | answer h => exact absurd h hp

end Polled

/-! ## Runs without requests -/

namespace Session

section Unread

variable {σ τ : Type} [Device σ] [Device τ] {settings : Settings} {program : Program} {s : Session σ}
  {t : Session τ}

theorem Valid.runAmid_unasked (h : s.Valid settings program) (hreads : program.count .rd = 0)
    (is : List (Incident σ)) : (s.polled.runAmid (is.map .polled)).2.device.asked = 0 := by
  refine (runAmid_keeps (A := fun i => ∀ d : Polled σ, (i.change d).asked = d.asked)
    (P := fun s : Session (Polled σ) => s.Valid settings program ∧ s.device.asked = 0)
    (fun s i hi hs => ⟨hs.1.outside _ _, (hi _).trans hs.2⟩) (fun s hs => ?_) (fun i hi => ?_)
    ⟨h.polled, rfl⟩).2
  · exact ⟨s.tick_ticks.valid hs.1, (s.tick_ticks.unasked (hs.1.not_reading hreads)).trans hs.2⟩
  · obtain ⟨j, -, rfl⟩ := List.mem_map.1 hi
    exact fun d => rfl

/-- A program that asks for nothing runs alike with all devices that raise no stop. -/
theorem Valid.runAmid_unread (h : s.Valid settings program) (hreads : program.count .rd = 0)
    (hσ : ∀ v (d : σ), (Device.emit v d).raisesStop = false)
    (hτ : ∀ v (d : τ), (Device.emit v d).raisesStop = false) (halike : s.Alike (fun _ _ _ => True) t)
    {is : List (Incident σ)} {js : List (Incident τ)}
    (hraises : List.Forall₂ (fun i j => i.raises = j.raises) is js) :
    Agree (fun _ _ _ => True) (s.runAmid is) (t.runAmid js) := by
  have htakes : Device.TakesAlike fun (_ : Bool) (_ : σ) (_ : τ) => True :=
    ⟨fun v _ => ⟨(hσ v _).trans (hτ v _).symm, trivial⟩⟩
  refine Alike.runAmid_lockstep (P := fun s => s.Valid settings program) (fun _ _ hs => hs.outside _ _)
    (fun s hs => s.tick_ticks.valid hs) (fun hs hst => hst.tick_unread htakes (hs.not_reading hreads)) ?_ h halike
  exact hraises.imp fun i j hij => ⟨hij, fun _ _ _ _ => trivial⟩

end Unread

/-! ## Runs without output -/

section Unprinted

variable {σ : Type} [Device σ] {settings : Settings} {program : Program} {s : Session σ}

theorem Ticks.unprinted {r : Progress × Session σ} (ht : s.Ticks r) (h : s.Valid settings program)
    (hprints : program.count .prn = 0) (hs : s.machine.output = #[]) :
    r.2.machine.output = #[] ∧ ∀ o, r.1 = .ended o → o.output = #[] := by
  cases ht with
  | start | pending | waiting => exact ⟨hs, fun _ ho => nomatch ho⟩
  | refuse | finish | refused | overflow => exact ⟨hs, fun _ ho => by cases ho; exact hs⟩
  | @fail op f m hb he =>
    have houtput : m.output = #[] := (h.execute_error hb he).2.1.output.trans hs
    exact ⟨houtput, fun _ ho => by cases ho; exact houtput⟩
  | @work op m hb he =>
    rw [retire_eq]
    exact ⟨(h.execute_ok hb he).2.output.trans hs, fun _ ho => nomatch ho⟩
  | @print op v m hb he =>
    cases (h.execute_ok hb he).2.prints ⟨v, rfl⟩
    exact (h.not_begins hb nofun hprints).elim
  | read hb he =>
    rw [(h.execute_ok hb he).2.reads_only rfl]
    exact ⟨hs, fun _ ho => nomatch ho⟩
  | answer =>
    rw [retire_eq]
    exact ⟨hs, fun _ ho => nomatch ho⟩

theorem Reachable.unprinted (h : s.Reachable settings program) (hprints : program.count .prn = 0) :
    s.machine.output = #[] := by
  induction h with
  | create | reset => rfl
  | tick h ih => exact ((tick_ticks _).unprinted h.valid hprints ih).1
  | stop _ ih | outside _ _ ih => exact ih

theorem Valid.runAmid_unprinted (hprints : program.count .prn = 0) : ∀ (is : List (Incident σ)) {s : Session σ},
    s.Valid settings program → s.machine.output = #[] →
      (s.runAmid is).2.machine.output = #[] ∧ ∀ o, (s.runAmid is).1 = .ended o → o.output = #[]
  | [], _, _, hs => ⟨hs, fun _ ho => nomatch ho⟩
  | i :: is, s, h, hs => by
    have hvalid : (s.meet i).Valid settings program := h.outside _ _
    have htick := (s.meet i).tick_ticks.unprinted hvalid hprints hs
    by_cases he : ∃ o, (s.meet i).tick.1 = .ended o
    · obtain ⟨o, he⟩ := he
      rw [runAmid_cons_ended (o := o) (Prod.ext he rfl)]
      exact ⟨htick.1, he ▸ htick.2⟩
    · rw [runAmid_cons fun o ho => he ⟨o, ho⟩]
      exact Valid.runAmid_unprinted hprints is ((s.meet i).tick_ticks.valid hvalid) htick.1

/-- Whoever listens to a run without output hears nothing. -/
theorem Valid.overheard_unprinted (h : s.Valid settings program) (hprints : program.count .prn = 0)
    (hs : s.machine.output = #[]) (is : List (Incident σ)) :
    (s.overheard.runAmid (is.map .overheard)).1 = (s.runAmid is).1 ∧
      (s.overheard.runAmid (is.map .overheard)).2.device = { device := (s.runAmid is).2.device, heard := [] } := by
  obtain ⟨hprogress, hsession⟩ := s.overheard_agrees is
  have hheard := runAmid_records Overheard.records h.overheard (is.map .overheard) Incident.heard_overheard []
    (by rw [show s.overheard.machine.output = #[] from hs]; rfl)
  rw [(Valid.runAmid_unprinted hprints _ h.overheard hs).1] at hheard
  refine ⟨hprogress, ?_⟩
  rw [← hsession.device, ← show _ = [] from hheard]

end Unprinted

/-! ## Jumps without labels -/

section Unlabelled

variable {σ : Type} [Device σ] {settings : Settings} {program : Program} {s : Session σ}

/-- A jump that is executed fails if there is no label. -/
theorem Begins.jump_fails {op : Operation} {l : String} (hb : s.Begins op) (hl : op.label? = some l)
    (hzero : op = .jmpf l → s.machine.memory.get s.machine.sp = 0) (hlabel : s.image.labels.get? l = none) :
    ∃ o f, s.tick.1 = .ended o ∧ o.ending = .fault f := by
  rw [hb.tick, perform_eq]
  cases he : op.execute s.image.labels s.machine.counted with
  | error f m => exact ⟨_, f, rfl, rfl⟩
  | ok d m =>
    have hjumps := Operation.jumps_of_ok (m := s.machine.counted) hl hzero he
    obtain ⟨m', herror⟩ := hjumps.execute_error hl hlabel
    rw [he] at herror
    cases herror

/-- A run that comes to a jump fails there if there is no label: the jump may have no operation, the step limit
may be used up, and otherwise it is executed. -/
theorem Valid.jump_fails (h : s.Valid settings program) (hlabels : program.count .null = 0)
    (hp : s.phase = .running) (hs : s.stopped = false) {i : Instruction}
    (hi : program.at? s.machine.pc = some i) (ho : i.opcode ∈ Opcode.labelled.map Opcode.mnemonic)
    (hzero : i.opcode = Opcode.jmpf.mnemonic → s.machine.memory.get s.machine.sp = 0) :
    ∃ o f, s.tick.1 = .ended o ∧ o.ending = .fault f := by
  have hf : s.image.fetch? s.machine.pc = some i.decode := by
    rw [h.image_eq, Image.fetch?_ofProgram, hi]
    rfl
  obtain ⟨hunnamed, hnamed⟩ := Instruction.decode_labelled ho
  by_cases hname : i.operand1 = ""
  · obtain ⟨o, hd⟩ := hunnamed hname
    rw [hd] at hf
    rw [(Ends.undecodable hs hf).tick hp]
    exact ⟨_, _, rfl, rfl⟩
  · obtain ⟨op, hd, hl⟩ := hnamed hname
    rw [hd] at hf
    have hopcode := (Instruction.decode_eq_ok hd).1 (Operation.opcode_of_label? hl).1
    have hne : op ≠ .hlt := by
      rintro rfl
      cases hl
    by_cases hlimit : ∃ n, s.settings.stepLimit = some n ∧ n ≤ s.machine.steps
    · obtain ⟨n, hn, hle⟩ := hlimit
      rw [(Ends.limit hs hf hne hn hle).tick hp]
      exact ⟨_, _, rfl, rfl⟩
    · have hb : s.Begins op := ⟨hp, hs, hf, hne, fun n hn => by
        by_contra hlt
        exact hlimit ⟨n, hn, by omega⟩⟩
      exact hb.jump_fails hl (fun hop => hzero (by rw [hopcode, hop]; rfl)) (h.labels_get? hlabels _)

/-! ## Going straight on -/

/-- The place at which the next tick begins an instruction. -/
def beginning? (s : Session σ) : Option Int := s.begun?.map fun _ => s.machine.pc

/-- The places at which a run begins instructions while these things happen outside, the first one first. -/
def visited : List (Incident σ) → Session σ → List Int
  | [], _ => []
  | i :: is, s =>
    (s.meet i).beginning?.toList ++
      match (s.meet i).tick with
      | (.ended _, _) => []
      | (_, t) => visited is t

theorem visited_cons_ended {i : Incident σ} {o : Outcome} (h : (s.meet i).tick.1 = .ended o)
    (is : List (Incident σ)) : s.visited (i :: is) = (s.meet i).beginning?.toList := by
  rcases ht : (s.meet i).tick with ⟨r, t⟩
  rw [ht] at h
  cases h
  rw [visited, ht]
  exact List.append_nil _

theorem visited_cons {i : Incident σ} (h : ∀ o, (s.meet i).tick.1 ≠ .ended o) (is : List (Incident σ)) :
    s.visited (i :: is) = (s.meet i).beginning?.toList ++ (s.meet i).tick.2.visited is := by
  rw [visited]
  rcases ht : (s.meet i).tick with ⟨r, t⟩
  rw [ht] at h
  cases r with
  | ended o => exact absurd rfl (h o)
  | waiting => rfl
  | running => rfl

omit [Device σ] in
theorem beginning?_of_begins {op : Operation} (hb : s.Begins op) : s.beginning? = some s.machine.pc := by
  rw [beginning?, begun?_eq_some.2 hb, Option.map_some]

omit [Device σ] in
theorem beginning?_eq_none (h : ∀ op, ¬s.Begins op) : s.beginning? = none := by
  rw [beginning?, Option.map_eq_none_iff, Option.eq_none_iff_forall_ne_some]
  exact fun op hop => h op (begun?_eq_some.1 hop)

/-- `k` instructions have been begun, each behind the one before it. -/
structure Straight (k : Nat) (s : Session σ) : Prop where
  between : s.phase ≠ .reading → s.phase ≠ .halted → s.machine.pc = k
  within : s.phase = .reading → s.machine.pc + 1 = k

omit [Device σ] in
theorem Straight.meet {k : Nat} (hk : s.Straight k) (i : Incident σ) : (s.meet i).Straight k :=
  ⟨hk.between, hk.within⟩

omit [Device σ] in
/-- Behind an instruction without a jump comes the next one. -/
theorem straight_retire {k : Nat} {t : Session σ} (h : s.Valid settings program)
    (hsize : (program.size : Int) ≤ Word.greatest) {r : Except DecodeError Operation}
    (hf : s.image.fetch? s.machine.pc = some r) (hpc : t.machine.pc = s.machine.pc) (hk : s.machine.pc + 1 = k)
    (pc : Int) (op : Operation) : (t.retire pc op).2.Straight k := by
  rw [retire_eq]
  refine ⟨fun _ _ => ?_, nofun⟩
  show Word.clampAdd t.machine.pc 1 = k
  rw [hpc, h.clampAdd_pc hsize hf, hk]

/-- A tick that does not end the run begins the next instruction or none. -/
theorem Straight.tick {k : Nat} (hk : s.Straight k) (h : s.Valid settings program)
    (hsize : (program.size : Int) ≤ Word.greatest) (hlabels : program.count .null = 0)
    (hreturns : program.count .ret = 0) (hlive : ∀ o, s.tick.1 ≠ .ended o) :
    s.tick.2.Straight (k + s.beginning?.toList.length) := by
  -- an operation that is done has left the counter where it was
  have hstays : ∀ {op d m}, s.Begins op → op.execute s.image.labels s.machine.counted = .ok d m →
      m.pc = s.machine.pc := by
    intro op d m hb he
    rcases (h.execute_ok hb he).2.pc with hpc | ⟨l, place, -, hl, -⟩ | ⟨rfl, -⟩
    · exact hpc
    · rw [h.labels_get? hlabels] at hl
      cases hl
    · exact (h.not_begins hb nofun hreturns).elim
  have hbegun : ∀ {op}, s.Begins op → s.machine.pc + 1 = ((k + s.beginning?.toList.length : Nat) : Int) := by
    intro op hb
    rw [beginning?_of_begins hb, Option.toList_some, List.length_singleton,
      hk.between (by rw [hb.running]; exact nofun) (by rw [hb.running]; exact nofun)]
    rfl
  have hidle : s.phase ≠ .running → k + s.beginning?.toList.length = k := by
    intro hp
    rw [beginning?_eq_none (not_begins_of_phase rfl hp)]
    rfl
  have ht := s.tick_ticks
  generalize s.tick = r at ht hlive
  cases ht with
  | refuse | finish | fail | refused | overflow => exact absurd rfl (hlive _)
  | start hp =>
    rw [hidle (by rw [hp]; exact nofun)]
    refine ⟨fun _ _ => ?_, nofun⟩
    exact hk.between (by rw [hp]; exact nofun) (by rw [hp]; exact nofun)
  | @work op m hb he =>
    exact straight_retire h hsize hb.fetched (t := { s with machine := m }) (hstays hb he) (hbegun hb) _ _
  | @print op v m hb he =>
    exact straight_retire h hsize hb.fetched (t := { s with machine := m }.shown v) (hstays hb he) (hbegun hb) _ _
  | @read op m hb he =>
    refine ⟨fun hp => absurd rfl hp, fun _ => ?_⟩
    show m.pc + 1 = _
    rw [hstays hb he, hbegun hb]
  | pending hp | waiting hp =>
    rw [hidle (by rw [hp]; exact nofun)]
    exact ⟨hk.between, hk.within⟩
  | answer hp =>
    rw [hidle (by rw [hp]; exact nofun)]
    apply straight_retire h hsize (h.reading hp) ?_ (hk.within hp)
    rfl

omit [Device σ] in
/-- What the next tick visits is the first of the places that are left. -/
theorem Straight.places {k : Nat} (hk : s.Straight k) (h : s.Valid settings program) :
    program.placesFrom k = s.beginning?.toList ++ program.placesFrom (k + s.beginning?.toList.length) := by
  by_cases hb : ∃ op, s.Begins op
  · obtain ⟨op, hb⟩ := hb
    have hpc : s.machine.pc = k :=
      hk.between (by rw [hb.running]; exact nofun) (by rw [hb.running]; exact nofun)
    obtain ⟨i, hi, -⟩ := h.fetched hb.fetched
    have hlt := (Program.at?_eq_some hi).2
    rw [hpc] at hlt
    rw [beginning?_of_begins hb, hpc]
    unfold Program.placesFrom
    rw [show program.size - k = program.size - (k + 1) + 1 by omega, List.range'_succ, List.map_cons]
    rfl
  · rw [beginning?_eq_none fun op hop => hb ⟨op, hop⟩]
    rfl

/-- A run without jumps visits the places that are left, in order, as far as it comes. -/
theorem Straight.runAmid (hsize : (program.size : Int) ≤ Word.greatest) (hlabels : program.count .null = 0)
    (hreturns : program.count .ret = 0) : ∀ (is : List (Incident σ)) {s : Session σ} {k : Nat},
    s.Valid settings program → s.Straight k → s.visited is <+: program.placesFrom k
  | [], _, _, _, _ => List.nil_prefix
  | i :: is, s, k, h, hk => by
    have hvalid : (s.meet i).Valid settings program := h.outside _ _
    have hplaces := (hk.meet i).places hvalid
    by_cases he : ∃ o, (s.meet i).tick.1 = .ended o
    · obtain ⟨o, he⟩ := he
      rw [visited_cons_ended he]
      exact ⟨_, hplaces.symm⟩
    · have hlive : ∀ o, (s.meet i).tick.1 ≠ .ended o := fun o ho => he ⟨o, ho⟩
      rw [visited_cons hlive, hplaces, List.prefix_append_right_inj]
      exact Straight.runAmid hsize hlabels hreturns is ((s.meet i).tick_ticks.valid hvalid)
        ((hk.meet i).tick hvalid hsize hlabels hreturns hlive)

theorem straight_ready (h : s.Reachable settings program) (hp : s.phase = .ready) : s.Straight 0 := by
  refine ⟨fun _ _ => ?_, fun hr => ?_⟩
  · rw [h.fresh hp]
    rfl
  · rw [hp] at hr
    cases hr

end Unlabelled

end Session

theorem Program.nodup_placesFrom (p : Program) (k : Nat) : (p.placesFrom k).Nodup :=
  List.Nodup.map (fun _ _ h => Int.ofNat.inj h) List.nodup_range'

/-- Insights are sound for every run: whatever the settings and the device, whatever happens outside and whatever
has become of the session before.

- Without `RD` the device is never asked, and so sessions that differ in their devices only run alike, if the
  devices raise no stop and others raise it at the same times.
- Without `PRN` no value is given to the device, and the output is empty.
- Without `CALL` none is executed.
- Without labels a run that comes to a `CALL`, a `JMP` or a `JMPF` that finds a zero ends in a fault. So without
  `RETURN`, too, a run begins the instructions at the places from 0 on, in order, and none of them twice. -/
theorem insights_sound (settings : Settings) (program : Program) :
    (program.insights.reads = 0 →
      (∀ {σ : Type} [Device σ] {s : Session σ}, s.Reachable settings program → ∀ is : List (Incident σ),
        (s.polled.runAmid (is.map .polled)).1 = (s.runAmid is).1 ∧
          (s.polled.runAmid (is.map .polled)).2.device = { device := (s.runAmid is).2.device, asked := 0 }) ∧
      ∀ {σ τ : Type} [Device σ] [Device τ] {s : Session σ} {t : Session τ}, s.Reachable settings program →
        s.Alike (fun _ _ _ => True) t → (∀ v (d : σ), (Device.emit v d).raisesStop = false) →
        (∀ v (d : τ), (Device.emit v d).raisesStop = false) →
        ∀ {is : List (Incident σ)} {js : List (Incident τ)},
          List.Forall₂ (fun i j => i.raises = j.raises) is js → (s.runAmid is).1 = (t.runAmid js).1) ∧
    (program.insights.prints = 0 →
      ∀ {σ : Type} [Device σ] {s : Session σ}, s.Reachable settings program → ∀ is : List (Incident σ),
        (s.runAmid is).2.machine.output = #[] ∧ (∀ o, (s.runAmid is).1 = .ended o → o.output = #[]) ∧
        (s.overheard.runAmid (is.map .overheard)).1 = (s.runAmid is).1 ∧
          (s.overheard.runAmid (is.map .overheard)).2.device =
            { device := (s.runAmid is).2.device, heard := [] }) ∧
    (program.insights.calls = 0 →
      ∀ {σ : Type} [Device σ] {s : Session σ}, s.Reachable settings program → ∀ l, ¬s.Begins (.call l)) ∧
    (program.insights.labels = 0 →
      (∀ {σ : Type} [Device σ] {s : Session σ}, s.Reachable settings program → s.phase = .running →
        s.stopped = false → ∀ i, program.at? s.machine.pc = some i →
        i.opcode ∈ Opcode.labelled.map Opcode.mnemonic →
        (i.opcode = Opcode.jmpf.mnemonic → s.machine.memory.get s.machine.sp = 0) →
        ∃ o f, s.tick.1 = .ended o ∧ o.ending = .fault f) ∧
      (program.count .ret = 0 → (program.size : Int) ≤ Word.greatest →
        ∀ {σ : Type} [Device σ] {s : Session σ}, s.Reachable settings program → s.phase = .ready →
        ∀ is : List (Incident σ), s.visited is <+: (List.range program.size).map Int.ofNat ∧
          (s.visited is).Nodup)) := by
  refine ⟨fun hreads => ⟨?_, ?_⟩, ?_, ?_, fun hlabels => ⟨?_, ?_⟩⟩
  · intro σ _ s hs is
    obtain ⟨hprogress, hsession⟩ := s.polled_agrees is
    refine ⟨hprogress, ?_⟩
    rw [← hsession.device, ← hs.valid.runAmid_unasked hreads is]
  · intro σ τ _ _ s t hs halike hσ hτ is js hraises
    exact (hs.valid.runAmid_unread hreads hσ hτ halike hraises).progress
  · intro hprints σ _ s hs is
    have hempty := hs.unprinted hprints
    obtain ⟨hmachine, houtcome⟩ := Session.Valid.runAmid_unprinted hprints is hs.valid hempty
    exact ⟨hmachine, houtcome, hs.valid.overheard_unprinted hprints hempty is⟩
  · intro hcalls σ _ s hs l hb
    exact hs.valid.not_begins hb nofun hcalls
  · intro σ _ s hs hp hstopped i hi ho hzero
    exact hs.valid.jump_fails hlabels hp hstopped hi ho hzero
  · intro hreturns hsize σ _ s hs hp is
    have hvisited := Session.Straight.runAmid hsize hlabels hreturns is hs.valid (Session.straight_ready hs hp)
    refine ⟨?_, (program.nodup_placesFrom 0).sublist hvisited.sublist⟩
    rw [List.range_eq_range']
    exact hvisited

/-- A jump that is not taken and one that is, and no label. -/
def unlabelled : Program where
  instructions := [⟨"", "LDC", "1", ""⟩, ⟨"", "JMPF", "L", ""⟩, ⟨"", "LDC", "0", ""⟩, ⟨"", "JMPF", "L", ""⟩]

theorem insights_sound_unlabelled :
    let s : Session Scripted := .create { memory := 1 } unlabelled { answers := ["7"] }
    let t : Session Terminal := .create { memory := 1 } unlabelled {}
    let u := s.tick.2.tick.2.tick.2.tick.2
    unlabelled.insights = ⟨4, 0, 0, 0, 0, 0, 0⟩ ∧
      (s.polled.runAmid ((List.replicate 5 {}).map .polled)).2.device.asked = 0 ∧
      (s.runAmid (List.replicate 5 {})).1 = (t.runAmid (List.replicate 5 {})).1 ∧
      (s.overheard.runAmid ((List.replicate 5 {}).map .overheard)).2.device.heard = [] ∧
      ¬u.Begins (.call "L") ∧ (∃ o f, u.tick.1 = .ended o ∧ o.ending = .fault f) ∧
      s.visited (List.replicate 5 {}) = [0, 1, 2, 3] ∧ (s.visited (List.replicate 5 {})).Nodup := by
  intro s t u
  have hs : s.Reachable { memory := 1 } unlabelled := .create _
  have hu : u.Reachable { memory := 1 } unlabelled := .tick (.tick (.tick (.tick hs)))
  have hinsights : unlabelled.insights = ⟨4, 0, 0, 0, 0, 0, 0⟩ := by decide +kernel
  obtain ⟨hreads, hprints, hcalls, hlabels⟩ := insights_sound { memory := 1 } unlabelled
  simp only [hinsights, forall_const] at hreads hprints hcalls hlabels
  have halike : s.Alike (fun _ _ _ => True) t := ⟨rfl, rfl, rfl, rfl, rfl, trivial⟩
  have hquiet : List.Forall₂ (fun (i : Incident Scripted) (j : Incident Terminal) => i.raises = j.raises)
      (List.replicate 5 {}) (List.replicate 5 {}) := by
    simp only [List.replicate]
    repeat constructor
  refine ⟨hinsights, ?_, ?_, ?_, hcalls hu _, ?_, by decide +kernel, ?_⟩
  · rw [(hreads.1 hs _).2]
  · exact hreads.2 hs halike Scripted.unassuming.emit Terminal.unassuming.emit hquiet
  · rw [(hprints hs _).2.2.2]
  · exact hlabels.1 hu (by decide +kernel) (by decide +kernel) ⟨"", "JMPF", "L", ""⟩ (by decide +kernel)
      (by decide) fun _ => by decide +kernel
  · exact (hlabels.2 (by decide +kernel) (by decide) hs rfl _).2

end StackMachine
