/-
Nothing printed is lost on the way to the device, given to it twice or in another order. The output of
a machine and what its device has been given grow together, tick by tick (`Session.Ticks.records`), so
in any session the device is given the outputs of the runs, one after another, and nothing else
(`output_reaches_device`).
-/
import StackMachine.Device.Terminal
import StackMachine.Proofs.Certificate
import StackMachine.Proofs.Past

namespace StackMachine

/-- `V` tells which values a device has been given: asking leaves them, and a value printed is put to
their end. -/
structure Device.Records {σ : Type} [Device σ] (V : σ → List Word → Prop) : Prop where
  ask : ∀ (stopped : Bool) (d : σ) (ws : List Word), V d ws → V (Device.ask stopped d).device ws
  emit : ∀ (v : Word) (d : σ) (ws : List Word), V d ws → V (Device.emit v d).device (ws ++ [v])

namespace Session

variable {σ : Type} [Device σ] {V : σ → List Word → Prop} {settings : Settings} {program : Program}

/-- The values that a device has been given are those given before and the output. -/
theorem Ticks.records {s : Session σ} {r : Progress × Session σ} (ht : s.Ticks r)
    (hV : Device.Records V) (h : s.Valid settings program) {before : List Word}
    (hs : V s.device (before ++ s.machine.output.toList)) :
    V r.2.device (before ++ r.2.machine.output.toList) := by
  cases ht with
  | start | refuse | finish => exact hs
  | @fail op f m hb he =>
    have houtput : m.output = s.machine.output := (h.execute_error hb he).2.1.output
    show V s.device (before ++ m.output.toList)
    rw [houtput]
    exact hs
  | @work op m hb he =>
    have houtput : m.output = s.machine.output := (h.execute_ok hb he).2.output
    rw [retire_eq]
    show V s.device (before ++ m.output.toList)
    rw [houtput]
    exact hs
  | @print op v m hb he =>
    have houtput : m.output = s.machine.output.push v := (h.execute_ok hb he).2.output
    rw [retire_eq]
    show V (Device.emit v s.device).device (before ++ m.output.toList)
    rw [houtput, Array.toList_push, ← List.append_assoc]
    exact hV.emit v _ _ hs
  | read hb he =>
    rw [(h.execute_ok hb he).2.reads_only rfl]
    exact hs
  | pending | waiting | refused | overflow => exact hV.ask _ _ _ hs
  | answer =>
    rw [retire_eq]
    exact hV.ask _ _ _ hs

/-- A run gives the device what it adds to the output. -/
theorem run_records (hV : Device.Records V) {s : Session σ} (h : s.Valid settings program) (before : List Word)
    (hs : V s.device (before ++ s.machine.output.toList)) (n : Nat) :
    V (s.run n).2.device (before ++ (s.run n).2.machine.output.toList) := by
  refine (run_keeps (P := fun s => s.Valid settings program ∧ V s.device (before ++ s.machine.output.toList))
    (fun s hs => ?_) n ⟨h, hs⟩).2
  exact ⟨s.tick_ticks.valid hs.1, s.tick_ticks.records hV hs.1 hs.2⟩

/-- So does one with incidents that leave this alone. -/
theorem runAmid_records (hV : Device.Records V) {s : Session σ} (h : s.Valid settings program)
    (is : List (Incident σ)) (his : ∀ i ∈ is, ∀ d ws, V d ws → V (i.change d) ws) (before : List Word)
    (hs : V s.device (before ++ s.machine.output.toList)) :
    V (s.runAmid is).2.device (before ++ (s.runAmid is).2.machine.output.toList) := by
  refine (runAmid_keeps (A := fun i => ∀ d ws, V d ws → V (i.change d) ws)
    (P := fun s => s.Valid settings program ∧ V s.device (before ++ s.machine.output.toList))
    (fun s i hi hs => ⟨hs.1.outside _ _, hi _ _ hs.2⟩) (fun s hs => ?_) his ⟨h, hs⟩).2
  exact ⟨s.tick_ticks.valid hs.1, s.tick_ticks.records hV hs.1 hs.2⟩

/-- Only a session that is halted refuses to run. -/
theorem runAmid_not_refused {s t : Session σ} (h : s.Valid settings program) (hp : s.phase ≠ .halted)
    {is : List (Incident σ)} {o : Outcome} (hrun : s.runAmid is = (.ended o, t)) :
    o.ending ≠ .fault .alreadyHalted := by
  intro ho
  obtain ⟨u, hu, hup, htick⟩ := runAmid_ended (P := fun u => u.Valid settings program)
    (fun _ _ hs => hs.outside _ _) (fun s hs => s.tick_ticks.valid hs) h hp hrun
  have hcertified := (htick ▸ u.tick_ticks).certified hu hup o t rfl
  obtain ⟨-, i, -, hexplained⟩ := hcertified.fault _ ho
  exact hexplained.live rfl

/-! ## All runs of a session -/

omit [Device σ] in
theorem Halted.output {s : Session σ} {o : Outcome} (h : s.Halted o) : s.machine.output = o.output :=
  congrArg Outcome.output h.shows

variable {allowed : (σ → σ) → Prop} {device : σ} {turns : List Turn} {s : Session σ}

/-- A run that is not refused gives the device its output. -/
theorem Remembers.records (hV : Device.Records V) (h : s.Remembers settings program turns)
    (hlast : lastRun? turns = none) {is : List (Incident σ)}
    (his : ∀ i ∈ is, ∀ d ws, V d ws → V (i.change d) ws) (before : List Word) (hs : V s.device before)
    {o : Outcome} {t : Session σ} (hrun : s.runAmid is = (.ended o, t)) :
    V t.device (before ++ o.output.toList) := by
  have hempty : s.machine.output = #[] := by
    rw [(h.fresh hlast).2.1]
    rfl
  have hrecords := runAmid_records hV h.valid is his before (by simpa [hempty] using hs)
  rw [hrun, ((h.runAmid hrun).halted o rfl).output] at hrecords
  exact hrecords

/-- The outputs of all runs that were not refused, the earliest first. -/
def printed : List Turn → List Word
  | .run o :: turns => printed turns ++ if o.ending = .fault .alreadyHalted then [] else o.output.toList
  | .stop :: turns => printed turns
  | .reset :: turns => printed turns
  | [] => []

/-- What a device has been given in a session is what the runs have printed. -/
theorem Past.records (hV : Device.Records V)
    (hallowed : ∀ change, allowed change → ∀ d ws, V d ws → V (change d) ws) (hdevice : V device [])
    (h : Past allowed settings program device turns s) : V s.device (printed turns) := by
  induction h with
  | create => exact hdevice
  | @run turns s t is o h his hrun ih =>
    have hpast := h.remembers
    cases hlast : lastRun? turns with
    | none =>
      rw [printed, if_neg (runAmid_not_refused hpast.valid (hpast.not_halted_iff.2 hlast) hrun)]
      exact hpast.records hV hlast (fun i hi => hallowed _ (his i hi)) _ ih hrun
    | some o' =>
      cases is with
      | nil => cases hrun
      | cons i is =>
        rw [(hpast.halted o' hlast).runAmid] at hrun
        cases hrun
        rw [printed, if_pos (by rfl), List.append_nil]
        exact hallowed _ (his i List.mem_cons_self) _ _ ih
  | stop _ ih => exact ih
  | reset _ ih => exact ih
  | outside _ hchange ih => exact hallowed _ hchange _ _ ih

end Session

/-! ## Listening to a device -/

/-- A device, and the values that it has been given while somebody was listening. -/
structure Overheard (σ : Type) where
  device : σ
  heard : List Word := []

section Overheard

variable {σ : Type}

/-- The same session, with somebody listening from now on. -/
def Session.overheard (s : Session σ) : Session (Overheard σ) where
  settings := s.settings
  image := s.image
  machine := s.machine
  device := { device := s.device }
  stopped := s.stopped
  phase := s.phase
  log := s.log

def Incident.overheard (i : Incident σ) : Incident (Overheard σ) where
  raises := i.raises
  change d := { d with device := i.change d.device }

variable [Device σ]

/-- Whoever listens hears each value, and the device does not notice. -/
instance : Device (Overheard σ) where
  ask stopped d :=
    let r := Device.ask stopped d.device
    { reply := r.reply
      device := { d with device := r.device }
      raisesStop := r.raisesStop
      notices := r.notices }
  emit v d :=
    let r := Device.emit v d.device
    { reply := r.reply
      device := { device := r.device, heard := d.heard ++ [v] }
      raisesStop := r.raisesStop
      notices := r.notices }

theorem Overheard.records : Device.Records fun (d : Overheard σ) ws => d.heard = ws where
  ask _ _ _ h := h
  emit v _ _ h := congrArg (· ++ [v]) h

theorem Overheard.imitates :
    Device.Imitates (fun (_ : Bool) (d : Overheard σ) (e : σ) => d.device = e) fun _ => 0 where
  ask h := by
    subst h
    exact .inl ⟨rfl, rfl, rfl⟩
  emit v h := by
    subst h
    exact ⟨rfl, rfl⟩

/-- Listening changes nothing. -/
theorem Session.overheard_agrees (s : Session σ) (is : List (Incident σ)) :
    Session.Agree (fun _ d e => d.device = e) (s.overheard.runAmid (is.map .overheard)) (s.runAmid is) :=
  Session.Alike.runAmid Overheard.imitates (f := .overheard) (fun _ => rfl)
    (fun i _ d e (hde : d.device = e) => congrArg i.change hde) is ⟨rfl, rfl, rfl, rfl, rfl, rfl⟩

omit [Device σ] in
theorem Session.Valid.overheard {settings : Settings} {program : Program} {s : Session σ}
    (h : s.Valid settings program) : s.overheard.Valid settings program :=
  ⟨h.settings_eq, h.image_eq, h.bounded, h.reading⟩

omit [Device σ] in
theorem Incident.heard_overheard {is : List (Incident σ)} : ∀ i ∈ is.map Incident.overheard,
    ∀ (d : Overheard σ) ws, d.heard = ws → (i.change d).heard = ws := by
  intro i hi d ws hd
  obtain ⟨j, -, rfl⟩ := List.mem_map.1 hi
  exact hd

/-- Whoever listens to a run that is not refused hears its output and changes nothing. -/
theorem Session.Remembers.overheard {settings : Settings} {program : Program} {turns : List Session.Turn}
    {s t : Session σ} (h : s.Remembers settings program turns) (hlast : Session.lastRun? turns = none)
    {is : List (Incident σ)} {o : Outcome} (hrun : s.runAmid is = (.ended o, t)) :
    ∃ t', s.overheard.runAmid (is.map .overheard) = (.ended o, t') ∧
      t'.device = { device := t.device, heard := o.output.toList } := by
  obtain ⟨hprogress, hsession⟩ := s.overheard_agrees is
  rw [hrun] at hprogress hsession
  have hrun' : s.overheard.runAmid (is.map .overheard) =
    (.ended o, (s.overheard.runAmid (is.map .overheard)).2) := Prod.ext hprogress rfl
  have h' : s.overheard.Remembers settings program turns :=
    ⟨h.valid.overheard, h.fresh, fun o ho => ⟨(h.halted o ho).phase, (h.halted o ho).shows⟩⟩
  have hheard := h'.records Overheard.records hlast Incident.heard_overheard [] rfl hrun'
  refine ⟨_, hrun', ?_⟩
  rw [← hsession.device, ← List.nil_append o.output.toList, ← hheard]

end Overheard

/-! ## Devices that keep what they are given -/

theorem Scripted.records : Device.Records fun (d : Scripted) ws => d.emitted.toList = ws where
  ask stopped d ws h := by
    show (d.ask stopped).device.emitted.toList = ws
    unfold Scripted.ask
    split
    · exact h
    · split <;> exact h
  emit v d ws h := by
    show (d.emitted.push v).toList = ws ++ [v]
    rw [Array.toList_push, h]

/-- A terminal that writes what it is given, and nothing else, has written these values. -/
structure Terminal.Shows (t : Terminal) (ws : List Word) : Prop where
  echo : t.echo = true
  prompt : t.prompt = none
  failure : t.failure = none
  written : t.written = String.join (ws.map fun v => resultText v ++ "\n")

namespace Terminal

/-- Input does not matter for what is written. -/
theorem Shows.reads {t : Terminal} {ws : List Word} (h : t.Shows ws) (input : List UInt8)
    (closed reading : Bool) : { t with input := input, closed := closed, reading := reading }.Shows ws :=
  ⟨h.echo, h.prompt, h.failure, h.written⟩

theorem Shows.readLine {t : Terminal} {ws : List Word} (h : t.Shows ws) (stopped : Bool) :
    (t.readLine stopped).device.Shows ws := by
  unfold Terminal.readLine
  split
  · exact h
  · simp only
    split
    · exact h.reads _ _ _
    · split <;> exact h.reads _ _ _

theorem records : Device.Records Shows where
  ask stopped t ws h := by
    show (t.ask stopped).device.Shows ws
    unfold Terminal.ask
    split
    · exact h.readLine stopped
    · split
      · exact h
      · have hprompt : t.writePrompt = t := by rw [writePrompt, h.prompt]
        rw [hprompt]
        exact h.reads _ _ _
  emit v t ws h := by
    show (t.emit v).device.Shows (ws ++ [v])
    rw [Terminal.emit, if_pos h.echo]
    show (t.write (resultText v ++ "\n")).Shows (ws ++ [v])
    rw [write, if_neg (by simp [h.failure])]
    refine ⟨h.echo, h.prompt, h.failure, ?_⟩
    show t.written ++ (resultText v ++ "\n") = _
    rw [h.written, List.map_append, String.join_append, List.map_singleton]
    simp

end Terminal

/-- A change that concerns the answers only. -/
def Scripted.KeepsEmitted (change : Scripted → Scripted) : Prop := ∀ d, (change d).emitted = d.emitted

/-- A change that concerns the input only. -/
def Terminal.KeepsWritten (change : Terminal → Terminal) : Prop :=
  ∀ t, ∃ input closed, change t = { t with input := input, closed := closed }

/-- Nothing printed is lost, repeated or reordered. The output of a run, however the run ends, is what
the device is given meanwhile: whoever listens to a session that is not halted hears just that, and the
run is the same. So prepared answers keep the outputs of all runs, one after another, and a terminal
that can write and has no prompt has written them, one on a line. Runs that are refused add nothing. -/
theorem output_reaches_device (settings : Settings) (program : Program) (turns : List Session.Turn) :
    (∀ {σ : Type} [Device σ] {device : σ} {s t : Session σ} {is : List (Incident σ)} {o : Outcome},
      s.Past (fun _ => True) settings program device turns → s.phase ≠ .halted →
      s.runAmid is = (.ended o, t) →
        ∃ t', s.overheard.runAmid (is.map .overheard) = (.ended o, t') ∧
          t'.device = { device := t.device, heard := o.output.toList }) ∧
    (∀ {answers : List String} {s : Session Scripted},
      s.Past Scripted.KeepsEmitted settings program { answers } turns →
        s.device.emitted.toList = Session.printed turns) ∧
    (∀ {input : List UInt8} {closed : Bool} {s : Session Terminal},
      s.Past Terminal.KeepsWritten settings program { input, closed } turns →
        s.device.written = String.join ((Session.printed turns).map fun v => resultText v ++ "\n")) := by
  refine ⟨fun h hp hrun => ?_, fun h => ?_, fun h => ?_⟩
  · exact h.remembers.overheard (h.remembers.not_halted_iff.1 hp) hrun
  · refine h.records Scripted.records (fun change hchange d ws hd => ?_) rfl
    rw [hchange, hd]
  · refine (h.records Terminal.records (fun change hchange t ws ht => ?_) ⟨rfl, rfl, rfl, rfl⟩).written
    obtain ⟨input, closed, he⟩ := hchange t
    rw [he]
    exact ht.reads _ _ _

/-- Two runs, with a refused one and a reset between them. -/
theorem output_reaches_device_printing :
    let settings : Settings := { memory := 1 }
    let terminal : Session Terminal := .create settings printing { input := [55, 10, 56, 10] }
    let scripted : Session Scripted := .create settings printing { answers := ["7", "8"] }
    let o : Outcome := ⟨.endOfProgram, #[7], 2, 2, -1, #[]⟩
    (∃ t, terminal.overheard.runAmid (List.replicate 7 {}) = (.ended o, t) ∧ t.device.heard = [7]) ∧
      (((scripted.run 6).2.run 1).2.reset.run 6).2.device.emitted.toList = [7, 8] ∧
      (((terminal.run 7).2.run 1).2.reset.run 7).2.device.written = "Res: 7\nRes: 8\n" := by
  intro settings terminal scripted o
  let turns : List Session.Turn := [.run { o with output := #[8] }, .reset, .run o.refusal, .run o]
  have hscripted : (((scripted.run 6).2.run 1).2.reset.run 6).2.Past Scripted.KeepsEmitted settings printing
      { answers := ["7", "8"] } turns := by
    have hid : Scripted.KeepsEmitted id := fun _ => rfl
    refine .run_undisturbed hid (.reset (.run_undisturbed hid (.run_undisturbed hid .create ?_) ?_)) ?_
    all_goals decide +kernel
  have hterminal : (((terminal.run 7).2.run 1).2.reset.run 7).2.Past Terminal.KeepsWritten settings printing
      { input := [55, 10, 56, 10] } turns := by
    have hid : Terminal.KeepsWritten id := fun _ => ⟨_, _, rfl⟩
    refine .run_undisturbed hid (.reset (.run_undisturbed hid (.run_undisturbed hid .create ?_) ?_)) ?_
    all_goals decide +kernel
  refine ⟨?_, (output_reaches_device settings printing turns).2.1 hscripted, ?_⟩
  · have hrun : terminal.runAmid (List.replicate 7 {}) = (.ended o, (terminal.runAmid (List.replicate 7 {})).2) :=
      Prod.ext (by decide +kernel) rfl
    obtain ⟨t, ht, hdevice⟩ := (output_reaches_device settings printing []).1 .create nofun hrun
    exact ⟨t, ht, by rw [hdevice]⟩
  · rw [(output_reaches_device settings printing turns).2.2 hterminal]
    decide +kernel

end StackMachine
