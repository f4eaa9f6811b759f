/-
Traces: keeping one changes nothing else, and it accounts for the whole run.

`Guise.untraced` is a session that keeps no trace. `Chronicle` is what the entries of a trace say about
the run: they are numbered, each one leads to the place of the next (`TraceEntry.next`), and the entries
of `PRN` show the values printed. Every tick keeps it (`Session.Ticks.chronicled`), so the trace in the
outcome tells the path of the run from the first instruction to the place where it ended.
-/
import StackMachine.Proofs.Access
import StackMachine.Proofs.Certificate
import StackMachine.Proofs.Guise

namespace StackMachine

/-- The log without the steps. -/
def LogEntry.unstepped (l : Array LogEntry) : Array LogEntry := l.filter (!·.isStep)

theorem LogEntry.unstepped_step (trace : Bool) (l : Array LogEntry) {e : LogEntry} (he : e.isStep = true) :
    unstepped (if trace then l.push e else l) = unstepped l := by
  unfold unstepped
  split
  · rw [Array.filter_push_of_neg (by simp [he]) (Array.size_push _)]
  · rfl

theorem LogEntry.unstepped_append {l l' : Array LogEntry} (h : ∀ e ∈ l', e.isStep = false) :
    unstepped (l ++ l') = unstepped l ++ l' := by
  have hkept : l'.filter (!·.isStep) = l' := by
    rw [Array.filter_eq_self]
    intro e he
    rw [h e he]
    rfl
  unfold unstepped
  rw [Array.filter_append Array.size_append, hkept]

/-- The session that does the same and keeps no trace: nothing is recorded, and no step is logged. -/
def Guise.untraced {σ : Type} [Device σ] : Guise σ where
  settings c := { c with trace := false }
  memory := id
  trace _ := #[]
  device := id
  log := LogEntry.unstepped
  passes _ := True
  stepLimit_settings _ := rfl
  contains_memory h := h
  get_memory _ := rfl
  memory_set _ _ := rfl
  outside_memory h _ := ⟨h, rfl⟩
  trace_empty := rfl
  trace_push _ _ _ := rfl
  ask_device _ _ _ := rfl
  emit_device := emit_id
  log_step c l _ he := LogEntry.unstepped_step c.trace l he
  log_append _ _ h := LogEntry.unstepped_append h

/-! ## What a trace says -/

/-- The place that the run goes on at after this entry. -/
def TraceEntry.next (e : TraceEntry) : Int :=
  match e.note with
  | some (.goesTo place) => place
  | _ => e.pc + 1

/-- The place of an entry; behind the last entry, the place that the run has come to. -/
def placeOf (entries : Array TraceEntry) (pc : Int) (k : Nat) : Int :=
  (entries[k]?.map TraceEntry.pc).getD pc

/-- The entries account for a run that has come to `pc` and has printed these lines. -/
structure Chronicle (entries : Array TraceEntry) (pc : Int) (lines : List String) : Prop where
  numbers : entries.toList.map TraceEntry.step = List.range' 1 entries.size
  starts : placeOf entries pc 0 = 0
  leads : ∀ k e, entries[k]? = some e → placeOf entries pc (k + 1) = e.next
  prints : (entries.toList.filter (·.operation = .prn)).map (·.note.map Note.text) = lines.map some

/-- The fault is raised by an instruction that is being executed, not by one that cannot be begun. -/
def Fault.isRaised : Fault → Bool
  | .undecodable _ | .stepLimitExceeded _ | .alreadyHalted => false
  | _ => true

def Ending.isRaised (e : Ending) : Bool := e.fault?.any Fault.isRaised

theorem Operation.Raises.isRaised {labels : Labels} {capacity : Nat} {op : Operation} {f : Fault}
    (h : op.Raises labels capacity f) : f.isRaised = true := by
  cases h <;> rfl

theorem Session.Ends.not_raised {σ : Type} {s : Session σ} {e : Ending} (he : s.Ends e) :
    e.isRaised = false := by
  cases he <;> rfl

theorem chronicle_nil : Chronicle #[] 0 [] := ⟨rfl, rfl, by simp, rfl⟩

/-- What an entry adds to the output. -/
def TraceEntry.Prints (e : TraceEntry) (output output' : Array Word) : Prop :=
  (∃ v, e.operation = .prn ∧ e.note = some (.printed v) ∧ output' = output.push v) ∨
    e.operation ≠ .prn ∧ output' = output

theorem placeOf_of_size_le {entries : Array TraceEntry} {k : Nat} (hk : entries.size ≤ k) (pc : Int) :
    placeOf entries pc k = pc := by
  unfold placeOf
  rw [Array.getElem?_eq_none hk]
  rfl

/-- An entry takes the place that the run has come to. -/
theorem placeOf_push {entries : Array TraceEntry} {k : Nat} (hk : k ≤ entries.size) (e : TraceEntry) (pc : Int) :
    placeOf (entries.push e) pc k = placeOf entries e.pc k := by
  rcases Nat.lt_or_eq_of_le hk with hlt | rfl
  · unfold placeOf
    rw [Array.getElem?_push_lt hlt, Array.getElem?_eq_getElem hlt]
    rfl
  · rw [placeOf_of_size_le (Nat.le_refl _), placeOf, Array.getElem?_push_size]
    rfl

/-- A trace is carried on by an entry with the next number, for the place that the run has come to. -/
theorem Chronicle.push {entries : Array TraceEntry} {output output' : Array Word} {e : TraceEntry}
    (h : Chronicle entries e.pc (output.toList.map resultText)) (hstep : e.step = entries.size + 1)
    (hprints : e.Prints output output') :
    Chronicle (entries.push e) e.next (output'.toList.map resultText) := by
  constructor
  · rw [Array.toList_push, List.map_append, h.numbers, Array.size_push, List.range'_1_concat]
    simp [hstep, Nat.add_comm]
  · rw [placeOf_push (Nat.zero_le _), h.starts]
  · intro k e' hk
    have hlt : k < (entries.push e).size := (Array.getElem?_eq_some_iff.1 hk).1
    rw [Array.size_push] at hlt
    rcases Nat.lt_or_eq_of_le (Nat.le_of_lt_succ hlt) with hlt | rfl
    · rw [Array.getElem?_push_lt hlt, ← Array.getElem?_eq_getElem hlt] at hk
      rw [placeOf_push hlt, h.leads k e' hk]
    · rw [Array.getElem?_push_size] at hk
      cases hk
      exact placeOf_of_size_le (by simp) _
  · rw [Array.toList_push, List.filter_append, List.map_append, h.prints]
    rcases hprints with ⟨v, hop, hnote, rfl⟩ | ⟨hop, rfl⟩
    · simp [hop, hnote, Note.text]
    · simp [hop]

/-! ## The entry of an instruction -/

/-- The entry of an operation that is done shows where the counter goes when it is advanced. -/
theorem Machine.entry_next (labels : Labels) {op : Operation} {m : Machine} {pc : Int}
    (hpc : Word.clampAdd pc 1 = pc + 1) (hc : op.Continues labels pc m) :
    (m.entry pc op).next = m.advance.pc := by
  have hstays : op.label? = none → op ≠ .ret → Word.clampAdd m.pc 1 = pc + 1 := by
    intro hlabel hret
    rcases hc with hc | ⟨l, -, hl, -⟩ | ⟨hop, -⟩
    · rw [hc, hpc]
    · rw [hlabel] at hl
      cases hl
    · exact absurd hop hret
  have hjumps : TraceEntry.next ⟨m.steps, pc, op, m.sp,
      if m.pc = pc then none else some (.goesTo (Word.clampAdd m.pc 1))⟩ = Word.clampAdd m.pc 1 := by
    by_cases h : m.pc = pc
    · rw [if_pos h, h, hpc]
      rfl
    · rw [if_neg h]
      rfl
  show TraceEntry.next ⟨m.steps, pc, op, m.sp, m.note pc op⟩ = Word.clampAdd m.pc 1
  cases op with
  | call | jmp | jmpf | ret => exact hjumps
  | prn =>
    rw [hstays rfl (by simp)]
    unfold note
    cases m.output.back? <;> rfl
  | _ => exact (hstays rfl (by simp)).symm

/-- A `PRN` that comes to its end has printed. -/
theorem Operation.demand_of_prn {labels : Labels} {m m' : Machine} {d : Demand}
    (h : Operation.execute labels .prn m = .ok d m') : ∃ v, d = .output v := by
  simp only [execute, Exec.bind_eq_ok] at h
  obtain ⟨v, _, -, _, _, -, h⟩ := h
  cases h
  exact ⟨v, rfl⟩

/-- The entry of an operation that is done shows what it has printed. -/
theorem Machine.entry_prints {labels : Labels} {op : Operation} {m m' : Machine} {d : Demand} (pc : Int)
    (h : op.execute labels m = .ok d m') (hl : op.Leaves labels m d m') :
    (m'.entry pc op).Prints m.output m'.output := by
  have houtput := hl.output
  cases d with
  | output v =>
    have hop := hl.prints ⟨v, rfl⟩
    subst hop
    refine .inl ⟨v, rfl, ?_, houtput⟩
    show m'.output.back?.map Note.printed = _
    rw [houtput, Array.back?_push]
    rfl
  | nothing | input =>
    refine .inr ⟨?_, houtput⟩
    rintro rfl
    obtain ⟨v, hv⟩ := Operation.demand_of_prn h
    cases hv

/-! ## What ticks record -/

namespace Session

variable {σ : Type} {settings : Settings} {program : Program} {s : Session σ}

/-- The trace kept so far accounts for the run so far. -/
def Chronicled (s : Session σ) : Prop :=
  s.settings.trace = true → s.phase ≠ .halted →
    Chronicle s.machine.trace s.machine.pc (s.machine.output.toList.map resultText)

/-- An instruction that is over is recorded where it was begun. -/
theorem chronicled_retire {pc : Int} {op : Operation} (output : Array Word)
    (h : s.settings.trace = true →
      Chronicle s.machine.trace pc (output.toList.map resultText) ∧ s.machine.trace.size + 1 = s.machine.steps)
    (hnext : (s.machine.entry pc op).next = s.machine.advance.pc)
    (hprints : (s.machine.entry pc op).Prints output s.machine.output) :
    (s.retire pc op).2.Chronicled := by
  rw [retire_eq]
  intro hon _
  have hon : s.settings.trace = true := hon
  obtain ⟨hc, hsize⟩ := h hon
  show Chronicle (s.recorded pc op).trace s.machine.advance.pc (s.machine.output.toList.map resultText)
  rw [recorded, if_pos hon, ← hnext]
  exact Chronicle.push hc hsize.symm hprints

/-- The counter does not stick at the instruction in hand. -/
theorem Valid.clampAdd_pc (h : s.Valid settings program) (hsize : (program.size : Int) ≤ Word.greatest)
    {r : Except DecodeError Operation} (hf : s.image.fetch? s.machine.pc = some r) :
    Word.clampAdd s.machine.pc 1 = s.machine.pc + 1 := by
  obtain ⟨i, hi, -⟩ := h.fetched hf
  have := Program.at?_eq_some hi
  unfold Word.clampAdd
  omega

/-- An operation that is done is entered at the place where it was begun. -/
theorem Chronicled.begun (hc : s.Chronicled) (h : s.Valid settings program)
    (hsize : (program.size : Int) ≤ Word.greatest) (hr : s.Recorded) {op : Operation} (hb : s.Begins op)
    {d : Demand} {m : Machine} (he : op.execute s.image.labels s.machine.counted = .ok d m) :
    (s.settings.trace = true →
      Chronicle m.trace s.machine.pc (s.machine.output.toList.map resultText) ∧ m.trace.size + 1 = m.steps) ∧
    (m.entry s.machine.pc op).next = m.advance.pc ∧
    (m.entry s.machine.pc op).Prints s.machine.output m.output := by
  have hl := (h.execute_ok hb he).2
  refine ⟨fun hon => ⟨?_, hr.begun h hb he hon⟩, ?_, ?_⟩
  · rw [(h.execute_counts hb he).2]
    exact hc hon (by rw [hb.running]; exact nofun)
  · exact Machine.entry_next s.image.labels (h.clampAdd_pc hsize hb.fetched) hl.pc
  · exact Machine.entry_prints (m := s.machine.counted) _ he hl

variable [Device σ]

theorem Ticks.chronicled {r : Progress × Session σ} (ht : s.Ticks r) (h : s.Valid settings program)
    (hsize : (program.size : Int) ≤ Word.greatest) (hr : s.Recorded) (hc : s.Chronicled) :
    r.2.Chronicled := by
  cases ht with
  | start hp => exact fun hon _ => hc hon (by rw [hp]; exact nofun)
  | refuse hp => exact hc
  | finish | fail | refused | overflow => exact fun _ hlive => absurd rfl hlive
  | pending | waiting => exact hc
  | @work op m hb he =>
    obtain ⟨htrace, hnext, hprints⟩ := hc.begun h hsize hr hb he
    exact chronicled_retire (s := { s with machine := m }) _ htrace hnext hprints
  | @print op v m hb he =>
    obtain ⟨htrace, hnext, hprints⟩ := hc.begun h hsize hr hb he
    exact chronicled_retire (s := { s with machine := m }.shown v) _ htrace hnext hprints
  | @read op m hb he =>
    rw [(h.execute_ok hb he).2.reads_only rfl]
    exact fun hon _ => hc hon (by rw [hb.running]; exact nofun)
  | answer hp =>
    unfold Recorded at hr
    rw [hp] at hr
    refine chronicled_retire s.machine.output ?_ ?_ (.inr ⟨nofun, rfl⟩)
    · exact fun hon => ⟨hc hon (by rw [hp]; exact nofun), hr hon⟩
    · exact Machine.entry_next s.image.labels (h.clampAdd_pc hsize (h.reading hp)) (.inl rfl)

/-- The trace that a run hands over accounts for all of it. Only an instruction that has failed is counted
and not recorded. -/
theorem Ticks.outcome_chronicled {r : Progress × Session σ} (ht : s.Ticks r) (h : s.Valid settings program)
    (hr : s.Recorded) (hc : s.Chronicled) (hon : s.settings.trace = true) (hp : s.phase ≠ .halted) {o : Outcome}
    (ho : r.1 = .ended o) :
    Chronicle o.trace o.pc o.outputLines ∧ o.trace.size + (if o.ending.isRaised then 1 else 0) = o.steps := by
  have hchronicle := hc hon hp
  have hrecorded := hr hon
  cases ht with
  | refuse hh => exact absurd hh hp
  | @finish e hrunning he =>
    cases ho
    rw [hrunning] at hrecorded
    refine ⟨hchronicle, ?_⟩
    show s.machine.trace.size + (if e.isRaised then 1 else 0) = s.machine.steps
    rw [he.not_raised]
    exact hrecorded
  | @fail op f m hb he =>
    cases ho
    obtain ⟨hmidway, hquiet, hraises⟩ := h.execute_error hb he
    rw [hb.running] at hrecorded
    have htrace : m.trace = s.machine.trace := hmidway.trace
    have hpc : m.pc = s.machine.pc := hquiet.pc
    have houtput : m.output = s.machine.output := hquiet.output
    have hsteps : m.steps = s.machine.steps + 1 := hmidway.steps
    constructor
    · show Chronicle m.trace m.pc (m.output.toList.map resultText)
      rw [htrace, hpc, houtput]
      exact hchronicle
    · show m.trace.size + (if f.isRaised then 1 else 0) = m.steps
      rw [hraises.isRaised, htrace, hsteps]
      exact congrArg (· + 1) hrecorded
  | @refused e hreading ha =>
    cases ho
    rw [hreading] at hrecorded
    refine ⟨hchronicle, ?_⟩
    cases e <;> exact hrecorded
  | overflow hreading ha hout =>
    cases ho
    rw [hreading] at hrecorded
    exact ⟨hchronicle, hrecorded⟩
  | work | print | answer => rw [retire_eq] at ho; cases ho
  | _ => cases ho

end Session

/-- Tracing is invisible, and the trace is a complete account. With and without a trace, a run goes the same
way tick by tick, whatever happens outside: outcome, machine, device and log differ in what was recorded
and in nothing else. The trace in the outcome has the entries 1, 2, 3 and so on, as many as instructions
were begun, less the one that failed if one did; it leads from the first place of the program to the place
where the run ended; and it shows what was printed. -/
theorem trace_accounts_for_run {σ : Type} [Device σ] (settings : Settings) (program : Program) (device : σ)
    (hsize : (program.size : Int) ≤ Word.greatest) :
    let traced : Session σ := .create { settings with trace := true } program device
    let silent : Session σ := .create { settings with trace := false } program device
    (∀ n, silent.run n = Guise.untraced.result (traced.run n)) ∧
    (∀ is, silent.runAmid is = Guise.untraced.result (traced.runAmid is)) ∧
    ∀ o, (∃ n, (traced.run n).1 = .ended o) ∨ (∃ is, (traced.runAmid is).1 = .ended o) →
      Chronicle o.trace o.pc o.outputLines ∧
      o.trace.size + (if o.ending.isRaised then 1 else 0) = o.steps := by
  intro traced silent
  have hsilent : silent = Guise.untraced.session traced := rfl
  refine ⟨fun n => ?_, fun is => ?_, fun o ho => ?_⟩
  · rw [hsilent]
    exact Guise.untraced.run_session n fun _ _ _ _ => trivial
  · rw [hsilent]
    exact Guise.untraced.runAmid_session (fun _ _ _ => rfl) fun _ _ _ _ => trivial
  · have hamid : ∃ is s', traced.runAmid is = (.ended o, s') := by
      rcases ho with ⟨n, hn⟩ | ⟨is, his⟩
      · exact ⟨_, _, Session.runAmid_quiet (Prod.ext hn rfl)⟩
      · exact ⟨is, _, Prod.ext his rfl⟩
    obtain ⟨is, s', hrun⟩ := hamid
    obtain ⟨t, ⟨hv, hr, hc⟩, hp, htick⟩ := Session.runAmid_ended
      (P := fun s => s.Valid { settings with trace := true } program ∧ s.Recorded ∧ s.Chronicled)
      (fun s i hs => ⟨hs.1.outside _ _, hs.2.1, hs.2.2⟩)
      (fun s hs => ⟨s.tick_ticks.valid hs.1, s.tick_ticks.recorded hs.1 hs.2.1,
        s.tick_ticks.chronicled hs.1 hsize hs.2.1 hs.2.2⟩)
      ⟨(Session.Reachable.create device).valid, fun _ => rfl, fun _ _ => chronicle_nil⟩ nofun hrun
    have hticks := t.tick_ticks
    rw [htick] at hticks
    exact hticks.outcome_chronicled hv hr hc (by rw [hv.settings_eq]) hp rfl

/-- Prints what it is given for as long as it is given something. -/
def echoing : Program where
  instructions := [⟨"L", "NULL", "", ""⟩, ⟨"", "RD", "", ""⟩, ⟨"", "PRN", "", ""⟩, ⟨"", "JMP", "L", ""⟩]

theorem trace_accounts_for_run_echoing :
    let traced := Session.create { memory := 1, trace := true } echoing ({ answers := ["5"] } : Scripted)
    let o : Outcome := ⟨.fault .inputCancelled, #[5], 6, 1, -1,
      #[⟨1, 0, .nop, -1, none⟩, ⟨2, 1, .rd, 0, none⟩, ⟨3, 2, .prn, -1, some (.printed 5)⟩,
        ⟨4, 3, .jmp "L", -1, some (.goesTo 0)⟩, ⟨5, 0, .nop, -1, none⟩]⟩
    (echoing.size : Int) ≤ Word.greatest ∧ (traced.run 9).1 = .ended o ∧
      Chronicle o.trace o.pc o.outputLines ∧ o.trace.size + (if o.ending.isRaised then 1 else 0) = o.steps := by
  intro traced o
  have hsize : (echoing.size : Int) ≤ Word.greatest := by decide
  have hrun : (traced.run 9).1 = .ended o := by decide +kernel
  obtain ⟨-, -, haccount⟩ :=
    trace_accounts_for_run { memory := 1 } echoing ({ answers := ["5"] } : Scripted) hsize
  exact ⟨hsize, hrun, haccount o (.inl ⟨9, hrun⟩)⟩

end StackMachine
