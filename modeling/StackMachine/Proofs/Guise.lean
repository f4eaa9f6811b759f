/-
Guises: the same run under other circumstances. A guise changes settings, cells, trace, device and log
of a session in ways that no instruction can tell (`Guise`). A tick of the session in another guise is
the tick of the session, seen in that guise (`Guise.tick_session`), and so is a run, also one during
which something happens outside (`Guise.run_session`, `Guise.runAmid_session`).

Some faults may be due to what a guise changes, and then a run can break off that goes on in the other
guise. Up to there the two are the same run, so what the first one has printed is the beginning of what
the second one prints (`Guise.outlasts`).
-/
import StackMachine.Proofs.Past
import StackMachine.Proofs.Run

namespace StackMachine

/-! ## Actions that do not see a change -/

namespace Exec

/-- The action does the same on a machine to which the change has been made. A fault that does not pass
need not arise there. -/
def Blind (change : Machine → Machine) (passes : Fault → Prop) {α : Type} (x : Exec α) : Prop :=
  ∀ m, match x m with
    | .ok a m' => x (change m) = .ok a (change m')
    | .error f m' => passes f → x (change m) = .error f (change m')

/-- Moves the stack pointer. -/
def moveSp (d : Int) : Exec Unit := modify fun m => { m with sp := m.sp + d }

theorem push_eq (v : Word) (m : Machine) : push v m = (store (m.sp + 1) v >>= fun _ => moveSp 1) m := by
  simp only [push, store, bind, EStateM.bind]
  split <;> rfl

theorem pop_eq (m : Machine) : pop m = (load m.sp >>= fun v => moveSp (-1) >>= fun _ => pure v) m := by
  simp only [pop, load, bind, EStateM.bind]
  split <;> rfl

section Blind

variable {change : Machine → Machine} {passes : Fault → Prop} {α β : Type}

theorem blind_pure (a : α) : Blind change passes (pure a) := fun _ => rfl

theorem blind_throw (f : Fault) : Blind change passes (throw f : Exec α) := fun _ _ => rfl

theorem blind_modify {update : Machine → Machine} (h : ∀ m, update (change m) = change (update m)) :
    Blind change passes (modify update) := by
  intro m
  show EStateM.Result.ok PUnit.unit (update (change m)) = .ok PUnit.unit (change (update m))
  rw [h]

theorem Blind.bind {x : Exec α} {f : α → Exec β} (hx : Blind change passes x)
    (hf : ∀ a, Blind change passes (f a)) : Blind change passes (x >>= f) := by
  intro m
  have hxm := hx m
  simp only [Bind.bind, EStateM.bind]
  cases h : x m with
  | ok a m' =>
    rw [h] at hxm
    simp only [hxm]
    exact hf a m'
  | error e m' =>
    rw [h] at hxm
    intro hpass
    simp only [hxm hpass]

/-- What is done next may depend on a part of the machine that the change leaves. -/
theorem blind_get {f : Machine → Exec α} (hsame : ∀ m, f (change m) = f m)
    (hf : ∀ m, Blind change passes (f m)) : Blind change passes (get >>= f) := by
  intro m
  have hfm := hf m m
  show match f m m with
    | .ok a m' => f (change m) (change m) = .ok a (change m')
    | .error e m' => passes e → f (change m) (change m) = .error e (change m')
  rw [hsame]
  exact hfm

theorem blind_resolve (labels : Labels) (label : String) : Blind change passes (resolve labels label) := by
  unfold resolve
  cases labels.resolve label with
  | ok place => exact blind_pure place
  | error f => exact blind_throw f

end Blind

/-- A change that concerns neither the registers nor the output, and that a load and a store do not see. -/
structure Unseen (change : Machine → Machine) (passes : Fault → Prop) : Prop where
  load : ∀ a, Blind change passes (load a)
  store : ∀ a v, Blind change passes (store a v)
  with_pc : ∀ m i, change { m with pc := i } = { change m with pc := i }
  with_sp : ∀ m i, change { m with sp := i } = { change m with sp := i }
  with_output : ∀ m vs, change { m with output := vs } = { change m with output := vs }

namespace Unseen

variable {change : Machine → Machine} {passes : Fault → Prop} (h : Unseen change passes)

include h

theorem pc (m : Machine) : (change m).pc = m.pc := by
  have hsame := congrArg Machine.pc (h.with_pc m m.pc)
  exact hsame

theorem sp (m : Machine) : (change m).sp = m.sp := by
  have hsame := congrArg Machine.sp (h.with_sp m m.sp)
  exact hsame

theorem output (m : Machine) : (change m).output = m.output := by
  have hsame := congrArg Machine.output (h.with_output m m.output)
  exact hsame

theorem moveSp (d : Int) : Blind change passes (moveSp d) := by
  refine blind_modify fun m => ?_
  rw [h.sp]
  exact (h.with_sp m _).symm

theorem goTo (place : Nat) : Blind change passes (goTo place) :=
  blind_modify fun m => (h.with_pc m _).symm

theorem push (v : Word) : Blind change passes (push v) := by
  intro m
  rw [push_eq, push_eq, h.sp]
  exact (h.store _ v).bind (fun _ => h.moveSp 1) m

theorem pop : Blind change passes pop := by
  intro m
  rw [pop_eq, pop_eq, h.sp]
  exact (h.load _).bind (fun v => (h.moveSp _).bind fun _ => blind_pure v) m

theorem pushCells (base : Word) : ∀ n i : Nat, Blind change passes (pushCells base i n)
  | 0, _ => blind_pure ()
  | n + 1, i => (h.load _).bind fun v => (h.push v).bind fun _ => pushCells base n (i + 1)

theorem popCells (base : Word) : ∀ n : Nat, Blind change passes (popCells base n)
  | 0 => blind_pure ()
  | n + 1 => h.pop.bind fun v => (h.store _ v).bind fun _ => popCells base n

/-- No operation sees such a change. -/
theorem execute (labels : Labels) (op : Operation) : Blind change passes (op.execute labels) := by
  cases op with
  | ldc v => exact (h.push v).bind fun _ => blind_pure _
  | ldv a => exact (h.load _).bind fun v => (h.push v).bind fun _ => blind_pure _
  | binary o =>
    refine h.pop.bind fun b => h.pop.bind fun a => ?_
    cases o.eval? a b with
    | some v => exact (h.push v).bind fun _ => blind_pure _
    | none => exact (blind_throw _).bind fun _ => blind_pure _
  | unary o => exact h.pop.bind fun a => (h.push _).bind fun _ => blind_pure _
  | str a => exact h.pop.bind fun v => (h.store _ v).bind fun _ => blind_pure _
  | prn =>
    refine h.pop.bind fun v => Blind.bind (blind_modify fun m => ?_) fun _ => blind_pure _
    rw [h.output]
    exact (h.with_output m _).symm
  | call l =>
    refine (blind_resolve labels l).bind fun place => blind_get (fun m => by rw [h.pc]) fun m => ?_
    exact (h.push _).bind fun _ => (h.goTo place).bind fun _ => blind_pure _
  | ret =>
    exact h.pop.bind fun v => Blind.bind (blind_modify fun m => (h.with_pc m _).symm) fun _ => blind_pure _
  | jmp l => exact (blind_resolve labels l).bind fun place => (h.goTo place).bind fun _ => blind_pure _
  | jmpf l =>
    refine h.pop.bind fun v => ?_
    split
    · exact (blind_resolve labels l).bind fun place => (h.goTo place).bind fun _ => blind_pure _
    · exact blind_pure _
  | alloc base count => exact (h.pushCells base _ 0).bind fun _ => blind_pure _
  | dalloc base count => exact (h.popCells base _).bind fun _ => blind_pure _
  | rd | hlt | nop => exact blind_pure _

end Unseen

end Exec

/-! ## Guises -/

def LogEntry.isStep : LogEntry → Bool
  | .step .. => true
  | _ => false

/-- Other settings, cells, device, trace and log for the same run. The settings may only differ in what
the other changes make up for: as many steps are allowed, every cell that there is stays with its value,
what is to be recorded is recorded, and the device gives the same replies. -/
structure Guise (σ : Type) [Device σ] where
  settings : Settings → Settings
  memory : Memory → Memory
  trace : Array TraceEntry → Array TraceEntry
  device : σ → σ
  log : Array LogEntry → Array LogEntry
  /-- The faults that do not depend on what is changed. -/
  passes : Fault → Prop
  stepLimit_settings : ∀ c, (settings c).stepLimit = c.stepLimit
  contains_memory : ∀ {m : Memory} {a : Int}, m.Contains a → (memory m).Contains a
  get_memory : ∀ {m : Memory} {a : Int}, m.Contains a → (memory m).get a = m.get a
  memory_set : ∀ {m : Memory} {a : Int} (v : Word), m.Contains a →
    memory (m.set a v) = (memory m).set a v
  outside_memory : ∀ {m : Memory} {a : Int}, ¬m.Contains a → passes (m.outside a) →
    ¬(memory m).Contains a ∧ (memory m).outside a = m.outside a
  trace_empty : trace #[] = #[]
  trace_push : ∀ (c : Settings) (t : Array TraceEntry) (e : TraceEntry),
    trace (if c.trace then t.push e else t) = if (settings c).trace then (trace t).push e else trace t
  ask_device : ∀ (stopped : Bool) (d : σ),
    (∀ e, (Device.ask stopped d).reply = .refused e → passes e.toFault) →
    Device.ask stopped (device d) =
      { Device.ask stopped d with device := device (Device.ask stopped d).device }
  emit_device : ∀ (v : Word) (d : σ),
    Device.emit v (device d) = { Device.emit v d with device := device (Device.emit v d).device }
  log_step : ∀ (c : Settings) (l : Array LogEntry) (e : LogEntry), e.isStep = true →
    log (if c.trace then l.push e else l) = if (settings c).trace then (log l).push e else log l
  log_append : ∀ l l', (∀ e ∈ l', e.isStep = false) → log (l ++ l') = log l ++ l'

namespace Guise

variable {σ : Type} [Device σ] (g : Guise σ)

def machine (m : Machine) : Machine := { m with memory := g.memory m.memory, trace := g.trace m.trace }

def session (s : Session σ) : Session σ :=
  { s with
    settings := g.settings s.settings
    machine := g.machine s.machine
    device := g.device s.device
    log := g.log s.log }

def outcome (o : Outcome) : Outcome := { o with trace := g.trace o.trace }

def progress : Progress → Progress
  | .ended o => .ended (g.outcome o)
  | .waiting => .waiting
  | .running => .running

/-- What a tick or a run leads to, in this guise. -/
def result (r : Progress × Session σ) : Progress × Session σ := (g.progress r.1, g.session r.2)

/-- A run that has come this far has not ended with a fault that may depend on the guise. -/
def Admits (r : Progress) : Prop := ∀ o f, r = .ended o → o.ending = .fault f → g.passes f

/-- A device that is left as it is takes values as it does. -/
theorem emit_id (v : Word) (d : σ) :
    Device.emit v (id d) = { Device.emit v d with device := id (Device.emit v d).device } := rfl

/-! Settings, cells, a trace and a log that are left as they are. -/

theorem get_id {m : Memory} {a : Int} (_ : m.Contains a) : (id m).get a = m.get a := rfl

theorem set_id {m : Memory} {a : Int} (v : Word) (_ : m.Contains a) : id (m.set a v) = (id m).set a v := rfl

theorem trace_id : id (#[] : Array TraceEntry) = #[] := rfl

theorem trace_push_id (c : Settings) (t : Array TraceEntry) (e : TraceEntry) :
    id (if c.trace then t.push e else t) = if (id c).trace then (id t).push e else id t := rfl

theorem log_step_id (c : Settings) (l : Array LogEntry) (e : LogEntry) (_ : e.isStep = true) :
    id (if c.trace then l.push e else l) = if (id c).trace then (id l).push e else id l := rfl

theorem log_id (l l' : Array LogEntry) (_ : ∀ e ∈ l', e.isStep = false) : id (l ++ l') = id l ++ l' := rfl

theorem log_push (l : Array LogEntry) {e : LogEntry} (he : e.isStep = false) :
    g.log (l.push e) = (g.log l).push e := by
  rw [← Array.append_singleton, g.log_append l #[e] (by simpa using he), Array.append_singleton]

/-! ## Operations -/

open Exec

theorem blind_load (a : Int) : Blind g.machine g.passes (load a) := by
  intro m
  by_cases ha : m.memory.Contains a
  · simp only [load, if_pos ha]
    rw [if_pos (show (g.machine m).memory.Contains a from g.contains_memory ha)]
    exact congrArg (EStateM.Result.ok · _) (g.get_memory ha)
  · simp only [load, if_neg ha]
    intro hpass
    obtain ⟨hout, hfault⟩ := g.outside_memory ha hpass
    rw [if_neg (show ¬(g.machine m).memory.Contains a from hout)]
    exact congrArg (EStateM.Result.error · _) hfault

theorem blind_store (a : Int) (v : Word) : Blind g.machine g.passes (store a v) := by
  intro m
  by_cases ha : m.memory.Contains a
  · simp only [store, if_pos ha]
    rw [if_pos (show (g.machine m).memory.Contains a from g.contains_memory ha)]
    simp only [machine, g.memory_set v ha]
  · simp only [store, if_neg ha]
    intro hpass
    obtain ⟨hout, hfault⟩ := g.outside_memory ha hpass
    rw [if_neg (show ¬(g.machine m).memory.Contains a from hout)]
    exact congrArg (EStateM.Result.error · _) hfault

/-- No operation can tell in which guise the machine is. -/
theorem unseen : Unseen g.machine g.passes where
  load := g.blind_load
  store := g.blind_store
  with_pc _ _ := rfl
  with_sp _ _ := rfl
  with_output _ _ := rfl

/-! ## Ticks -/

open Session

variable (s : Session σ)

theorem finish_session (e : Ending) : (g.session s).finish e = g.result (s.finish e) := by
  have hm : { g.machine s.machine with trace := #[] } = g.machine { s.machine with trace := #[] } := by
    simp only [machine, g.trace_empty]
  have hl : ∀ entry : LogEntry, entry.isStep = false → g.log (s.log.push entry) = (g.log s.log).push entry :=
    fun _ => g.log_push s.log
  cases e with
  | fault f =>
    simp only [finish, result, session, hm, hl (.runFailed s.machine.pc f) rfl]
    rfl
  | halt | endOfProgram | stopped =>
    simp only [finish, result, session, hm, hl (.runFinished _ s.machine.steps s.machine.output.size) rfl]
    rfl

theorem retire_session (pc : Int) (op : Operation) :
    (g.session s).retire pc op = g.result (s.retire pc op) := by
  have hm : (g.session s).recorded pc op = g.machine (s.recorded pc op) := by
    simp only [recorded, machine, g.trace_push]
    rfl
  rw [retire_eq, retire_eq, hm]
  simp only [result, session, g.log_step s.settings s.log (.step s.machine.steps pc op s.machine.sp) rfl]
  rfl

theorem consult_session {ρ : Type} {act : σ → Response σ ρ}
    (h : act (g.device s.device) = { act s.device with device := g.device (act s.device).device }) :
    (g.session s).consult act = ((s.consult act).1, g.session (s.consult act).2) := by
  have hl : g.log (s.log ++ ((act s.device).notices.map .device).toArray) =
      g.log s.log ++ ((act s.device).notices.map .device).toArray := by
    apply g.log_append
    intro e he
    obtain ⟨n, -, rfl⟩ := List.mem_map.1 (Array.mem_toList_iff.2 he)
    rfl
  have hd : (g.session s).device = g.device s.device := rfl
  rw [consult_eq, consult_eq, hd, h]
  simp only [session, hl]

theorem shown_session (v : Word) : (g.session s).shown v = g.session (s.shown v) :=
  congrArg Prod.snd (g.consult_session s (g.emit_device v s.device))

variable {s}

theorem perform_session {op : Operation} (h : g.Admits (s.perform op).1) :
    (g.session s).perform op = g.result (s.perform op) := by
  have hblind := g.unseen.execute s.image.labels op s.machine
  have hexec : op.execute (g.session s).image.labels (g.session s).machine =
    op.execute s.image.labels (g.machine s.machine) := rfl
  rw [perform_eq] at h
  rw [perform_eq, perform_eq, hexec]
  rcases he : op.execute s.image.labels s.machine with ⟨d, m⟩ | ⟨f, m⟩
  · rw [he] at hblind
    simp only [hblind]
    cases d with
    | nothing => exact g.retire_session { s with machine := m } _ op
    | input => rfl
    | output v =>
      have hshown := g.shown_session { s with machine := m } v
      exact (congrArg (fun t => t.retire s.machine.pc op) hshown).trans
        (g.retire_session ({ s with machine := m }.shown v) _ op)
  · simp only [he] at h hblind
    simp only [hblind (h _ f rfl rfl)]
    exact g.finish_session { s with machine := m } _

theorem await_session (h : g.Admits s.await.1) : (g.session s).await = g.result s.await := by
  have ha : s.consult (Device.ask s.stopped) = ((Device.ask s.stopped s.device).reply, s.asked) := rfl
  unfold await at h ⊢
  rw [ha] at h ⊢
  have hrefused : ∀ e, (Device.ask s.stopped s.device).reply = .refused e → g.passes e.toFault := by
    intro e he
    rw [he] at h
    exact h _ _ rfl rfl
  have hs : (g.session s).stopped = s.stopped := rfl
  rw [hs, g.consult_session s (g.ask_device _ _ hrefused), ha]
  cases hr : (Device.ask s.stopped s.device).reply with
  | pending => rfl
  | waiting => rfl
  | refused e => exact g.finish_session s.asked _
  | answer v =>
    have hblind := g.unseen.push v s.asked.machine
    have hm : (g.session s.asked).machine = g.machine s.asked.machine := rfl
    rw [hr] at h
    simp only [hm]
    rcases he : Exec.push v s.asked.machine with ⟨_, m⟩ | ⟨f, m⟩
    · rw [he] at hblind
      simp only [hblind]
      exact g.retire_session { s.asked with machine := m } _ .rd
    · simp only [he] at h hblind
      simp only [hblind (h _ f rfl rfl)]
      exact g.finish_session { s.asked with machine := m } _

theorem charge_machine (m : Machine) (c : Settings) :
    (g.machine m).charge (g.settings c).stepLimit = (m.charge c.stepLimit).map g.machine := by
  rw [g.stepLimit_settings]
  unfold Machine.charge
  have hsteps : (g.machine m).steps = m.steps := rfl
  split
  · rw [hsteps]
    split <;> rfl
  · rfl

theorem cycle_session (h : g.Admits s.cycle.1) : (g.session s).cycle = g.result s.cycle := by
  have hstopped : (g.session s).stopped = s.stopped := rfl
  have hfetch : (g.session s).image.fetch? (g.session s).machine.pc = s.image.fetch? s.machine.pc := rfl
  have hcharge : (g.session s).machine.charge (g.session s).settings.stepLimit =
    (s.machine.charge s.settings.stepLimit).map g.machine := g.charge_machine _ _
  unfold cycle at h ⊢
  rw [hstopped, hfetch, hcharge]
  by_cases hs : s.stopped = true
  · rw [if_pos hs, if_pos hs]
    exact g.finish_session s _
  · rw [if_neg hs] at h ⊢
    rw [if_neg hs]
    split
    · exact g.finish_session s _
    · exact g.finish_session s _
    · exact g.finish_session s _
    · rename_i op hop hf
      simp only [hf] at h
      cases hc : s.machine.charge s.settings.stepLimit with
      | error f => exact g.finish_session s _
      | ok m =>
        simp only [hc] at h
        exact g.perform_session h

/-- A tick does the same in every guise, unless it ends with a fault that may depend on it. -/
theorem tick_session (h : g.Admits s.tick.1) : (g.session s).tick = g.result s.tick := by
  have hphase : (g.session s).phase = s.phase := rfl
  unfold tick at h ⊢
  rw [hphase]
  cases hp : s.phase with
  | ready =>
    simp only [result, session, g.log_push s.log (e := .runStarted s.image.code.size) rfl]
    rfl
  | halted => rfl
  | reading =>
    rw [hp] at h
    exact g.await_session h
  | running =>
    rw [hp] at h
    exact g.cycle_session h

/-! ## Runs -/

theorem admits_running : g.Admits .running := fun _ _ h => by cases h

theorem admits_waiting : g.Admits .waiting := fun _ _ h => by cases h

/-- A run does the same in every guise, unless it ends with a fault that may depend on it. -/
theorem run_session : ∀ (n : Nat) {s : Session σ}, g.Admits (s.run n).1 →
    (g.session s).run n = g.result (s.run n)
  | 0, s, _ => rfl
  | n + 1, s, h => by
    rw [run] at h
    rw [run, run]
    rcases ht : s.tick with ⟨r, t⟩
    rw [ht] at h
    have hadmits : g.Admits s.tick.1 := by
      rw [ht]
      cases r with
      | ended o => exact h
      | waiting => exact g.admits_waiting
      | running => exact g.admits_running
    rw [g.tick_session hadmits, ht]
    cases r with
    | ended o => rfl
    | waiting => rfl
    | running => exact run_session n h

/-- The same with incidents that do not depend on what the guise makes of the device. -/
theorem runAmid_session : ∀ {is : List (Incident σ)} {s : Session σ},
    (∀ i ∈ is, ∀ d, i.change (g.device d) = g.device (i.change d)) → g.Admits (s.runAmid is).1 →
    (g.session s).runAmid is = g.result (s.runAmid is)
  | [], s, _, _ => rfl
  | i :: is, s, his, h => by
    rw [List.forall_mem_cons] at his
    have hmeet : (g.session s).meet i = g.session (s.meet i) := by
      simp only [meet, session, his.1]
    by_cases he : ∃ o, (s.meet i).tick.1 = .ended o
    · obtain ⟨o, he⟩ := he
      have ht : (s.meet i).tick = (.ended o, (s.meet i).tick.2) := Prod.ext he rfl
      rw [runAmid_cons_ended ht] at h ⊢
      have htick := g.tick_session (he ▸ h)
      rw [ht] at htick
      exact runAmid_cons_ended (by rw [hmeet, htick]; rfl) is
    · have hlive : ∀ o, (s.meet i).tick.1 ≠ .ended o := fun o ho => he ⟨o, ho⟩
      have htick := g.tick_session (s := s.meet i) fun o _ ho => absurd ho (hlive o)
      rw [runAmid_cons hlive] at h ⊢
      rw [runAmid_cons, hmeet, htick]
      · exact runAmid_session his.2 h
      · intro o ho
        rw [hmeet, htick, result] at ho
        cases hr : (s.meet i).tick.1 with
        | ended o' => exact hlive o' hr
        | waiting => rw [hr] at ho; cases ho
        | running => rw [hr] at ho; cases ho

end Guise

/-! ## Runs that break off -/

namespace Session

variable {σ : Type} [Device σ]

/-- The run from `s` comes at least as far as a run with outcome `o` that was over within `n` ticks, and
whatever that run has printed it has printed by then. -/
structure Outlasts (s : Session σ) (o : Outcome) (n : Nat) : Prop where
  steps : ∀ k, n ≤ k → o.steps ≤ (s.run k).2.machine.steps
  output : ∀ k, o.steps ≤ (s.run k).2.machine.steps →
    o.output.toList <+: (s.run k).2.machine.output.toList
  ended : ∀ k o', (s.run k).1 = .ended o' → o.output.toList <+: o'.output.toList

/-- The last tick of a run and the run before it. -/
theorem run_last : ∀ {n : Nat} {s s' : Session σ} {o : Outcome}, s.phase ≠ .halted →
    s.run n = (.ended o, s') →
    ∃ m t, m < n ∧ s.run m = (.running, t) ∧ t.phase ≠ .halted ∧ t.tick = (.ended o, s')
  | 0, s, s', o, _, h => by cases h
  | n + 1, s, s', o, hp, h => by
    rw [run] at h
    rcases ht : s.tick with ⟨r, t⟩
    rw [ht] at h
    cases r with
    | ended o' => cases h; exact ⟨0, s, Nat.succ_pos n, rfl, hp, ht⟩
    | waiting => cases h
    | running =>
      obtain ⟨m, u, hm, hu, hup, hut⟩ := run_last ((ht ▸ s.tick_ticks).live (by simp)) h
      refine ⟨m + 1, u, Nat.succ_lt_succ hm, ?_, hup, hut⟩
      rw [run, ht]
      exact hu

/-- A run that is still going on was going on all the time. -/
theorem run_running_of_le {s t : Session σ} {k m : Nat} (hk : k ≤ m) (h : s.run m = (.running, t)) :
    ∃ u, s.run k = (.running, u) ∧ u.run (m - k) = (.running, t) := by
  obtain ⟨j, rfl⟩ := Nat.exists_eq_add_of_le hk
  rw [run_add] at h
  rw [Nat.add_sub_cancel_left]
  rcases hr : s.run k with ⟨r, u⟩
  rw [hr] at h
  cases r with
  | ended o => cases h
  | waiting => cases h
  | running => exact ⟨u, rfl, h⟩

section

variable {settings : Settings} {program : Program} {s : Session σ}

theorem Valid.run_running (h : s.Valid settings program) {m : Nat} {t : Session σ}
    (hm : s.run m = (.running, t)) : t.Valid settings program := by
  have := run_valid m h
  rwa [hm] at this

/-- The outcome of a run shows what was printed before its last tick: no tick prints and ends the run. -/
theorem Ticks.outcome_eq {r : Progress × Session σ} (ht : s.Ticks r) (h : s.Valid settings program)
    (hp : s.phase ≠ .halted) {o : Outcome} (ho : r.1 = .ended o) :
    o.output = s.machine.output ∧ r.2.machine.output = s.machine.output ∧ o.steps = r.2.machine.steps := by
  cases ht with
  | refuse hh => exact absurd hh hp
  | finish | refused | overflow => cases ho; exact ⟨rfl, rfl, rfl⟩
  | fail hb he =>
    cases ho
    have hq := (h.execute_error hb he).2.1.output
    exact ⟨hq, hq, rfl⟩
  | work | print | answer => rw [retire_eq] at ho; cases ho
  | _ => cases ho

/-- Only a tick that begins an instruction prints. -/
theorem Ticks.output_idle {r : Progress × Session σ} (ht : s.Ticks r) (h : s.Valid settings program)
    (hidle : r.2.machine.steps = s.machine.steps) : r.2.machine.output = s.machine.output := by
  have hnot : ∀ op, ¬s.Begins op := fun op hb => by
    have := (ht.grows h).begun op hb
    omega
  cases ht with
  | fail hb | work hb | print hb | read hb => exact absurd hb (hnot _)
  | answer => rw [retire_eq]; rfl
  | _ => rfl

/-- Where no instruction is begun nothing is printed. -/
theorem run_output_idle : ∀ (n : Nat) {s : Session σ}, s.Valid settings program →
    (s.run n).2.machine.steps = s.machine.steps → (s.run n).2.machine.output = s.machine.output
  | 0, s, _, _ => rfl
  | n + 1, s, h, hidle => by
    have hv := s.tick_ticks.valid h
    have hg := (s.tick_ticks.grows h).steps
    have hquiet := s.tick_ticks.output_idle h
    rw [run] at hidle ⊢
    rcases ht : s.tick with ⟨r, t⟩
    rw [ht] at hidle hv hg hquiet
    cases r with
    | ended o => exact hquiet hidle
    | waiting => exact hquiet hidle
    | running =>
      have hrest := (run_grows n hv).1
      have hsame : t.machine.steps = s.machine.steps := Nat.le_antisymm (hidle ▸ hrest) hg
      exact (run_output_idle n hv (hidle.trans hsame.symm)).trans (hquiet hsame)

/-- A run has come as far as its first tick. -/
theorem tick_steps_le_run (h : s.Valid settings program) (n : Nat) :
    s.tick.2.machine.steps ≤ (s.run (n + 1)).2.machine.steps := by
  have hv := s.tick_ticks.valid h
  rw [run]
  rcases ht : s.tick with ⟨r, t⟩
  rw [ht] at hv
  cases r with
  | ended o => exact Nat.le_refl _
  | waiting => exact Nat.le_refl _
  | running => exact (run_grows n hv).1

/-- The outcome of a run shows what the machine has printed. -/
theorem ended_output (h : s.Valid settings program) (hp : s.phase ≠ .halted) {n : Nat} {o : Outcome}
    (ho : (s.run n).1 = .ended o) : o.output = (s.run n).2.machine.output := by
  obtain ⟨m, t, -, hm, htp, htick⟩ := run_last hp (Prod.ext ho rfl : s.run n = (.ended o, (s.run n).2))
  have ht : t.Valid settings program := h.run_running hm
  have hticks := t.tick_ticks
  rw [htick] at hticks
  obtain ⟨hout, hmachine, -⟩ := hticks.outcome_eq ht htp rfl
  exact hout.trans hmachine.symm

/-- A run outlasts one that is broken off by the tick before which it has printed the same. -/
theorem outlasts_of_run {t : Session σ} (h : s.Valid settings program) (hp : s.phase ≠ .halted) {m n : Nat}
    (hm : s.run m = (.running, t)) (hmn : m < n) {o : Outcome} (houtput : o.output = t.machine.output)
    (hlow : t.machine.steps ≤ o.steps) (hhigh : o.steps ≤ t.tick.2.machine.steps) : s.Outlasts o n := by
  have ht : t.Valid settings program := h.run_running hm
  have hlater : ∀ k, m ≤ k → o.output.toList <+: (s.run k).2.machine.output.toList := by
    intro k hk
    obtain ⟨j, rfl⟩ := Nat.exists_eq_add_of_le hk
    rw [run_from hm, houtput]
    exact (run_grows j ht).2.1
  refine ⟨fun k hk => ?_, fun k hk => ?_, fun k o' ho' => ?_⟩
  · obtain ⟨j, rfl⟩ := Nat.exists_eq_add_of_le (Nat.le_trans hmn hk)
    rw [show m.succ + j = m + (j + 1) by omega, run_from hm]
    exact Nat.le_trans hhigh (tick_steps_le_run ht j)
  · by_cases hmk : m ≤ k
    · exact hlater k hmk
    · obtain ⟨u, hu, hut⟩ := run_running_of_le (Nat.le_of_not_le hmk) hm
      have huv : u.Valid settings program := h.run_running hu
      have hgrows := (run_grows (m - k) huv).1
      have hidle := run_output_idle (m - k) huv
      rw [hut] at hgrows hidle
      rw [hu] at hk ⊢
      -- as many instructions are begun at `u` as at `t`, so nothing is printed in between
      have hsame : t.machine.steps = u.machine.steps := Nat.le_antisymm (Nat.le_trans hlow hk) hgrows
      have hprinted : o.output = u.machine.output := houtput.trans (hidle hsame)
      exact hprinted ▸ List.prefix_refl o.output.toList
  · rw [ended_output h hp ho']
    apply hlater
    by_contra hkm
    obtain ⟨u, hu, -⟩ := run_running_of_le (Nat.le_of_not_le hkm) hm
    rw [hu] at ho'
    cases ho'

end

end Session

namespace Guise

open Session

variable {σ : Type} [Device σ] (g : Guise σ) {settings settings' : Settings} {program : Program}

theorem begins_session {s : Session σ} {op : Operation} (hb : s.Begins op) : (g.session s).Begins op :=
  ⟨hb.running, hb.unstopped, hb.fetched, hb.executable, fun n hn =>
    hb.within n (by rw [← hn]; exact (g.stepLimit_settings _).symm)⟩

/-- However a run ends, in another guise it comes at least as far and begins by printing the same. -/
theorem outlasts {s : Session σ} (h : s.Valid settings program) (h' : (g.session s).Valid settings' program)
    (hp : s.phase ≠ .halted) {n : Nat} {o : Outcome} (ho : (s.run n).1 = .ended o) :
    (g.session s).Outlasts o n := by
  obtain ⟨m, t, hmn, hm, htp, htick⟩ := run_last hp (Prod.ext ho rfl : s.run n = (.ended o, (s.run n).2))
  have ht : t.Valid settings program := h.run_running hm
  have hgm : (g.session s).run m = (.running, g.session t) := by
    rw [g.run_session m (by rw [hm]; exact g.admits_running), hm]
    rfl
  have hgt : (g.session t).Valid settings' program := h'.run_running hgm
  have hticks := t.tick_ticks
  rw [htick] at hticks
  obtain ⟨houtput, -, hsteps⟩ := hticks.outcome_eq ht htp rfl
  have hgrows := hticks.grows ht
  refine outlasts_of_run h' hp hgm hmn houtput (hsteps ▸ hgrows.steps) ?_
  have hgrows' := (g.session t).tick_ticks.grows hgt
  rw [hsteps]
  by_cases hb : ∃ op, t.Begins op
  · obtain ⟨op, hb⟩ := hb
    rw [hgrows.begun op hb, hgrows'.begun op (g.begins_session hb)]
    exact Nat.le_refl _
  · rw [hgrows.idle fun op hop => hb ⟨op, hop⟩]
    exact hgrows'.steps

end Guise

end StackMachine
