/-
What a tick can do. `Session.Ticks` lists the cases of `Session.tick` once, each with the guards
it is taken under; what ticks keep is proved from that list.

`Session.Reachable` are the sessions that running, stopping and resetting lead to, whatever
happens to the device between two ticks, and `Session.Valid` is what holds of all of them.
-/
import StackMachine.Session
import StackMachine.Proofs.Script

namespace StackMachine

namespace Machine

/-- The machine with one more instruction begun. -/
def counted (m : Machine) : Machine := { m with steps := m.steps + 1 }

theorem charge_ok {m m' : Machine} {limit : Option Nat} (h : m.charge limit = .ok m') :
    (∀ n, limit = some n → m.steps < n) ∧ m' = m.counted := by
  unfold charge at h
  split at h
  · split at h
    · rename_i n hn
      cases h
      exact ⟨fun k hk => by cases hk; exact hn, rfl⟩
    · cases h
  · cases h
    exact ⟨nofun, rfl⟩

theorem charge_error {m : Machine} {limit : Option Nat} {f : Fault} (h : m.charge limit = .error f) :
    ∃ n, limit = some n ∧ n ≤ m.steps ∧ f = .stepLimitExceeded n := by
  unfold charge at h
  split at h
  · split at h
    · cases h
    · rename_i n hn
      cases h
      exact ⟨n, rfl, by omega, rfl⟩
  · cases h

theorem charge_within {m : Machine} {limit : Option Nat} (h : ∀ n, limit = some n → m.steps < n) :
    m.charge limit = .ok m.counted := by
  cases limit with
  | none => rfl
  | some n => exact if_pos (h n rfl)

theorem charge_beyond {m : Machine} {limit : Option Nat} {n : Nat} (hn : limit = some n)
    (h : n ≤ m.steps) : m.charge limit = .error (.stepLimitExceeded n) := by
  subst hn
  exact if_neg (Nat.not_lt.2 h)

/-- The machine keeps to its settings: it has as many cells as they say, its stack pointer is -1
or the address of a cell, and it has not begun more instructions than it may. -/
structure Bounded (settings : Settings) (m : Machine) : Prop where
  capacity : m.memory.capacity = settings.memory
  sp_low : -1 ≤ m.sp
  sp_high : m.sp < settings.memory
  steps : ∀ n, settings.stepLimit = some n → m.steps ≤ n

theorem bounded_fresh (settings : Settings) : (fresh settings.memory).Bounded settings :=
  ⟨Memory.capacity_zeros _, Int.le_refl _, by show (-1 : Int) < _; omega, fun n _ => Nat.zero_le n⟩

theorem reset_eq_fresh (m : Machine) : m.reset = fresh m.memory.capacity := rfl

namespace Bounded

variable {settings : Settings} {m m' : Machine}

theorem sp_lt (h : m.Bounded settings) : m.sp < m.memory.capacity := by
  rw [h.capacity]; exact h.sp_high

theorem reset (h : m.Bounded settings) : m.reset.Bounded settings := by
  rw [reset_eq_fresh, h.capacity]
  exact bounded_fresh settings

theorem counted (h : m.Bounded settings) (hw : ∀ n, settings.stepLimit = some n → m.steps < n) :
    m.counted.Bounded settings :=
  ⟨h.capacity, h.sp_low, h.sp_high, fun n hn => hw n hn⟩

theorem midway (h : m.Bounded settings) (hm : m.Midway m') : m'.Bounded settings := by
  refine ⟨by rw [hm.capacity, h.capacity], hm.sp_low, ?_, fun n hn => by rw [hm.steps]; exact h.steps n hn⟩
  rw [← h.capacity]
  exact hm.sp_high

/-- The bound and a failed test leave one number of steps. -/
theorem steps_eq (h : m.Bounded settings) {n : Nat} (hn : settings.stepLimit = some n) (hle : n ≤ m.steps) :
    m.steps = n :=
  Nat.le_antisymm (h.steps n hn) hle

/-- The counter, the output and the trace are free. -/
theorem congr (h : m.Bounded settings) (hmem : m'.memory = m.memory) (hsp : m'.sp = m.sp)
    (hsteps : m'.steps = m.steps) : m'.Bounded settings := by
  refine ⟨by rw [hmem, h.capacity], by rw [hsp]; exact h.sp_low, by rw [hsp]; exact h.sp_high, ?_⟩
  rw [hsteps]
  exact h.steps

end Bounded

end Machine

theorem Image.fetch?_ofProgram (p : Program) (pc : Int) :
    (ofProgram p).fetch? pc = (p.at? pc).map Instruction.decode := by
  unfold fetch? Program.at? ofProgram Program.get?
  split
  · simp
  · rfl

/-- What is fetched is the instruction that the program has there. -/
theorem Image.fetch?_eq_some {p : Program} {pc : Int} {r : Except DecodeError Operation}
    (h : (ofProgram p).fetch? pc = some r) : ∃ i, p.at? pc = some i ∧ i.decode = r := by
  rw [fetch?_ofProgram] at h
  exact Option.map_eq_some_iff.1 h

namespace Session

variable {σ : Type}

/-! ## The end of an instruction and of a run -/

/-- The machine with the entry of an instruction in its trace, if one is kept. -/
def recorded (s : Session σ) (pc : Int) (op : Operation) : Machine :=
  { s.machine with
    trace := if s.settings.trace then s.machine.trace.push (s.machine.entry pc op)
      else s.machine.trace }

theorem retire_eq (s : Session σ) (pc : Int) (op : Operation) :
    s.retire pc op =
      (.running,
        { s with
          machine := (s.recorded pc op).advance
          phase := .running
          log := if s.settings.trace then s.log.push (.step s.machine.steps pc op s.machine.sp)
            else s.log }) := by
  unfold retire recorded
  cases s.settings.trace <;> rfl

/-! ## Beginning an instruction -/

/-- An instruction is in hand, and nothing keeps it from being executed. -/
structure Begins (s : Session σ) (op : Operation) : Prop where
  running : s.phase = .running
  unstopped : s.stopped = false
  fetched : s.image.fetch? s.machine.pc = some (.ok op)
  executable : op ≠ .hlt
  within : ∀ n, s.settings.stepLimit = some n → s.machine.steps < n

/-- The run ends before an instruction is begun. -/
inductive Ends (s : Session σ) : Ending → Prop
  | stopped : s.stopped = true → Ends s .stopped
  | left : s.stopped = false → s.image.fetch? s.machine.pc = none → Ends s .endOfProgram
  | undecodable {e : DecodeError} : s.stopped = false →
    s.image.fetch? s.machine.pc = some (.error e) → Ends s (.fault (.undecodable e))
  | halt : s.stopped = false → s.image.fetch? s.machine.pc = some (.ok .hlt) → Ends s .halt
  | limit {op : Operation} {n : Nat} : s.stopped = false →
    s.image.fetch? s.machine.pc = some (.ok op) → op ≠ .hlt → s.settings.stepLimit = some n →
    n ≤ s.machine.steps → Ends s (.fault (.stepLimitExceeded n))

/-! ## What ticks keep -/

/-- What holds of every reachable session. -/
structure Valid (settings : Settings) (program : Program) (s : Session σ) : Prop where
  settings_eq : s.settings = settings
  image_eq : s.image = .ofProgram program
  bounded : s.machine.Bounded settings
  reading : s.phase = .reading → s.image.fetch? s.machine.pc = some (.ok .rd)

section Valid

variable {settings : Settings} {program : Program} {s : Session σ}

theorem Valid.finish (h : s.Valid settings program) (e : Ending) :
    (s.finish e).2.Valid settings program :=
  ⟨h.settings_eq, h.image_eq, h.bounded.congr rfl rfl rfl, nofun⟩

theorem Valid.retire (h : s.Valid settings program) (pc : Int) (op : Operation) :
    (s.retire pc op).2.Valid settings program := by
  rw [retire_eq]
  exact ⟨h.settings_eq, h.image_eq, h.bounded.congr rfl rfl rfl, nofun⟩

theorem Valid.counted (h : s.Valid settings program) {op : Operation} (hb : s.Begins op) :
    s.machine.counted.Bounded settings := by
  have hw := hb.within
  rw [h.settings_eq] at hw
  exact h.bounded.counted hw

theorem Valid.execute_ok (h : s.Valid settings program) {op : Operation} (hb : s.Begins op)
    {d : Demand} {m : Machine} (he : op.execute s.image.labels s.machine.counted = .ok d m) :
    s.machine.counted.Midway m ∧ op.Leaves s.image.labels s.machine.counted d m :=
  Operation.execute_ok (h.counted hb).sp_low (h.counted hb).sp_lt he

theorem Valid.execute_error (h : s.Valid settings program) {op : Operation} (hb : s.Begins op)
    {f : Fault} {m : Machine} (he : op.execute s.image.labels s.machine.counted = .error f m) :
    s.machine.counted.Midway m ∧ op.Fails s.image.labels s.machine.counted f m :=
  Operation.execute_error (h.counted hb).sp_low (h.counted hb).sp_lt he

theorem Valid.with_machine (h : s.Valid settings program) {op : Operation} (hb : s.Begins op)
    {m : Machine} (hm : s.machine.counted.Midway m) : { s with machine := m }.Valid settings program :=
  ⟨h.settings_eq, h.image_eq, (h.counted hb).midway hm, fun hr => nomatch hb.running.symm.trans hr⟩

end Valid

/-! ## The cases of a tick -/

variable [Device σ]

/-- What asking the device leaves behind. -/
def asked (s : Session σ) : Session σ := (s.consult (Device.ask s.stopped)).2

/-- What showing a value leaves behind. -/
def shown (s : Session σ) (v : Word) : Session σ := (s.consult (Device.emit v)).2

/-- Everything that a tick can do. -/
inductive Ticks (s : Session σ) : Progress × Session σ → Prop
  | start : s.phase = .ready →
    Ticks s (.running,
      { s with phase := .running, log := s.log.push (.runStarted s.image.code.size) })
  | refuse : s.phase = .halted → Ticks s (.ended (s.outcome (.fault .alreadyHalted)), s)
  | finish {e : Ending} : s.phase = .running → s.Ends e → Ticks s (s.finish e)
  | fail {op : Operation} {f : Fault} {m : Machine} : s.Begins op →
    op.execute s.image.labels s.machine.counted = .error f m →
    Ticks s ({ s with machine := m }.finish (.fault f))
  | work {op : Operation} {m : Machine} : s.Begins op →
    op.execute s.image.labels s.machine.counted = .ok .nothing m →
    Ticks s ({ s with machine := m }.retire s.machine.pc op)
  | print {op : Operation} {v : Word} {m : Machine} : s.Begins op →
    op.execute s.image.labels s.machine.counted = .ok (.output v) m →
    Ticks s (({ s with machine := m }.shown v).retire s.machine.pc op)
  | read {op : Operation} {m : Machine} : s.Begins op →
    op.execute s.image.labels s.machine.counted = .ok .input m →
    Ticks s (.running, { s with machine := m, phase := .reading })
  | pending : s.phase = .reading → (Device.ask s.stopped s.device).reply = .pending →
    Ticks s (.running, s.asked)
  | waiting : s.phase = .reading → (Device.ask s.stopped s.device).reply = .waiting →
    Ticks s (.waiting, s.asked)
  | refused {e : DeviceError} : s.phase = .reading →
    (Device.ask s.stopped s.device).reply = .refused e →
    Ticks s (s.asked.finish (.fault e.toFault))
  | overflow {v : Word} : s.phase = .reading → (Device.ask s.stopped s.device).reply = .answer v →
    ¬s.machine.memory.Contains (s.machine.sp + 1) →
    Ticks s (s.asked.finish (.fault (s.machine.memory.outside (s.machine.sp + 1))))
  | answer {v : Word} : s.phase = .reading → (Device.ask s.stopped s.device).reply = .answer v →
    s.machine.memory.Contains (s.machine.sp + 1) →
    Ticks s ({ s.asked with
      machine := { s.machine with
        memory := s.machine.memory.set (s.machine.sp + 1) v
        sp := s.machine.sp + 1 } }.retire s.machine.pc .rd)

theorem perform_eq (s : Session σ) (op : Operation) :
    s.perform op =
      match op.execute s.image.labels s.machine with
      | .error f m => { s with machine := m }.finish (.fault f)
      | .ok .nothing m => { s with machine := m }.retire s.machine.pc op
      | .ok (.output v) m => ({ s with machine := m }.shown v).retire s.machine.pc op
      | .ok .input m => (.running, { s with machine := m, phase := .reading }) := rfl

theorem cycle_ticks {s : Session σ} (hp : s.phase = .running) : s.Ticks s.cycle := by
  unfold cycle
  by_cases hs : s.stopped = true
  · rw [if_pos hs]
    exact .finish hp (.stopped hs)
  rw [if_neg hs]
  rw [Bool.not_eq_true] at hs
  split
  · rename_i hf
    exact .finish hp (.left hs hf)
  · rename_i e hf
    exact .finish hp (.undecodable hs hf)
  · rename_i hf
    exact .finish hp (.halt hs hf)
  · rename_i op hop hf
    have hne : op ≠ .hlt := by rintro rfl; exact hop rfl
    cases hc : s.machine.charge s.settings.stepLimit with
    | error f =>
      obtain ⟨n, hn, hle, rfl⟩ := Machine.charge_error hc
      exact .finish hp (.limit hs hf hne hn hle)
    | ok m =>
      obtain ⟨hw, rfl⟩ := Machine.charge_ok hc
      have hb : s.Begins op := ⟨hp, hs, hf, hne, hw⟩
      show s.Ticks ({ s with machine := s.machine.counted }.perform op)
      rw [perform_eq]
      split
      · rename_i f m' he
        exact .fail hb he
      · rename_i m' he
        exact .work hb he
      · rename_i v m' he
        exact .print hb he
      · rename_i m' he
        exact .read hb he

theorem await_ticks {s : Session σ} (hp : s.phase = .reading) : s.Ticks s.await := by
  have ha : s.consult (Device.ask s.stopped) = ((Device.ask s.stopped s.device).reply, s.asked) := rfl
  unfold await
  rw [ha]
  cases hr : (Device.ask s.stopped s.device).reply with
  | pending => exact .pending hp hr
  | waiting => exact .waiting hp hr
  | refused e => exact .refused hp hr
  | answer v =>
    have hm : s.asked.machine = s.machine := rfl
    simp only [hm, Exec.push]
    by_cases hc : s.machine.memory.Contains (s.machine.sp + 1)
    · simp only [if_pos hc]
      exact .answer hp hr hc
    · simp only [if_neg hc]
      exact .overflow hp hr hc

/-- A tick does one of the things listed. -/
theorem tick_ticks (s : Session σ) : s.Ticks s.tick := by
  unfold tick
  split
  · rename_i hp
    exact .start hp
  · rename_i hp
    exact cycle_ticks hp
  · rename_i hp
    exact await_ticks hp
  · rename_i hp
    exact .refuse hp

theorem Begins.tick {s : Session σ} {op : Operation} (hb : s.Begins op) :
    s.tick = { s with machine := s.machine.counted }.perform op := by
  have htick : s.tick = s.cycle := by
    unfold Session.tick
    rw [hb.running]
  rw [htick, cycle, if_neg (by simp [hb.unstopped]), hb.fetched]
  cases op with
  | hlt => exact absurd rfl hb.executable
  | _ =>
    simp only [Machine.charge_within hb.within]

theorem Ends.tick {s : Session σ} {e : Ending} (he : s.Ends e) (hp : s.phase = .running) :
    s.tick = s.finish e := by
  have htick : s.tick = s.cycle := by
    unfold Session.tick
    rw [hp]
  rw [htick, cycle]
  cases he with
  | stopped hs => rw [if_pos hs]
  | left hs hf | undecodable hs hf | halt hs hf => rw [if_neg (by simp [hs]), hf]
  | @limit op n hs hf hop hn hle =>
    rw [if_neg (by simp [hs]), hf]
    cases op with
    | hlt => exact absurd rfl hop
    | _ => simp only [Machine.charge_beyond hn hle]

/-- The things listed exclude one another: what a tick can do is what it does. -/
theorem Ticks.tick_eq {s : Session σ} {r : Progress × Session σ} (ht : s.Ticks r) : s.tick = r := by
  have hawait : s.phase = .reading → s.tick = s.await := by
    intro hp
    rw [tick, hp]
  have ha : s.consult (Device.ask s.stopped) = ((Device.ask s.stopped s.device).reply, s.asked) := rfl
  cases ht with
  | start hp | refuse hp => rw [tick, hp]
  | finish hp he => exact he.tick hp
  | fail hb he | read hb he =>
    rw [hb.tick, perform_eq]
    simp only [he]
  | work hb he | print hb he =>
    rw [hb.tick, perform_eq]
    simp only [he]
    rfl
  | pending hp hr | waiting hp hr | refused hp hr => rw [hawait hp, await, ha, hr]
  | overflow hp hr hc =>
    rw [hawait hp, await, ha, hr]
    have hpush : ∀ v, Exec.push v s.asked.machine =
        .error (s.machine.memory.outside (s.machine.sp + 1)) s.machine :=
      fun v => if_neg hc
    simp only [hpush]
    rfl
  | answer hp hr hc =>
    rw [hawait hp, await, ha, hr]
    have hpush : ∀ v, Exec.push v s.asked.machine = .ok () { s.machine with
        memory := s.machine.memory.set (s.machine.sp + 1) v
        sp := s.machine.sp + 1 } :=
      fun v => if_pos hc
    simp only [hpush]

theorem Valid.asked {settings : Settings} {program : Program} {s : Session σ}
    (h : s.Valid settings program) : s.asked.Valid settings program :=
  ⟨h.settings_eq, h.image_eq, h.bounded, h.reading⟩

theorem Valid.shown {settings : Settings} {program : Program} {s : Session σ}
    (h : s.Valid settings program) (v : Word) : (s.shown v).Valid settings program :=
  ⟨h.settings_eq, h.image_eq, h.bounded, h.reading⟩

theorem Ticks.valid {settings : Settings} {program : Program} {s : Session σ}
    {r : Progress × Session σ} (ht : s.Ticks r) (h : s.Valid settings program) :
    r.2.Valid settings program := by
  cases ht with
  | start hp => exact ⟨h.settings_eq, h.image_eq, h.bounded, nofun⟩
  | refuse hp => exact h
  | finish hp he => exact h.finish _
  | fail hb he => exact (h.with_machine hb (h.execute_error hb he).1).finish _
  | work hb he => exact (h.with_machine hb (h.execute_ok hb he).1).retire _ _
  | print hb he => exact ((h.with_machine hb (h.execute_ok hb he).1).shown _).retire _ _
  | read hb he =>
    obtain ⟨hm, hl⟩ := h.execute_ok hb he
    refine ⟨h.settings_eq, h.image_eq, (h.counted hb).midway hm, fun _ => ?_⟩
    rw [hl.reads_only rfl, ← hl.reads.1 rfl]
    exact hb.fetched
  | pending hp hr => exact h.asked
  | waiting hp hr => exact h.asked
  | refused hp hr => exact h.asked.finish _
  | overflow hp hr hc => exact h.asked.finish _
  | answer hp hr hc =>
    have hlow := h.bounded.sp_low
    have hhigh := hc.2
    rw [h.bounded.capacity] at hhigh
    apply Valid.retire
    refine ⟨h.settings_eq, h.image_eq, ⟨?_, ?_, hhigh, h.bounded.steps⟩, h.reading⟩
    · show (s.machine.memory.set _ _).capacity = _
      rw [Memory.capacity_set, h.bounded.capacity]
    · show -1 ≤ s.machine.sp + 1
      omega

/-- Only a tick that ends the run leaves a halted session. -/
theorem Ticks.live {s : Session σ} {r : Progress × Session σ} (ht : s.Ticks r) (hr : ∀ o, r.1 ≠ .ended o) :
    r.2.phase ≠ .halted := by
  cases ht with
  | start | read => exact nofun
  | work | print | answer => rw [retire_eq]; exact nofun
  | pending hp | waiting hp =>
    show s.phase ≠ _
    rw [hp]
    exact nofun
  | refuse | finish | fail | refused | overflow => exact absurd rfl (hr _)

/-- What every tick keeps, a run keeps. -/
theorem run_keeps {P : Session σ → Prop} (hP : ∀ s, P s → P s.tick.2) :
    ∀ (n : Nat) {s : Session σ}, P s → P (s.run n).2
  | 0, s, hs => hs
  | n + 1, s, hs => by
    have hPt := hP s hs
    rw [run]
    rcases ht : s.tick with ⟨r, t⟩
    rw [ht] at hPt
    cases r with
    | ended o => exact hPt
    | waiting => exact hPt
    | running => exact run_keeps hP n hPt

/-- The last tick of a run, with whatever the ticks before it keep. -/
theorem run_ended {P : Session σ → Prop} (hP : ∀ s, P s → P s.tick.2) :
    ∀ {n : Nat} {s s' : Session σ} {o : Outcome}, P s → s.phase ≠ .halted →
      run n s = (.ended o, s') → ∃ t, P t ∧ t.phase ≠ .halted ∧ t.tick = (.ended o, s')
  | 0, s, s', o, hs, hp, h => by cases h
  | n + 1, s, s', o, hs, hp, h => by
    rw [run] at h
    rcases ht : s.tick with ⟨r, t⟩
    have hPt := hP s hs
    rw [ht] at h hPt
    cases r with
    | ended o' => cases h; exact ⟨s, hs, hp, ht⟩
    | waiting => cases h
    | running => exact run_ended hP hPt ((ht ▸ tick_ticks s).live (by simp)) h

/-! ## Reachable sessions -/

/-- The sessions that a machine with these settings and this program can come to. Between two
ticks the device may change in any way, so this covers every device and everybody who answers. -/
inductive Reachable (settings : Settings) (program : Program) : Session σ → Prop
  | create (device : σ) : Reachable settings program (create settings program device)
  | tick {s : Session σ} : Reachable settings program s → Reachable settings program s.tick.2
  | stop {s : Session σ} : Reachable settings program s → Reachable settings program s.stop
  | reset {s : Session σ} : Reachable settings program s → Reachable settings program s.reset
  | outside {s : Session σ} (device : σ) :
    Reachable settings program s → Reachable settings program { s with device := device }

theorem Reachable.valid {settings : Settings} {program : Program} {s : Session σ}
    (h : s.Reachable settings program) : s.Valid settings program := by
  induction h with
  | create device => exact ⟨rfl, rfl, Machine.bounded_fresh settings, nofun⟩
  | tick _ ih => exact (tick_ticks _).valid ih
  | stop _ ih => exact ⟨ih.settings_eq, ih.image_eq, ih.bounded, ih.reading⟩
  | reset _ ih => exact ⟨ih.settings_eq, ih.image_eq, ih.bounded.reset, nofun⟩
  | outside device _ ih => exact ⟨ih.settings_eq, ih.image_eq, ih.bounded, ih.reading⟩

end Session

end StackMachine
