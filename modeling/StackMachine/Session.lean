/-
Sessions: a machine with its program, settings, device and stop flag. A session runs its program
to an outcome, is then halted, and can be reset and run again.

A run is a sequence of ticks. A tick starts the run, or executes one instruction, or asks the
device once for the answer to an `RD`; it looks at the stop flag at most once. So whatever happens
outside during a run happens between two ticks, and a run can be interrupted after any number of
ticks and taken up again.
-/
import StackMachine.Log
import StackMachine.Machine
import StackMachine.Settings

namespace StackMachine

/-- A program ready to be executed: its instructions decoded, its labels placed. -/
structure Image where
  code : Array (Except DecodeError Operation)
  labels : Labels

namespace Image

def ofProgram (p : Program) : Image := ⟨(p.instructions.map Instruction.decode).toArray, p.labels⟩

/-- The instruction at a place, if the program has one there. -/
def fetch? (image : Image) (pc : Int) : Option (Except DecodeError Operation) :=
  if 0 ≤ pc then image.code[pc.toNat]? else none

end Image

/-- Where a session stands. -/
inductive Phase
  /-- Nothing has run yet. -/
  | ready
  /-- Between two instructions of a run. -/
  | running
  /-- In an `RD` whose answer has not come yet. -/
  | reading
  /-- A run is over. -/
  | halted
  deriving DecidableEq, Repr

structure Session (σ : Type) where
  settings : Settings
  image : Image
  machine : Machine
  device : σ
  /-- The stop flag. -/
  stopped : Bool := false
  phase : Phase := .ready
  /-- What the session has mentioned, the oldest entry first. -/
  log : Array LogEntry := #[]

/-- How far a run has come. -/
inductive Progress
  | ended (o : Outcome)
  /-- The device waits for the outside. -/
  | waiting
  | running
  deriving DecidableEq

namespace Session

variable {σ : Type}

def create (settings : Settings) (program : Program) (device : σ) : Session σ where
  settings := settings
  image := .ofProgram program
  machine := .fresh settings.memory
  device := device

def isHalted (s : Session σ) : Bool := s.phase = .halted

/-- Raises the stop flag; it stays up until the session is reset. -/
def stop (s : Session σ) : Session σ := { s with stopped := true }

/-- Back to where nothing has run and nobody has asked to stop. The device stays as it is. -/
def reset (s : Session σ) : Session σ :=
  { s with machine := s.machine.reset, stopped := false, phase := .ready }

/-! ## Ticks -/

/-- The outcome of a run that ends here. -/
def outcome (s : Session σ) (e : Ending) : Outcome where
  ending := e
  output := s.machine.output
  steps := s.machine.steps
  pc := s.machine.pc
  sp := s.machine.sp
  trace := s.machine.trace

/-- Ends the run. The trace goes into the outcome and is not kept. -/
def finish (s : Session σ) (e : Ending) : Progress × Session σ :=
  let entry := match e with
    | .fault f => .runFailed s.machine.pc f
    | e => .runFinished e s.machine.steps s.machine.output.size
  (.ended (s.outcome e),
    { s with
      phase := .halted
      machine := { s.machine with trace := #[] }
      log := s.log.push entry })

/-- Lets the device act and takes over what the action leaves behind. The session is taken apart
first, so that the device is updated in place. -/
def consult {ρ : Type} (act : σ → Response σ ρ) : Session σ → ρ × Session σ
  | { settings, image, machine, device, stopped, phase, log } =>
    let r := act device
    (r.reply,
      { settings, image, machine, phase
        device := r.device
        stopped := stopped || r.raisesStop
        log := log ++ (r.notices.map .device).toArray })

theorem consult_eq {ρ : Type} (act : σ → Response σ ρ) (s : Session σ) :
    s.consult act =
      ((act s.device).reply,
        { s with
          device := (act s.device).device
          stopped := s.stopped || (act s.device).raisesStop
          log := s.log ++ ((act s.device).notices.map .device).toArray }) := rfl

/-- Ends the instruction begun at `pc` and goes on to the next. -/
def retire (s : Session σ) (pc : Int) (op : Operation) : Progress × Session σ :=
  let s :=
    if s.settings.trace then
      let entry := s.machine.entry pc op
      { s with
        machine := { s.machine with trace := s.machine.trace.push entry }
        log := s.log.push (.step entry.step entry.pc op entry.sp) }
    else s
  (.running, { s with machine := s.machine.advance, phase := .running })

variable [Device σ]

/-- Executes an operation that has been counted. -/
def perform (s : Session σ) (op : Operation) : Progress × Session σ :=
  let pc := s.machine.pc
  let machine := s.machine
  -- the session lets go of the machine while it works, so that its memory is updated in place
  let s := { s with machine := .fresh 0 }
  match op.execute s.image.labels machine with
  | .error f m => { s with machine := m }.finish (.fault f)
  | .ok .nothing m => { s with machine := m }.retire pc op
  | .ok (.output v) m => ({ s with machine := m }.consult (Device.emit v)).2.retire pc op
  | .ok .input m => (.running, { s with machine := m, phase := .reading })

/-- One instruction: the stop flag comes first, then the end of the program, then an instruction
that has no operation, then `HLT`, then the step limit. -/
def cycle (s : Session σ) : Progress × Session σ :=
  if s.stopped then s.finish .stopped
  else
    match s.image.fetch? s.machine.pc with
    | none => s.finish .endOfProgram
    | some (.error e) => s.finish (.fault (.undecodable e))
    | some (.ok .hlt) => s.finish .halt
    | some (.ok op) =>
      match s.machine.charge s.settings.stepLimit with
      | .error f => s.finish (.fault f)
      | .ok m => { s with machine := m }.perform op

/-- Asks the device for the answer to an `RD`. -/
def await (s : Session σ) : Progress × Session σ :=
  match s.consult (Device.ask s.stopped) with
  | (.pending, s) => (.running, s)
  | (.waiting, s) => (.waiting, s)
  | (.refused e, s) => s.finish (.fault e.toFault)
  | (.answer v, s) =>
    match Exec.push v s.machine with
    | .error f m => { s with machine := m }.finish (.fault f)
    | .ok _ m => { s with machine := m }.retire m.pc .rd

def tick (s : Session σ) : Progress × Session σ :=
  match s.phase with
  | .ready =>
    (.running, { s with phase := .running, log := s.log.push (.runStarted s.image.code.size) })
  | .running => s.cycle
  | .reading => s.await
  | .halted => (.ended (s.outcome (.fault .alreadyHalted)), s)

/-- Starts or takes up a run, for at most `n` ticks. It comes back earlier when the run is over or
waits for the outside. -/
def run : Nat → Session σ → Progress × Session σ
  | 0, s => (.running, s)
  | n + 1, s =>
    match s.tick with
    | (.running, s) => run n s
    | r => r

/-- A run that is interrupted and taken up again is the same run. -/
theorem run_add (m n : Nat) (s : Session σ) :
    run (m + n) s =
      match run m s with
      | (.running, s) => run n s
      | r => r := by
  induction m generalizing s with
  | zero => rw [Nat.zero_add, run]
  | succ m ih =>
    rw [Nat.succ_add, run, run]
    rcases s.tick with ⟨⟨o⟩ | _ | _, s'⟩
    · rfl
    · rfl
    · exact ih s'

end Session

end StackMachine
