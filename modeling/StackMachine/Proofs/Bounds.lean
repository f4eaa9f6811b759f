/-
The machine keeps within its bounds. `Process.Sound` is what holds of a process at every moment, in
the middle of an instruction as well as between two and after a fault, whatever was commanded:
the machine keeps to its settings, and the instruction in hand is one of the program's.

`machine_within_bounds` draws the conclusions: no cell is lost, the stack pointer names a cell or
is -1, the counter is inside the program or at its end unless a `RETURN` has set it, and none of the
sums that the machine forms leaves the words.
-/
import StackMachine.Proofs.Certificate
import StackMachine.Proofs.Process

namespace StackMachine

/-- The program has this operation at `pc`. -/
def Program.Holds (program : Program) (pc : Int) (op : Operation) : Prop :=
  ∃ i, program.at? pc = some i ∧ i.decode = .ok op

/-! ## An operation under way -/

namespace Operation

/-- How an operation begun at `pc` leaves the counter, whatever it demands. -/
def Proceeds (labels : Labels) (op : Operation) (pc : Int) (d : Demand) (m : Machine) : Prop :=
  op.Continues labels pc m ∧ (d = .input → op = .rd ∧ m.pc = pc)

/-- `rest` is what is left to do of an operation that a machine with these settings began at `pc`. -/
def Underway (settings : Settings) (labels : Labels) (op : Operation) (pc : Int) (rest : Script)
    (m : Machine) : Prop :=
  ∃ m₀ : Machine, m₀.Bounded settings ∧ m₀.pc = pc ∧
    rest.Safe m₀.Midway (op.Fails labels m₀) (op.Proceeds labels pc) m

variable {settings : Settings} {labels : Labels} {op : Operation} {pc : Int} {rest : Script}
  {m : Machine}

theorem underway_script (labels : Labels) (op : Operation) (h : m.Bounded settings) :
    op.Underway settings labels m.pc (op.script labels) m := by
  refine ⟨m, h, rfl, (script_fits labels op h.sp_low h.sp_lt).weaken (fun _ _ hf => hf) fun d m' hl => ?_⟩
  refine ⟨hl.pc, fun hd => ⟨hl.reads.1 hd, ?_⟩⟩
  rw [hl.reads_only hd]

/-- An `RD` that has its answer goes on as `LDC` does. -/
theorem underway_answer (labels : Labels) (v : Word) (h : m.Bounded settings) :
    rd.Underway settings labels m.pc (.push v (.done .nothing)) m := by
  refine ⟨m, h, rfl, (script_fits labels (.ldc v) h.sp_low h.sp_lt).weaken ?_ fun d m' hl => ?_⟩
  · rintro f m' ⟨hq, hf⟩
    refine ⟨hq, ?_⟩
    cases hf with
    | outside ha => exact .outside ha
    | unresolved hl => cases hl
  · refine ⟨.inl ?_, fun hd => nomatch hl.reads.1 hd⟩
    rcases hl.pc with hpc | ⟨l, place, hlabel, -⟩ | ⟨hret, -⟩
    · exact hpc
    · cases hlabel
    · cases hret

theorem Underway.bounded (h : op.Underway settings labels pc rest m) : m.Bounded settings := by
  obtain ⟨m₀, hb, -, hs⟩ := h
  exact hb.midway hs.now

theorem Underway.step (h : op.Underway settings labels pc rest m) :
    op.Underway settings labels pc (rest.step m).1 (rest.step m).2 := by
  obtain ⟨m₀, hb, hpc, hs⟩ := h
  exact ⟨m₀, hb, hpc, hs.step⟩

theorem Underway.done {d : Demand} (h : op.Underway settings labels pc (.done d) m) :
    op.Proceeds labels pc d m := by
  obtain ⟨m₀, -, -, hs⟩ := h
  exact hs.2

/-- An operation that has failed has not moved the counter. -/
theorem Underway.failed {f : Fault} (h : op.Underway settings labels pc (.fail f) m) :
    m.pc = pc ∧ op.Raises labels settings.memory f := by
  obtain ⟨m₀, hb, hpc, -, hq, hr⟩ := h
  rw [hb.capacity] at hr
  exact ⟨hq.pc.trans hpc, hr⟩

end Operation

/-! ## What holds at every moment -/

/-- A fault that the run would end with here is explained by the instruction in hand. -/
def Session.Accounts {σ : Type} (settings : Settings) (program : Program) (s : Session σ) (e : Ending) :
    Prop :=
  ∀ f, e = .fault f →
    ∃ i, program.at? s.machine.pc = some i ∧ f.Explained settings program i s.machine.steps

/-- What a process that is about to do this knows about the instruction in hand. -/
def Stage.Sound {σ : Type} (settings : Settings) (program : Program) (s : Session σ)
    (history : List Event) : Stage σ → Prop
  | .idle => s.phase = .halted ∨ s.phase = .ready ∧ s.machine = .fresh settings.memory
  | .look => 0 ≤ s.machine.pc ∧ s.machine.pc ≤ program.size ∨ history.head? = some (.completed .ret)
  | .fetch => True
  | .charge op => program.Holds s.machine.pc op ∧ op ≠ .hlt
  | .script pc op rest =>
    program.Holds pc op ∧ op.Underway settings program.labels pc rest s.machine
  | .ask | .request _ => program.Holds s.machine.pc .rd
  | .emit pc op _ | .record pc op =>
    program.Holds pc op ∧ op.Continues program.labels pc s.machine
  | .advance op => ∃ pc, program.Holds pc op ∧ op.Continues program.labels pc s.machine
  | .finish e => s.Accounts settings program e

namespace Process

variable {σ : Type}

/-- What holds of a process at every moment. -/
structure Sound (settings : Settings) (program : Program) (p : Process σ) : Prop where
  settings_eq : p.session.settings = settings
  image_eq : p.session.image = .ofProgram program
  bounded : p.session.machine.Bounded settings
  stage : p.stage.Sound settings program p.session p.history

theorem sound_create (settings : Settings) (program : Program) (device : σ) :
    (create settings program device).Sound settings program :=
  ⟨rfl, rfl, Machine.bounded_fresh settings, .inr ⟨rfl, rfl⟩⟩

section Sound

variable {settings : Settings} {program : Program} {p : Process σ}

theorem Sound.idle (h : p.Sound settings program) (hp : p.stage = .idle) :
    p.session.phase = .halted ∨ p.session.phase = .ready ∧ p.session.machine = .fresh settings.memory := by
  have hst := h.stage
  rw [hp] at hst
  exact hst

/-- A process that has not run yet has a fresh machine. -/
theorem Sound.fresh (h : p.Sound settings program) (hstage : p.stage = .idle)
    (hphase : p.session.phase = .ready) : p.session.machine = .fresh settings.memory := by
  rcases h.idle hstage with hp | ⟨-, hm⟩
  · rw [hphase] at hp
    cases hp
  · exact hm

theorem Sound.stop (h : p.Sound settings program) : p.stop.Sound settings program := by
  obtain ⟨s, stage, history⟩ := p
  refine ⟨h.settings_eq, h.image_eq, h.bounded, ?_⟩
  have hst := h.stage
  cases stage <;> exact hst

theorem Sound.outside (h : p.Sound settings program) (change : σ → σ) :
    (p.outside change).Sound settings program := by
  obtain ⟨s, stage, history⟩ := p
  refine ⟨h.settings_eq, h.image_eq, h.bounded, ?_⟩
  have hst := h.stage
  cases stage <;> exact hst

theorem Sound.reset (h : p.Sound settings program) : p.reset.Sound settings program := by
  refine ⟨h.settings_eq, h.image_eq, h.bounded.reset, .inr ⟨rfl, ?_⟩⟩
  show p.session.machine.reset = _
  rw [Machine.reset_eq_fresh, h.bounded.capacity]

theorem Sound.start (h : p.Sound settings program) : p.start.Sound settings program := by
  obtain ⟨s, stage, history⟩ := p
  cases stage with
  | idle =>
    simp only [Process.start]
    rcases h.stage with hp | ⟨hp, hm⟩
    · rw [if_pos hp]
      exact ⟨h.settings_eq, h.image_eq, h.bounded, .inl hp⟩
    · rw [if_neg (by rw [hp]; simp)]
      refine ⟨h.settings_eq, h.image_eq, h.bounded, .inl ?_⟩
      show 0 ≤ s.machine.pc ∧ s.machine.pc ≤ program.size
      rw [show s.machine.pc = 0 by rw [show s.machine = _ from hm]; rfl]
      omega
  | _ => exact h

/-- What is fetched is the program's. -/
theorem Sound.fetched (h : p.Sound settings program) {pc : Int} {r : Except DecodeError Operation}
    (hf : p.session.image.fetch? pc = some r) : ∃ i, program.at? pc = some i ∧ i.decode = r := by
  rw [h.image_eq] at hf
  exact Image.fetch?_eq_some hf

theorem Sound.fetch (h : p.Sound settings program) :
    (Stage.ofFetch (p.session.image.fetch? p.session.machine.pc) : Stage σ).Sound settings program
      p.session p.history := by
  cases hf : p.session.image.fetch? p.session.machine.pc with
  | none => exact fun _ he => nomatch he
  | some r =>
    obtain ⟨i, hi, hd⟩ := h.fetched hf
    cases r with
    | error e =>
      intro f he
      cases he
      exact ⟨i, hi, explained_undecodable hd⟩
    | ok op =>
      by_cases hop : op = .hlt
      · subst hop
        exact fun _ he => nomatch he
      · rw [Stage.ofFetch_executable hop]
        exact ⟨⟨i, hi, hd⟩, hop⟩

theorem Sound.limit (h : p.Sound settings program) {op : Operation}
    (hop : program.Holds p.session.machine.pc op) (hne : op ≠ .hlt) {f : Fault}
    (hc : p.session.machine.charge p.session.settings.stepLimit = .error f) :
    p.session.Accounts settings program (.fault f) := by
  obtain ⟨n, hn, hle, rfl⟩ := Machine.charge_error hc
  rw [h.settings_eq] at hn
  intro g hg
  cases hg
  obtain ⟨i, hi, hd⟩ := hop
  refine ⟨i, hi, ?_⟩
  rw [h.bounded.steps_eq hn hle]
  exact explained_limit hd hne hn

theorem Sound.workScript (h : p.Sound settings program) {pc : Int} {op : Operation} {rest : Script}
    (hop : program.Holds pc op)
    (hu : op.Underway settings program.labels pc rest p.session.machine) :
    (p.workScript pc op rest).Sound settings program := by
  rcases rest.done_or_fail_or_pos p.session.machine with ⟨d, rfl⟩ | ⟨f, rfl⟩ | hn
  · obtain ⟨hc, hinput⟩ := hu.done
    cases d with
    | nothing => exact ⟨h.settings_eq, h.image_eq, h.bounded, hop, hc⟩
    | output v => exact ⟨h.settings_eq, h.image_eq, h.bounded, hop, hc⟩
    | input =>
      obtain ⟨rfl, hpc⟩ := hinput rfl
      refine ⟨h.settings_eq, h.image_eq, h.bounded, ?_⟩
      show program.Holds p.session.machine.pc .rd
      rw [hpc]
      exact hop
  · obtain ⟨hpc, hr⟩ := hu.failed
    obtain ⟨i, hi, hd⟩ := hop
    refine ⟨h.settings_eq, h.image_eq, h.bounded, fun g hg => ?_⟩
    cases hg
    refine ⟨i, ?_, hr.explained hd⟩
    show program.at? p.session.machine.pc = some i
    rw [hpc]
    exact hi
  · rw [workScript_step p pc op hn]
    exact ⟨h.settings_eq, h.image_eq, hu.step.bounded, hop, hu.step⟩

theorem Sound.workRequest (h : p.Sound settings program)
    (hrd : program.Holds p.session.machine.pc .rd) (rest : Request σ) :
    (p.workRequest rest).Sound settings program := by
  cases rest with
  | reply r =>
    refine ⟨h.settings_eq, h.image_eq, h.bounded, ?_⟩
    cases r with
    | answer v => exact ⟨hrd, Operation.underway_answer program.labels v h.bounded⟩
    | refused e =>
      obtain ⟨i, hi, hd⟩ := hrd
      intro f hf
      cases hf
      exact ⟨i, hi, DeviceError.explained hd e⟩
    | pending => exact hrd
    | waiting => exact hrd
  | look next => exact ⟨h.settings_eq, h.image_eq, h.bounded, hrd⟩
  | act effect next => exact ⟨h.settings_eq, h.image_eq, h.bounded, hrd⟩

/-- An instruction that is over leads into the program or to its end, unless it is a `RETURN`. -/
theorem advance_within {pc : Int} {op : Operation} {m : Machine} (hop : program.Holds pc op)
    (hc : op.Continues program.labels pc m) :
    0 ≤ m.advance.pc ∧ m.advance.pc ≤ program.size ∨ op = .ret := by
  have hpc : m.advance.pc = min (m.pc + 1) Word.greatest := rfl
  -- being held at the largest word can only keep the counter from going too far
  have hword : (0 : Int) ≤ Word.greatest := by decide
  rw [hpc]
  rcases hc with hpc | ⟨l, place, -, hl, hpc⟩ | ⟨rfl, -⟩
  · obtain ⟨i, hi, -⟩ := hop
    have := Program.at?_eq_some hi
    omega
  · have := Program.lt_size_of_labels_get? hl
    omega
  · exact .inr rfl

variable [Device σ] [Stepwise σ]

theorem Sound.work (h : p.Sound settings program) : p.work.Sound settings program := by
  obtain ⟨s, stage, history⟩ := p
  cases stage with
  | idle => exact h
  | look =>
    refine ⟨h.settings_eq, h.image_eq, h.bounded, ?_⟩
    show (if s.stopped then .finish .stopped else .fetch : Stage σ).Sound settings program s history
    split
    · exact fun _ he => nomatch he
    · trivial
  | fetch => exact ⟨h.settings_eq, h.image_eq, h.bounded, h.fetch⟩
  | charge op =>
    obtain ⟨hop, hne⟩ := h.stage
    simp only [Process.work]
    cases hc : s.machine.charge s.settings.stepLimit with
    | error f => exact ⟨h.settings_eq, h.image_eq, h.bounded, h.limit hop hne hc⟩
    | ok m =>
      obtain ⟨hw, rfl⟩ := Machine.charge_ok hc
      rw [show s.settings = settings from h.settings_eq] at hw
      have hb : s.machine.counted.Bounded settings := h.bounded.counted hw
      -- from here on the stage remembers the machine that the operation was begun with
      refine ⟨h.settings_eq, h.image_eq, hb, hop, ?_⟩
      rw [show s.image.labels = program.labels by rw [show s.image = _ from h.image_eq]; rfl]
      exact Operation.underway_script program.labels op hb
  | script pc op rest => exact h.workScript h.stage.1 h.stage.2
  | ask =>
    simp only [Process.work]
    split
    · exact ⟨h.settings_eq, h.image_eq, h.bounded, h.stage⟩
    · exact h
  | request rest => exact h.workRequest h.stage rest
  | emit pc op v => exact ⟨h.settings_eq, h.image_eq, h.bounded, h.stage⟩
  | record pc op => exact ⟨h.settings_eq, h.image_eq, h.bounded.congr rfl rfl rfl, pc, h.stage⟩
  | advance op =>
    obtain ⟨pc, hop, hc⟩ := h.stage
    refine ⟨h.settings_eq, h.image_eq, h.bounded.congr rfl rfl rfl, ?_⟩
    rcases advance_within hop hc with hpc | rfl
    · exact .inl hpc
    · exact .inr rfl
  | finish e => exact ⟨h.settings_eq, h.image_eq, h.bounded.congr rfl rfl rfl, .inl rfl⟩

theorem Sound.move (h : p.Sound settings program) (m : Move σ) : (p.move m).Sound settings program := by
  cases m with
  | work => exact h.work
  | stop => exact h.stop
  | outside change => exact h.outside change

theorem Sound.command (h : p.Sound settings program) (c : Command σ) :
    (p.command c).Sound settings program := by
  cases c with
  | run => exact h.start
  | reset => exact h.reset
  | move m => exact h.move m

/-- The invariant holds whatever has been commanded. -/
theorem sound_play (settings : Settings) (program : Program) (device : σ) (commands : List (Command σ)) :
    ((create settings program device).play commands).Sound settings program :=
  play_keeps (fun _ c h => h.command c) commands (sound_create settings program device)

end Sound

end Process

/-- A session that has not run yet has a fresh machine. -/
theorem Session.Reachable.fresh {σ : Type} [Device σ] {settings : Settings} {program : Program} {s : Session σ}
    (h : s.Reachable settings program) (hp : s.phase = .ready) : s.machine = .fresh settings.memory := by
  obtain ⟨device, history, commands, hplay⟩ := Process.of_reachable h
  have hsound := Process.sound_play settings program device commands
  rw [hplay, Process.between_idle (.inl hp)] at hsound
  exact hsound.fresh rfl hp

/-! ## Bounds -/

/-- The machine of a process keeps within its memory, its budget, its program and its words. -/
structure Process.InBounds {σ : Type} (settings : Settings) (program : Program) (p : Process σ) : Prop where
  cells : p.session.machine.memory.capacity = settings.memory
  sp : -1 ≤ p.session.machine.sp ∧ p.session.machine.sp ≤ settings.memory - 1
  steps : ∀ n, settings.stepLimit = some n → p.session.machine.steps ≤ n
  labels : ∀ l place, p.session.image.labels.get? l = some place → place < program.size
  /-- At the top of the loop the counter is inside the program or at its end, unless the last
  instruction was a `RETURN`. -/
  top : p.stage = .look →
    0 ≤ p.session.machine.pc ∧ p.session.machine.pc ≤ program.size ∨
      p.history.head? = some (.completed .ret)
  /-- An instruction is fetched exactly where the program has one. -/
  fetch : (p.session.image.fetch? p.session.machine.pc).isSome ↔
    0 ≤ p.session.machine.pc ∧ p.session.machine.pc < program.size
  /-- Where a push goes to and where a pop leaves the stack. -/
  stack : p.session.machine.sp + 1 ≤ Word.greatest ∧ Word.least ≤ p.session.machine.sp - 1
  /-- Where a jump sets the counter. -/
  target : ∀ l place, p.session.image.labels.get? l = some place →
    Word.least ≤ (place : Int) - 1 ∧ (place : Int) ≤ Word.greatest
  /-- A count that is raised under a limit does not pass it. -/
  count : ∀ n m, settings.stepLimit = some n → p.session.machine.charge (some n) = .ok m →
    m.steps = p.session.machine.steps + 1 ∧ m.steps ≤ n
  /-- The counter is held at the largest word only by a `RETURN` that has popped just that. -/
  advance : ∀ op, p.stage = .advance op →
    p.session.machine.advance.pc ≠ p.session.machine.pc + 1 →
      op = .ret ∧ p.session.machine.pc =
        (p.session.machine.memory.get (p.session.machine.sp + 1)).toInt ∧
        p.session.machine.pc = Word.greatest

/-- Only a `RETURN` can take the counter to where it cannot be advanced. -/
theorem Process.advance_saturates {program : Program} {pc : Int} {op : Operation} {m : Machine}
    (hsize : (program.size : Int) ≤ Word.greatest) (hop : program.Holds pc op)
    (hc : op.Continues program.labels pc m) (hs : m.advance.pc ≠ m.pc + 1) :
    op = .ret ∧ m.pc = (m.memory.get (m.sp + 1)).toInt ∧ m.pc = Word.greatest := by
  have hadvance : m.advance.pc = min (m.pc + 1) Word.greatest := rfl
  rw [hadvance] at hs
  rcases hc with hpc | ⟨l, place, -, hl, hpc⟩ | ⟨rfl, hpc⟩
  · obtain ⟨i, hi, -⟩ := hop
    have := Program.at?_eq_some hi
    omega
  · have := Program.lt_size_of_labels_get? hl
    omega
  · refine ⟨rfl, hpc, ?_⟩
    have := (m.memory.get (m.sp + 1)).toInt_le_greatest
    omega

/-- The invariant keeps the machine within its bounds, if memory and program fit the words. -/
theorem Process.Sound.inBounds {σ : Type} {settings : Settings} {program : Program} {p : Process σ}
    (h : p.Sound settings program) (hmemory : (settings.memory : Int) ≤ Word.greatest)
    (hsize : (program.size : Int) ≤ Word.greatest) : p.InBounds settings program := by
  have hlow := h.bounded.sp_low
  have hhigh := h.bounded.sp_high
  have hleast : Word.least = -9223372036854775808 := rfl
  have hlabels : p.session.image.labels = program.labels := by rw [h.image_eq]; rfl
  refine ⟨h.bounded.capacity, by omega, h.bounded.steps, ?_, fun hp => ?_, ?_, by omega, ?_, ?_, ?_⟩
  · intro l place hl
    rw [hlabels] at hl
    exact Program.lt_size_of_labels_get? hl
  · have hst := h.stage
    rw [hp] at hst
    exact hst
  · rw [h.image_eq, Image.fetch?_ofProgram, Option.isSome_map, ← not_iff_not, Bool.not_eq_true,
      Option.isSome_eq_false_iff, Option.isNone_iff_eq_none, Program.at?_eq_none]
    omega
  · intro l place hl
    rw [hlabels] at hl
    have := Program.lt_size_of_labels_get? hl
    omega
  · intro n m hn hm
    obtain ⟨hw, rfl⟩ := Machine.charge_ok hm
    exact ⟨rfl, hw n rfl⟩
  · intro op hp hs
    have hst := h.stage
    rw [hp] at hst
    obtain ⟨pc, hop, hc⟩ := hst
    exact Process.advance_saturates hsize hop hc hs

/-- Whatever is commanded, and between any two actions, the machine is within its bounds; and a
process passes through every session that can be reached. -/
theorem machine_within_bounds {σ : Type} [Device σ] [Stepwise σ] (settings : Settings)
    (program : Program) (hmemory : (settings.memory : Int) ≤ Word.greatest)
    (hsize : (program.size : Int) ≤ Word.greatest) :
    (∀ (device : σ) commands,
      ((Process.create settings program device).play commands).InBounds settings program) ∧
    ∀ s : Session σ, s.Reachable settings program →
      ∃ device history, (Process.create settings program device).Leads (.between s history) :=
  ⟨fun device commands => (Process.sound_play settings program device commands).inBounds hmemory hsize,
    fun _ hs => Process.of_reachable hs⟩

/-- Returns to the largest word. -/
def leaping : Program where
  instructions := [⟨"", "LDC", "9223372036854775807", ""⟩, ⟨"", "RETURN", "", ""⟩]

theorem machine_within_bounds_leaping :
    let p := (Process.create { memory := 2 } leaping ({} : Scripted)).play
      (.run :: List.replicate 19 (.move .work))
    ((2 : Nat) : Int) ≤ Word.greatest ∧ (leaping.size : Int) ≤ Word.greatest ∧
      p.history.head? = some (.completed .ret) ∧ p.session.machine.pc = Word.greatest ∧
      p.InBounds { memory := 2 } leaping :=
  ⟨by decide, by decide, by decide +kernel, by decide +kernel,
    (machine_within_bounds (σ := Scripted) { memory := 2 } leaping (by decide) (by decide)).1 {} _⟩

end StackMachine
