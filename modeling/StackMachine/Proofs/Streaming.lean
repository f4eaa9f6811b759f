/-
Streamed runs and reported runs. `run` shows what a program prints as it comes, or is told to keep quiet and
to print a report in the end. Both are the same run, and the report, as it is read from what is printed, tells of
the outcome that the stream has shown (`streamed_run_is_reported_run`).

Consoles that are asked under the same input reply the same, whatever they write (`Console.imitates`). What
a console has written is what the instructions begun so far have asked and printed, in their order
(`Session.deeds`): a prompt for each `RD`, which is owed from the moment the `RD` is begun until the request
is taken up, and a line for each `PRN` (`Console.Tells`).
-/
import StackMachine.CommandLine.Transcript
import StackMachine.Proofs.Guise
import StackMachine.Proofs.Interchange
import StackMachine.Proofs.Printed
import StackMachine.Proofs.Report

namespace StackMachine

/-! ## What there is to be seen of a run -/

/-- What an instruction does that can be seen on a terminal. -/
inductive Deed
  | asks
  | prints (v : Word)
  deriving DecidableEq, Repr

namespace Deed

/-- A prompt for a request, a line for a value. -/
def text (prompt : String) : Deed → String
  | .asks => prompt
  | .prints v => resultText v ++ "\n"

def value? : Deed → Option Word
  | .asks => none
  | .prints v => some v

/-- The text of several deeds. -/
def texts (prompt : String) (ds : List Deed) : String := String.join (ds.map (text prompt))

theorem texts_append (prompt : String) (ds es : List Deed) :
    texts prompt (ds ++ es) = texts prompt ds ++ texts prompt es := by
  rw [texts, List.map_append, String.join_append]
  rfl

/-- Without a prompt there are only the lines of the values. -/
theorem texts_empty (ds : List Deed) : texts "" ds = textOfLines ((ds.filterMap value?).map resultText) := by
  induction ds with
  | nil => rfl
  | cons d ds ih =>
    rw [← List.singleton_append, texts_append, ih]
    cases d with
    | asks => simp [texts, text, value?, List.filterMap_cons]
    | prints v => simp [texts, text, value?, textOfLines]

end Deed

/-- What an operation does to be seen, by what it needs from the device. -/
def Demand.deed? : Demand → Option Deed
  | .nothing => none
  | .input => some .asks
  | .output v => some (.prints v)

namespace Session

variable {σ : Type}

/-- The operation that the next tick begins. -/
def begun? (s : Session σ) : Option Operation :=
  match s.image.fetch? s.machine.pc with
  | some (.ok op) =>
    if s.phase = .running ∧ s.stopped = false ∧ op ≠ .hlt ∧
      s.settings.stepLimit.all (fun n => s.machine.steps < n) then some op
    else none
  | _ => none

/-- What there is to be seen of the operation that the next tick begins: an `RD` asks, and a `PRN` prints
the top of the stack, if there is one. -/
def deed? (s : Session σ) : Option Deed :=
  match s.begun? with
  | some .rd => some .asks
  | some .prn =>
    if s.machine.memory.Contains s.machine.sp then some (.prints (s.machine.memory.get s.machine.sp)) else none
  | _ => none

/-- What there is to be seen of a run for at most `n` ticks, in the order in which it is done. -/
def deeds [Device σ] : Nat → Session σ → List Deed
  | 0, _ => []
  | n + 1, s =>
    s.deed?.toList ++
      match s.tick with
      | (.running, s) => deeds n s
      | _ => []

theorem begun?_eq_some {s : Session σ} {op : Operation} : s.begun? = some op ↔ s.Begins op := by
  have hwithin : (s.settings.stepLimit.all fun n => s.machine.steps < n) = true ↔
      ∀ n, s.settings.stepLimit = some n → s.machine.steps < n := by
    cases s.settings.stepLimit <;> simp
  unfold begun?
  constructor
  · intro h
    split at h
    · rename_i op' hf
      split at h
      · rename_i hall
        obtain ⟨hp, hs, hop, hn⟩ := hall
        cases h
        exact ⟨hp, hs, hf, hop, hwithin.1 hn⟩
      · cases h
    · cases h
  · intro hb
    rw [hb.fetched]
    exact if_pos ⟨hb.running, hb.unstopped, hb.executable, hwithin.2 hb.within⟩

theorem deed?_idle {s : Session σ} (h : ∀ op, ¬s.Begins op) : s.deed? = none := by
  have hnone : s.begun? = none := by
    by_contra hsome
    obtain ⟨op, hop⟩ := Option.ne_none_iff_exists'.1 hsome
    exact h op (begun?_eq_some.1 hop)
  rw [deed?, hnone]

end Session

theorem Operation.execute_prn (labels : Labels) (m : Machine) :
    Operation.execute labels .prn m =
      if m.memory.Contains m.sp then
        .ok (.output (m.memory.get m.sp))
          { m with sp := m.sp - 1, output := m.output.push (m.memory.get m.sp) }
      else .error (m.memory.outside m.sp) m := by
  simp only [execute, bind, EStateM.bind, Exec.pop]
  by_cases hc : m.memory.Contains m.sp
  · rw [if_pos hc, if_pos hc]
    rfl
  · rw [if_neg hc, if_neg hc]

namespace Session

variable {σ : Type} {settings : Settings} {program : Program} {s : Session σ} {op : Operation} {m : Machine}

/-- An operation that is done has been seen by what it needs from the device. -/
theorem Valid.deed_of_ok (h : s.Valid settings program) (hb : s.Begins op) {d : Demand}
    (he : op.execute s.image.labels s.machine.counted = .ok d m) : s.deed? = d.deed? := by
  have hl := (h.execute_ok hb he).2
  rw [deed?, begun?_eq_some.2 hb]
  cases op with
  | rd => rw [hl.reads.2 rfl]; rfl
  | prn =>
    rw [Operation.execute_prn] at he
    split at he
    · rename_i hc
      cases he
      exact if_pos hc
    · cases he
  | _ =>
    cases d with
    | nothing => rfl
    | input => cases hl.reads.1 rfl
    | output v => cases hl.prints ⟨v, rfl⟩

/-- Nothing is seen of an operation that fails. -/
theorem Begins.deed_of_error (hb : s.Begins op) {f : Fault}
    (he : op.execute s.image.labels s.machine.counted = .error f m) : s.deed? = none := by
  rw [deed?, begun?_eq_some.2 hb]
  cases op with
  | rd => cases he
  | prn =>
    rw [Operation.execute_prn] at he
    split at he
    · cases he
    · rename_i hc
      exact if_neg hc
  | _ => rfl

end Session

/-! ## What a console has written -/

/-- The terminal can write, shows this prompt and has written this text. A request that is going on and has
not been taken up still owes its prompt. -/
structure Terminal.Tells (prompt : String) (asking : Bool) (text : String) (t : Terminal) : Prop where
  prompts : t.prompt = some prompt
  echoes : t.echo = true
  succeeds : t.failure = none
  reading : t.reading = true → asking = true
  written : t.written ++ (if asking && !t.reading then prompt else "") = text

namespace Terminal

variable {prompt text : String} {asking : Bool} {t : Terminal}

theorem write_eq (h : t.failure = none) (s : String) : t.write s = { t with written := t.written ++ s } :=
  if_neg (by simp [h])

/-- A request owes a prompt as soon as it is begun. -/
theorem Tells.begins (h : t.Tells prompt false text) : t.Tells prompt true (text ++ prompt) := by
  have hreading : t.reading = false := Bool.eq_false_iff.2 fun hr => Bool.false_ne_true (h.reading hr)
  refine ⟨h.prompts, h.echoes, h.succeeds, fun _ => rfl, ?_⟩
  rw [← h.written, hreading]
  simp

theorem Tells.readLine (h : t.Tells prompt true text) (hreading : t.reading = true) :
    ((t.readLine false).reply.IsFinal → (t.readLine false).device.Tells prompt false text) ∧
      (¬(t.readLine false).reply.IsFinal → (t.readLine false).device.Tells prompt true text) := by
  cases hline : t.hasLine with
  | false =>
    rw [readLine_blocked false hline]
    exact ⟨False.elim, fun _ => h⟩
  | true =>
    rw [readLine_device false hline, readLine_reply false hline]
    refine ⟨fun _ => ?_, fun hn => absurd (replyTo_final false _) hn⟩
    refine ⟨h.prompts, h.echoes, h.succeeds, fun hr => absurd hr Bool.false_ne_true, ?_⟩
    rw [← h.written, hreading]
    rfl

/-- The prompt is written when a request is taken up. -/
theorem Tells.ask (h : t.Tells prompt true text) :
    ((t.ask false).reply.IsFinal → (t.ask false).device.Tells prompt false text) ∧
      (¬(t.ask false).reply.IsFinal → (t.ask false).device.Tells prompt true text) := by
  unfold Terminal.ask
  by_cases hr : t.reading = true
  · rw [if_pos hr]
    exact h.readLine hr
  · rw [if_neg hr]
    refine ⟨False.elim, fun _ => ?_⟩
    have hprompt : t.writePrompt = { t with written := t.written ++ prompt } := by
      simp only [writePrompt, h.prompts, h.echoes, if_true, write_eq h.succeeds]
    rw [Bool.not_eq_true] at hr
    rw [if_neg Bool.false_ne_true, hprompt]
    refine ⟨h.prompts, h.echoes, h.succeeds, fun _ => rfl, ?_⟩
    rw [← h.written, hr]
    simp

theorem Tells.emit (h : t.Tells prompt false text) (v : Word) :
    (t.emit v).device.Tells prompt false (text ++ (resultText v ++ "\n")) := by
  rw [Terminal.emit, if_pos h.echoes]
  show (t.write _).Tells prompt false _
  rw [write_eq h.succeeds]
  refine ⟨h.prompts, h.echoes, h.succeeds, h.reading, ?_⟩
  rw [← h.written]
  simp

end Terminal

namespace Console

/-- The console shows what is printed, with this prompt before each answer, and has written this text. With
prepared answers there is no prompt. -/
def Tells (prompt : String) (asking : Bool) (text : String) : Console → Prop
  | .terminal t => t.Tells prompt asking text
  | .prepared _ echo written => prompt = "" ∧ echo = true ∧ written = text

variable {prompt text : String} {c : Console}

theorem Tells.begins (h : c.Tells prompt false text) : c.Tells prompt true (text ++ prompt) := by
  cases c with
  | terminal t => exact Terminal.Tells.begins h
  | prepared answers echo written =>
    obtain ⟨rfl, hecho, rfl⟩ := h
    exact ⟨rfl, hecho, by simp⟩

theorem Tells.ask (h : c.Tells prompt true text) :
    ((c.ask false).reply.IsFinal → (c.ask false).device.Tells prompt false text) ∧
      (¬(c.ask false).reply.IsFinal → (c.ask false).device.Tells prompt true text) := by
  cases c with
  | terminal t => exact Terminal.Tells.ask h
  | prepared answers echo written => exact ⟨fun _ => h, fun _ => h⟩

theorem Tells.emit (h : c.Tells prompt false text) (v : Word) :
    (c.emit v).device.Tells prompt false (text ++ (resultText v ++ "\n")) := by
  cases c with
  | terminal t => exact Terminal.Tells.emit h v
  | prepared answers echo written =>
    obtain ⟨rfl, rfl, rfl⟩ := h
    refine ⟨rfl, rfl, ?_⟩
    rw [if_pos rfl, String.append_assoc]

theorem Tells.written_eq (h : c.Tells prompt false text) : c.written = text := by
  cases c with
  | terminal t =>
    have hwritten := Terminal.Tells.written h
    rw [Bool.false_and, if_neg Bool.false_ne_true, String.append_empty] at hwritten
    exact hwritten
  | prepared answers echo written => exact h.2.2

theorem unassuming : Device.Unassuming Console where
  ask stopped c := by
    cases c with
    | terminal t => exact Terminal.unassuming.ask stopped t
    | prepared answers echo written => exact Scripted.unassuming.ask stopped answers
  emit v c := by
    cases c with
    | terminal t => exact Terminal.unassuming.emit v t
    | prepared answers echo written => rfl

end Console

namespace Session

variable {settings : Settings} {program : Program} {prompt : String} {ds : List Deed} {s t : Session Console}

/-- What has been done to be seen is these deeds, and the console has written just their text. -/
structure Tells (prompt : String) (ds : List Deed) (s : Session Console) : Prop where
  unstopped : s.stopped = false
  output : s.machine.output.toList = ds.filterMap Deed.value?
  device : s.device.Tells prompt (s.phase = .reading) (Deed.texts prompt ds)

/-- Nothing is to be seen where no `RD` and no `PRN` is begun. -/
theorem Tells.unseen (h : s.Tells prompt ds) (hdeed : s.deed? = none) (hstopped : t.stopped = false)
    (houtput : t.machine.output = s.machine.output)
    (hdevice : t.device.Tells prompt (t.phase = .reading) (Deed.texts prompt ds)) :
    t.Tells prompt (ds ++ s.deed?.toList) := by
  rw [hdeed, Option.toList_none, List.append_nil]
  exact ⟨hstopped, houtput ▸ h.output, hdevice⟩

theorem Tells.between (h : s.Tells prompt ds) {p : Phase} (hp : s.phase = p) (hne : p ≠ .reading) :
    s.device.Tells prompt false (Deed.texts prompt ds) := by
  have hdevice := h.device
  rwa [hp, decide_eq_false hne] at hdevice

/-- Asking writes the prompt that is owed, or nothing. -/
theorem Tells.asked (h : s.Tells prompt ds) (hp : s.phase = .reading) :
    ((Device.ask s.stopped s.device).reply.IsFinal →
        s.asked.device.Tells prompt false (Deed.texts prompt ds)) ∧
      (¬(Device.ask s.stopped s.device).reply.IsFinal →
        s.asked.device.Tells prompt true (Deed.texts prompt ds)) := by
  have hdevice := h.device
  rw [hp, decide_eq_true rfl] at hdevice
  show ((s.device.ask s.stopped).reply.IsFinal → (s.device.ask s.stopped).device.Tells _ _ _) ∧
    (¬(s.device.ask s.stopped).reply.IsFinal → (s.device.ask s.stopped).device.Tells _ _ _)
  rw [h.unstopped]
  exact hdevice.ask

/-- Whatever a tick does, the console tells it. -/
theorem Ticks.tells {r : Progress × Session Console} (ht : s.Ticks r) (h : s.Valid settings program)
    (hs : s.Tells prompt ds) : r.2.Tells prompt (ds ++ s.deed?.toList) := by
  have hstopped := ht.unstopped Console.unassuming hs.unstopped
  cases ht with
  | start hp =>
    exact hs.unseen (deed?_idle (not_begins_of_phase hp nofun)) hstopped rfl (hs.between hp nofun)
  | refuse hp => exact hs.unseen (deed?_idle (not_begins_of_phase hp nofun)) hstopped rfl hs.device
  | finish hp he => exact hs.unseen (deed?_idle he.not_begins) hstopped rfl (hs.between hp nofun)
  | @fail op f m hb he =>
    have houtput : m.output = s.machine.output := (h.execute_error hb he).2.1.output
    exact hs.unseen (hb.deed_of_error he) hstopped houtput (hs.between hb.running nofun)
  | @work op m hb he =>
    have houtput : m.output = s.machine.output := (h.execute_ok hb he).2.output
    rw [retire_eq] at hstopped ⊢
    exact hs.unseen (h.deed_of_ok hb he) hstopped houtput (hs.between hb.running nofun)
  | @print op v m hb he =>
    have houtput : m.output = s.machine.output.push v := (h.execute_ok hb he).2.output
    have hemit := (hs.between hb.running nofun).emit v
    rw [h.deed_of_ok hb he]
    rw [retire_eq] at hstopped ⊢
    refine ⟨hstopped, ?_, ?_⟩
    · show m.output.toList = _
      rw [houtput, Array.toList_push, hs.output, List.filterMap_append]
      rfl
    · rw [Deed.texts_append]
      exact hemit
  | @read op m hb he =>
    -- from here on the prompt is owed
    have hbegins := (hs.between hb.running nofun).begins
    rw [h.deed_of_ok hb he, (h.execute_ok hb he).2.reads_only rfl]
    refine ⟨hstopped, ?_, ?_⟩
    · rw [List.filterMap_append]
      exact hs.output.trans (List.append_nil _).symm
    · rw [Deed.texts_append]
      exact hbegins
  | pending hp hr | waiting hp hr =>
    -- the request goes on, and if it is taken up just now the prompt is paid
    have hasked := (hs.asked hp).2 (by rw [hr]; exact id)
    refine hs.unseen (deed?_idle (not_begins_of_phase hp nofun)) hstopped rfl ?_
    show s.asked.device.Tells prompt (s.phase = .reading) _
    rw [hp]
    exact hasked
  | refused hp hr | overflow hp hr _ =>
    have hasked := (hs.asked hp).1 (by rw [hr]; trivial)
    exact hs.unseen (deed?_idle (not_begins_of_phase hp nofun)) hstopped rfl hasked
  | answer hp hr hc =>
    have hasked := (hs.asked hp).1 (by rw [hr]; trivial)
    rw [retire_eq] at hstopped ⊢
    exact hs.unseen (deed?_idle (not_begins_of_phase hp nofun)) hstopped rfl hasked

/-- So does a run. -/
theorem run_tells : ∀ (n : Nat) {s : Session Console} {ds : List Deed}, s.Valid settings program →
    s.Tells prompt ds → (s.run n).2.Tells prompt (ds ++ s.deeds n)
  | 0, s, ds, _, hs => by
    rw [deeds, List.append_nil]
    exact hs
  | n + 1, s, ds, h, hs => by
    have hvalid := s.tick_ticks.valid h
    have htick := s.tick_ticks.tells h hs
    rw [run, deeds]
    rcases ht : s.tick with ⟨r, t⟩
    rw [ht] at hvalid htick
    cases r with
    | ended o => simpa using htick
    | waiting => simpa using htick
    | running =>
      rw [← List.append_assoc]
      exact run_tells n hvalid htick

end Session

/-! ## Consoles under the same input -/

/-- The terminals have the same input before them and stand at the same point of a request. What they write,
and whether they can, may differ. -/
structure Terminal.SameInput (t u : Terminal) : Prop where
  input : t.input = u.input
  closed : t.closed = u.closed
  reading : t.reading = u.reading

namespace Terminal

variable {t u w : Terminal}

theorem SameInput.symm (h : t.SameInput u) : u.SameInput t := ⟨h.input.symm, h.closed.symm, h.reading.symm⟩

theorem SameInput.trans (h : t.SameInput u) (h' : u.SameInput w) : t.SameInput w :=
  ⟨h.input.trans h'.input, h.closed.trans h'.closed, h.reading.trans h'.reading⟩

theorem write_sameInput (t : Terminal) (s : String) : (t.write s).SameInput t := by
  refine ⟨t.write_input s, t.write_closed s, ?_⟩
  unfold write
  split <;> rfl

theorem writePrompt_sameInput (t : Terminal) : t.writePrompt.SameInput t := by
  rcases t.writePrompt_eq with he | ⟨s, he⟩
  · rw [he]
    exact ⟨rfl, rfl, rfl⟩
  · rw [he]
    exact t.write_sameInput s

theorem emit_sameInput (t : Terminal) (v : Word) : (t.emit v).device.SameInput t := by
  unfold emit
  split
  · exact t.write_sameInput _
  · exact ⟨rfl, rfl, rfl⟩

theorem SameInput.readLine (h : t.SameInput u) (stopped : Bool) :
    (t.readLine stopped).reply = (u.readLine stopped).reply ∧
      (t.readLine stopped).device.SameInput (u.readLine stopped).device := by
  have hline : t.hasLine = u.hasLine := by rw [hasLine, hasLine, h.closed, h.input]
  cases hu : u.hasLine with
  | false =>
    rw [readLine_blocked stopped (hline.trans hu), readLine_blocked stopped hu]
    exact ⟨rfl, h⟩
  | true =>
    rw [readLine_device stopped (hline.trans hu), readLine_device stopped hu,
      readLine_reply stopped (hline.trans hu), readLine_reply stopped hu, h.input]
    exact ⟨rfl, rfl, h.closed, rfl⟩

theorem SameInput.ask (h : t.SameInput u) (stopped : Bool) :
    (t.ask stopped).reply = (u.ask stopped).reply ∧
      (t.ask stopped).device.SameInput (u.ask stopped).device := by
  unfold Terminal.ask
  rw [h.reading]
  cases u.reading with
  | true => exact h.readLine stopped
  | false =>
    cases stopped with
    | true => exact ⟨rfl, h⟩
    | false =>
      obtain ⟨hinput, hclosed, -⟩ := (t.writePrompt_sameInput.trans h).trans u.writePrompt_sameInput.symm
      exact ⟨rfl, hinput, hclosed, rfl⟩

theorem SameInput.emit (h : t.SameInput u) (v : Word) : (t.emit v).device.SameInput (u.emit v).device :=
  ((t.emit_sameInput v).trans h).trans (u.emit_sameInput v).symm

end Terminal

namespace Console

/-- The same for consoles: the same prepared answers, or terminals with the same input. -/
def SameInput : Console → Console → Prop
  | .terminal t, .terminal u => t.SameInput u
  | .prepared answers _ _, .prepared answers' _ _ => answers = answers'
  | _, _ => False

/-- What a console writes does not show in what it replies. -/
theorem imitates : Device.Imitates (fun (_ : Bool) (c d : Console) => c.SameInput d) fun _ => 0 where
  ask {stopped c d} h := by
    have hraises : (Device.ask stopped c).raisesStop = (Device.ask stopped d).raisesStop := by
      rw [unassuming.ask, unassuming.ask]
    match c, d, h with
    | .terminal t, .terminal u, h =>
      obtain ⟨hreply, hdevice⟩ := Terminal.SameInput.ask h stopped
      exact .inl ⟨hreply, hraises, hdevice⟩
    | .prepared answers _ _, .prepared _ _ _, rfl => exact .inl ⟨rfl, hraises, rfl⟩
  emit {stopped c d} v h := by
    have hraises : (Device.emit v c).raisesStop = (Device.emit v d).raisesStop := by
      rw [unassuming.emit, unassuming.emit]
    match c, d, h with
    | .terminal t, .terminal u, h => exact ⟨hraises, Terminal.SameInput.emit h v⟩
    | .prepared answers _ _, .prepared _ _ _, rfl => exact ⟨hraises, rfl⟩

theorem create_sameInput (options : RunOptions) (json json' : Bool) (input : List UInt8) (closed : Bool) :
    (create { options with json := json } input closed).SameInput
      (create { options with json := json' } input closed) := by
  unfold create
  cases options.input with
  | none => exact ⟨rfl, rfl, rfl⟩
  | some answers => rfl

/-- The console is not to show anything and has not. -/
def Quiet : Console → Prop
  | .terminal t => t.echo = false ∧ t.written = ""
  | .prepared _ echo written => echo = false ∧ written = ""

theorem create_quiet (options : RunOptions) (input : List UInt8) (closed : Bool) :
    (create { options with json := true } input closed).Quiet := by
  unfold create
  cases options.input <;> exact ⟨rfl, rfl⟩

/-- It never does, whatever it is given. -/
theorem quiet_records : Device.Records fun (c : Console) _ => c.Quiet where
  ask stopped c _ h := by
    cases c with
    | prepared answers echo written => exact h
    | terminal t =>
      obtain ⟨hecho, hwritten⟩ := h
      have hprompt : t.writePrompt = t := by
        unfold Terminal.writePrompt
        split
        · exact if_neg (by simp [hecho])
        · rfl
      show (Console.terminal (t.ask stopped).device).Quiet
      unfold Terminal.ask
      rw [hprompt]
      split
      · cases hline : t.hasLine with
        | false =>
          rw [Terminal.readLine_blocked stopped hline]
          exact ⟨hecho, hwritten⟩
        | true =>
          rw [Terminal.readLine_device stopped hline]
          exact ⟨hecho, hwritten⟩
      · split <;> exact ⟨hecho, hwritten⟩
  emit v c _ h := by
    cases c with
    | prepared answers echo written =>
      obtain ⟨rfl, rfl⟩ := h
      exact ⟨rfl, rfl⟩
    | terminal t =>
      obtain ⟨hecho, hwritten⟩ := h
      show (Console.terminal (t.emit v).device).Quiet
      rw [Terminal.emit, if_neg (by simp [hecho])]
      exact ⟨hecho, hwritten⟩

theorem Quiet.written_eq {c : Console} (h : c.Quiet) : c.written = "" := by
  cases c with
  | terminal t => exact h.2
  | prepared answers echo written => exact h.2

end Console

namespace Session

/-- A run that is over leaves a session that is halted. -/
theorem run_halted {σ : Type} [Device σ] {s : Session σ} (hp : s.phase ≠ .halted) {n : Nat} {o : Outcome}
    (ho : (s.run n).1 = .ended o) : (s.run n).2.Halted o := by
  obtain ⟨m, t, -, -, htp, htick⟩ := run_last hp (Prod.ext ho rfl : s.run n = (.ended o, (s.run n).2))
  exact Ticks.halted htp (htick ▸ t.tick_ticks)

/-- Before a run begins there is nothing to tell. -/
theorem tells_create (options : RunOptions) (settings : Settings) (program : Program) (input : List UInt8)
    (closed : Bool) :
    (create settings program (Console.create { options with json := false } input closed)).Tells
      (if options.input.isNone then "input> " else "") [] := by
  refine ⟨rfl, rfl, ?_⟩
  simp only [create, Console.create]
  cases options.input with
  | none => exact ⟨rfl, rfl, rfl, nofun, rfl⟩
  | some answers => exact ⟨rfl, rfl, rfl⟩

end Session

/-! ## Transcripts -/

/-- What the transcripts of a run with this outcome say, one streamed and one with a report: `prompted` is
whether answers are asked of the terminal, `ds` is what there was to be seen, and `r` is the report that is read
from the second transcript. -/
structure Outcome.Transcribed (o : Outcome) (prompted : Bool) (ds : List Deed) (r : Report)
    (streamed reported : Transcript) : Prop where
  exit : streamed.exit = if o.isSuccess then 0 else 1
  exit_eq : reported.exit = streamed.exit
  form : reported.stdout = textOfLines [r.toJson.pretty]
  report : Report.parse? reported.stdout = some r
  success : r.success = true ↔ ∀ f, o.ending ≠ .fault f
  output : r.output = "\n".intercalate (o.output.toList.map fun v => "Res: " ++ Decimal.ofWord v)
  fault : ∀ e, r.error = some e ↔ ∃ f, o.ending = .fault f ∧ e = f.message
  trace : reported.stderr = textOfLines (o.trace.toList.map (·.toJson.compact))
  error : streamed.stderr = reported.stderr ++ textOfLines (r.error.toList.map fun e =>
    "Error: " ++ e ++ " (at instruction " ++ Decimal.ofInt o.pc ++ ")")
  failed : r.error.isSome ↔ streamed.exit = 1
  printed : ds.filterMap Deed.value? = o.output.toList
  prepared : prompted = false → streamed.stdout = textOfLines o.outputLines
  typed : prompted = true → streamed.stdout = Deed.texts "input> " ds

theorem textOfLines_append (lines more : List String) :
    textOfLines (lines ++ more) = textOfLines lines ++ textOfLines more := by
  rw [textOfLines, List.map_append, String.join_append]
  rfl

/-- A console that has shown nothing leaves the report alone. -/
theorem Transcript.stdout_ofRun {o : Outcome} {reporting : Console} (h : reporting.written = "") :
    (ofRun true o reporting).stdout = textOfLines [o.report.toJson.pretty] := by
  show reporting.written ++ _ = _
  rw [h, String.empty_append]
  rfl

/-- What the transcripts say, from what the two consoles have written. -/
theorem Transcript.transcribed (o : Outcome) (prompted : Bool) {ds : List Deed} {streaming reporting : Console}
    (houtput : o.output.toList = ds.filterMap Deed.value?)
    (hstreaming : streaming.written = Deed.texts (if prompted then "input> " else "") ds)
    (hreporting : reporting.written = "") :
    o.Transcribed prompted ds o.report (.ofRun false o streaming) (.ofRun true o reporting) where
  exit := rfl
  exit_eq := rfl
  form := stdout_ofRun hreporting
  report := by rw [stdout_ofRun hreporting, textOfLines_singleton, Report.parse?_line]
  success := o.success_report_iff.trans o.error_report_eq_none
  output := rfl
  fault := o.error_report_eq_some
  trace := by
    show textOfLines (_ ++ []) = _
    rw [List.append_nil]
  error := by
    have hlines : faultLines o = o.report.error.toList.map fun e =>
        "Error: " ++ e ++ " (at instruction " ++ Decimal.ofInt o.pc ++ ")" := by
      unfold faultLines Outcome.report
      cases o.ending.fault? <;> rfl
    show textOfLines (_ ++ faultLines o) = textOfLines (_ ++ []) ++ _
    rw [textOfLines_append, List.append_nil, hlines]
  failed := by
    show (o.ending.fault?.map Fault.message).isSome ↔ (if o.ending.fault?.isNone then 0 else 1 : UInt8) = 1
    cases o.ending.fault? <;> simp
  printed := houtput.symm
  prepared h := by
    show streaming.written ++ "" = textOfLines (o.output.toList.map resultText)
    rw [hstreaming, h, houtput, ← Deed.texts_empty, String.append_empty]
    rfl
  typed h := by
    show streaming.written ++ "" = _
    rw [hstreaming, h, String.append_empty]
    rfl

/-- A streamed run and a reported run are the same run. With the same file, options and environment, and the
same prepared answers or the same input, a command that is to stream and one that is to report come equally
far, to the same outcome if they end. They exit alike, with 0 if the outcome is a success and else with 1, and
write the same trace. A report `r` can be read from what the second one prints, and it tells of that outcome: of
success exactly if no fault ended the run, of the values printed, and of the fault's message. The stream is a
line for each value printed, with a prompt before it for each `RD` begun if answers are asked of the terminal,
and an error line with the error of the report if there is one. -/
theorem streamed_run_is_reported_run (file : String) (options : RunOptions) (environment : Settings)
    (program : Program) (input : List UInt8) (closed : Bool) :
    ∃ streaming reporting : Session Console,
      (Command.run file { options with json := false }).start environment (.ok program) input closed =
        .run false streaming ∧
      (Command.run file { options with json := true }).start environment (.ok program) input closed =
        .run true reporting ∧
      ∀ n, (streaming.run n).1 = (reporting.run n).1 ∧
        ∀ o, (streaming.run n).1 = .ended o → ∃ r,
          o.Transcribed options.input.isNone (streaming.deeds n) r (.ofRun false o (streaming.run n).2.device)
            (.ofRun true o (reporting.run n).2.device) := by
  let streaming : Session Console :=
    .create (options.settings environment) program (.create { options with json := false } input closed)
  let reporting : Session Console :=
    .create (options.settings environment) program (.create { options with json := true } input closed)
  have hagree : ∀ n, Session.Agree (fun _ c d => c.SameInput d) (streaming.run n) (reporting.run n) := fun n =>
    Session.Alike.run Console.imitates n ⟨rfl, rfl, rfl, rfl, rfl, Console.create_sameInput options _ _ _ _⟩
  have hstreaming : streaming.Valid (options.settings environment) program := (Session.Reachable.create _).valid
  have hreporting : reporting.Valid (options.settings environment) program := (Session.Reachable.create _).valid
  refine ⟨streaming, reporting, rfl, rfl, fun n => ⟨(hagree n).progress, fun o ho => ?_⟩⟩
  obtain ⟨-, houtput, htold⟩ :=
    Session.run_tells n hstreaming (Session.tells_create options _ program input closed)
  have hhalted := Session.run_halted (s := streaming) nofun ho
  rw [hhalted.phase] at htold
  rw [hhalted.output] at houtput
  have hquiet : (reporting.run n).2.device.Quiet :=
    Session.run_records Console.quiet_records hreporting [] (Console.create_quiet options input closed) n
  exact ⟨o.report, Transcript.transcribed o _ houtput htold.written_eq hquiet.written_eq⟩

/-- Prints an answer and asks for another one. -/
def prompting : Program where
  instructions := [⟨"", "RD", "", ""⟩, ⟨"", "PRN", "", ""⟩, ⟨"", "RD", "", ""⟩]

/-- The input is a line with a number and one with a letter. -/
theorem streamed_run_is_reported_run_prompting :
    let o : Outcome := ⟨.fault (.invalidInput "x"), #[7], 3, 2, -1, #[]⟩
    let r : Report := ⟨false, "Res: 7", some "invalid input: \"x\" is not an integer"⟩
    ∃ streaming reporting : Session Console,
      (Command.run "file" {}).start { memory := 1 } (.ok prompting) [55, 10, 120] true = .run false streaming ∧
      (Command.run "file" { json := true }).start { memory := 1 } (.ok prompting) [55, 10, 120] true =
        .run true reporting ∧
      (streaming.run 8).1 = .ended o ∧ (reporting.run 8).1 = .ended o ∧
      streaming.deeds 8 = [.asks, .prints 7, .asks] ∧
      o.Transcribed true (streaming.deeds 8) r (.ofRun false o (streaming.run 8).2.device)
        (.ofRun true o (reporting.run 8).2.device) ∧
      Deed.texts "input> " (streaming.deeds 8) = "input> Res: 7\ninput> " := by
  intro o r
  obtain ⟨streaming, reporting, hs, hr, hruns⟩ :=
    streamed_run_is_reported_run "file" {} { memory := 1 } prompting [55, 10, 120] true
  obtain ⟨hsame, htranscribed⟩ := hruns 8
  have hended : (streaming.run 8).1 = .ended o := by
    cases hs
    decide +kernel
  have hdeeds : streaming.deeds 8 = [.asks, .prints 7, .asks] := by
    cases hs
    decide +kernel
  obtain ⟨r', hr'⟩ := htranscribed o hended
  -- the three fields that the report is known by
  have hread : r' = r := by
    have hsuccess : r'.success = false := by
      rw [Bool.eq_false_iff, ne_eq, hr'.success]
      exact fun h => h _ rfl
    have houtput : r'.output = "Res: 7" := by
      rw [hr'.output]
      decide +kernel
    have herror : r'.error = some "invalid input: \"x\" is not an integer" :=
      (hr'.fault _).2 ⟨_, rfl, by decide +kernel⟩
    obtain ⟨success, output, error⟩ := r'
    cases hsuccess
    cases houtput
    cases herror
    rfl
  refine ⟨streaming, reporting, hs, hr, hended, hsame ▸ hended, hdeeds, hread ▸ hr', ?_⟩
  rw [hdeeds]
  decide +kernel

end StackMachine
