/-
The two sides of a terminal. What a terminal is to write, and whether it can, has no influence on a run, nor
on how much of the input the run consumes (`output_side_without_influence`).

What is consumed is told request by request (`Session.services`). A request that finds the stop flag up when
it is first asked is cancelled and takes nothing; every other request takes one line, whatever that line
holds (`Terminal.Ledger`). One tick adds at most one request to the ledger (`Session.Attends.tick`), and a
run adds them in order (`Session.Attends.runAmid`).
-/
import StackMachine.Proofs.Streaming

namespace StackMachine

namespace Terminal

/-- The terminal with all of this input before it and no request under way. Its prompt, whether it shows
anything, and why its writes or flushes fail are left as they are. -/
def facing (t : Terminal) (input : List UInt8) : Terminal :=
  { t with input, closed := true, reading := false }

/-! ## Lines -/

/-- The first line of the input, with the newline that ends it, and what follows. A line that no newline ends
is all that is left. -/
inductive CutsLine : List UInt8 → List UInt8 → List UInt8 → Prop
  | ended {line rest : List UInt8} : newline ∉ line →
    CutsLine (line ++ newline :: rest) (line ++ [newline]) rest
  | last {line : List UInt8} : newline ∉ line → CutsLine line line []

theorem cutsLine_cutLine (input : List UInt8) : CutsLine input (cutLine input).1 (cutLine input).2 := by
  by_cases h : newline ∈ input
  · obtain ⟨line, rest, rfl, hline⟩ := List.eq_append_cons_of_mem h
    rw [cutLine_line rest hline]
    exact .ended hline
  · have hne : ∀ b ∈ input, (b != newline) = true := fun b hb => by
      simpa using fun he : b = newline => h (he ▸ hb)
    rw [cutLine, List.takeWhile_eq_self_iff.2 hne, List.dropWhile_eq_nil_iff.2 hne]
    simpa using CutsLine.last h

theorem replyTo_garbled {line : List UInt8} (stopped : Bool) (h : ¬line.toByteArray.IsValidUTF8) :
    replyTo stopped line = .refused .cancelled := by
  unfold replyTo
  split
  · rfl
  · rw [String.fromUTF8?, dif_neg h]

/-! ## Requests -/

theorem ask_denied {t : Terminal} (h : t.reading = false) :
    t.ask true = { reply := .refused .cancelled, device := t } := by
  rw [Terminal.ask, if_neg (by simp [h]), if_pos rfl]

theorem ask_taken_up {t : Terminal} (h : t.reading = false) :
    t.ask false = { reply := .pending, device := { t.writePrompt with reading := true } } := by
  rw [Terminal.ask, if_neg (by simp [h]), if_neg Bool.false_ne_true]

/-- A request that has been taken up reads a line, and that settles it. -/
theorem ask_reading {t : Terminal} (stopped : Bool) (h : t.reading = true) (hclosed : t.closed = true) :
    (t.ask stopped).reply = replyTo stopped (cutLine t.input).1 ∧
      (t.ask stopped).device = { t with input := (cutLine t.input).2, reading := false } := by
  have hline : t.hasLine = true := by rw [hasLine, hclosed, Bool.true_or]
  rw [Terminal.ask, if_pos h]
  exact ⟨readLine_reply stopped hline, readLine_device stopped hline⟩

/-- A request that is over. -/
structure Service where
  /-- The stop flag as the first asking found it. -/
  stopped : Bool
  /-- The input as the first asking found it. -/
  before : List UInt8
  reply : Reply
  /-- The input that the request left. -/
  after : List UInt8
  deriving DecidableEq, Repr

/-- What a series of requests makes of the input, and what they leave of it. -/
inductive Ledger : List UInt8 → List Service → List UInt8 → Prop
  | done {input : List UInt8} : Ledger input [] input
  | denied {input rest : List UInt8} {services : List Service} : Ledger input services rest →
    Ledger input (⟨true, input, .refused .cancelled, input⟩ :: services) rest
  | line {before line after rest : List UInt8} {reply : Reply} {services : List Service} :
    CutsLine before line after → (¬line.toByteArray.IsValidUTF8 → reply = .refused .cancelled) →
    Ledger after services rest → Ledger before (⟨false, before, reply, after⟩ :: services) rest

theorem Ledger.append {input mid rest : List UInt8} {services more : List Service}
    (h : Ledger input services mid) (hmore : Ledger mid more rest) :
    Ledger input (services ++ more) rest := by
  induction h with
  | done => exact hmore
  | denied _ ih => exact .denied (ih hmore)
  | line hcut hgarbled _ ih => exact .line hcut hgarbled (ih hmore)

end Terminal

namespace Session

open Terminal

/-- The request that the next tick ends, if it ends one, and what the first asking of the request that is
going on then has found. `begun` is what it has found so far. -/
def inquire (begun : Option (Bool × List UInt8)) (s : Session Terminal) :
    Option Service × Option (Bool × List UInt8) :=
  if s.phase = .reading then
    let first := begun.getD (s.stopped, s.device.input)
    let r := s.device.ask s.stopped
    match r.reply with
    | .pending | .waiting => (none, some first)
    | reply => (some ⟨first.1, first.2, reply, r.device.input⟩, none)
  else (none, none)

theorem inquire_pending {begun : Option (Bool × List UInt8)} {s : Session Terminal} (hp : s.phase = .reading)
    (h : (s.device.ask s.stopped).reply = .pending) :
    s.inquire begun = (none, some (begun.getD (s.stopped, s.device.input))) := by
  simp only [inquire, if_pos hp, h]

theorem inquire_final {begun : Option (Bool × List UInt8)} {s : Session Terminal} (hp : s.phase = .reading)
    (h : (s.device.ask s.stopped).reply.IsFinal) :
    s.inquire begun =
      (some ⟨(begun.getD (s.stopped, s.device.input)).1, (begun.getD (s.stopped, s.device.input)).2,
        (s.device.ask s.stopped).reply, (s.device.ask s.stopped).device.input⟩, none) := by
  simp only [inquire, if_pos hp]
  cases hr : (s.device.ask s.stopped).reply with
  | answer | refused => rfl
  | pending | waiting =>
    rw [hr] at h
    exact h.elim

/-- The requests that a run ends, in their order. -/
def services : Option (Bool × List UInt8) → List (Incident Terminal) → Session Terminal → List Service
  | _, [], _ => []
  | begun, i :: is, s =>
    ((s.meet i).inquire begun).1.toList ++
      match (s.meet i).tick with
      | (.ended _, _) => []
      | (_, t) => services ((s.meet i).inquire begun).2 is t

/-! ## What a tick does to the device -/

section Device

variable {σ : Type} [Device σ] {s : Session σ} {r : Progress × Session σ}

/-- A tick in a request is one asking, and the request goes on if the device says so. -/
theorem Ticks.asks (ht : s.Ticks r) (hp : s.phase = .reading) :
    r.2.device = (Device.ask s.stopped s.device).device ∧
      ((Device.ask s.stopped s.device).reply = .pending → r.2.phase = .reading) := by
  cases ht with
  | start h | refuse h => cases hp.symm.trans h
  | finish h => cases hp.symm.trans h
  | fail hb | work hb | print hb | read hb => cases hp.symm.trans hb.running
  | pending | waiting => exact ⟨rfl, fun _ => hp⟩
  | refused _ hr | overflow _ hr => exact ⟨rfl, fun hpending => nomatch hpending.symm.trans hr⟩
  | answer _ hr =>
    rw [retire_eq]
    exact ⟨rfl, fun hpending => nomatch hpending.symm.trans hr⟩

/-- Any other tick leaves the device alone or shows it a value. -/
theorem Ticks.device_between (ht : s.Ticks r) (hp : s.phase ≠ .reading) :
    r.2.device = s.device ∨ ∃ v, r.2.device = (Device.emit v s.device).device := by
  cases ht with
  | start | refuse | finish | fail | read => exact .inl rfl
  | work => rw [retire_eq]; exact .inl rfl
  | @print _ v => rw [retire_eq]; exact .inr ⟨v, rfl⟩
  | pending h | waiting h | refused h | overflow h | answer h => exact absurd h hp

end Device

/-! ## Ticks and runs -/

/-- All input has come. No request is under way, or one has been asked, has found the flag down and is about
to read its line. -/
inductive Attends : Option (Bool × List UInt8) → Session Terminal → Prop
  | idle {s : Session Terminal} : s.device.closed = true → s.device.reading = false → Attends none s
  | amid {s : Session Terminal} : s.device.closed = true → s.device.reading = true → s.phase = .reading →
    Attends (some (false, s.device.input)) s

variable {begun : Option (Bool × List UInt8)} {s : Session Terminal}

/-- Between requests the input is left alone. -/
theorem Attends.tick_between (h : s.Attends begun) (hp : s.phase ≠ .reading) :
    s.tick.2.Attends none ∧ s.tick.2.device.input = s.device.input := by
  have hsame : s.tick.2.device.SameInput s.device := by
    rcases s.tick_ticks.device_between hp with hdevice | ⟨v, hdevice⟩
    · rw [hdevice]
      exact ⟨rfl, rfl, rfl⟩
    · rw [hdevice]
      exact s.device.emit_sameInput v
  cases h with
  | idle hclosed hreading =>
    exact ⟨.idle (hsame.closed.trans hclosed) (hsame.reading.trans hreading), hsame.input⟩
  | amid _ _ hphase => exact absurd hphase hp

/-- The first asking of a request ends it if the flag is up. -/
theorem tick_first (hp : s.phase = .reading) (hclosed : s.device.closed = true)
    (hreading : s.device.reading = false) :
    s.tick.2.Attends (s.inquire none).2 ∧
      Ledger s.device.input (s.inquire none).1.toList s.tick.2.device.input := by
  obtain ⟨hdevice, hpending⟩ := s.tick_ticks.asks hp
  change s.tick.2.device = (s.device.ask s.stopped).device at hdevice
  change (s.device.ask s.stopped).reply = .pending → s.tick.2.phase = .reading at hpending
  cases hstopped : s.stopped with
  | true =>
    have hask := hstopped ▸ ask_denied hreading
    have hsame : s.tick.2.device = s.device := by rw [hdevice, hask]
    rw [inquire_final hp (by rw [hask]; trivial), hask, hsame, hstopped]
    exact ⟨.idle (hsame ▸ hclosed) (hsame ▸ hreading), .denied .done⟩
  | false =>
    have hask := hstopped ▸ ask_taken_up hreading
    have hreply : (s.device.ask s.stopped).reply = .pending := by rw [hask]
    obtain ⟨hinput, hclosed', -⟩ := s.device.writePrompt_sameInput
    rw [hask] at hdevice
    have hsame : s.tick.2.device.input = s.device.input := by rw [hdevice]; exact hinput
    rw [inquire_pending hp hreply, hstopped, Option.getD_none, ← hsame]
    refine ⟨.amid ?_ ?_ (hpending hreply), .done⟩
    · rw [hdevice]
      exact hclosed'.trans hclosed
    · rw [hdevice]

/-- The second asking reads the line, and that ends the request. -/
theorem tick_line (hp : s.phase = .reading) (hclosed : s.device.closed = true)
    (hreading : s.device.reading = true) :
    s.tick.2.Attends (s.inquire (some (false, s.device.input))).2 ∧
      Ledger s.device.input (s.inquire (some (false, s.device.input))).1.toList s.tick.2.device.input := by
  have hdevice : s.tick.2.device = (s.device.ask s.stopped).device := (s.tick_ticks.asks hp).1
  obtain ⟨hreply, hleft⟩ := ask_reading s.stopped hreading hclosed
  rw [inquire_final hp (hreply ▸ replyTo_final _ _), hdevice, hreply, hleft]
  refine ⟨.idle ?_ ?_, .line (cutsLine_cutLine _) (fun hgarbled => replyTo_garbled _ hgarbled) .done⟩
  · rw [hdevice, hleft]
    exact hclosed
  · rw [hdevice, hleft]

/-- A tick adds to the ledger the request that it ends. -/
theorem Attends.tick (h : s.Attends begun) :
    s.tick.2.Attends (s.inquire begun).2 ∧
      Ledger s.device.input (s.inquire begun).1.toList s.tick.2.device.input := by
  by_cases hp : s.phase = .reading
  · cases h with
    | idle hclosed hreading => exact tick_first hp hclosed hreading
    | amid hclosed hreading _ => exact tick_line hp hclosed hreading
  · obtain ⟨hattends, hinput⟩ := h.tick_between hp
    rw [inquire, if_neg hp, hinput]
    exact ⟨hattends, .done⟩

/-- A run adds to the ledger the requests that it ends. -/
theorem Attends.runAmid (stops : List Bool) (h : s.Attends begun) :
    Ledger s.device.input (s.services begun (stops.map fun raises => { raises }))
      (s.runAmid (stops.map fun raises => { raises })).2.device.input := by
  induction stops generalizing s begun with
  | nil => exact .done
  | cons b stops ih =>
    have hmeet : (s.meet { raises := b }).Attends begun := by
      cases h with
      | idle hclosed hreading => exact .idle hclosed hreading
      | amid hclosed hreading hp => exact .amid (s := s.meet { raises := b }) hclosed hreading hp
    obtain ⟨hattends, hledger⟩ := hmeet.tick
    rw [List.map_cons, services, Session.runAmid]
    rcases ht : (s.meet { raises := b }).tick with ⟨r, u⟩
    rw [ht] at hattends hledger
    cases r with
    | ended o =>
      rw [List.append_nil]
      exact hledger
    | running | waiting => exact hledger.append (ih hattends)

end Session

/-- What a terminal writes does not show in what it replies. -/
theorem Terminal.imitates_sameInput :
    Device.Imitates (fun (_ : Bool) (t u : Terminal) => t.SameInput u) fun _ => 0 where
  ask {stopped t u} h := by
    obtain ⟨hreply, hdevice⟩ := h.ask stopped
    exact .inl ⟨hreply, (unassuming.ask stopped t).trans (unassuming.ask stopped u).symm, hdevice⟩
  emit {stopped t u} v h := ⟨(unassuming.emit v t).trans (unassuming.emit v u).symm, h.emit v⟩

/-- The output side of a terminal has no influence. Let the same program run under the same settings against
two terminals with the same input, and let the stop flag be raised at the same moments. The terminals may
differ in their prompts, in whether they show anything, and in whether writing or flushing fails. Then the
runs come equally far, to the same outcome if they end, and leave the same machine and the same input. Of the
input, each request that the flag cancels when it is first asked takes nothing, and each other request takes
the next line with its newline, or all that is left, even if that is not UTF-8; such a request is
cancelled. -/
theorem output_side_without_influence (settings : Settings) (program : Program) (input : List UInt8)
    (stops : List Bool) (t u : Terminal) :
    let incidents : List (Incident Terminal) := stops.map fun raises => { raises }
    let s := Session.create settings program (t.facing input)
    let s' := Session.create settings program (u.facing input)
    (s.runAmid incidents).1 = (s'.runAmid incidents).1 ∧
      (s.runAmid incidents).2.machine = (s'.runAmid incidents).2.machine ∧
      (s.runAmid incidents).2.device.input = (s'.runAmid incidents).2.device.input ∧
      Terminal.Ledger input (s.services none incidents) (s.runAmid incidents).2.device.input := by
  intro incidents s s'
  have halike : s.Alike (fun _ t u => t.SameInput u) s' := ⟨rfl, rfl, rfl, rfl, rfl, rfl, rfl, rfl⟩
  have hagree : Session.Agree (fun _ t u => t.SameInput u) (s.runAmid incidents) (s'.runAmid incidents) :=
    halike.runAmid_map Terminal.imitates_sameInput (fun _ => rfl) (fun _ _ _ _ hsame => hsame) stops
  exact ⟨hagree.progress, hagree.session.machine, hagree.session.device.input,
    Session.Attends.runAmid (s := s) stops (.idle rfl rfl)⟩

end StackMachine
