/-
Prepared answers are used one at a time, each when it is asked for. So a run cannot tell whether there are
more answers behind those that it uses (`answers_used_causally`): with more of them it is the same run, and
they are all left in the end.

A run that asks for an answer when none is left is cancelled. It has then used all the answers it was
given, and with more of them it would have come to the same place and gone on.
-/
import StackMachine.Proofs.Exchange
import StackMachine.Proofs.Guise
import StackMachine.Proofs.Interchange

namespace StackMachine

/-! ## More answers -/

namespace Scripted

/-- The device with further answers behind those that it has. -/
def supply (d : Scripted) (more : List String) : Scripted := { d with answers := d.answers ++ more }

theorem ask_cons (raw : String) (rest : List String) (emitted : Array Word) :
    ask false ⟨raw :: rest, emitted⟩ = { reply := .ofAnswer raw, device := ⟨rest, emitted⟩ } := by
  simp only [ask, Bool.false_eq_true, if_false]

/-- A request that is not cancelled takes the first answer, whatever is behind it. -/
theorem ask_supply {stopped : Bool} {d : Scripted} (more : List String)
    (h : (d.ask stopped).reply ≠ .refused .cancelled) :
    (d.supply more).ask stopped = { d.ask stopped with device := (d.ask stopped).device.supply more } := by
  cases stopped with
  | true => exact absurd (by simp only [ask, if_true]) h
  | false =>
    rcases d with ⟨_ | ⟨raw, rest⟩, emitted⟩
    · exact absurd rfl h
    · simp only [supply, List.cons_append, ask_cons]

theorem emit_supply (more : List String) (v : Word) (d : Scripted) :
    (d.supply more).emit v = { d.emit v with device := (d.emit v).device.supply more } := rfl

/-- Nobody asks to stop, so a request is cancelled only for want of an answer. -/
theorem ask_cancelled {d : Scripted} (h : (d.ask false).reply = .refused .cancelled) :
    d.answers = [] ∧ (d.ask false).device = d := by
  rcases d with ⟨_ | ⟨raw, rest⟩, emitted⟩
  · exact ⟨rfl, rfl⟩
  · simp only [ask_cons] at h
    exact absurd h (Exchange.ofAnswer_ne_cancelled raw)

end Scripted

/-- No instruction can tell that there are more answers but one that misses an answer. -/
def Guise.supplied (more : List String) : Guise Scripted where
  settings := id
  memory := id
  trace := id
  device d := d.supply more
  log := id
  passes f := f ≠ .inputCancelled
  stepLimit_settings _ := rfl
  contains_memory h := h
  get_memory := get_id
  memory_set := set_id
  outside_memory h _ := ⟨h, rfl⟩
  trace_empty := trace_id
  trace_push := trace_push_id
  ask_device _ _ h := Scripted.ask_supply more fun hc => h _ hc rfl
  emit_device v d := Scripted.emit_supply more v d
  log_step := log_step_id
  log_append := log_id

theorem Guise.result_supplied (more : List String) (r : Progress × Session Scripted) :
    (Guise.supplied more).result r = (r.1, { r.2 with device := r.2.device.supply more }) := by
  obtain ⟨p, s⟩ := r
  cases p <;> rfl

/-! ## Missing an answer -/

/-- A run is cancelled only when no answer is left. -/
theorem Session.Ticks.used_up {settings : Settings} {program : Program} {s : Session Scripted}
    {r : Progress × Session Scripted} (ht : s.Ticks r) (h : s.Valid settings program)
    (hs : s.stopped = false) {o : Outcome} (ho : r.1 = .ended o) (hc : o.ending = .fault .inputCancelled) :
    r.2.device.answers = [] := by
  cases ht with
  | refuse => cases ho; cases hc
  | finish _ he =>
    cases ho
    cases hc
    cases he
  | fail hb he =>
    cases ho
    cases hc
    cases (h.execute_error hb he).2.2
  | @refused e _ ha =>
    cases ho
    cases e with
    | invalidInput text => cases hc
    | cancelled =>
      rw [hs] at ha
      obtain ⟨hnone, hsame⟩ := Scripted.ask_cancelled ha
      show (Scripted.ask s.stopped s.device).device.answers = []
      rw [hs, hsame, hnone]
  | overflow => cases ho; cases hc
  | work | print | answer => rw [retire_eq] at ho; cases ho
  | _ => cases ho

/-- Answers are used causally. Unless a run is cancelled, it is the same run with more answers behind those
it was given: it comes equally far, to the same outcome if it ends, with the same machine and log, and the
device has used and printed the same, so that just the further answers are left in addition. A run that is
cancelled has used all its answers; with more of them the run comes at least as far, and what was printed
before the cancellation is the beginning of what is printed by then and in the end. -/
theorem answers_used_causally (settings : Settings) (program : Program) (answers more : List String) :
    let short := Session.create settings program ({ answers } : Scripted)
    let long := Session.create settings program ({ answers := answers ++ more } : Scripted)
    (∀ n, (∀ o, (short.run n).1 = .ended o → o.ending ≠ .fault .inputCancelled) →
      long.run n =
        ((short.run n).1, { (short.run n).2 with device := (short.run n).2.device.supply more })) ∧
    ∀ n o, (short.run n).1 = .ended o → o.ending = .fault .inputCancelled →
      (short.run n).2.device.answers = [] ∧ long.Outlasts o n := by
  intro short long
  have hlong : (Guise.supplied more).session short = long := rfl
  have hshort : short.Valid settings program := (Session.Reachable.create _).valid
  constructor
  · intro n huncancelled
    rw [← hlong, ← Guise.result_supplied]
    apply Guise.run_session
    rintro o f ho hf rfl
    exact huncancelled o ho hf
  · intro n o ho hc
    constructor
    · obtain ⟨t, ⟨hvalid, hs⟩, -, htick⟩ := Session.run_ended
        (P := fun t => t.Valid settings program ∧ t.stopped = false)
        (fun t ht => ⟨t.tick_ticks.valid ht.1, t.tick_ticks.unstopped Scripted.unassuming ht.2⟩)
        ⟨hshort, rfl⟩ nofun (Prod.ext ho rfl : short.run n = (.ended o, (short.run n).2))
      exact (htick ▸ t.tick_ticks).used_up hvalid hs rfl hc
    · have hvalid : long.Valid settings program := (Session.Reachable.create _).valid
      exact (Guise.supplied more).outlasts hshort hvalid nofun ho

/-- Two answers are asked for: one is too few, and of three the last is left. -/
theorem answers_used_causally_repeating :
    let short := Session.create { memory := 1 } repeating ({ answers := ["41"] } : Scripted)
    let middle := Session.create { memory := 1 } repeating ({ answers := ["41", "5"] } : Scripted)
    let long := Session.create { memory := 1 } repeating ({ answers := ["41", "5", "6"] } : Scripted)
    let cancelled : Outcome := ⟨.fault .inputCancelled, #[41], 3, 2, -1, #[]⟩
    (short.run 7).1 = .ended cancelled ∧ (short.run 7).2.device.answers = [] ∧ middle.Outlasts cancelled 7 ∧
      (middle.run 7).1 = .ended ⟨.endOfProgram, #[41], 3, 3, 0, #[]⟩ ∧
      long.run 7 = ((middle.run 7).1, { (middle.run 7).2 with device := (middle.run 7).2.device.supply ["6"] }) := by
  intro short middle long cancelled
  have hshort : (short.run 7).1 = .ended cancelled := by decide +kernel
  have hmiddle : (middle.run 7).1 = .ended ⟨.endOfProgram, #[41], 3, 3, 0, #[]⟩ := by decide +kernel
  obtain ⟨hused, houtlasts⟩ :=
    (answers_used_causally { memory := 1 } repeating ["41"] ["5"]).2 7 cancelled hshort rfl
  refine ⟨hshort, hused, houtlasts, hmiddle, ?_⟩
  apply (answers_used_causally { memory := 1 } repeating ["41", "5"] ["6"]).1 7
  intro o ho
  have hsame := hmiddle.symm.trans ho
  cases hsame
  simp

end StackMachine
