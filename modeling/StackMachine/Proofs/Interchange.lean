/-
Devices can be exchanged for one another. The same answers, prepared, typed in at a terminal one on a
line, or sent over a channel whose operator then leaves, make for the same run
(`devices_interchangeable`).

Both the terminal and the channel imitate the prepared answers. For the channel this is immediate; a
terminal takes two askings for each answer, and what it reads is the answer with a newline, which
encoding, cutting and trimming have to undo.
-/
import StackMachine.Proofs.Imitation
import StackMachine.Proofs.Request
import StackMachine.Proofs.Trim

namespace StackMachine

/-! ## Lines of text -/

namespace Text

theorem trimmed_append_newline (s : String) : trimmed (s ++ "\n") = trimmed s := by
  rw [trimmed, String.toList_append, show "\n".toList = ['\n'] from rfl, trim_append_blank (by decide), trimmed]

end Text

/-- An answer may end in a newline. -/
theorem Reply.ofAnswer_append_newline (raw : String) : ofAnswer (raw ++ "\n") = ofAnswer raw := by
  unfold ofAnswer readAnswer
  rw [Text.trimmed_append_newline]

namespace Terminal

/-- The bytes of a text. -/
def bytes (s : String) : List UInt8 := s.toUTF8.data.toList

/-- The input that has each answer on a line of its own. -/
def lines (answers : List String) : List UInt8 := answers.flatMap fun a => bytes a ++ [newline]

theorem bytes_eq_flatMap (s : String) : bytes s = s.toList.flatMap String.utf8EncodeChar := by
  rw [bytes, String.toUTF8_eq_toByteArray, ← String.utf8Encode_toList, List.utf8Encode, List.data_toByteArray]

theorem newline_ne_ofNat {n : Nat} (h : n < 256) (hn : n ≠ 10) : newline ≠ UInt8.ofNat n := by
  intro he
  have hv := congrArg UInt8.toNat he
  rw [UInt8.toNat_ofNat_of_lt' h] at hv
  exact hn hv.symm

/-- Only the newline is encoded with the newline's byte: a character of one byte is that byte, and
the bytes of all others are 128 at least. -/
theorem newline_notMem_utf8EncodeChar {c : Char} (hc : c ≠ '\n') : newline ∉ String.utf8EncodeChar c := by
  have hv : c.val.toNat ≠ 10 := fun h => hc (Char.ext (UInt32.toNat_inj.1 h))
  unfold String.utf8EncodeChar
  simp only
  split
  · rw [List.mem_singleton]
    exact newline_ne_ofNat (by omega) hv
  · split
    · simp only [List.mem_cons, List.not_mem_nil, or_false, not_or]
      exact ⟨newline_ne_ofNat (by omega) (by omega), newline_ne_ofNat (by omega) (by omega)⟩
    · split
      · simp only [List.mem_cons, List.not_mem_nil, or_false, not_or]
        exact ⟨newline_ne_ofNat (by omega) (by omega), newline_ne_ofNat (by omega) (by omega),
          newline_ne_ofNat (by omega) (by omega)⟩
      · simp only [List.mem_cons, List.not_mem_nil, or_false, not_or]
        exact ⟨newline_ne_ofNat (by omega) (by omega), newline_ne_ofNat (by omega) (by omega),
          newline_ne_ofNat (by omega) (by omega), newline_ne_ofNat (by omega) (by omega)⟩

theorem newline_notMem_bytes {s : String} (h : '\n' ∉ s.toList) : newline ∉ bytes s := by
  rw [bytes_eq_flatMap, List.mem_flatMap]
  rintro ⟨c, hc, hn⟩
  exact newline_notMem_utf8EncodeChar (fun he => h (he ▸ hc)) hn

theorem bytes_append_newline (s : String) : bytes (s ++ "\n") = bytes s ++ [newline] := by
  rw [bytes_eq_flatMap, bytes_eq_flatMap, String.toList_append, List.flatMap_append]
  rfl

theorem fromUTF8?_bytes (s : String) : String.fromUTF8? (bytes s).toByteArray = some s := by
  have hb : (bytes s).toByteArray = s.toByteArray := by
    apply ByteArray.ext
    simp [bytes]
  rw [hb, String.fromUTF8?, dif_pos s.isValidUTF8]
  rfl

theorem bytes_injective {s t : String} (h : bytes s = bytes t) : s = t := by
  have hs := fromUTF8?_bytes s
  rw [h, fromUTF8?_bytes] at hs
  exact (Option.some.inj hs).symm

theorem cutLine_line {line : List UInt8} (rest : List UInt8) (h : newline ∉ line) :
    cutLine (line ++ newline :: rest) = (line ++ [newline], rest) := by
  have hne : ∀ b ∈ line, (b != newline) = true := fun b hb => by
    simpa using fun he : b = newline => h (he ▸ hb)
  unfold cutLine
  rw [List.takeWhile_append_of_pos hne, List.dropWhile_append_of_pos hne]
  simp

theorem cutLine_lines {a : String} (rest : List String) (h : '\n' ∉ a.toList) :
    cutLine (lines (a :: rest)) = (bytes (a ++ "\n"), lines rest) := by
  rw [lines, List.flatMap_cons, List.append_assoc, List.singleton_append,
    cutLine_line _ (newline_notMem_bytes h), bytes_append_newline]
  rfl

theorem lines_ne_nil (a : String) (rest : List String) : lines (a :: rest) ≠ [] := by
  simp [lines]

/-- The lines tell which answers they are of. -/
theorem lines_injective : ∀ {as bs : List String}, (∀ a ∈ as, '\n' ∉ a.toList) →
    (∀ b ∈ bs, '\n' ∉ b.toList) → lines as = lines bs → as = bs
  | [], [], _, _, _ => rfl
  | [], b :: bs, _, _, h => absurd h.symm (lines_ne_nil b bs)
  | a :: as, [], _, _, h => absurd h (lines_ne_nil a as)
  | a :: as, b :: bs, ha, hb, h => by
    rw [List.forall_mem_cons] at ha hb
    have hcut := congrArg cutLine h
    rw [cutLine_lines as ha.1, cutLine_lines bs hb.1, Prod.mk.injEq, bytes_append_newline,
      bytes_append_newline, List.append_cancel_right_eq] at hcut
    rw [bytes_injective hcut.1, lines_injective ha.2 hb.2 hcut.2]

end Terminal

/-! ## Imitations of prepared answers -/

/-- Nobody asks to stop, and what is left to read has the answers left, each on a line of its own. -/
structure Terminal.Spells (stopped : Bool) (t : Terminal) (d : Scripted) : Prop where
  unstopped : stopped = false
  closed : t.closed = true
  input : t.input = lines d.answers
  unbroken : ∀ a ∈ d.answers, '\n' ∉ a.toList

/-- A request to a terminal is pending once, when the prompt is written. -/
def Terminal.lag (t : Terminal) : Nat := if t.reading then 0 else 1

namespace Terminal

theorem write_input (t : Terminal) (s : String) : (t.write s).input = t.input := by
  unfold write
  split <;> rfl

theorem write_closed (t : Terminal) (s : String) : (t.write s).closed = t.closed := by
  unfold write
  split <;> rfl

theorem writePrompt_eq (t : Terminal) : t.writePrompt = t ∨ ∃ s, t.writePrompt = t.write s := by
  unfold writePrompt
  split
  · split
    · exact .inr ⟨_, rfl⟩
    · exact .inl rfl
  · exact .inl rfl

theorem Spells.write {t : Terminal} {d : Scripted} (h : Spells false t d) (s : String) :
    Spells false (t.write s) d :=
  ⟨rfl, by rw [write_closed, h.closed], by rw [write_input, h.input], h.unbroken⟩

theorem Spells.writePrompt {t : Terminal} {d : Scripted} (h : Spells false t d) :
    Spells false t.writePrompt d := by
  rcases t.writePrompt_eq with he | ⟨s, he⟩
  · rw [he]
    exact h
  · rw [he]
    exact h.write s

theorem readLine_nil {t : Terminal} (hclosed : t.closed = true) (hinput : t.input = []) :
    t.readLine false = { reply := .refused .cancelled, device := { t with input := [], reading := false } } := by
  simp [readLine, hclosed, hinput, cutLine]

theorem readLine_lines {t : Terminal} {a : String} {rest : List String} (hclosed : t.closed = true)
    (hinput : t.input = lines (a :: rest)) (ha : '\n' ∉ a.toList) :
    t.readLine false = { reply := .ofAnswer a, device := { t with input := lines rest, reading := false } } := by
  have hline : (bytes (a ++ "\n")).isEmpty = false := by simp [bytes_append_newline]
  simp [readLine, hclosed, hinput, cutLine_lines rest ha, hline, fromUTF8?_bytes, Reply.ofAnswer_append_newline]

/-- The line read holds the next answer, if one is left. -/
theorem Spells.readLine {t : Terminal} {d : Scripted} (h : Spells false t d) :
    (t.readLine false).reply = (d.ask false).reply ∧
      Spells false (t.readLine false).device (d.ask false).device := by
  obtain ⟨-, hclosed, hinput, hunbroken⟩ := h
  rcases d with ⟨_ | ⟨a, rest⟩, emitted⟩
  · rw [readLine_nil hclosed hinput]
    exact ⟨rfl, rfl, hclosed, rfl, hunbroken⟩
  · rw [List.forall_mem_cons] at hunbroken
    rw [readLine_lines hclosed hinput hunbroken.1]
    exact ⟨rfl, rfl, hclosed, rfl, hunbroken.2⟩

theorem imitates_scripted : Device.Imitates Spells lag where
  ask {stopped t d} h := by
    obtain rfl := h.unstopped
    show ((t.ask false).reply = (d.ask false).reply ∧ (t.ask false).raisesStop = (d.ask false).raisesStop ∧
      Spells (t.ask false).raisesStop (t.ask false).device (d.ask false).device) ∨ _
    by_cases hr : t.reading = true
    · left
      have hnone : (d.ask false).raisesStop = false := by
        rcases d with ⟨_ | ⟨a, rest⟩, emitted⟩ <;> rfl
      rw [Terminal.ask, if_pos hr, readLine_raisesStop, hnone]
      exact ⟨h.readLine.1, rfl, h.readLine.2⟩
    · right
      show (t.ask false).reply = .pending ∧ (t.ask false).raisesStop = false ∧
        Spells false (t.ask false).device d ∧ (t.ask false).device.lag < t.lag
      rw [Terminal.ask, if_neg hr, if_neg Bool.false_ne_true]
      obtain ⟨-, hclosed, hinput, hunbroken⟩ := h.writePrompt
      exact ⟨rfl, rfl, ⟨rfl, hclosed, hinput, hunbroken⟩, by simp [lag, hr]⟩
  emit {stopped t d} v h := by
    obtain rfl := h.unstopped
    show (t.emit v).raisesStop = false ∧ Spells (t.emit v).raisesStop (t.emit v).device (d.emit v).device
    unfold Terminal.emit
    split
    · obtain ⟨-, hclosed, hinput, hunbroken⟩ := h.write (resultText v ++ "\n")
      exact ⟨rfl, rfl, hclosed, hinput, hunbroken⟩
    · exact ⟨rfl, rfl, h.closed, h.input, h.unbroken⟩

end Terminal

/-- Nobody asks to stop, the operator has left, and the answers left are the ones still queued. -/
structure Channel.Holds (stopped : Bool) (c : Channel) (d : Scripted) : Prop where
  unstopped : stopped = false
  operator : c.operator = false
  answers : c.answers = d.answers

namespace Channel

theorem imitates_scripted : Device.Imitates Holds fun _ => 0 where
  ask {stopped c d} h := by
    obtain ⟨rfl, hoperator, hanswers⟩ := h
    rcases c with ⟨answers, results, operator, machine⟩
    rcases d with ⟨answers, emitted⟩
    obtain rfl : operator = false := hoperator
    obtain rfl : _ = answers := hanswers
    left
    rcases answers with _ | ⟨a, rest⟩ <;> exact ⟨rfl, rfl, rfl, rfl, rfl⟩
  emit {stopped c d} v h := by
    obtain ⟨rfl, hoperator, hanswers⟩ := h
    rcases c with ⟨answers, results, operator, machine⟩
    obtain rfl : operator = false := hoperator
    exact ⟨rfl, rfl, rfl, hanswers⟩

/-- The operator's sending these answers, one after another. -/
def queue (c : Channel) (answers : List String) : Channel := answers.foldl (fun c a => (c.answer a).2) c

theorem queue_answers (bs : List String) :
    ∀ as : List String, ({ answers := as } : Channel).queue bs = { answers := as ++ bs } := by
  induction bs with
  | nil =>
    intro as
    rw [List.append_nil]
    rfl
  | cons b bs ih =>
    intro as
    show ({ answers := as ++ [b] } : Channel).queue bs = _
    rw [ih, List.append_assoc, List.singleton_append]

end Channel

/-! ## The same run -/

namespace Session

variable {σ τ : Type} [Device σ] [Device τ]

/-- A run of the session ends with this outcome and this memory, and leaves such a device. -/
def EndsWith (s : Session σ) (o : Outcome) (memory : Memory) (P : σ → Prop) : Prop :=
  ∃ n t, s.run n = (.ended o, t) ∧ t.machine.memory = memory ∧ P t.device

/-- Sessions with related devices end alike, and each device then satisfies what the other does. -/
theorem Alike.endsWith_iff {R : Bool → σ → τ → Prop} {lag : σ → Nat} {s : Session σ} {t : Session τ}
    (hR : Device.Imitates R lag) (h : s.Alike R t) {P : σ → Prop} {Q : τ → Prop}
    (hPQ : ∀ stopped d e, R stopped d e → (P d ↔ Q e)) (o : Outcome) (memory : Memory) :
    s.EndsWith o memory P ↔ t.EndsWith o memory Q := by
  constructor
  · rintro ⟨n, s', hrun, hmemory, hP⟩
    obtain ⟨m, hprogress, halike⟩ := h.run_to hR n
    rw [hrun] at hprogress halike
    refine ⟨m, (t.run m).2, Prod.ext hprogress.symm rfl, ?_, (hPQ _ _ _ halike.device).1 hP⟩
    rw [← halike.machine, hmemory]
  · rintro ⟨n, t', hrun, hmemory, hQ⟩
    obtain ⟨m, hprogress, halike⟩ := h.run_of hR n
    rw [hrun] at hprogress halike
    refine ⟨m, (s.run m).2, Prod.ext hprogress rfl, ?_, (hPQ _ _ _ halike.device).2 hQ⟩
    rw [halike.machine, hmemory]

end Session

/-- Prepared answers are used in order: those left are an end of what there was. -/
theorem Scripted.imitates_leftover (answers : List String) :
    Device.Imitates (fun (_ : Bool) (d e : Scripted) => d = e ∧ d.answers <:+ answers) fun _ => 0 where
  ask {stopped d e} h := by
    obtain ⟨rfl, hsuffix⟩ := h
    refine .inl ⟨rfl, rfl, rfl, List.IsSuffix.trans ?_ hsuffix⟩
    rcases d with ⟨_ | ⟨a, rest⟩, emitted⟩ <;> cases stopped
    · exact List.suffix_refl _
    · exact List.suffix_refl _
    · exact List.suffix_cons a rest
    · exact List.suffix_refl _
  emit v h := ⟨rfl, congrArg (fun d => (Scripted.emit v d).device) h.1, h.2⟩

/-- The same answers make for the same run, whichever device they come from: prepared, typed in one on
a line, with any prompt and whether or not anything is or can be written, or queued on a channel that
the operator has left. At any time some of the answers are used and the others are left; and if one of
the runs ends, all end, with the same outcome, the same memory and as many answers used. -/
theorem devices_interchangeable (settings : Settings) (program : Program) (answers : List String)
    (hanswers : ∀ a ∈ answers, '\n' ∉ a.toList) (prompt : Option String) (echo : Bool)
    (failure : Option String) :
    let scripted := Session.create settings program ({ answers } : Scripted)
    let terminal := Session.create settings program
      ({ input := Terminal.lines answers, prompt, echo, failure } : Terminal)
    let channel := Session.create settings program (({} : Channel).queue answers).leave
    (∀ n, (∃ used ≤ answers.length, (scripted.run n).2.device.answers = answers.drop used) ∧
      (∃ used ≤ answers.length, (terminal.run n).2.device.input = Terminal.lines (answers.drop used)) ∧
      ∃ used ≤ answers.length, (channel.run n).2.device.answers = answers.drop used) ∧
    ∀ o memory used,
      (terminal.EndsWith o memory (·.input = Terminal.lines (answers.drop used)) ↔
        scripted.EndsWith o memory (·.answers = answers.drop used)) ∧
      (channel.EndsWith o memory (·.answers = answers.drop used) ↔
        scripted.EndsWith o memory (·.answers = answers.drop used)) := by
  intro scripted terminal channel
  have hscripted : scripted.Alike (fun _ d e => d = e ∧ d.answers <:+ answers) scripted :=
    ⟨rfl, rfl, rfl, rfl, rfl, rfl, List.suffix_refl _⟩
  have hterminal : terminal.Alike Terminal.Spells scripted :=
    ⟨rfl, rfl, rfl, rfl, rfl, rfl, rfl, rfl, hanswers⟩
  have hchannel : channel.Alike Channel.Holds scripted := by
    refine ⟨rfl, rfl, rfl, rfl, rfl, rfl, rfl, ?_⟩
    show (({ answers := [] } : Channel).queue answers).answers = answers
    rw [Channel.queue_answers]
    rfl
  have hleft : ∀ n, ∃ used ≤ answers.length, (scripted.run n).2.device.answers = answers.drop used := by
    intro n
    obtain ⟨-, hsession⟩ := hscripted.run (Scripted.imitates_leftover answers) n
    exact ⟨_, Nat.sub_le _ _, List.suffix_iff_eq_drop.1 hsession.device.2⟩
  refine ⟨fun n => ⟨hleft n, ?_, ?_⟩, fun o memory used => ⟨?_, ?_⟩⟩
  · obtain ⟨m, -, hsession⟩ := hterminal.run_to Terminal.imitates_scripted n
    obtain ⟨used, hused, hanswers'⟩ := hleft m
    exact ⟨used, hused, by rw [hsession.device.input, hanswers']⟩
  · obtain ⟨-, hsession⟩ := hchannel.run Channel.imitates_scripted n
    obtain ⟨used, hused, hanswers'⟩ := hleft n
    exact ⟨used, hused, by rw [hsession.device.answers, hanswers']⟩
  · refine hterminal.endsWith_iff Terminal.imitates_scripted (fun stopped t d h => ?_) o memory
    have hrest : ∀ a ∈ answers.drop used, '\n' ∉ a.toList := fun a ha => hanswers a (List.mem_of_mem_drop ha)
    rw [h.input]
    exact ⟨Terminal.lines_injective h.unbroken hrest, fun he => by rw [he]⟩
  · refine hchannel.endsWith_iff Channel.imitates_scripted (fun stopped c d h => ?_) o memory
    rw [h.answers]

/-- Prints the answer to its request and asks again. -/
def repeating : Program where
  instructions := [⟨"", "RD", "", ""⟩, ⟨"", "PRN", "", ""⟩, ⟨"", "RD", "", ""⟩]

/-- The second answer is no number, and the third is not used. -/
theorem devices_interchangeable_repeating :
    let answers := [" 41", "x", "5"]
    let o : Outcome := ⟨.fault (.invalidInput "x"), #[41], 3, 2, -1, #[]⟩
    let terminal := Session.create { memory := 1 } repeating
      ({ input := Terminal.lines answers, prompt := some "? " } : Terminal)
    let channel := Session.create { memory := 1 } repeating (({} : Channel).queue answers).leave
    (∀ a ∈ answers, '\n' ∉ a.toList) ∧
      terminal.EndsWith o ⟨#[41]⟩ (·.input = Terminal.lines ["5"]) ∧
      channel.EndsWith o ⟨#[41]⟩ (·.answers = ["5"]) := by
  intro answers o terminal channel
  have hanswers : ∀ a ∈ answers, '\n' ∉ a.toList := by decide
  have hscripted : (Session.create { memory := 1 } repeating ({ answers } : Scripted)).EndsWith o ⟨#[41]⟩
      (·.answers = answers.drop 2) :=
    ⟨7, _, Prod.ext (by decide +kernel) rfl, by decide +kernel, by decide +kernel⟩
  obtain ⟨-, hends⟩ := devices_interchangeable { memory := 1 } repeating answers hanswers (some "? ") true none
  exact ⟨hanswers, (hends o ⟨#[41]⟩ 2).1.2 hscripted, (hends o ⟨#[41]⟩ 2).2.2 hscripted⟩

end StackMachine
