/-
Answers. `Numeral cs i` says which texts are numerals and what they denote: an optional sign, then digits, of
which each stands for ten times as much as the one behind it. An answer is read exactly if it is a numeral of
a word with any white space around it (`readAnswer_eq_ok`); what a word is written as is such a numeral
(`numeral_ofWord`), so prepared answers come back as the words that they spell (`Scripted.replies_spelled`).
-/
import Mathlib.Algebra.Ring.Int.Defs
import Mathlib.Data.List.Forall2
import StackMachine.Proofs.Answers
import StackMachine.Proofs.Trim

namespace StackMachine

namespace Decimal

/-! ## Numerals -/

/-- One or more digits and the number that they denote. -/
inductive Digits : List Char → Nat → Prop
  | single {c : Char} : c.isDigit = true → Digits [c] (c.toNat - '0'.toNat)
  | append {cs : List Char} {n : Nat} {c : Char} :
    Digits cs n → c.isDigit = true → Digits (cs ++ [c]) (10 * n + (c.toNat - '0'.toNat))

/-- Digits behind an optional sign and the integer that they denote. -/
inductive Numeral : List Char → Int → Prop
  | unsigned {cs : List Char} {n : Nat} : Digits cs n → Numeral cs n
  | plus {cs : List Char} {n : Nat} : Digits cs n → Numeral ('+' :: cs) n
  | minus {cs : List Char} {n : Nat} : Digits cs n → Numeral ('-' :: cs) (-n)

theorem ofDigitChars_append_digit (cs : List Char) (c : Char) :
    Nat.ofDigitChars 10 (cs ++ [c]) 0 = 10 * Nat.ofDigitChars 10 cs 0 + (c.toNat - '0'.toNat) := by
  rw [Nat.ofDigitChars_append, Nat.ofDigitChars_cons, Nat.ofDigitChars_nil]

theorem Digits.ne_nil {cs : List Char} {n : Nat} (h : Digits cs n) : cs ≠ [] := by
  cases h with
  | single => exact List.cons_ne_nil _ _
  | append => exact List.append_ne_nil_of_right_ne_nil _ (List.cons_ne_nil _ _)

theorem Digits.isDigit {cs : List Char} {n : Nat} (h : Digits cs n) : ∀ c ∈ cs, c.isDigit = true := by
  induction h with
  | single hc => simpa using hc
  | append _ hc ih =>
    intro d hd
    rcases List.mem_append.1 hd with hd | hd
    · exact ih d hd
    · rwa [List.mem_singleton.1 hd]

theorem Digits.ofDigitChars_eq {cs : List Char} {n : Nat} (h : Digits cs n) :
    Nat.ofDigitChars 10 cs 0 = n := by
  induction h with
  | single hc => rw [Nat.ofDigitChars_cons, Nat.ofDigitChars_nil, Nat.mul_zero, Nat.zero_add]
  | append _ _ ih => rw [ofDigitChars_append_digit, ih]

/-- The induction takes the last digit off, as `Digits` puts it on. -/
theorem digits_ofDigitChars {cs : List Char} (hne : cs ≠ []) (h : ∀ c ∈ cs, c.isDigit = true) :
    Digits cs (Nat.ofDigitChars 10 cs 0) := by
  induction cs using List.reverseRecOn with
  | nil => exact absurd rfl hne
  | append_singleton cs c ih =>
    have hc : c.isDigit = true := h c (List.mem_append_right _ List.mem_cons_self)
    cases cs with
    | nil =>
      have hone := ofDigitChars_append_digit [] c
      rw [Nat.ofDigitChars_nil, Nat.mul_zero, Nat.zero_add] at hone
      rw [hone]
      exact .single hc
    | cons d ds =>
      rw [ofDigitChars_append_digit]
      exact .append (ih (List.cons_ne_nil _ _) fun e he => h e (List.mem_append_left _ he)) hc

/-! ## Reading -/

theorem digits?_eq_some {cs : List Char} {n : Nat} : digits? cs = some n ↔ Digits cs n := by
  unfold digits?
  constructor
  · intro h
    split at h
    · rename_i hcs
      cases h
      exact digits_ofDigitChars hcs.1 (List.all_eq_true.1 hcs.2)
    · cases h
  · intro h
    rw [if_pos ⟨h.ne_nil, List.all_eq_true.2 h.isDigit⟩, h.ofDigitChars_eq]

theorem int?_minus (cs : List Char) : int? ('-' :: cs) = (digits? cs).map fun n : Nat => -(n : Int) := by
  rw [int?]
  cases digits? cs <;> rfl

theorem int?_unsigned {cs : List Char} (h : ∀ ds, cs ≠ '-' :: ds) :
    int? cs = (nat? cs).map fun n : Nat => (n : Int) := by
  unfold int?
  split
  · exact absurd rfl (h _)
  · cases nat? cs <;> rfl

theorem nat?_plus (cs : List Char) : nat? ('+' :: cs) = digits? cs := rfl

theorem nat?_unsigned {cs : List Char} (h : ∀ ds, cs ≠ '+' :: ds) : nat? cs = digits? cs := by
  unfold nat?
  split
  · exact absurd rfl (h _)
  · rfl

/-- Digits are not taken for a sign. -/
theorem Digits.ne_cons {cs : List Char} {n : Nat} (h : Digits cs n) {sign : Char}
    (hsign : sign.isDigit = false) (ds : List Char) : cs ≠ sign :: ds := by
  rintro rfl
  have hdigit := h.isDigit sign List.mem_cons_self
  rw [hsign] at hdigit
  cases hdigit

theorem numeral_of_nat? {cs : List Char} {n : Nat} (h : nat? cs = some n) : Numeral cs n := by
  unfold nat? at h
  split at h
  · exact .plus (digits?_eq_some.1 h)
  · exact .unsigned (digits?_eq_some.1 h)

theorem int?_eq_some {cs : List Char} {i : Int} : int? cs = some i ↔ Numeral cs i := by
  constructor
  · intro h
    by_cases hminus : ∃ ds, cs = '-' :: ds
    · obtain ⟨ds, rfl⟩ := hminus
      rw [int?_minus, Option.map_eq_some_iff] at h
      obtain ⟨n, hn, rfl⟩ := h
      exact .minus (digits?_eq_some.1 hn)
    · rw [int?_unsigned (not_exists.1 hminus), Option.map_eq_some_iff] at h
      obtain ⟨n, hn, rfl⟩ := h
      exact numeral_of_nat? hn
  · intro h
    cases h with
    | unsigned hd =>
      rw [int?_unsigned (hd.ne_cons rfl), nat?_unsigned (hd.ne_cons rfl), digits?_eq_some.2 hd,
        Option.map_some]
    | plus hd =>
      rw [int?_unsigned (by simp), nat?_plus, digits?_eq_some.2 hd, Option.map_some]
    | minus hd => rw [int?_minus, digits?_eq_some.2 hd, Option.map_some]

theorem word?_eq_some {s : String} {w : Word} : word? s = some w ↔ Numeral s.toList w.toInt := by
  unfold word?
  rw [Option.bind_eq_some_iff]
  constructor
  · rintro ⟨i, hi, hw⟩
    rw [Word.ofInt?_eq_some.1 hw]
    exact int?_eq_some.1 hi
  · intro h
    exact ⟨w.toInt, int?_eq_some.2 h, Word.ofInt?_toInt w⟩

/-! ## Writing -/

theorem digits_ofNat (n : Nat) : Digits (ofNat n).toList n := by
  have h := digits_ofDigitChars (Nat.toDigits_ne_nil (n := n) (b := 10)) fun c hc =>
    Nat.isDigit_of_mem_toDigits (by decide) (by decide) hc
  rw [Nat.ofDigitChars_ten_toDigits] at h
  rwa [ofNat, String.toList_ofList]

theorem numeral_ofInt (i : Int) : Numeral (ofInt i).toList i := by
  cases i with
  | ofNat n => exact .unsigned (digits_ofNat n)
  | negSucc n =>
    rw [ofInt, String.toList_append]
    exact .minus (digits_ofNat (n + 1))

theorem numeral_ofWord (w : Word) : Numeral (ofWord w).toList w.toInt := numeral_ofInt w.toInt

end Decimal

/-! ## Answers -/

open Text (Blank TrimsTo)

/-- A text that writes the word, with white space around it. -/
def Spells (raw : String) (w : Word) : Prop :=
  ∃ before behind : String, Blank before.toList ∧ Blank behind.toList ∧
    raw = before ++ Decimal.ofWord w ++ behind

theorem spells_ofWord (w : Word) : Spells (Decimal.ofWord w) w :=
  ⟨"", "", by decide, by decide, by simp⟩

/-- There is no white space in a numeral. -/
theorem Decimal.Numeral.isBlank {cs : List Char} {i : Int} (h : Numeral cs i) :
    ∀ c ∈ cs, Text.isBlank c = false := by
  cases h with
  | unsigned hd => exact fun c hc => Text.isBlank_of_isDigit (hd.isDigit c hc)
  | plus hd =>
    rintro c (_ | ⟨_, hc⟩)
    · rfl
    · exact Text.isBlank_of_isDigit (hd.isDigit c hc)
  | minus hd =>
    rintro c (_ | ⟨_, hc⟩)
    · rfl
    · exact Text.isBlank_of_isDigit (hd.isDigit c hc)

theorem Spells.trimsTo {raw : String} {w : Word} (h : Spells raw w) :
    TrimsTo raw.toList (Decimal.ofWord w).toList := by
  obtain ⟨before, behind, hbefore, hbehind, rfl⟩ := h
  have hnone := (Decimal.numeral_ofWord w).isBlank
  refine ⟨⟨before.toList, behind.toList, hbefore, hbehind, ?_⟩, fun c hc => hnone c ?_, fun c hc => hnone c ?_⟩
  · rw [String.toList_append, String.toList_append]
  · exact List.mem_of_mem_head? hc
  · exact List.mem_of_getLast? hc

theorem toList_trimmed {raw : String} {core : List Char} (h : TrimsTo raw.toList core) :
    (Text.trimmed raw).toList = core := by
  rw [Text.trimmed, String.toList_ofList, h.trim_eq]

theorem readAnswer_eq_ok {raw : String} {core : List Char} (h : TrimsTo raw.toList core) {w : Word} :
    readAnswer raw = .ok w ↔ Decimal.Numeral core w.toInt := by
  rw [← toList_trimmed h, ← Decimal.word?_eq_some, readAnswer]
  cases Decimal.word? (Text.trimmed raw) <;> simp

theorem readAnswer_eq_error {raw : String} {core : List Char} (h : TrimsTo raw.toList core)
    (hno : ∀ w : Word, ¬Decimal.Numeral core w.toInt) :
    readAnswer raw = .error (.invalidInput (String.ofList core)) := by
  have hnone : Decimal.word? (Text.trimmed raw) = none := by
    rw [Option.eq_none_iff_forall_ne_some]
    intro w hw
    apply hno w
    rw [← toList_trimmed h]
    exact Decimal.word?_eq_some.1 hw
  rw [readAnswer, hnone, ← toList_trimmed h, String.ofList_toList]

theorem Spells.ofAnswer_eq {raw : String} {w : Word} (h : Spells raw w) : Reply.ofAnswer raw = .answer w := by
  unfold Reply.ofAnswer
  rw [(readAnswer_eq_ok h.trimsTo).2 (Decimal.numeral_ofWord w)]

/-! ## Prepared answers -/

namespace Scripted

/-- The replies to `n` requests, one after the other, with nobody asking to stop. -/
def replies : Nat → Scripted → List Reply
  | 0, _ => []
  | n + 1, d => (d.ask false).reply :: replies n (d.ask false).device

theorem replies_nil (emitted : Array Word) (n : Nat) :
    replies n ⟨[], emitted⟩ = List.replicate n (.refused .cancelled) := by
  induction n with
  | zero => rfl
  | succ n ih => exact congrArg (Reply.refused .cancelled :: ·) ih

theorem replies_spelled {answers : List String} {ws : List Word} (h : List.Forall₂ Spells answers ws)
    (emitted : Array Word) (n : Nat) :
    replies n ⟨answers, emitted⟩ =
      (ws.map Reply.answer).take n ++ List.replicate (n - ws.length) (.refused .cancelled) := by
  induction h generalizing n with
  | nil => rw [replies_nil, List.map_nil, List.take_nil, List.nil_append, List.length_nil, Nat.sub_zero]
  | cons hw _ ih =>
    cases n with
    | zero => simp [replies]
    | succ n =>
      rw [replies, ask_cons, ih, hw.ofAnswer_eq, List.map_cons, List.take_succ_cons, List.cons_append,
        List.length_cons, Nat.add_sub_add_right]

end Scripted

/-- Answers are read exactly. An answer is a text between white space. It is the word that the text denotes, if
that is a numeral and what it denotes lies in the range of a word, and is otherwise refused, with the text. So
prepared answers that write words, with any white space around them, come back as these words, one for each
request, and then every request is cancelled. -/
theorem answers_read_exactly :
    (∀ raw : String, ∃ core, TrimsTo raw.toList core ∧ (∀ other, TrimsTo raw.toList other → other = core) ∧
      (∀ i : Int, (∃ w : Word, w.toInt = i ∧ readAnswer raw = .ok w) ↔
        Decimal.Numeral core i ∧ -2 ^ 63 ≤ i ∧ i < 2 ^ 63) ∧
      ((∀ i : Int, Decimal.Numeral core i → ¬(-2 ^ 63 ≤ i ∧ i < 2 ^ 63)) →
        readAnswer raw = .error (.invalidInput (String.ofList core)))) ∧
    (∀ (ws : List Word) (n : Nat), (Scripted.ofWords ws).replies n =
      (ws.map Reply.answer).take n ++ List.replicate (n - ws.length) (.refused .cancelled)) ∧
    ∀ (answers : List String) (ws : List Word) (emitted : Array Word) (n : Nat),
      List.Forall₂ Spells answers ws →
      Scripted.replies n ⟨answers, emitted⟩ =
        (ws.map Reply.answer).take n ++ List.replicate (n - ws.length) (.refused .cancelled) := by
  refine ⟨fun raw => ?_, fun ws n => ?_, fun answers ws emitted n h => Scripted.replies_spelled h emitted n⟩
  · have htrim := Text.trimsTo_trim raw.toList
    refine ⟨_, htrim, fun other h => h.trim_eq.symm, fun i => ⟨?_, ?_⟩, fun hno => ?_⟩
    · rintro ⟨w, rfl, hw⟩
      exact ⟨(readAnswer_eq_ok htrim).1 hw, w.le_toInt, w.toInt_lt⟩
    · rintro ⟨hi, hle, hlt⟩
      have hw : (Int64.ofInt i).toInt = i := Int64.toInt_ofInt_of_le hle hlt
      refine ⟨Int64.ofInt i, hw, (readAnswer_eq_ok htrim).2 ?_⟩
      rwa [hw]
    · exact readAnswer_eq_error htrim fun w hw => hno _ hw ⟨w.le_toInt, w.toInt_lt⟩
  · have hspelled : List.Forall₂ Spells (ws.map Decimal.ofWord) ws := by
      rw [List.forall₂_map_left_iff, List.forall₂_same]
      exact fun w _ => spells_ofWord w
    exact Scripted.replies_spelled hspelled #[] n

/-- The ends of the range, and white space of several kinds. -/
theorem answers_read_exactly_spaced :
    Spells "\t -9223372036854775808\u2003\n" (-9223372036854775808) ∧ Spells "7" 7 ∧
    Scripted.replies 4 ⟨["\t -9223372036854775808\u2003\n", "7"], #[]⟩ =
      [.answer (-9223372036854775808), .answer 7, .refused .cancelled, .refused .cancelled] := by
  have hleast : Spells "\t -9223372036854775808\u2003\n" (-9223372036854775808) :=
    ⟨"\t ", "\u2003\n", by decide, by decide, by decide⟩
  have hseven : Spells "7" 7 := ⟨"", "", by decide, by decide, by decide⟩
  refine ⟨hleast, hseven, ?_⟩
  exact answers_read_exactly.2.2 _ [-9223372036854775808, 7] #[] 4 (.cons hleast (.cons hseven .nil))

end StackMachine
