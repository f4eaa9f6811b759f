/-
The grammar of JSON. `Value j cs` says that the characters `cs` write the value `j`: strings with their
escapes, numbers with places and exponents, arrays and objects of any depth, and white space wherever it may
stand. Reading is complete for it: a text that writes a value, with white space around it, is read as this
value (`parse?_written`). Writing keeps to it, in every layout (`value_object_chars`), and what is said by a
string comes back from its spelling (`text?_spell`).

A number is the only value whose end is not marked, so what follows a value has to be known to stop it
(`Stops`). Every call of the reader uses up a unit of fuel. An array is two characters longer than what stands
between its brackets and is read by two calls more, so twice the length of a text is enough for its value.
-/
import StackMachine.Json.Parse
import Mathlib.Data.List.DropRight
import Mathlib.Data.Option.Basic

namespace StackMachine.Json

/-! ## Grammar -/

def Space (cs : List Char) : Prop := ∀ c ∈ cs, isSpace c = true

instance (cs : List Char) : Decidable (Space cs) := decidable_of_iff (cs.all isSpace) List.all_eq_true

def hexDigits : List Char := "0123456789abcdefABCDEF".toList

/-- The letters of the one-letter escapes. -/
def escapeLetters : List Char := ['"', '\\', '/', 'b', 'f', 'n', 'r', 't']

/-- What may stand between the quotes of a string. -/
inductive Spelling : List Char → Prop
  | nil : Spelling []
  | plain {c : Char} {cs : List Char} :
    c ≠ '"' → c ≠ '\\' → 0x20 ≤ c.toNat → Spelling cs → Spelling (c :: cs)
  | short {e : Char} {cs : List Char} : e ∈ escapeLetters → Spelling cs → Spelling ('\\' :: e :: cs)
  | code {a b c d : Char} {cs : List Char} :
    a ∈ hexDigits → b ∈ hexDigits → c ∈ hexDigits → d ∈ hexDigits → Spelling cs →
    Spelling ('\\' :: 'u' :: a :: b :: c :: d :: cs)

/-- One or more digits. -/
def Digits (cs : List Char) : Prop := cs ≠ [] ∧ ∀ c ∈ cs, c.isDigit = true

instance (cs : List Char) : Decidable (Digits cs) :=
  decidable_of_iff (cs ≠ [] ∧ cs.all Char.isDigit = true) (by rw [List.all_eq_true]; rfl)

inductive Whole : List Char → Prop
  | zero : Whole ['0']
  | digits {c : Char} {cs : List Char} :
    c ≠ '0' → c.isDigit = true → (∀ d ∈ cs, d.isDigit = true) → Whole (c :: cs)

inductive Places : List Char → Prop
  | absent : Places []
  | present {cs : List Char} : Digits cs → Places ('.' :: cs)

inductive Exponent : List Char → Prop
  | absent : Exponent []
  | present {mark : Char} {sign cs : List Char} :
    mark ∈ ['e', 'E'] → sign ∈ [[], ['+'], ['-']] → Digits cs → Exponent (mark :: (sign ++ cs))

inductive Number : List Char → Prop
  | mk {sign whole places exponent : List Char} :
    sign ∈ [[], ['-']] → Whole whole → Places places → Exponent exponent →
    Number (sign ++ (whole ++ (places ++ exponent)))

mutual

/-- The texts of a value, from its first character to its last. -/
inductive Value : Json → List Char → Prop
  | null : Value .null ['n', 'u', 'l', 'l']
  | isTrue : Value (.bool true) ['t', 'r', 'u', 'e']
  | isFalse : Value (.bool false) ['f', 'a', 'l', 's', 'e']
  | number {cs : List Char} : Number cs → Value (.number cs) cs
  | string {cs : List Char} : Spelling cs → Value (.string cs) (quote cs)
  | emptyArray {space : List Char} : Space space → Value (.array []) ('[' :: (space ++ [']']))
  | array {vs : List Json} {cs : List Char} : Items vs cs → Value (.array vs) ('[' :: (cs ++ [']']))
  | emptyObject {space : List Char} : Space space → Value (.object []) ('\x7b' :: (space ++ ['\x7d']))
  | object {ms : List (List Char × Json)} {cs : List Char} :
    Members ms cs → Value (.object ms) ('\x7b' :: (cs ++ ['\x7d']))

/-- What stands between the brackets of an array that has items. -/
inductive Items : List Json → List Char → Prop
  | single {v : Json} {before cs behind : List Char} :
    Space before → Value v cs → Space behind → Items [v] (before ++ (cs ++ behind))
  | cons {v : Json} {vs : List Json} {before cs behind ds : List Char} :
    Space before → Value v cs → Space behind → Items vs ds →
    Items (v :: vs) (before ++ (cs ++ (behind ++ ',' :: ds)))

/-- What stands between the braces of an object that has members. -/
inductive Members : List (List Char × Json) → List Char → Prop
  | single {k : List Char} {v : Json} {before key colon cs behind : List Char} :
    Space before → Spelling k → Space key → Space colon → Value v cs → Space behind →
    Members [(k, v)] (before ++ (quote k ++ (key ++ ':' :: (colon ++ (cs ++ behind)))))
  | cons {k : List Char} {v : Json} {ms : List (List Char × Json)} {before key colon cs behind ds : List Char} :
    Space before → Spelling k → Space key → Space colon → Value v cs → Space behind → Members ms ds →
    Members ((k, v) :: ms) (before ++ (quote k ++ (key ++ ':' :: (colon ++ (cs ++ (behind ++ ',' :: ds))))))

end

/-- A text that holds the value and nothing but white space around it. -/
def Written (text : String) (j : Json) : Prop :=
  ∃ before cs behind, Space before ∧ Value j cs ∧ Space behind ∧ text.toList = before ++ (cs ++ behind)

/-! ## White space -/

theorem skipSpace_append {space : List Char} (h : Space space) (cs : List Char) :
    skipSpace (space ++ cs) = skipSpace cs :=
  List.dropWhile_append_of_pos h

theorem skipSpace_cons {c : Char} (h : isSpace c = false) (cs : List Char) :
    skipSpace (c :: cs) = c :: cs :=
  List.dropWhile_cons_of_neg (by simp [h])

theorem skipSpace_skipSpace (cs : List Char) : skipSpace (skipSpace cs) = skipSpace cs :=
  List.dropWhile_idempotent isSpace cs

/-! ## Strings -/

theorem exists_shortEscape? {e : Char} (h : e ∈ escapeLetters) : ∃ c, shortEscape? e = some c := by
  have hall : escapeLetters.all (fun e => (shortEscape? e).isSome) = true := by decide
  exact Option.isSome_iff_exists.1 (List.all_eq_true.1 hall e h)

theorem exists_hexDigit? {a : Char} (h : a ∈ hexDigits) : ∃ n, hexDigit? a = some n := by
  have hall : hexDigits.all (fun a => (hexDigit? a).isSome) = true := by decide
  exact Option.isSome_iff_exists.1 (List.all_eq_true.1 hall a h)

theorem exists_hex4? {a b c d : Char} (ha : a ∈ hexDigits) (hb : b ∈ hexDigits) (hc : c ∈ hexDigits)
    (hd : d ∈ hexDigits) : ∃ n, hex4? a b c d = some n := by
  obtain ⟨i, hi⟩ := exists_hexDigit? ha
  obtain ⟨j, hj⟩ := exists_hexDigit? hb
  obtain ⟨k, hk⟩ := exists_hexDigit? hc
  obtain ⟨l, hl⟩ := exists_hexDigit? hd
  exact ⟨4096 * i + 256 * j + 16 * k + l, by simp [hex4?, hi, hj, hk, hl]⟩

theorem scanString?_spelling {cs : List Char} (h : Spelling cs) (rest : List Char) :
    scanString? (cs ++ '"' :: rest) = some (cs, rest) := by
  induction h with
  | nil => rfl
  | @plain c cs hquote hbackslash hc _ ih =>
    have hguard : (guard (c ≠ '\\' ∧ 0x20 ≤ c.toNat) : Option Unit) = some () :=
      (Option.guard_eq_some' ()).2 ⟨hbackslash, hc⟩
    rw [List.cons_append, scanString?.eq_5 _ _ hquote (fun _ _ _ _ _ h => absurd h hbackslash)
      (fun _ _ h => absurd h hbackslash), hguard, ih]
    rfl
  | short he _ ih =>
    obtain ⟨c, hc⟩ := exists_shortEscape? he
    rw [List.cons_append, List.cons_append, scanString?.eq_4 _ _ ?_, ih, hc]
    · rfl
    · rintro _ _ _ _ _ rfl -
      cases hc
  | code ha hb hc hd _ ih =>
    obtain ⟨n, hn⟩ := exists_hex4? ha hb hc hd
    simp only [List.cons_append]
    rw [scanString?.eq_3, ih, hn]
    rfl

/-! ## Numbers -/

/-- What follows a value ends it: white space, a comma or a closing bracket. -/
def Stops (rest : List Char) : Prop := ∀ c ∈ rest.head?, isSpace c = true ∨ c ∈ [',', ']', '\x7d']

theorem not_of_stop {c : Char} (h : isSpace c = true ∨ c ∈ [',', ']', '\x7d']) :
    c.isDigit = false ∧ c ≠ '.' ∧ c ≠ 'e' ∧ c ≠ 'E' := by
  simp only [isSpace, Bool.or_eq_true, beq_iff_eq, List.mem_cons, List.not_mem_nil, or_false] at h
  rcases h with (((rfl | rfl) | rfl) | rfl) | rfl | rfl | rfl <;> decide

theorem stops_space_append {space : List Char} (h : Space space) {rest : List Char} (hrest : Stops rest) :
    Stops (space ++ rest) := by
  cases space with
  | nil => exact hrest
  | cons c cs =>
    rintro d ⟨⟩
    exact .inl (h c List.mem_cons_self)

theorem stops_nil : Stops [] := by
  rintro c ⟨⟩

theorem stops_cons {c : Char} (h : c ∈ [',', ']', '\x7d']) (rest : List Char) : Stops (c :: rest) := by
  rintro d ⟨⟩
  exact .inr h

theorem takeWhile_isDigit {cs rest : List Char} (h : ∀ c ∈ cs, c.isDigit = true)
    (hrest : ∀ c ∈ rest.head?, c.isDigit = false) :
    (cs ++ rest).takeWhile Char.isDigit = cs ∧ (cs ++ rest).dropWhile Char.isDigit = rest := by
  rw [List.takeWhile_append_of_pos h, List.dropWhile_append_of_pos h]
  cases rest with
  | nil => simp
  | cons c rest => simp [hrest c rfl]

theorem scanDigits?_append {cs rest : List Char} (h : Digits cs)
    (hrest : ∀ c ∈ rest.head?, c.isDigit = false) : scanDigits? (cs ++ rest) = some (cs, rest) := by
  obtain ⟨htake, hdrop⟩ := takeWhile_isDigit h.2 hrest
  unfold scanDigits?
  rw [htake, hdrop]
  simp [h.1]

theorem scanWhole?_append {cs rest : List Char} (h : Whole cs)
    (hrest : ∀ c ∈ rest.head?, c.isDigit = false) : scanWhole? (cs ++ rest) = some (cs, rest) := by
  cases h with
  | zero => rfl
  | @digits c cs hzero hc hcs =>
    have hdigits : Digits (c :: cs) := ⟨List.cons_ne_nil c cs, List.forall_mem_cons.2 ⟨hc, hcs⟩⟩
    rw [List.cons_append, scanWhole?.eq_2 _ (fun _ h => hzero (List.cons.inj h).1), ← List.cons_append]
    exact scanDigits?_append hdigits hrest

theorem scanPlaces?_append {cs rest : List Char} (h : Places cs)
    (hrest : ∀ c ∈ rest.head?, c.isDigit = false ∧ c ≠ '.') : scanPlaces? (cs ++ rest) = some (cs, rest) := by
  cases h with
  | absent =>
    cases rest with
    | nil => rfl
    | cons c rest =>
      obtain ⟨-, hpoint⟩ := hrest c rfl
      exact scanPlaces?.eq_2 _ fun _ h => hpoint (List.cons.inj h).1
  | present hcs =>
    rw [List.cons_append, scanPlaces?, scanDigits?_append hcs fun c hc => (hrest c hc).1]
    rfl

theorem scanExponent?_append {cs rest : List Char} (h : Exponent cs) (hrest : Stops rest) :
    scanExponent? (cs ++ rest) = some (cs, rest) := by
  have hdigit : ∀ c ∈ rest.head?, c.isDigit = false := fun c hc => (not_of_stop (hrest c hc)).1
  cases h with
  | absent =>
    cases rest with
    | nil => rfl
    | cons c rest =>
      obtain ⟨-, -, he, hE⟩ := not_of_stop (hrest c rfl)
      simp [scanExponent?, he, hE]
  | @present mark sign cs hmark hsign hcs =>
    have hmark' : (mark == 'e' || mark == 'E') = true := by simpa using hmark
    have hscan := scanDigits?_append hcs hdigit
    simp only [List.mem_cons, List.not_mem_nil, or_false] at hsign
    rcases hsign with rfl | rfl | rfl
    · rw [List.nil_append, List.cons_append, scanExponent?, if_pos hmark', hscan]
      · rfl
      -- the first digit is not taken for a sign
      all_goals
        intro ds hds
        have hdigits := hcs.2
        obtain ⟨c, cs, rfl⟩ := List.exists_cons_of_ne_nil hcs.1
        cases hds
        cases hdigits _ List.mem_cons_self
    · rw [List.cons_append, List.cons_append, List.nil_append, List.cons_append, scanExponent?,
        if_pos hmark', hscan]
      rfl
    · rw [List.cons_append, List.cons_append, List.nil_append, List.cons_append, scanExponent?,
        if_pos hmark', hscan]
      rfl

/-- What stands behind the whole part does not go on with it. -/
theorem isDigit_head_exponent {exponent rest : List Char} (h : Exponent exponent) (hrest : Stops rest) :
    ∀ c ∈ (exponent ++ rest).head?, c.isDigit = false ∧ c ≠ '.' := by
  cases h with
  | absent =>
    intro c hc
    obtain ⟨hdigit, hpoint, -⟩ := not_of_stop (hrest c hc)
    exact ⟨hdigit, hpoint⟩
  | present hmark =>
    rintro c ⟨⟩
    simp only [List.mem_cons, List.not_mem_nil, or_false] at hmark
    rcases hmark with rfl | rfl <;> decide

theorem isDigit_head_places {places rest : List Char} (h : Places places)
    (hrest : ∀ c ∈ rest.head?, c.isDigit = false) : ∀ c ∈ (places ++ rest).head?, c.isDigit = false := by
  cases h with
  | absent => exact hrest
  | present =>
    rintro c ⟨⟩
    rfl

theorem Whole.head {cs : List Char} (h : Whole cs) : ∃ c ds, cs = c :: ds ∧ c.isDigit = true := by
  cases h with
  | zero => exact ⟨'0', [], rfl, rfl⟩
  | digits _ hc => exact ⟨_, _, rfl, hc⟩

theorem scanNumber?_append {cs rest : List Char} (h : Number cs) (hrest : Stops rest) :
    scanNumber? (cs ++ rest) = some (cs, rest) := by
  cases h with
  | @mk sign whole places exponent hsign hwhole hplaces hexponent =>
    have hafter := isDigit_head_exponent hexponent hrest
    have hscanWhole := scanWhole?_append hwhole (isDigit_head_places hplaces fun c hc => (hafter c hc).1)
    have hscanPlaces := scanPlaces?_append hplaces hafter
    have hscanExponent := scanExponent?_append hexponent hrest
    simp only [List.mem_cons, List.not_mem_nil, or_false] at hsign
    rcases hsign with rfl | rfl
    · have hminus : ∀ ds, whole ++ (places ++ (exponent ++ rest)) ≠ '-' :: ds := by
        obtain ⟨c, ds, rfl, hc⟩ := hwhole.head
        rintro _ ⟨⟩
        cases hc
      simp only [List.nil_append, List.append_assoc]
      rw [scanNumber?.eq_2 _ hminus, hscanWhole]
      simp [hscanPlaces, hscanExponent]
    · simp [scanNumber?, hscanWhole, hscanPlaces, hscanExponent]

/-! ## Values -/

theorem Number.head {cs : List Char} (h : Number cs) :
    ∃ c ds, cs = c :: ds ∧ (c = '-' ∨ c.isDigit = true) := by
  obtain ⟨hsign, hwhole, -, -⟩ := h
  obtain ⟨c, ds, rfl, hc⟩ := hwhole.head
  simp only [List.mem_cons, List.not_mem_nil, or_false] at hsign
  rcases hsign with rfl | rfl
  · exact ⟨c, _, rfl, .inr hc⟩
  · exact ⟨'-', _, rfl, .inl rfl⟩

/-- Neither white space nor the end of an array. -/
theorem Value.head {j : Json} {cs : List Char} (h : Value j cs) :
    ∃ c ds, cs = c :: ds ∧ isSpace c = false ∧ c ≠ ']' := by
  cases h with
  | number h =>
    obtain ⟨c, ds, rfl, hc⟩ := h.head
    refine ⟨c, ds, rfl, ?_, ?_⟩
    · rw [Bool.eq_false_iff]
      intro hspace
      obtain ⟨hdigit, -⟩ := not_of_stop (.inl hspace)
      rw [hdigit] at hc
      rcases hc with rfl | hc
      · cases hspace
      · cases hc
    · rintro rfl
      revert hc
      decide
  | _ => exact ⟨_, _, rfl, rfl, by decide⟩

theorem scanValue?_space {space : List Char} (h : Space space) (n : Nat) (cs : List Char) :
    scanValue? n (space ++ cs) = scanValue? n cs := by
  cases n with
  | zero => rfl
  | succ n => rw [scanValue?, scanValue?, skipSpace_append h]

theorem scanItems?_skipSpace (n : Nat) (cs : List Char) : scanItems? n (skipSpace cs) = scanItems? n cs := by
  cases n with
  | zero => rfl
  | succ n =>
    rw [scanItems?, scanItems?]
    cases n with
    | zero => rfl
    | succ n => rw [scanValue?, scanValue?, skipSpace_skipSpace]

theorem scanMembers?_skipSpace (n : Nat) (cs : List Char) :
    scanMembers? n (skipSpace cs) = scanMembers? n cs := by
  cases n with
  | zero => rfl
  | succ n => rw [scanMembers?, scanMembers?, skipSpace_skipSpace]

theorem scanMembers?_space {space : List Char} (h : Space space) (n : Nat) (cs : List Char) :
    scanMembers? n (space ++ cs) = scanMembers? n cs := by
  rw [← scanMembers?_skipSpace, skipSpace_append h, scanMembers?_skipSpace]

theorem scanValue?_number {cs rest : List Char} (h : Number cs) (hrest : Stops rest) (n : Nat) :
    scanValue? (n + 1) (cs ++ rest) = some (.number cs, rest) := by
  have hscan := scanNumber?_append h hrest
  obtain ⟨c, ds, rfl, hspace, -⟩ := (Value.number h).head
  have hc : c = '-' ∨ c.isDigit = true := by
    obtain ⟨c', ds', heq, hc⟩ := h.head
    cases heq
    exact hc
  rw [scanValue?, List.cons_append, skipSpace_cons hspace]
  rw [List.cons_append] at hscan
  split
  case h_7 =>
    rw [hscan]
    rfl
  all_goals
    rename_i heq
    obtain ⟨rfl, -⟩ := List.cons.inj heq
    exact absurd hc (by decide)

theorem scanValue?_array {n : Nat} {cs : List Char} (h : ∀ rest, skipSpace cs ≠ ']' :: rest) :
    scanValue? (n + 1) ('[' :: cs) = (scanItems? n cs).map fun r => (.array r.1, r.2) := by
  rw [scanValue?, skipSpace_cons rfl, ← scanItems?_skipSpace]
  split
  case h_5 heq =>
    cases heq
    split
    · exact absurd ‹_› (h _)
    · cases scanItems? n (skipSpace cs) <;> rfl
  case h_7 hne _ => exact absurd rfl (hne cs)
  all_goals
    rename_i heq
    simp at heq

theorem scanValue?_object {n : Nat} {cs : List Char} (h : ∀ rest, skipSpace cs ≠ '\x7d' :: rest) :
    scanValue? (n + 1) ('\x7b' :: cs) = (scanMembers? n cs).map fun r => (.object r.1, r.2) := by
  rw [scanValue?, skipSpace_cons rfl, ← scanMembers?_skipSpace]
  split
  case h_6 heq =>
    cases heq
    split
    · exact absurd ‹_› (h _)
    · cases scanMembers? n (skipSpace cs) <;> rfl
  case h_7 hne => exact absurd rfl (hne cs)
  all_goals
    rename_i heq
    simp at heq

theorem scanItems?_single {n : Nat} {cs rest behind : List Char} {v : Json}
    (h : scanValue? n cs = some (v, behind ++ ']' :: rest)) (hbehind : Space behind) :
    scanItems? (n + 1) cs = some ([v], rest) := by
  rw [scanItems?, h]
  simp only [Option.bind_eq_bind, Option.bind_some, skipSpace_append hbehind]
  rfl

theorem scanItems?_cons {n : Nat} {cs rest behind : List Char} {v : Json}
    (h : scanValue? n cs = some (v, behind ++ ',' :: rest)) (hbehind : Space behind) :
    scanItems? (n + 1) cs = (scanItems? n rest).map fun r => (v :: r.1, r.2) := by
  rw [scanItems?, h]
  simp only [Option.bind_eq_bind, Option.bind_some, skipSpace_append hbehind]
  show (scanItems? n rest).bind (fun r => some (v :: r.1, r.2)) = _
  rw [Option.map_eq_bind]
  rfl

theorem skipSpace_quote (k rest : List Char) : skipSpace (quote k ++ rest) = '"' :: (k ++ '"' :: rest) := by
  rw [quote, List.cons_append, List.cons_append, List.append_assoc]
  exact skipSpace_cons rfl _

theorem scanMembers?_single {n : Nat} {k key cs behind rest : List Char} {v : Json} (hk : Spelling k)
    (hkey : Space key) (h : scanValue? n cs = some (v, behind ++ '\x7d' :: rest)) (hbehind : Space behind) :
    scanMembers? (n + 1) (quote k ++ (key ++ ':' :: cs)) = some ([(k, v)], rest) := by
  rw [scanMembers?, skipSpace_quote]
  simp only [scanString?_spelling hk, Option.bind_eq_bind, Option.bind_some, skipSpace_append hkey,
    skipSpace_cons (c := ':') rfl, h, skipSpace_append hbehind, skipSpace_cons (c := '\x7d') rfl]
  rfl

theorem scanMembers?_cons {n : Nat} {k key cs behind rest : List Char} {v : Json} (hk : Spelling k)
    (hkey : Space key) (h : scanValue? n cs = some (v, behind ++ ',' :: rest)) (hbehind : Space behind) :
    scanMembers? (n + 1) (quote k ++ (key ++ ':' :: cs)) =
      (scanMembers? n rest).map fun r => ((k, v) :: r.1, r.2) := by
  rw [scanMembers?, skipSpace_quote]
  simp only [scanString?_spelling hk, Option.bind_eq_bind, Option.bind_some, skipSpace_append hkey,
    skipSpace_cons (c := ':') rfl, h, skipSpace_append hbehind, skipSpace_cons (c := ',') rfl]
  cases scanMembers? n rest <;> rfl

/-! ## Reading -/

theorem skipSpace_value {j : Json} {cs space : List Char} (h : Value j cs) (hspace : Space space)
    (more : List Char) : ∀ rest, skipSpace (space ++ (cs ++ more)) ≠ ']' :: rest := by
  intro rest heq
  obtain ⟨c, ds, rfl, hc, hne⟩ := h.head
  rw [skipSpace_append hspace, List.cons_append, skipSpace_cons hc] at heq
  exact hne (List.cons.inj heq).1

theorem skipSpace_items {vs : List Json} {cs : List Char} (h : Items vs cs) (more : List Char) :
    ∀ rest, skipSpace (cs ++ more) ≠ ']' :: rest := by
  cases h with
  | single hbefore hv _ =>
    simp only [List.append_assoc]
    exact skipSpace_value hv hbefore _
  | cons hbefore hv _ _ =>
    simp only [List.append_assoc]
    exact skipSpace_value hv hbefore _

theorem skipSpace_members {ms : List (List Char × Json)} {cs : List Char} (h : Members ms cs) (more : List Char) :
    ∀ rest, skipSpace (cs ++ more) ≠ '\x7d' :: rest := by
  intro rest heq
  cases h with
  | single hbefore =>
    simp only [List.append_assoc, skipSpace_append hbefore, skipSpace_quote] at heq
    cases heq
  | cons hbefore =>
    simp only [List.append_assoc, skipSpace_append hbefore, skipSpace_quote] at heq
    cases heq

/-- With this much fuel, what the grammar derives is read. -/
structure Reads (n : Nat) : Prop where
  value : ∀ {j cs rest}, Value j cs → 2 * cs.length ≤ n → Stops rest →
    scanValue? n (cs ++ rest) = some (j, rest)
  items : ∀ {vs cs}, Items vs cs → 2 * cs.length < n → ∀ rest,
    scanItems? n (cs ++ ']' :: rest) = some (vs, rest)
  members : ∀ {ms cs}, Members ms cs → 2 * cs.length < n → ∀ rest,
    scanMembers? n (cs ++ '\x7d' :: rest) = some (ms, rest)

variable {n : Nat}

theorem Reads.value_succ (h : Reads n) {j : Json} {cs rest : List Char} (hv : Value j cs)
    (hn : 2 * cs.length ≤ n + 1) (hrest : Stops rest) : scanValue? (n + 1) (cs ++ rest) = some (j, rest) := by
  cases hv with
  | null | isTrue | isFalse => rfl
  | number hcs => exact scanValue?_number hcs hrest n
  | string hcs =>
    rw [scanValue?, skipSpace_quote]
    simp only [scanString?_spelling hcs]
    rfl
  | emptyArray hspace =>
    rw [scanValue?, List.cons_append, List.append_assoc, skipSpace_cons rfl]
    simp only [skipSpace_append hspace]
    rfl
  | array hitems =>
    simp only [List.length_cons, List.length_append, List.length_nil] at hn
    rw [List.cons_append, List.append_assoc, scanValue?_array (skipSpace_items hitems _), List.cons_append,
      h.items hitems (by omega)]
    rfl
  | emptyObject hspace =>
    rw [scanValue?, List.cons_append, List.append_assoc, skipSpace_cons rfl]
    simp only [skipSpace_append hspace]
    rfl
  | object hmembers =>
    simp only [List.length_cons, List.length_append, List.length_nil] at hn
    rw [List.cons_append, List.append_assoc, scanValue?_object (skipSpace_members hmembers _), List.cons_append,
      h.members hmembers (by omega)]
    rfl

/-- The value of an item or a member, between white space. -/
theorem Reads.value_between (h : Reads n) {j : Json} {before cs more : List Char} (hv : Value j cs)
    (hn : 2 * cs.length ≤ n) (hbefore : Space before) (hmore : Stops more) :
    scanValue? n (before ++ (cs ++ more)) = some (j, more) := by
  rw [scanValue?_space hbefore]
  exact h.value hv hn hmore

theorem Reads.items_succ (h : Reads n) {vs : List Json} {cs : List Char} (hitems : Items vs cs)
    (hn : 2 * cs.length < n + 1) (rest : List Char) : scanItems? (n + 1) (cs ++ ']' :: rest) = some (vs, rest) := by
  cases hitems with
  | single hbefore hv hbehind =>
    simp only [List.length_append] at hn
    simp only [List.append_assoc]
    have hstops := stops_space_append hbehind (stops_cons (c := ']') (by decide) rest)
    exact scanItems?_single (h.value_between hv (by omega) hbefore hstops) hbehind
  | @cons _ _ _ _ behind ds hbefore hv hbehind hvs =>
    simp only [List.length_append, List.length_cons] at hn
    simp only [List.append_assoc, List.cons_append]
    have hstops := stops_space_append hbehind (stops_cons (c := ',') (by decide) (ds ++ ']' :: rest))
    rw [scanItems?_cons (h.value_between hv (by omega) hbefore hstops) hbehind, h.items hvs (by omega)]
    rfl

theorem Reads.members_succ (h : Reads n) {ms : List (List Char × Json)} {cs : List Char} (hms : Members ms cs)
    (hn : 2 * cs.length < n + 1) (rest : List Char) :
    scanMembers? (n + 1) (cs ++ '\x7d' :: rest) = some (ms, rest) := by
  cases hms with
  | single hbefore hk hkey hcolon hv hbehind =>
    simp only [List.length_append, List.length_cons] at hn
    simp only [List.append_assoc, List.cons_append]
    have hstops := stops_space_append hbehind (stops_cons (c := '\x7d') (by decide) rest)
    rw [scanMembers?_space hbefore]
    exact scanMembers?_single hk hkey (h.value_between hv (by omega) hcolon hstops) hbehind
  | @cons _ _ _ _ _ _ _ _ ds hbefore hk hkey hcolon hv hbehind hms =>
    simp only [List.length_append, List.length_cons] at hn
    simp only [List.append_assoc, List.cons_append]
    have hstops := stops_space_append hbehind (stops_cons (c := ',') (by decide) (ds ++ '\x7d' :: rest))
    rw [scanMembers?_space hbefore,
      scanMembers?_cons hk hkey (h.value_between hv (by omega) hcolon hstops) hbehind, h.members hms (by omega)]
    rfl

/-- The induction is on the fuel, so that the three kinds of text go together. -/
theorem reads (n : Nat) : Reads n := by
  induction n with
  | zero =>
    constructor
    · intro j cs rest hv hn _
      obtain ⟨c, ds, rfl, -, -⟩ := hv.head
      simp at hn
    · exact fun _ hn => absurd hn (Nat.not_lt_zero _)
    · exact fun _ hn => absurd hn (Nat.not_lt_zero _)
  | succ n ih =>
    exact ⟨fun hv hn hrest => ih.value_succ hv hn hrest, fun hitems hn rest => ih.items_succ hitems hn rest,
      fun hms hn rest => ih.members_succ hms hn rest⟩

theorem parse?_written {text : String} {j : Json} (h : Written text j) : parse? text = some j := by
  obtain ⟨before, cs, behind, hbefore, hv, hbehind, htext⟩ := h
  have hstops : Stops behind := by simpa using stops_space_append hbehind stops_nil
  have hfuel : 2 * cs.length ≤ 2 * text.toList.length + 2 := by
    rw [htext, List.length_append, List.length_append]
    omega
  have hend : skipSpace behind = [] := by simpa [skipSpace] using skipSpace_append hbehind []
  have hguard : (guard ((skipSpace behind).isEmpty = true) : Option Unit) = some () :=
    (Option.guard_eq_some' ()).2 (List.isEmpty_iff.2 hend)
  unfold parse?
  dsimp only
  rw [htext] at hfuel ⊢
  rw [(reads _).value_between hv hfuel hbefore hstops, Option.bind_eq_bind, Option.bind_some, hguard]
  rfl

/-! ## Writing -/

theorem space_nil : Space [] := List.forall_mem_nil _

theorem space_lineBreak (l : Layout) : Space l.lineBreak := by
  cases l with
  | compact => exact space_nil
  | indented depth =>
    intro c hc
    rcases List.mem_cons.1 hc with rfl | hc
    · rfl
    · rw [List.eq_of_mem_replicate hc]
      rfl

theorem colon_eq (l : Layout) : ∃ space, Space space ∧ l.colon = ':' :: space := by
  cases l with
  | compact => exact ⟨[], space_nil, rfl⟩
  | indented depth =>
    refine ⟨[' '], fun c hc => ?_, rfl⟩
    rw [List.mem_singleton.1 hc]
    rfl

theorem members_memberChars {l : Layout} {behind : List Char} (hbehind : Space behind) :
    ∀ {ms : List (List Char × Json)}, ms ≠ [] → (∀ m ∈ ms, Spelling m.1 ∧ Value m.2 (m.2.chars l)) →
      Members ms (memberChars l ms ++ behind)
  | [], hne, _ => absurd rfl hne
  | [(k, v)], _, h => by
    obtain ⟨hk, hv⟩ := h (k, v) List.mem_cons_self
    obtain ⟨space, hspace, hcolon⟩ := colon_eq l
    have hsingle := Members.single (space_lineBreak l) hk space_nil hspace hv hbehind
    rw [memberChars, hcolon]
    simpa only [List.append_assoc, List.cons_append, List.nil_append] using hsingle
  | (k, v) :: m :: ms, _, h => by
    obtain ⟨hk, hv⟩ := h (k, v) List.mem_cons_self
    obtain ⟨space, hspace, hcolon⟩ := colon_eq l
    have hms := members_memberChars hbehind (List.cons_ne_nil m ms) fun m' hm => h m' (List.mem_cons_of_mem _ hm)
    have hcons := Members.cons (space_lineBreak l) hk space_nil hspace hv space_nil hms
    rw [memberChars, hcolon]
    · simpa only [List.append_assoc, List.cons_append, List.nil_append] using hcons
    · exact List.cons_ne_nil m ms

/-- An object is written by the grammar if its keys and members are. -/
theorem value_object_chars {l : Layout} {ms : List (List Char × Json)}
    (h : ∀ m ∈ ms, Spelling m.1 ∧ Value m.2 (m.2.chars l.inner)) :
    Value (.object ms) ((Json.object ms).chars l) := by
  cases ms with
  | nil => exact .emptyObject space_nil
  | cons m ms =>
    have hms := members_memberChars (space_lineBreak l) (List.cons_ne_nil m ms) h
    rw [chars, List.cons_append, List.cons_append]
    exact .object hms

theorem written_pretty {j : Json} (h : Value j (j.chars (.indented 0))) : Written j.pretty j :=
  ⟨[], _, [], space_nil, h, space_nil, by simp [pretty]⟩

theorem Written.append {text space : String} {j : Json} (h : Written text j) (hspace : Space space.toList) :
    Written (text ++ space) j := by
  obtain ⟨before, cs, behind, hbefore, hv, hbehind, htext⟩ := h
  refine ⟨before, cs, behind ++ space.toList, hbefore, hv, ?_, ?_⟩
  · intro c hc
    rcases List.mem_append.1 hc with hc | hc
    · exact hbehind c hc
    · exact hspace c hc
  · simp only [String.toList_append, htext, List.append_assoc]

/-! ## What a string says -/

theorem unspell?_plain {c : Char} (h : c ≠ '\\') (cs : List Char) :
    unspell? (c :: cs) = (unspell? cs).map (c :: ·) := by
  rw [unspell?.eq_def]
  simp only [h, ne_eq, not_false_eq_true, if_true]

theorem unspell?_short {e c : Char} (h : shortEscape? e = some c) (cs : List Char) :
    unspell? ('\\' :: e :: cs) = (unspell? cs).map (c :: ·) := by
  have hu : e ≠ 'u' := by
    rintro rfl
    cases h
  rw [unspell?.eq_def]
  simp [hu, h]

/-- A code unit that is no half of a pair. -/
theorem unspell?_code {a b c d : Char} {n : Nat} (h : hex4? a b c d = some n) (hn : n < 0xd800)
    (cs : List Char) :
    unspell? ('\\' :: 'u' :: a :: b :: c :: d :: cs) = (unspell? cs).map (Char.ofNat n :: ·) := by
  have hlow : isLow n = false := by
    simp [isLow]
    omega
  have hhigh : isHigh n = false := by
    simp [isHigh]
    omega
  rw [unspell?.eq_def]
  simp [h, hlow, hhigh]

/-- A character has a one-letter escape, or is a control character given by its code, or stands for itself. -/
theorem spellChar_cases (c : Char) :
    (∃ e ∈ escapeLetters, shortEscape? e = some c ∧ spellChar c = ['\\', e]) ∨
    (c.toNat < 0x20 ∧ spellChar c =
      ['\\', 'u', '0', '0', Nat.digitChar (c.toNat / 16), Nat.digitChar (c.toNat % 16)]) ∨
    (c ≠ '"' ∧ c ≠ '\\' ∧ 0x20 ≤ c.toNat ∧ spellChar c = [c]) := by
  unfold spellChar
  split
  case h_8 hquote hbackslash _ _ _ _ _ =>
    split
    · exact .inr (.inl ⟨‹_›, rfl⟩)
    · exact .inr (.inr ⟨hquote, hbackslash, by omega, rfl⟩)
  all_goals exact .inl ⟨_, by decide, rfl, rfl⟩

theorem digitChar_mem : ∀ k < 16, Nat.digitChar k ∈ hexDigits := by decide

theorem hexDigit?_digitChar : ∀ k < 16, hexDigit? (Nat.digitChar k) = some k := by decide

theorem hex4?_control {n : Nat} (h : n < 0x20) :
    hex4? '0' '0' (Nat.digitChar (n / 16)) (Nat.digitChar (n % 16)) = some n := by
  have hzero : hexDigit? '0' = some 0 := by decide
  simp [hex4?, hzero, hexDigit?_digitChar (n / 16) (by omega), hexDigit?_digitChar (n % 16) (by omega)]
  omega

theorem spelling_flatMap (cs : List Char) : Spelling (cs.flatMap spellChar) := by
  induction cs with
  | nil => exact .nil
  | cons c cs ih =>
    rw [List.flatMap_cons]
    rcases spellChar_cases c with ⟨e, he, -, hspell⟩ | ⟨hc, hspell⟩ | ⟨hquote, hbackslash, hc, hspell⟩
    · rw [hspell]
      exact .short he ih
    · rw [hspell]
      exact .code (by decide) (by decide) (digitChar_mem _ (by omega)) (digitChar_mem _ (by omega)) ih
    · rw [hspell]
      exact .plain hquote hbackslash hc ih

theorem unspell?_flatMap (cs : List Char) : unspell? (cs.flatMap spellChar) = some cs := by
  induction cs with
  | nil => rfl
  | cons c cs ih =>
    rw [List.flatMap_cons]
    rcases spellChar_cases c with ⟨e, -, he, hspell⟩ | ⟨hc, hspell⟩ | ⟨-, hbackslash, -, hspell⟩
    · rw [hspell, List.cons_append, List.cons_append, List.nil_append, unspell?_short he, ih]
      rfl
    · rw [hspell]
      simp only [List.cons_append, List.nil_append]
      rw [unspell?_code (hex4?_control hc) (by omega), ih, Char.ofNat_toNat]
      rfl
    · rw [hspell, List.cons_append, List.nil_append, unspell?_plain hbackslash, ih]
      rfl

theorem spelling_spell (s : String) : Spelling (spell s) := spelling_flatMap s.toList

theorem text?_spell (s : String) : text? (spell s) = some s := by
  rw [text?, spell, unspell?_flatMap, Option.map_some, String.ofList_toList]

end StackMachine.Json
