/-
Reports. The text of a report has a line for each value printed, and no value is written with a newline in it,
so the lines can be told apart and read back: nothing of the output is lost (`report_keeps_output`).

In JSON a report is an object. Whatever order its members stand in, and whatever other members stand among them,
each field is found by its key (`Report.Presents.ofJson?_eq`), and every text of such an object, the one that
is printed among them, is read as the report (`report_survives_json`).
-/
import StackMachine.CommandLine.Transcript
import StackMachine.Proofs.JsonGrammar
import StackMachine.Proofs.Loading
import StackMachine.Proofs.Numeral

namespace StackMachine

/-! ## Printed values -/

theorem newline_notMem_resultText (v : Word) : '\n' ∉ (resultText v).toList := by
  unfold resultText
  rw [String.toList_append, List.mem_append, not_or]
  refine ⟨by decide, fun hmem => ?_⟩
  cases (Decimal.numeral_ofWord v).isBlank _ hmem

theorem Decimal.word?_ofWord (v : Word) : word? (ofWord v) = some v := word?_eq_some.2 (numeral_ofWord v)

theorem resultText_injective : Function.Injective resultText := by
  intro v w h
  have hnumeral : Decimal.ofWord v = Decimal.ofWord w := (String.append_right_inj _).1 h
  have hv := Decimal.word?_ofWord v
  rw [hnumeral, Decimal.word?_ofWord w] at hv
  exact (Option.some.inj hv).symm

namespace Outcome

theorem output_report (o : Outcome) : o.report.output = "\n".intercalate (o.output.toList.map resultText) := rfl

/-- The pieces between the newlines are the lines of the values. -/
theorem lines_report {o : Outcome} (h : o.output ≠ #[]) :
    Text.lines o.report.output = o.output.toList.map fun v => (resultText v).toList := by
  rw [output_report, Text.lines_intercalate, List.map_map]
  · rfl
  · simpa using h
  · intro l hl
    obtain ⟨v, -, rfl⟩ := List.mem_map.1 hl
    exact newline_notMem_resultText v

theorem output_report_eq_empty (o : Outcome) : o.report.output = "" ↔ o.output = #[] := by
  constructor
  · intro h
    by_contra hne
    have hlines := lines_report hne
    rw [h, show Text.lines "" = [[]] from rfl] at hlines
    obtain ⟨v, -, hv⟩ := List.mem_map.1 (hlines ▸ List.mem_singleton_self ([] : List Char))
    simp [resultText] at hv
  · intro h
    rw [output_report, h]
    rfl

theorem output_eq_of_report {o o' : Outcome} (h : o.report.output = o'.report.output) : o.output = o'.output := by
  by_cases hempty : o.output = #[]
  · have hempty' := (output_report_eq_empty o).2 hempty
    rw [h, output_report_eq_empty] at hempty'
    rw [hempty, hempty']
  · have hempty' : o'.output ≠ #[] := by
      rwa [ne_eq, ← output_report_eq_empty, ← h, output_report_eq_empty]
    have hlines := lines_report hempty
    rw [h, lines_report hempty'] at hlines
    have hinjective : Function.Injective fun v => (resultText v).toList :=
      fun v w hvw => resultText_injective (String.toList_inj.1 hvw)
    exact Array.toList_inj.1 (List.map_injective_iff.2 hinjective hlines).symm

theorem success_report_iff (o : Outcome) : o.report.success = true ↔ o.report.error = none := by
  show o.ending.fault?.isNone = true ↔ o.ending.fault?.map Fault.message = none
  rw [Option.isNone_iff_eq_none, Option.map_eq_none_iff]

theorem error_report_eq_none (o : Outcome) : o.report.error = none ↔ ∀ f, o.ending ≠ .fault f := by
  show o.ending.fault?.map Fault.message = none ↔ _
  cases o.ending <;> simp [Ending.fault?]

/-- The error is the message of the fault. -/
theorem error_report_eq_some (o : Outcome) (e : String) :
    o.report.error = some e ↔ ∃ f, o.ending = .fault f ∧ e = f.message := by
  show o.ending.fault?.map Fault.message = some e ↔ _
  cases o.ending with
  | fault f => simp [Ending.fault?, eq_comm]
  | _ => simp [Ending.fault?]

end Outcome

/-- A report loses no output. Its text is empty exactly if nothing was printed. Otherwise the newlines cut it
into as many pieces as values were printed, and the piece at each place is `Res: ` and the numeral of the value
there, which is read as this value. So outcomes whose reports have the same text printed the same. And a report
tells of success exactly if it has no error, which is exactly if no fault ended the run. -/
theorem report_keeps_output :
    (∀ o : Outcome,
      (o.report.output = "" ↔ o.output = #[]) ∧
      (o.output ≠ #[] →
        (Text.lines o.report.output).length = o.output.size ∧
        ∀ (k : Nat) (v : Word), o.output[k]? = some v →
          (Text.lines o.report.output)[k]? = some ("Res: " ++ Decimal.ofWord v).toList) ∧
      (o.report.success = true ↔ o.report.error = none) ∧
      (o.report.error = none ↔ ∀ f, o.ending ≠ .fault f)) ∧
    (∀ v : Word, Decimal.Numeral (Decimal.ofWord v).toList v.toInt ∧
      Decimal.word? (Decimal.ofWord v) = some v) ∧
    ∀ o o' : Outcome, o.report.output = o'.report.output → o.output = o'.output := by
  refine ⟨fun o => ⟨o.output_report_eq_empty, fun hne => ⟨?_, fun k v hv => ?_⟩, o.success_report_iff,
    o.error_report_eq_none⟩, fun v => ⟨Decimal.numeral_ofWord v, Decimal.word?_ofWord v⟩,
    fun o o' => Outcome.output_eq_of_report⟩
  · rw [Outcome.lines_report hne, List.length_map, Array.length_toList]
  · rw [Outcome.lines_report hne, List.getElem?_map, Array.getElem?_toList, hv]
    rfl

/-- The least word, and the same output at two ends of a run. -/
theorem report_keeps_output_ended :
    let o : Outcome := ⟨.halt, #[-9223372036854775808, 7], 4, 4, -1, #[]⟩
    let o' : Outcome := ⟨.fault .divisionByZero, #[-9223372036854775808, 7], 5, 5, 0, #[]⟩
    o.output ≠ #[] ∧ (Text.lines o.report.output).length = 2 ∧
      (Text.lines o.report.output)[0]? = some "Res: -9223372036854775808".toList ∧
      o.report.output = o'.report.output ∧ o.output = o'.output ∧
      o.report.success = true ∧ o'.report.success = false := by
  intro o o'
  have hne : o.output ≠ #[] := by decide
  have hnumeral : Decimal.ofWord (-9223372036854775808) = "-9223372036854775808" := by decide +kernel
  obtain ⟨hreport, -, hsame⟩ := report_keeps_output
  obtain ⟨hlength, hpiece⟩ := (hreport o).2.1 hne
  refine ⟨hne, hlength, ?_, rfl, hsame o o' rfl, rfl, rfl⟩
  rw [hpiece 0 (-9223372036854775808) rfl, hnumeral]
  rfl

/-! ## JSON -/

namespace Report

/-- The keys of the fields. -/
def keys : List String := ["success", "output", "error"]

/-- The members of the object that a report is printed as. -/
def fields (r : Report) : List (List Char × Json) :=
  [(Json.spell "success", .bool r.success), (Json.spell "output", .ofString r.output),
    (Json.spell "error", .ofOption r.error)]

/-- The members of an object that stands for the report: its fields, each once, and any members with other keys,
all in any order. The error may be left out if there is none. -/
def Presents (r : Report) (members : List (List Char × Json)) : Prop :=
  ∃ own others, (own = r.fields ∨ r.error = none ∧ own = r.fields.take 2) ∧
    (∀ m ∈ others, ∃ key, Json.text? m.1 = some key ∧ key ∉ keys) ∧ members.Perm (own ++ others)

theorem toJson_eq (r : Report) : r.toJson = .object r.fields := rfl

/-- A member with what its key says. -/
def keyed (m : List Char × Json) : String × Json := ((Json.text? m.1).getD "", m.2)

theorem mapM_keyed {members : List (List Char × Json)} (h : ∀ m ∈ members, ∃ key, Json.text? m.1 = some key) :
    (members.mapM fun m => (Json.text? m.1).map (·, m.2)) = some (members.map keyed) := by
  induction members with
  | nil => rfl
  | cons m members ih =>
    obtain ⟨hm, hmembers⟩ := List.forall_mem_cons.1 h
    obtain ⟨key, hkey⟩ := hm
    rw [List.mapM_cons, ih hmembers, List.map_cons, keyed, hkey]
    rfl

theorem map_keyed_fields (r : Report) :
    r.fields.map keyed = [("success", .bool r.success), ("output", .ofString r.output),
      ("error", .ofOption r.error)] := by
  simp only [fields, List.map_cons, List.map_nil, keyed, Json.text?_spell, Option.getD_some]

theorem string?_ofString (s : String) : string? (.ofString s) = some s := Json.text?_spell s

theorem stringOrNull?_ofOption (e : Option String) : stringOrNull? (.ofOption e) = some e := by
  cases e with
  | none => rfl
  | some s =>
    show (string? (.ofString s)).map some = _
    rw [string?_ofString]
    rfl

variable {r : Report} {members : List (List Char × Json)}

theorem exists_key_of_mem_fields {m : List Char × Json} (h : m ∈ r.fields) :
    ∃ key, Json.text? m.1 = some key := by
  simp only [fields, List.mem_cons, List.not_mem_nil, or_false] at h
  rcases h with rfl | rfl | rfl <;> exact ⟨_, Json.text?_spell _⟩

theorem Presents.exists_key (h : r.Presents members) : ∀ m ∈ members, ∃ key, Json.text? m.1 = some key := by
  obtain ⟨own, others, hown, hothers, hperm⟩ := h
  intro m hm
  rcases List.mem_append.1 (hperm.subset hm) with hm | hm
  · rcases hown with rfl | ⟨-, rfl⟩
    · exact exists_key_of_mem_fields hm
    · exact exists_key_of_mem_fields (List.mem_of_mem_take hm)
  · obtain ⟨key, hkey, -⟩ := hothers m hm
    exact ⟨key, hkey⟩

/-- A key of the report is on no other member. -/
theorem Presents.filter_keyed (h : r.Presents members) :
    ∃ own, (own = r.fields ∨ r.error = none ∧ own = r.fields.take 2) ∧ ∀ key ∈ keys,
      ((members.map keyed).filter (·.1 == key)).Perm ((own.map keyed).filter (·.1 == key)) := by
  obtain ⟨own, others, hown, hothers, hperm⟩ := h
  refine ⟨own, hown, fun key hkey => ?_⟩
  have hnone : (others.map keyed).filter (·.1 == key) = [] := by
    rw [List.filter_eq_nil_iff, List.forall_mem_map]
    intro m hm
    obtain ⟨other, hother, hne⟩ := hothers m hm
    simp only [keyed, hother, Option.getD_some, beq_iff_eq]
    rintro rfl
    exact hne hkey
  have hfilter := (hperm.map keyed).filter (·.1 == key)
  rwa [List.map_append, List.filter_append, hnone, List.append_nil] at hfilter

theorem single?_of_perm {named : List (String × Json)} {key : String} {v : Json}
    (h : (named.filter (·.1 == key)).Perm [(key, v)]) : single? named key = some v := by
  rw [single?, List.perm_singleton.1 h]

theorem atMostOne?_of_perm {named : List (String × Json)} {key : String} {v : Json}
    (h : (named.filter (·.1 == key)).Perm [(key, v)]) : atMostOne? named key = some v := by
  rw [atMostOne?, List.perm_singleton.1 h]

theorem atMostOne?_of_nil {named : List (String × Json)} {key : String}
    (h : (named.filter (·.1 == key)).Perm []) : atMostOne? named key = some .null := by
  rw [atMostOne?, List.perm_nil.1 h]

/-- Every field is found by its key. -/
theorem Presents.found (h : r.Presents members) :
    single? (members.map keyed) "success" = some (.bool r.success) ∧
      single? (members.map keyed) "output" = some (.ofString r.output) ∧
      atMostOne? (members.map keyed) "error" = some (.ofOption r.error) := by
  obtain ⟨own, hown, hfilter⟩ := h.filter_keyed
  have hsuccess := hfilter "success" (by decide)
  have houtput := hfilter "output" (by decide)
  have herror := hfilter "error" (by decide)
  rcases hown with rfl | ⟨hnone, rfl⟩
  · rw [map_keyed_fields] at hsuccess houtput herror
    exact ⟨single?_of_perm hsuccess, single?_of_perm houtput, atMostOne?_of_perm herror⟩
  · rw [List.map_take, map_keyed_fields] at hsuccess houtput herror
    rw [hnone]
    exact ⟨single?_of_perm hsuccess, single?_of_perm houtput, atMostOne?_of_nil herror⟩

theorem Presents.ofJson?_eq (h : r.Presents members) : ofJson? (.object members) = some r := by
  obtain ⟨hsuccess, houtput, herror⟩ := h.found
  have hkeyed := mapM_keyed h.exists_key
  unfold ofJson?
  simp [hkeyed, hsuccess, houtput, herror, bool?, string?_ofString, stringOrNull?_ofOption]

theorem presents_fields (r : Report) : r.Presents r.fields :=
  ⟨r.fields, [], .inl rfl, fun _ hm => absurd hm List.not_mem_nil, by simp⟩

theorem parse?_of_written {text : String} (h : r.Presents members) (htext : Json.Written text (.object members)) :
    parse? text = some r := by
  rw [parse?, Json.parse?_written htext, Option.bind_some]
  exact h.ofJson?_eq

open Json in
theorem written_toJson (r : Report) : Written r.toJson.pretty r.toJson := by
  have hstring : ∀ (l : Layout) (s : String), Value (.ofString s) ((Json.ofString s).chars l) :=
    fun l s => .string (spelling_spell s)
  apply written_pretty
  rw [toJson_eq]
  apply value_object_chars
  intro m hm
  simp only [fields, List.mem_cons, List.not_mem_nil, or_false] at hm
  rcases hm with rfl | rfl | rfl
  · refine ⟨spelling_spell _, ?_⟩
    cases r.success
    · exact .isFalse
    · exact .isTrue
  · exact ⟨spelling_spell _, hstring _ _⟩
  · refine ⟨spelling_spell _, ?_⟩
    cases r.error
    · exact .null
    · exact hstring _ _

/-- The text may be a line. -/
theorem parse?_line (r : Report) : parse? (r.toJson.pretty ++ "\n") = some r :=
  parse?_of_written r.presents_fields (r.written_toJson.append (by decide))

end Report

theorem textOfLines_singleton (line : String) : textOfLines [line] = line ++ "\n" := by simp [textOfLines]

/-- A report survives its JSON form. The text that is printed for it, by itself or with the newline that the
command puts behind it, is read as the report again, and so is every text of an object that stands for it: with
its members in any order, with other members among them, and without the error if there is none. -/
theorem report_survives_json :
    (∀ r : Report,
      Report.parse? r.toJson.pretty = some r ∧ Report.parse? (r.toJson.pretty ++ "\n") = some r ∧
        ∀ members text, r.Presents members → Json.Written text (.object members) →
          Report.parse? text = some r) ∧
    ∀ (o : Outcome) (c : Console),
      (Transcript.ofRun true o c).stdout = c.written ++ (o.report.toJson.pretty ++ "\n") := by
  refine ⟨fun r => ⟨?_, ?_, fun members text => Report.parse?_of_written⟩, fun o c => ?_⟩
  · exact Report.parse?_of_written r.presents_fields r.written_toJson
  · exact r.parse?_line
  · show c.written ++ textOfLines [o.report.toJson.pretty] = _
    rw [textOfLines_singleton]

open Json in
/-- Another order, another member before the others, and no error. -/
theorem report_survives_json_reordered :
    let r : Report := ⟨true, "Res: 1\nRes: 2", none⟩
    let number := ['-', '0', '.', '5', 'e', '+', '7']
    let other : List Char × Json := (spell "a\"b", .object [(spell "n", .number number)])
    let members := [other, (spell "output", .ofString r.output), (spell "success", .bool r.success)]
    let text := "\x7b\n  \"a\\\"b\": \x7b\n    \"n\": -0.5e+7\n  \x7d,\n" ++
      "  \"output\": \"Res: 1\\nRes: 2\",\n  \"success\": true\n\x7d"
    r.Presents members ∧ Written text (.object members) ∧ Report.parse? text = some r := by
  intro r number other members text
  have hpresents : r.Presents members := by
    refine ⟨r.fields.take 2, [other], .inr ⟨rfl, rfl⟩, fun m hm => ?_, ?_⟩
    · rw [List.mem_singleton.1 hm]
      exact ⟨"a\"b", text?_spell _, by decide⟩
    · exact List.reverse_perm (r.fields.take 2 ++ [other])
  have hnumber : Number number :=
    @Number.mk ['-'] ['0'] ['.', '5'] ['e', '+', '7'] (by decide) .zero (.present (by decide))
      (@Exponent.present 'e' ['+'] ['7'] (by decide) (by decide) (by decide))
  have hwritten : Written text (.object members) := by
    have hpretty : (Json.object members).pretty = text := by decide +kernel
    rw [← hpretty]
    apply written_pretty
    apply value_object_chars
    intro m hm
    simp only [members, List.mem_cons, List.not_mem_nil, or_false] at hm
    rcases hm with rfl | rfl | rfl
    · refine ⟨spelling_spell _, value_object_chars fun m hm => ?_⟩
      rw [List.mem_singleton.1 hm]
      exact ⟨spelling_spell _, .number hnumber⟩
    · exact ⟨spelling_spell _, .string (spelling_spell _)⟩
    · exact ⟨spelling_spell _, .isTrue⟩
  exact ⟨hpresents, hwritten, (report_survives_json.1 r).2.2 members text hpresents hwritten⟩

end StackMachine
