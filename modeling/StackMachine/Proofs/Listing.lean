/-
What a listing says about jumps, and what the machine does. A listing looks a jump's operand up in the
table of labels as it is written; the machine decodes the instruction first, and decoding refuses an
operand that is empty. So the two agree on every jump that names a label (`listing_foretells_jumps`), and
disagree on one that names none in a program with an unlabelled `NULL`, where the listing shows a place and
the machine refuses to go there (`unnamed_jump_listed`).

`Program.Shows` says what a listing shows as a fact about its text, and `Program.shows_iff` that this is
the remark on the instruction: the fields in front of it cannot pass for a remark, whatever they hold.
-/
import StackMachine.Program.Listing
import StackMachine.Proofs.Jumps
import StackMachine.Proofs.Run

namespace StackMachine

/-! ## Places as a listing writes them -/

theorem toList_placeText (n : Nat) :
    (placeText n).toList = List.replicate (4 - (Nat.toDigits 10 n).length) '0' ++ Nat.toDigits 10 n := by
  simp [placeText, Text.zeroFilled, Decimal.ofNat, List.leftpad]

theorem placeText_injective : Function.Injective placeText := by
  intro m n h
  have hread : ∀ k, Nat.ofDigitChars 10 (placeText k).toList 0 = k := by
    intro k
    rw [toList_placeText, Nat.ofDigitChars_append, Nat.ofDigitChars_replicate_zero, Nat.mul_zero,
      Nat.ofDigitChars_ten_toDigits]
  rw [← hread m, h, hread]

theorem isDigit_of_mem_placeText {n : Nat} {c : Char} (h : c ∈ (placeText n).toList) : c.isDigit = true := by
  rw [toList_placeText, List.mem_append, List.mem_replicate] at h
  rcases h with ⟨-, rfl⟩ | h
  · rfl
  · exact Nat.isDigit_of_mem_toDigits (by decide) (by decide) h

/-! ## Remarks -/

/-- The remark on a jump that leads to this place. -/
def targetRemark (place : Nat) : String := "-> " ++ placeText place

/-- The remark on a jump whose label has no place. -/
def unresolvedRemark : String := "-> ?"

/-- The remark on an instruction whose opcode is none. -/
def unknownRemark : String := "; unknown opcode"

theorem targetRemark_injective {m n : Nat} (h : targetRemark m = targetRemark n) : m = n :=
  placeText_injective ((String.append_right_inj "-> ").1 h)

theorem targetRemark_ne_unresolved (n : Nat) : targetRemark n ≠ unresolvedRemark := by
  intro h
  have hn : placeText n = "?" := (String.append_right_inj "-> ").1 h
  have := isDigit_of_mem_placeText (n := n) (c := '?') (by rw [hn]; decide)
  cases this

theorem targetRemark_ne_unknown (n : Nat) : targetRemark n ≠ unknownRemark := by
  intro h
  have := congrArg (fun s => s.toList.head?) h
  simp [targetRemark, unknownRemark] at this

theorem targetRemark_ne_empty (n : Nat) : targetRemark n ≠ "" := by
  simp [targetRemark]

theorem newline_notMem_targetRemark (n : Nat) : '\n' ∉ (targetRemark n).toList := by
  rw [targetRemark, String.toList_append, List.mem_append, not_or]
  refine ⟨by decide, fun hmem => ?_⟩
  cases isDigit_of_mem_placeText hmem

namespace Instruction

/-- Whether an instruction has to name a label is told by its opcode. -/
theorem opcode_mem_labelled {i : Instruction} :
    i.opcode ∈ Opcode.labelled.map Opcode.mnemonic ↔
      ∃ o, Opcode.ofMnemonic? i.opcode = some o ∧ o.takesLabel = true := by
  constructor
  · intro h
    obtain ⟨o, ho, hm⟩ := List.mem_map.1 h
    refine ⟨o, by rw [← hm, Opcode.ofMnemonic?_mnemonic], ?_⟩
    simp only [Opcode.labelled, List.mem_cons, List.not_mem_nil, or_false] at ho
    rcases ho with rfl | rfl | rfl <;> rfl
  · rintro ⟨o, ho, ht⟩
    rw [Opcode.ofMnemonic?_eq_some ho]
    refine List.mem_map_of_mem ?_
    cases o with
    | call | jmp | jmpf => simp [Opcode.labelled]
    | _ => cases ht

/-- The remark on an instruction, in the cases that there are. -/
theorem remark_cases (labels : Labels) (i : Instruction) :
    (Opcode.ofMnemonic? i.opcode = none ∧ i.remark labels = unknownRemark) ∨
    (∃ place, i.opcode ∈ Opcode.labelled.map Opcode.mnemonic ∧ labels.get? i.operand1 = some place ∧
      i.remark labels = targetRemark place) ∨
    (i.opcode ∈ Opcode.labelled.map Opcode.mnemonic ∧ labels.get? i.operand1 = none ∧
      i.remark labels = unresolvedRemark) ∨
    (i.opcode ∉ Opcode.labelled.map Opcode.mnemonic ∧ (∃ o, Opcode.ofMnemonic? i.opcode = some o) ∧
      i.remark labels = "") := by
  unfold remark
  cases ho : Opcode.ofMnemonic? i.opcode with
  | none => exact .inl ⟨rfl, rfl⟩
  | some o =>
    right
    by_cases ht : o.takesLabel = true
    · have hmem := opcode_mem_labelled.2 ⟨o, ho, ht⟩
      simp only [if_pos ht]
      cases hplace : labels.get? i.operand1 with
      | some place => exact .inl ⟨place, hmem, rfl, rfl⟩
      | none => exact .inr (.inl ⟨hmem, rfl, rfl⟩)
    · refine .inr (.inr ⟨fun hmem => ?_, ⟨o, rfl⟩, if_neg ht⟩)
      obtain ⟨o', ho', ht'⟩ := opcode_mem_labelled.1 hmem
      rw [ho] at ho'
      cases ho'
      exact ht ht'

theorem newline_notMem_remark (labels : Labels) (i : Instruction) : '\n' ∉ (i.remark labels).toList := by
  rcases i.remark_cases labels with ⟨-, h⟩ | ⟨place, -, -, h⟩ | ⟨-, -, h⟩ | ⟨-, -, h⟩
  · rw [h]; decide
  · rw [h]; exact newline_notMem_targetRemark place
  · rw [h]; decide
  · rw [h]; decide

/-- The line of an instruction without the remark. -/
def listedFields (i : Instruction) (place : Nat) : String :=
  String.ofList (Text.trimEnd (placeText place ++ "  " ++ Text.column 4 i.label ++ " " ++
    Text.column 8 i.opcode ++ " " ++ Text.column 4 i.operand1 ++ " " ++ Text.column 4 i.operand2).toList)

theorem listed_eq (labels : Labels) (i : Instruction) (place : Nat) :
    i.listed labels place =
      if i.remark labels = "" then i.listedFields place
      else i.listedFields place ++ "  " ++ i.remark labels := by
  simp only [listed, listedFields, String.isEmpty_iff]

end Instruction

/-! ## The text of a listing -/

/-- A text up to the first character that cannot stand in it can be read in one way only. -/
theorem append_cons_inj {p : Char → Bool} {as bs cs ds : List Char} {c d : Char} (ha : ∀ x ∈ as, p x = true)
    (hb : ∀ x ∈ bs, p x = true) (hc : p c = false) (hd : p d = false) (h : as ++ c :: cs = bs ++ d :: ds) :
    as = bs ∧ c :: cs = d :: ds := by
  have htaken : ∀ {es fs : List Char} {e : Char}, (∀ x ∈ es, p x = true) → p e = false →
      (es ++ e :: fs).takeWhile p = es := by
    intro es fs e hes he
    rw [List.takeWhile_append_of_pos hes, List.takeWhile_cons_of_neg (by simp [he]), List.append_nil]
  have hab : as = bs := by rw [← htaken ha hc, h, htaken hb hd]
  rw [hab] at h
  exact ⟨hab, List.append_cancel_left h⟩

theorem append_newline_inj {as bs cs ds : List Char} (ha : '\n' ∉ as) (hb : '\n' ∉ bs)
    (h : as ++ '\n' :: cs = bs ++ '\n' :: ds) : as = bs ∧ cs = ds := by
  have hunbroken : ∀ {es : List Char}, '\n' ∉ es → ∀ c ∈ es, (c != '\n') = true := by
    intro es hes c hc
    exact bne_iff_ne.2 fun heq => hes (heq ▸ hc)
  obtain ⟨hfirst, hrest⟩ := append_cons_inj (hunbroken ha) (hunbroken hb) rfl rfl h
  exact ⟨hfirst, List.tail_eq_of_cons_eq hrest⟩

namespace Program

/-- The listing shows this remark on the instruction at the place: behind the lines of the instructions
before it comes the line of this one, its fields first and the remark behind two blanks. -/
def Shows (p : Program) (place : Nat) (remark : String) : Prop :=
  ∃ i rest, p.get? place = some i ∧
    p.listing = String.join ((p.listedInstructions.take place).map (· ++ "\n")) ++
      (i.listedFields place ++ "  " ++ remark ++ "\n" ++ rest)

/-- A listing has its lines one after another. -/
theorem listing_split {p : Program} {place : Nat} {i : Instruction} (hi : p.get? place = some i) :
    ∃ rest, p.listing = String.join ((p.listedInstructions.take place).map (· ++ "\n")) ++
      (i.listed p.labels place ++ "\n" ++ rest) := by
  have hline : p.listedInstructions[place]? = some (i.listed p.labels place) := by
    have hne : p.isEmpty = false := by
      cases h : p.instructions with
      | nil => simp [get?, h] at hi
      | cons => simp [isEmpty, h]
    rw [get?] at hi
    simp [listedInstructions, hne, hi]
  obtain ⟨hlt, hline⟩ := List.getElem?_eq_some_iff.1 hline
  have hsplit : p.listedInstructions = p.listedInstructions.take place ++
      i.listed p.labels place :: p.listedInstructions.drop (place + 1) := by
    rw [← hline, List.getElem_cons_drop, List.take_append_drop]
  refine ⟨String.join ((p.listedInstructions.drop (place + 1) ++ p.listedLabels ++ p.listedSkips).map
    (· ++ "\n")), ?_⟩
  conv_lhs => rw [listing, hsplit]
  simp [String.join_append, String.append_assoc]

/-- What a listing shows on an instruction is the remark on it. -/
theorem shows_iff {p : Program} {place : Nat} {i : Instruction} (hi : p.get? place = some i) {remark : String}
    (hremark : '\n' ∉ remark.toList) :
    p.Shows place remark ↔ i.remark p.labels = remark ∧ remark ≠ "" := by
  obtain ⟨rest, hlisting⟩ := listing_split hi
  rw [Instruction.listed_eq] at hlisting
  constructor
  · rintro ⟨j, rest', hj, hshown⟩
    rw [hi] at hj
    cases hj
    rw [hlisting, String.append_right_inj] at hshown
    have hchars := congrArg String.toList hshown
    split at hchars
    · simp [String.append_assoc] at hchars
    · rename_i hne
      simp only [String.toList_append, List.append_assoc, List.append_cancel_left_eq] at hchars
      have heq := (append_newline_inj (i.newline_notMem_remark p.labels) hremark hchars).1
      have heq := String.toList_injective heq
      exact ⟨heq, heq ▸ hne⟩
  · rintro ⟨rfl, hne⟩
    rw [if_neg hne] at hlisting
    exact ⟨i, rest, hi, hlisting⟩

section Remarks

variable {p : Program} {place : Nat} {i : Instruction}

theorem shows_target_iff (hi : p.get? place = some i) {t : Nat} :
    p.Shows place (targetRemark t) ↔
      i.opcode ∈ Opcode.labelled.map Opcode.mnemonic ∧ p.labels.get? i.operand1 = some t := by
  rw [shows_iff hi (newline_notMem_targetRemark t)]
  rcases i.remark_cases p.labels with ⟨ho, h⟩ | ⟨t', ho, ht, h⟩ | ⟨ho, ht, h⟩ | ⟨ho, -, h⟩ <;> rw [h]
  · simp [Instruction.opcode_mem_labelled, ho, (targetRemark_ne_unknown t).symm]
  · simp only [ho, ht, true_and, Option.some.injEq]
    exact ⟨fun ht => targetRemark_injective ht.1, fun ht => ⟨congrArg _ ht, targetRemark_ne_empty t⟩⟩
  · simp [ht, (targetRemark_ne_unresolved t).symm]
  · simp [ho, (targetRemark_ne_empty t).symm]

theorem shows_unresolved_iff (hi : p.get? place = some i) :
    p.Shows place unresolvedRemark ↔
      i.opcode ∈ Opcode.labelled.map Opcode.mnemonic ∧ p.labels.get? i.operand1 = none := by
  rw [shows_iff hi (by decide)]
  rcases i.remark_cases p.labels with ⟨ho, h⟩ | ⟨t, ho, ht, h⟩ | ⟨ho, ht, h⟩ | ⟨ho, -, h⟩ <;> rw [h]
  · simp [Instruction.opcode_mem_labelled, ho, unknownRemark, unresolvedRemark]
  · simp [ht, targetRemark_ne_unresolved]
  · simp [ho, ht, unresolvedRemark]
  · simp [ho, unresolvedRemark]

theorem shows_unknown_iff (hi : p.get? place = some i) :
    p.Shows place unknownRemark ↔ Opcode.ofMnemonic? i.opcode = none := by
  rw [shows_iff hi (by decide)]
  rcases i.remark_cases p.labels with ⟨ho, h⟩ | ⟨t, ho, ht, h⟩ | ⟨ho, ht, h⟩ | ⟨-, ⟨o, ho⟩, h⟩ <;> rw [h]
  · simp [ho, unknownRemark]
  · obtain ⟨o, ho, -⟩ := Instruction.opcode_mem_labelled.1 ho
    simp [ho, targetRemark_ne_unknown]
  · obtain ⟨o, ho, -⟩ := Instruction.opcode_mem_labelled.1 ho
    simp [ho, unresolvedRemark, unknownRemark]
  · simp [ho, unknownRemark]

end Remarks

end Program

/-! ## The instruction in hand -/

/-- The instruction goes to its label if it is executed on this machine: a `CALL` finds a free cell for its
place, and a `JMPF` a zero. -/
structure Instruction.Taken (i : Instruction) (m : Machine) : Prop where
  room : i.opcode = Opcode.call.mnemonic → m.memory.Contains (m.sp + 1)
  zero : i.opcode = Opcode.jmpf.mnemonic → m.memory.Contains m.sp ∧ m.memory.get m.sp = 0

theorem Instruction.Taken.jumps {i : Instruction} {m : Machine} {op : Operation} {l : String} (h : i.Taken m)
    (hi : i.decode = .ok op) (hl : op.label? = some l) : op.Jumps m := by
  have ho := (Instruction.decode_eq_ok hi).1 (Operation.opcode_of_label? hl).1
  cases op with
  | call => exact h.room ho
  | jmp => trivial
  | jmpf => exact h.zero ho
  | _ => cases hl

/-- An operand that has to be read first was not read, or what follows failed. -/
theorem Instruction.operand_then_eq_error {α β : Type} {read : Except DecodeError α}
    {next : α → Except DecodeError β} {e : DecodeError} :
    read >>= next = .error e ↔ read = .error e ∨ ∃ a, read = .ok a ∧ next a = .error e := by
  rcases read with e' | a
  · constructor
    · intro h
      cases h
      exact .inl rfl
    · rintro (h | ⟨_, h, _⟩) <;> cases h
      rfl
  · constructor
    · exact fun h => .inr ⟨a, rfl, h⟩
    · rintro (h | ⟨_, ha, h⟩)
      · cases h
      · cases ha
        exact h

/-- Operands give another error than an opcode that is none. -/
theorem Instruction.decode_eq_unknown {i : Instruction} {e : String} :
    i.decode = .error (.unknownOpcode e) ↔ Opcode.ofMnemonic? i.opcode = none ∧ e = i.opcode := by
  have hword : ∀ o k s, wordOperand o k s ≠ .error (.unknownOpcode e) := by
    intro o k s h
    unfold wordOperand at h
    split at h <;> cases h
  have hlabel : ∀ o s, labelOperand o s ≠ .error (.unknownOpcode e) := by
    intro o s h
    unfold labelOperand at h
    split at h <;> cases h
  unfold decode
  cases ho : Opcode.ofMnemonic? i.opcode with
  | none => simp [eq_comm]
  | some o =>
    simp only [reduceCtorEq, false_and, iff_false]
    cases o <;> simp [operand_then_eq_error, hword, hlabel, pure, Except.pure]

namespace Session

variable {σ : Type} {settings : Settings} {program : Program} {place : Nat} {i : Instruction} {s : Session σ}

/-- The run has come to this instruction of the program, and has not been stopped. -/
structure Faces (settings : Settings) (program : Program) (place : Nat) (i : Instruction) (s : Session σ) :
    Prop where
  valid : s.Valid settings program
  running : s.phase = .running
  unstopped : s.stopped = false
  pc : s.machine.pc = place
  here : program.get? place = some i

theorem Faces.fetched (h : s.Faces settings program place i) :
    s.image.fetch? s.machine.pc = some i.decode := by
  rw [h.valid.image_eq, Image.fetch?_ofProgram, Program.at?, h.pc]
  simp [h.here]

variable [Device σ]

/-- An instruction without an operation ends the run. -/
theorem Faces.undecodable (h : s.Faces settings program place i) {e : DecodeError} (he : i.decode = .error e) :
    s.tick.1 = .ended (s.outcome (.fault (.undecodable e))) := by
  have hf := h.fetched
  rw [he] at hf
  unfold tick
  rw [h.running]
  show s.cycle.1 = _
  rw [cycle, if_neg (by simp [h.unstopped]), hf]
  rfl

/-- No other instruction ends the run for want of an operation. -/
theorem Faces.decode_of_undecodable (h : s.Faces settings program place i) {e : DecodeError} {o : Outcome}
    (ho : s.tick.1 = .ended o) (hending : o.ending = .fault (.undecodable e)) : i.decode = .error e := by
  cases hd : i.decode with
  | error e' =>
    rw [h.undecodable hd] at ho
    cases ho
    cases hending
    rfl
  | ok op =>
    have hf := h.fetched
    have hp := h.running
    have ht := s.tick_ticks
    generalize s.tick = r at ht ho
    cases ht with
    | start h' | refuse h' | pending h' | waiting h' | refused h' | overflow h' | answer h' =>
      rw [hp] at h'
      cases h'
    | finish _ he =>
      cases ho
      cases he with
      | undecodable _ hf' =>
        rw [hf, hd] at hf'
        cases hf'
      | _ => cases hending
    | fail hb he =>
      cases ho
      cases hending
      cases (h.valid.execute_error hb he).2.2
    | work | print => rw [retire_eq] at ho; cases ho
    | read => cases ho

omit [Device σ] in
/-- A jump that names a label and is executed is begun. -/
theorem Faces.begins (h : s.Faces settings program place i) {op : Operation} {l : String}
    (hd : i.decode = .ok op) (hl : op.label? = some l)
    (hwithin : ∀ n, s.settings.stepLimit = some n → s.machine.steps < n) : s.Begins op := by
  refine ⟨h.running, h.unstopped, ?_, ?_, hwithin⟩
  · rw [h.fetched, hd]
  · rintro rfl
    cases hl

end Session

/-- Listings foretell jumps. On an instruction that has to name a label a listing shows where it leads, or
that it leads nowhere. If the listing shows a place and the instruction names a label, then executing it with
the jump taken goes on at that place; if it names none, executing it ends in a fault. If the listing shows
none, executing it with the jump taken ends in a fault. And a listing shows that an opcode is none exactly if
executing the instruction ends in the fault of such an opcode. -/
theorem listing_foretells_jumps {σ : Type} [Device σ] {settings : Settings} {program : Program}
    (hsize : (program.size : Int) ≤ Word.greatest) {s : Session σ} {place : Nat} {i : Instruction}
    (h : s.Faces settings program place i) :
    (i.opcode ∈ Opcode.labelled.map Opcode.mnemonic →
      (∃ t, program.Shows place (targetRemark t)) ∨ program.Shows place unresolvedRemark) ∧
    (i.Taken s.machine → (∀ n, s.settings.stepLimit = some n → s.machine.steps < n) →
      (∀ t, program.Shows place (targetRemark t) →
        (i.operand1 ≠ "" → s.tick.1 = .running ∧ s.tick.2.machine.pc = t) ∧
        (i.operand1 = "" → ∃ o opcode, s.tick.1 = .ended o ∧
          o.ending = .fault (.undecodable (.invalidOperand opcode .label "")))) ∧
      (program.Shows place unresolvedRemark → ∃ o f, s.tick.1 = .ended o ∧ o.ending = .fault f)) ∧
    (program.Shows place unknownRemark ↔
      ∃ o e, s.tick.1 = .ended o ∧ o.ending = .fault (.undecodable (.unknownOpcode e))) := by
  have hlabels : s.image.labels = program.labels := by rw [h.valid.image_eq]; rfl
  refine ⟨fun ho => ?_, fun htaken hwithin => ⟨fun t ht => ⟨fun hne => ?_, fun hempty => ?_⟩, fun hshows => ?_⟩, ?_⟩
  · cases hplace : program.labels.get? i.operand1 with
    | some t => exact .inl ⟨t, (Program.shows_target_iff h.here).2 ⟨ho, hplace⟩⟩
    | none => exact .inr ((Program.shows_unresolved_iff h.here).2 ⟨ho, hplace⟩)
  · obtain ⟨ho, hplace⟩ := (Program.shows_target_iff h.here).1 ht
    obtain ⟨op, hd, hl⟩ := (Instruction.decode_labelled ho).2 hne
    obtain ⟨hrunning, hpc⟩ := ((h.begins hd hl hwithin).jumps hl (htaken.jumps hd hl)).1 t (hlabels ▸ hplace)
    have hlt := Program.lt_size_of_labels_get? hplace
    refine ⟨hrunning, ?_⟩
    rw [hpc, Word.clampAdd]
    omega
  · obtain ⟨ho, -⟩ := (Program.shows_target_iff h.here).1 ht
    obtain ⟨opcode, hd⟩ := (Instruction.decode_labelled ho).1 hempty
    exact ⟨_, opcode, h.undecodable hd, rfl⟩
  · obtain ⟨ho, hplace⟩ := (Program.shows_unresolved_iff h.here).1 hshows
    by_cases hempty : i.operand1 = ""
    · obtain ⟨opcode, hd⟩ := (Instruction.decode_labelled ho).1 hempty
      exact ⟨_, _, h.undecodable hd, rfl⟩
    · obtain ⟨op, hd, hl⟩ := (Instruction.decode_labelled ho).2 hempty
      obtain ⟨o, ho, hending⟩ := ((h.begins hd hl hwithin).jumps hl (htaken.jumps hd hl)).2 (hlabels ▸ hplace)
      exact ⟨o, _, ho, hending⟩
  · rw [Program.shows_unknown_iff h.here]
    constructor
    · intro ho
      exact ⟨_, _, h.undecodable (Instruction.decode_eq_unknown.2 ⟨ho, rfl⟩), rfl⟩
    · rintro ⟨o, e, ho, hending⟩
      exact (Instruction.decode_eq_unknown.1 (h.decode_of_undecodable ho hending)).1

/-- Jumps over an instruction that is none, and then to a label that is nowhere. -/
def jumping : Program where
  instructions := [⟨"", "JMP", "L1", ""⟩, ⟨"", "FOO", "", ""⟩, ⟨"L1", "NULL", "", ""⟩, ⟨"", "CALL", "L9", ""⟩]

theorem listing_foretells_jumps_jumping :
    let first := Session.create { memory := 1 } jumping ({} : Scripted)
    let s := (first.run 1).2
    let u := (first.run 3).2
    s.Faces { memory := 1 } jumping 0 ⟨"", "JMP", "L1", ""⟩ ∧ jumping.Shows 0 (targetRemark 2) ∧
      s.tick.1 = .running ∧ s.tick.2.machine.pc = (2 : Nat) ∧
      u.Faces { memory := 1 } jumping 3 ⟨"", "CALL", "L9", ""⟩ ∧ jumping.Shows 3 unresolvedRemark ∧
      ∃ o f, u.tick.1 = .ended o ∧ o.ending = .fault f := by
  intro first s u
  have hvalid : ∀ n, (first.run n).2.Valid { memory := 1 } jumping :=
    fun n => Session.run_valid n (Session.Reachable.create _).valid
  have hsize : (jumping.size : Int) ≤ Word.greatest := by decide
  have hs : s.Faces { memory := 1 } jumping 0 ⟨"", "JMP", "L1", ""⟩ :=
    ⟨hvalid 1, by decide +kernel, by decide +kernel, by decide +kernel, by decide +kernel⟩
  have hu : u.Faces { memory := 1 } jumping 3 ⟨"", "CALL", "L9", ""⟩ :=
    ⟨hvalid 3, by decide +kernel, by decide +kernel, by decide +kernel, by decide +kernel⟩
  have htarget : jumping.Shows 0 (targetRemark 2) :=
    (Program.shows_target_iff hs.here).2 ⟨by decide, by decide +kernel⟩
  have hnowhere : jumping.Shows 3 unresolvedRemark :=
    (Program.shows_unresolved_iff hu.here).2 ⟨by decide, by decide +kernel⟩
  have hfree : ∀ n, (first.run n).2.settings.stepLimit = none := fun n => by rw [(hvalid n).settings_eq]
  obtain ⟨hgoes, -⟩ := (listing_foretells_jumps hsize hs).2.1
    ⟨fun h => absurd h (by decide), fun h => absurd h (by decide)⟩ (by simp [s, hfree])
  obtain ⟨-, hends⟩ := (listing_foretells_jumps hsize hu).2.1
    ⟨fun _ => by decide +kernel, fun h => absurd h (by decide)⟩ (by simp [u, hfree])
  obtain ⟨hrunning, hpc⟩ := (hgoes 2 htarget).1 (by decide)
  exact ⟨hs, htarget, hrunning, hpc, hu, hnowhere, hends hnowhere⟩

/-- A `NULL` without a label, and a jump without an operand. -/
def unnamed : Program where
  instructions := [⟨"", "NULL", "", ""⟩, ⟨"", "JMP", "", ""⟩]

/-- The listing shows that the jump leads to the `NULL`; the machine ends in a fault. -/
theorem unnamed_jump_listed :
    let s := ((Session.create { memory := 1 } unnamed ({} : Scripted)).run 2).2
    unnamed.listing = "0000       NULL\n0001       JMP  -> 0000\n; mark      = 0000\n" ∧
      unnamed.Shows 1 (targetRemark 0) ∧ s.Faces { memory := 1 } unnamed 1 ⟨"", "JMP", "", ""⟩ ∧
      Instruction.Taken ⟨"", "JMP", "", ""⟩ s.machine ∧
      s.tick.1 = .ended ⟨.fault (.undecodable (.invalidOperand .jmp .label "")), #[], 1, 1, -1, #[]⟩ := by
  intro s
  have hs : s.Faces { memory := 1 } unnamed 1 ⟨"", "JMP", "", ""⟩ :=
    ⟨Session.run_valid 2 (Session.Reachable.create _).valid, by decide +kernel, by decide +kernel,
      by decide +kernel, by decide +kernel⟩
  refine ⟨by decide +kernel, ?_, hs, ⟨fun h => absurd h (by decide), fun h => absurd h (by decide)⟩,
    by decide +kernel⟩
  exact (Program.shows_target_iff hs.here).2 ⟨by decide, by decide +kernel⟩

end StackMachine
