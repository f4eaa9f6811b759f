/-
What the texts of a program determine: the opcode and the label behind each decoded operation, and
the places of labels. A label stands for the first instruction that declares it, so every place in
a label table is a place of the program.
-/
import StackMachine.Program
import Mathlib.Data.List.Basic

namespace StackMachine

/-! ## Decoding -/

theorem Opcode.ofMnemonic?_eq_some {s : String} {o : Opcode} (h : ofMnemonic? s = some o) :
    s = o.mnemonic := by
  have := List.find?_some h
  rw [beq_iff_eq] at this
  exact this.symm

namespace Operation

/-- The opcode that spells an operation; for `nop` it is one of two. -/
def opcode : Operation → Opcode
  | .ldc _ => .ldc
  | .ldv _ => .ldv
  | .binary .add => .add
  | .binary .sub => .sub
  | .binary .mult => .mult
  | .binary .divi => .divi
  | .binary .and => .and
  | .binary .or => .or
  | .binary .cme => .cme
  | .binary .cma => .cma
  | .binary .ceq => .ceq
  | .binary .cdif => .cdif
  | .binary .cmeq => .cmeq
  | .binary .cmaq => .cmaq
  | .unary .inv => .inv
  | .unary .neg => .neg
  | .str _ => .str
  | .rd => .rd
  | .prn => .prn
  | .call _ => .call
  | .ret => .ret
  | .jmp _ => .jmp
  | .jmpf _ => .jmpf
  | .alloc .. => .alloc
  | .dalloc .. => .dalloc
  | .hlt => .hlt
  | .nop => .null

/-- The label that an operation may continue at. -/
def label? : Operation → Option String
  | .call l | .jmp l | .jmpf l => some l
  | _ => none

theorem opcode_of_label? {op : Operation} {l : String} (h : op.label? = some l) :
    op ≠ .nop ∧ op.opcode ∈ [Opcode.call, .jmp, .jmpf] := by
  cases op with
  | call | jmp | jmpf => exact ⟨nofun, by simp [opcode]⟩
  | _ => simp [label?] at h

end Operation

namespace Instruction

/-- An operand that has to be read first was read. -/
theorem operand_then_eq_ok {α β : Type} {read : Except DecodeError α}
    {next : α → Except DecodeError β} {b : β} :
    read >>= next = .ok b ↔ ∃ a, read = .ok a ∧ next a = .ok b := by
  rcases read with e | a
  · exact ⟨nofun, fun ⟨_, h, _⟩ => nomatch h⟩
  · exact ⟨fun h => ⟨a, rfl, h⟩, fun ⟨_, ha, h⟩ => by cases ha; exact h⟩

theorem labelOperand_eq_ok {o : Opcode} {s l : String} (h : labelOperand o s = .ok l) : s = l := by
  unfold labelOperand at h
  split at h
  · cases h
  · cases h; rfl

/-- A decoded instruction spells the opcode of its operation, and names the operation's label by
its first operand. -/
theorem decode_eq_ok {i : Instruction} {op : Operation} (h : i.decode = .ok op) :
    (op ≠ .nop → i.opcode = op.opcode.mnemonic) ∧ ∀ l, op.label? = some l → i.operand1 = l := by
  unfold decode at h
  cases ho : Opcode.ofMnemonic? i.opcode with
  | none => rw [ho] at h; cases h
  | some o =>
    rw [ho] at h
    rw [Opcode.ofMnemonic?_eq_some ho]
    cases o <;> simp only [operand_then_eq_ok, pure, Except.pure, Except.ok.injEq] at h
    case call | jmp | jmpf =>
      obtain ⟨l, hl, rfl⟩ := h
      exact ⟨fun _ => rfl, fun l' hl' => by cases hl'; exact labelOperand_eq_ok hl⟩
    case ldc | ldv | str =>
      obtain ⟨w, -, rfl⟩ := h
      exact ⟨fun _ => rfl, nofun⟩
    case alloc | dalloc =>
      obtain ⟨base, -, count, -, rfl⟩ := h
      exact ⟨fun _ => rfl, nofun⟩
    case null | start =>
      subst h
      exact ⟨fun hop => absurd rfl hop, nofun⟩
    all_goals
      subst h
      exact ⟨fun _ => rfl, nofun⟩

/-- Whether the instruction puts this label on its place. -/
def declares (i : Instruction) (name : String) : Bool := i.declaresLabel && i.label == name

theorem declares_iff {i : Instruction} {name : String} :
    i.declares name = true ↔ i.opcode = Opcode.null.mnemonic ∧ i.label = name := by
  simp [declares, declaresLabel]

end Instruction

namespace Labels

/-- Declaring the labels of further instructions keeps the places that are already known. -/
theorem get?_foldl_declare (name : String) :
    ∀ (is : List Instruction) (start : Nat) (t : Labels),
      ((is.zipIdx start).foldl
        (fun t (i, place) => if i.declaresLabel then t.declare i.label place else t) t).get? name =
        (t.get? name).or ((is.findIdx? (·.declares name)).map (· + start))
  | [], start, t => by simp
  | i :: is, start, t => by
    -- the rest is numbered from one further, which is why the start is not fixed
    rw [List.zipIdx_cons, List.foldl_cons, get?_foldl_declare name is (start + 1), List.findIdx?_cons]
    have hshift : ((is.findIdx? (·.declares name)).map (· + 1)).map (· + start) =
        (is.findIdx? (·.declares name)).map (· + (start + 1)) := by
      rw [Option.map_map]
      congr 1
      funext n
      simp only [Function.comp_apply]
      omega
    show (Labels.get? (if i.declaresLabel then t.declare i.label start else t) name).or _ = _
    by_cases hd : i.declaresLabel = true
    · rw [if_pos hd, get?_declare]
      by_cases hn : i.label = name
      · subst hn
        rw [if_pos rfl, if_pos (by simp [Instruction.declares, hd])]
        cases t.get? i.label <;> simp
      · rw [if_neg hn, if_neg (by simp [Instruction.declares, hn]), hshift]
    · rw [if_neg hd, if_neg (by simp [Instruction.declares, hd]), hshift]

/-- A label stands for the first instruction that declares it. -/
theorem get?_ofInstructions (is : List Instruction) (name : String) :
    (ofInstructions is).get? name = is.findIdx? (·.declares name) := by
  rw [ofInstructions, get?_foldl_declare, get?_empty, Option.none_or]
  simp

end Labels

namespace Program

/-- The instruction at a place, if the program has one there. -/
def at? (p : Program) (pc : Int) : Option Instruction := if 0 ≤ pc then p.get? pc.toNat else none

theorem at?_eq_none {p : Program} {pc : Int} : p.at? pc = none ↔ pc < 0 ∨ p.size ≤ pc := by
  unfold at? get? size
  split
  · rw [List.getElem?_eq_none_iff]
    omega
  · simp only [true_iff]
    omega

theorem at?_eq_some {p : Program} {pc : Int} {i : Instruction} (h : p.at? pc = some i) :
    0 ≤ pc ∧ pc < p.size := by
  have := mt at?_eq_none.2 (by rw [h]; exact nofun)
  omega

theorem labels_get? (p : Program) (name : String) :
    p.labels.get? name = p.instructions.findIdx? (·.declares name) :=
  Labels.get?_ofInstructions p.instructions name

theorem lt_size_of_labels_get? {p : Program} {name : String} {place : Nat}
    (h : p.labels.get? name = some place) : place < p.size := by
  rw [labels_get?] at h
  exact (List.findIdx?_eq_some_iff_getElem.1 h).1

theorem labels_get?_eq_none {p : Program} {name : String} :
    p.labels.get? name = none ↔
      ∀ i ∈ p.instructions, i.opcode = Opcode.null.mnemonic → i.label ≠ name := by
  rw [labels_get?, List.findIdx?_eq_none_iff]
  constructor
  · intro h i hi ho hl
    have := h i hi
    rw [Instruction.declares_iff.2 ⟨ho, hl⟩] at this
    cases this
  · intro h i hi
    rw [Bool.eq_false_iff]
    intro hd
    obtain ⟨ho, hl⟩ := Instruction.declares_iff.1 hd
    exact h i hi ho hl

end Program

end StackMachine
