/-
Instructions as object code holds them, four texts each, and their decoding into operations.
-/
import StackMachine.Opcode
import StackMachine.Operation
import StackMachine.Text.Column

namespace StackMachine

/-- The four fields of an instruction, as written. -/
structure Instruction where
  label : String
  opcode : String
  operand1 : String
  operand2 : String
  deriving DecidableEq, Repr

/-! ## Decoding -/

/-- What an operand has to be. -/
inductive OperandKind
  | integer | address | baseAddress | cellCount | label
  deriving DecidableEq, Repr

def OperandKind.description : OperandKind → String
  | .integer => "an integer"
  | .address => "an address"
  | .baseAddress => "a base address"
  | .cellCount => "a cell count"
  | .label => "a label"

/-- Why an instruction has no operation. -/
inductive DecodeError
  | unknownOpcode (opcode : String)
  | invalidOperand (opcode : Opcode) (expected : OperandKind) (found : String)
  deriving DecidableEq, Repr

def DecodeError.message : DecodeError → String
  | .unknownOpcode s => "unknown opcode " ++ Text.quoted s
  | .invalidOperand o k s =>
    o.mnemonic ++ " expects " ++ k.description ++ " as operand, found " ++ Text.quoted s

namespace Instruction

/-- An operand that has to spell a word. -/
def wordOperand (o : Opcode) (kind : OperandKind) (s : String) : Except DecodeError Word :=
  match Decimal.word? s with
  | some w => .ok w
  | none => .error (.invalidOperand o kind s)

/-- An operand that has to name a label: any text but the empty one. -/
def labelOperand (o : Opcode) (s : String) : Except DecodeError String :=
  if s.isEmpty then .error (.invalidOperand o .label s) else .ok s

/-- The operation of an instruction. Operands are checked from left to right, and those an opcode
does not use are not looked at. -/
def decode (i : Instruction) : Except DecodeError Operation :=
  match Opcode.ofMnemonic? i.opcode with
  | none => .error (.unknownOpcode i.opcode)
  | some o =>
    match o with
    | .ldc => return .ldc (← wordOperand o .integer i.operand1)
    | .ldv => return .ldv (← wordOperand o .address i.operand1)
    | .add => .ok (.binary .add)
    | .sub => .ok (.binary .sub)
    | .mult => .ok (.binary .mult)
    | .divi => .ok (.binary .divi)
    | .inv => .ok (.unary .inv)
    | .and => .ok (.binary .and)
    | .or => .ok (.binary .or)
    | .neg => .ok (.unary .neg)
    | .cme => .ok (.binary .cme)
    | .cma => .ok (.binary .cma)
    | .ceq => .ok (.binary .ceq)
    | .cdif => .ok (.binary .cdif)
    | .cmeq => .ok (.binary .cmeq)
    | .cmaq => .ok (.binary .cmaq)
    | .str => return .str (← wordOperand o .address i.operand1)
    | .rd => .ok .rd
    | .prn => .ok .prn
    | .call => return .call (← labelOperand o i.operand1)
    | .ret => .ok .ret
    | .jmp => return .jmp (← labelOperand o i.operand1)
    | .jmpf => return .jmpf (← labelOperand o i.operand1)
    | .alloc => do
      let base ← wordOperand o .baseAddress i.operand1
      let count ← wordOperand o .cellCount i.operand2
      return .alloc base count
    | .dalloc => do
      let base ← wordOperand o .baseAddress i.operand1
      let count ← wordOperand o .cellCount i.operand2
      return .dalloc base count
    | .hlt => .ok .hlt
    | .null | .start => .ok .nop

/-- Whether the instruction puts its label on its place in the program. -/
def declaresLabel (i : Instruction) : Bool := i.opcode == Opcode.null.mnemonic

end Instruction

end StackMachine
