/-
Operations: what an instruction does once its opcode and operands are understood, the values the
arithmetic ones compute, and the notation that traces write operations in.
-/
import StackMachine.Text.Decimal
import StackMachine.Text.Quoted

namespace StackMachine

/-! ## Arithmetic -/

/-- Operations on the two topmost values. -/
inductive BinaryOp
  | add | sub | mult | divi
  | and | or
  | cme | cma | ceq | cdif | cmeq | cmaq
  deriving DecidableEq, Repr

/-- Operations on the topmost value. -/
inductive UnaryOp
  | inv | neg
  deriving DecidableEq, Repr

namespace BinaryOp

/-- `a` is the value below, `b` the topmost. Logic takes 1 for true and every other value for
false. Undefined only for a division by zero. -/
def eval? : BinaryOp → Word → Word → Option Word
  | .add, a, b => some (a + b)
  | .sub, a, b => some (a - b)
  | .mult, a, b => some (a * b)
  | .divi, a, b => Word.floorDiv? a b
  | .and, a, b => some (Word.ofBool (a == 1 && b == 1))
  | .or, a, b => some (Word.ofBool (a == 1 || b == 1))
  | .cme, a, b => some (Word.ofBool (a < b))
  | .cma, a, b => some (Word.ofBool (a > b))
  | .ceq, a, b => some (Word.ofBool (a == b))
  | .cdif, a, b => some (Word.ofBool (a != b))
  | .cmeq, a, b => some (Word.ofBool (a ≤ b))
  | .cmaq, a, b => some (Word.ofBool (a ≥ b))

def name : BinaryOp → String
  | .add => "Add"
  | .sub => "Sub"
  | .mult => "Mult"
  | .divi => "Divi"
  | .and => "And"
  | .or => "Or"
  | .cme => "Cme"
  | .cma => "Cma"
  | .ceq => "Ceq"
  | .cdif => "Cdif"
  | .cmeq => "Cmeq"
  | .cmaq => "Cmaq"

end BinaryOp

namespace UnaryOp

/-- `inv` changes the sign; `neg` is the logical complement of 0 and 1, extended to all words. -/
def apply : UnaryOp → Word → Word
  | .inv, a => -a
  | .neg, a => 1 - a

def name : UnaryOp → String
  | .inv => "Inv"
  | .neg => "Neg"

end UnaryOp

/-! ## Operations -/

/-- A decoded instruction. Addresses and counts are the words the operands spell; whether they
make sense is found out when the operation is executed. -/
inductive Operation
  /-- Push a constant. -/
  | ldc (value : Word)
  /-- Push the value of a cell. -/
  | ldv (address : Word)
  | binary (op : BinaryOp)
  | unary (op : UnaryOp)
  /-- Pop into a cell. -/
  | str (address : Word)
  /-- Push an answer from the device. -/
  | rd
  /-- Pop and hand the value to the device. -/
  | prn
  /-- Push the program counter and continue at a label. -/
  | call (label : String)
  /-- Pop the program counter. -/
  | ret
  | jmp (label : String)
  /-- Pop, and continue at a label if the value was zero. -/
  | jmpf (label : String)
  /-- Push the values of the cells `base`, `base + 1`, …, `count` of them. -/
  | alloc (base count : Word)
  /-- Pop `count` values into the cells from `base + count - 1` down to `base`. -/
  | dalloc (base count : Word)
  | hlt
  | nop
  deriving DecidableEq, Repr

/-- The notation of an operation in traces and logs. -/
def Operation.text : Operation → String
  | .ldc v => "Ldc(" ++ Decimal.ofWord v ++ ")"
  | .ldv a => "Ldv(" ++ Decimal.ofWord a ++ ")"
  | .binary o => "Binary(" ++ o.name ++ ")"
  | .unary o => "Unary(" ++ o.name ++ ")"
  | .str a => "Str(" ++ Decimal.ofWord a ++ ")"
  | .rd => "Rd"
  | .prn => "Prn"
  | .call l => "Call(" ++ Text.quoted l ++ ")"
  | .ret => "Return"
  | .jmp l => "Jmp(" ++ Text.quoted l ++ ")"
  | .jmpf l => "Jmpf(" ++ Text.quoted l ++ ")"
  | .alloc b n => block "Alloc" b n
  | .dalloc b n => block "Dalloc" b n
  | .hlt => "Hlt"
  | .nop => "Nop"
where
  block (name : String) (base count : Word) : String :=
    name ++ " \x7b base: " ++ Decimal.ofWord base ++ ", count: " ++ Decimal.ofWord count ++ " \x7d"

end StackMachine
