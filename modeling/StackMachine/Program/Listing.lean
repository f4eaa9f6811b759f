/-
Listings: a program for people to read. One line for each instruction, with its place and, for an
instruction that names a label, the place it leads to; then the labels, then the skipped lines.
-/
import StackMachine.Program

namespace StackMachine

/-- A place in the program, in at least four digits. -/
def placeText (n : Nat) : String := Text.zeroFilled 4 n

/-- The remark after an instruction: the place its label leads to, or that its opcode is none. -/
def Instruction.remark (labels : Labels) (i : Instruction) : String :=
  match Opcode.ofMnemonic? i.opcode with
  | none => "; unknown opcode"
  | some o =>
    if o.takesLabel then
      match labels.get? i.operand1 with
      | some place => "-> " ++ placeText place
      | none => "-> ?"
    else ""

/-- The line of an instruction. Trailing white space is dropped before the remark is added. -/
def Instruction.listed (labels : Labels) (i : Instruction) (place : Nat) : String :=
  let fields := placeText place ++ "  " ++ Text.column 4 i.label ++ " " ++ Text.column 8 i.opcode ++
    " " ++ Text.column 4 i.operand1 ++ " " ++ Text.column 4 i.operand2
  let fields := String.ofList (Text.trimEnd fields.toList)
  let remark := i.remark labels
  if remark.isEmpty then fields else fields ++ "  " ++ remark

namespace Program

def listedInstructions (p : Program) : List String :=
  let labels := p.labels
  if p.isEmpty then ["(empty program)"]
  else p.instructions.zipIdx.map fun (i, place) => i.listed labels place

def listedLabels (p : Program) : List String :=
  p.labels.sorted.map fun (name, place) =>
    "; mark " ++ Text.column 4 name ++ " = " ++ placeText place

def listedSkips (p : Program) : List String :=
  p.skipped.map fun s =>
    "; skipped line " ++ Decimal.ofNat s.line ++ " (" ++ Decimal.ofNat s.length ++ " chars)"

/-- The whole listing; every line of it ends in a newline. -/
def listing (p : Program) : String :=
  String.join ((p.listedInstructions ++ p.listedLabels ++ p.listedSkips).map (· ++ "\n"))

end Program

end StackMachine
