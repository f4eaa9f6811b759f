/-
Programs, and reading them from object code. Object code is text with one instruction on a line,
in four columns: label (4 characters), opcode (8), first operand (4), second operand (4). Blank
lines mean nothing; any other line shorter than the four columns is skipped and accounted for;
what follows the columns is ignored. No field is checked here: an instruction that makes no sense
fails when it is executed.
-/
import StackMachine.Labels
import StackMachine.Text.Blank

namespace StackMachine

/-- A line too short to hold an instruction: its number, from 1, and its length in characters. -/
structure SkippedLine where
  line : Nat
  length : Nat
  deriving DecidableEq, Repr

structure Program where
  instructions : List Instruction := []
  skipped : List SkippedLine := []
  deriving DecidableEq, Repr

namespace Program

def size (p : Program) : Nat := p.instructions.length

def isEmpty (p : Program) : Bool := p.instructions.isEmpty

def get? (p : Program) (place : Nat) : Option Instruction := p.instructions[place]?

/-- The labels that the program's instructions declare. -/
def labels (p : Program) : Labels := .ofInstructions p.instructions

end Program

/-! ## Object code -/

/-- What a line of object code holds. -/
inductive Line
  | blank
  | short (length : Nat)
  | instruction (i : Instruction)
  deriving DecidableEq, Repr

namespace Line

/-- The width of the four columns together. -/
def width : Nat := 20

/-- The text of a column, without surrounding white space. -/
def field (cs : List Char) (start length : Nat) : String :=
  String.ofList (Text.trim ((cs.drop start).take length))

def read (cs : List Char) : Line :=
  if cs.all Text.isBlank then .blank
  else if cs.length < width then .short cs.length
  else .instruction ⟨field cs 0 4, field cs 4 8, field cs 12 4, field cs 16 4⟩

def instruction? : Line → Option Instruction
  | .instruction i => some i
  | _ => none

def shortLength? : Line → Option Nat
  | .short n => some n
  | _ => none

end Line

/-- The line of object code that holds an instruction. -/
def Instruction.line (i : Instruction) : String :=
  Text.column 4 i.label ++ Text.column 8 i.opcode ++ Text.column 4 i.operand1 ++
    Text.column 4 i.operand2

/-- The program that object code holds. -/
def Program.ofText (text : String) : Program :=
  let lines := (text.toList.splitOn '\n').map Line.read
  { instructions := lines.filterMap Line.instruction?
    skipped := (lines.zipIdx 1).filterMap fun (l, n) => l.shortLength?.map (⟨n, ·⟩) }

end StackMachine
