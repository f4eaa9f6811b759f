/-
The instruction set: 28 opcodes, each with the mnemonic that object code spells it by.
-/
namespace StackMachine

/-- The opcodes, in the order of the instruction set's reference list. -/
inductive Opcode
  | ldc | ldv
  | add | sub | mult | divi
  | inv
  | and | or
  | neg
  | cme | cma | ceq | cdif | cmeq | cmaq
  | str
  | rd | prn
  | call | ret
  | jmp | jmpf
  | alloc | dalloc
  | hlt | null | start
  deriving DecidableEq, Repr

namespace Opcode

/-- Every opcode once, in reference order. -/
def all : List Opcode :=
  [.ldc, .ldv, .add, .sub, .mult, .divi, .inv, .and, .or, .neg, .cme, .cma, .ceq, .cdif, .cmeq,
    .cmaq, .str, .rd, .prn, .call, .ret, .jmp, .jmpf, .alloc, .dalloc, .hlt, .null, .start]

def mnemonic : Opcode → String
  | .ldc => "LDC"
  | .ldv => "LDV"
  | .add => "ADD"
  | .sub => "SUB"
  | .mult => "MULT"
  | .divi => "DIVI"
  | .inv => "INV"
  | .and => "AND"
  | .or => "OR"
  | .neg => "NEG"
  | .cme => "CME"
  | .cma => "CMA"
  | .ceq => "CEQ"
  | .cdif => "CDIF"
  | .cmeq => "CMEQ"
  | .cmaq => "CMAQ"
  | .str => "STR"
  | .rd => "RD"
  | .prn => "PRN"
  | .call => "CALL"
  | .ret => "RETURN"
  | .jmp => "JMP"
  | .jmpf => "JMPF"
  | .alloc => "ALLOC"
  | .dalloc => "DALLOC"
  | .hlt => "HLT"
  | .null => "NULL"
  | .start => "START"

/-- The opcode spelled exactly so; case counts. -/
def ofMnemonic? (s : String) : Option Opcode := all.find? (·.mnemonic == s)

/-- Whether the first operand is the label of an instruction to continue at. -/
def takesLabel : Opcode → Bool
  | .call | .jmp | .jmpf => true
  | _ => false

theorem mem_all (o : Opcode) : o ∈ all := by cases o <;> decide

theorem ofMnemonic?_mnemonic (o : Opcode) : ofMnemonic? o.mnemonic = some o := by
  cases o <;> decide

end Opcode

end StackMachine
