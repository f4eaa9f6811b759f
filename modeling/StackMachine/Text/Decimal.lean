/-
Integers written in decimal: an optional sign, then at least one ASCII digit, and nothing else.
Reading is exact and bounded by the width of the type read; writing uses no sign for
non-negative numbers and no leading zeros.
-/
import StackMachine.Word

namespace StackMachine.Decimal

/-! ## Reading -/

/-- The number that a non-empty run of digits denotes. -/
def digits? (cs : List Char) : Option Nat :=
  if cs ≠ [] ∧ cs.all Char.isDigit then some (Nat.ofDigitChars 10 cs 0) else none

/-- A numeral without a minus sign. -/
def nat? : List Char → Option Nat
  | '+' :: cs => digits? cs
  | cs => digits? cs

/-- A numeral with an optional sign. -/
def int? : List Char → Option Int
  | '-' :: cs => (digits? cs).map fun n => -(n : Int)
  | cs => (nat? cs).map fun n => (n : Int)

/-- A signed numeral within the range of a word. -/
def word? (s : String) : Option Word := (int? s.toList).bind Word.ofInt?

/-- An unsigned numeral of at most 64 bits. -/
def count? (s : String) : Option Nat := (nat? s.toList).filter (· < 18446744073709551616)

/-! ## Writing -/

def ofNat (n : Nat) : String := String.ofList (Nat.toDigits 10 n)

def ofInt : Int → String
  | .ofNat n => ofNat n
  | .negSucc n => "-" ++ ofNat (n + 1)

def ofWord (w : Word) : String := ofInt w.toInt

end StackMachine.Decimal
