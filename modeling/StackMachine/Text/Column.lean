/-
Text set in columns. Widths count characters; a text wider than its column is kept whole.
-/
import StackMachine.Text.Decimal

namespace StackMachine.Text

/-- `s` at the left of a column of the given width. -/
def column (width : Nat) (s : String) : String := String.ofList (s.toList.rightpad width ' ')

/-- `n` with leading zeros up to the given width. -/
def zeroFilled (width n : Nat) : String :=
  String.ofList ((Decimal.ofNat n).toList.leftpad width '0')

end StackMachine.Text
