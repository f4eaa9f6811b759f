/-
Text in quotes, as messages show it: a few control characters, the quote and the backslash have
short escapes, and a character that would not show by itself is given by its code point.
-/
import StackMachine.Text.Combining
import StackMachine.Text.Unprintable

namespace StackMachine.Text

def inRanges (ranges : List (Nat × Nat)) (n : Nat) : Bool :=
  ranges.any fun (lo, hi) => lo ≤ n && n ≤ hi

/-- Whether a character shows by itself: it has a printed form and does not attach to its
neighbour. The printable ASCII characters are settled without the tables. -/
def isVisible (c : Char) : Bool :=
  let n := c.toNat
  (0x20 ≤ n && n ≤ 0x7e) || !(inRanges combiningRanges n || inRanges unprintableRanges n)

/-- A character as it stands between the quotes. -/
def escaped : Char → List Char
  | '\x00' => ['\\', '0']
  | '\t' => ['\\', 't']
  | '\r' => ['\\', 'r']
  | '\n' => ['\\', 'n']
  | '"' => ['\\', '"']
  | '\\' => ['\\', '\\']
  | c =>
    if isVisible c then [c]
    else ['\\', 'u', '\x7b'] ++ Nat.toDigits 16 c.toNat ++ ['\x7d']

/-- The text in double quotes. -/
def quoted (s : String) : String := String.ofList ('"' :: s.toList.flatMap escaped ++ ['"'])

end StackMachine.Text
