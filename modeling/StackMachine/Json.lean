/-
JSON values and their text. Strings and numbers are kept as they are spelled, so that every text
has a value, also one with an escape for half a surrogate pair; what a string says is asked for
separately.
-/
import StackMachine.Text.Decimal

namespace StackMachine

inductive Json
  | null
  | bool (b : Bool)
  /-- A number, as spelled. -/
  | number (spelling : List Char)
  /-- A string, as spelled between its quotes. -/
  | string (spelling : List Char)
  | array (items : List Json)
  /-- An object; keys are as spelled between their quotes. -/
  | object (members : List (List Char × Json))

namespace Json

/-! ## Strings -/

/-- A character as it is spelled in a string: control characters, the quote and the backslash are
escaped, all others stand for themselves. -/
def spellChar : Char → List Char
  | '"' => ['\\', '"']
  | '\\' => ['\\', '\\']
  | '\x08' => ['\\', 'b']
  | '\x0c' => ['\\', 'f']
  | '\n' => ['\\', 'n']
  | '\r' => ['\\', 'r']
  | '\t' => ['\\', 't']
  | c =>
    if c.toNat < 0x20 then
      ['\\', 'u', '0', '0', Nat.digitChar (c.toNat / 16), Nat.digitChar (c.toNat % 16)]
    else [c]

def spell (s : String) : List Char := s.toList.flatMap spellChar

/-- The string that says `s`. -/
def ofString (s : String) : Json := .string (spell s)

def ofOption : Option String → Json
  | some s => ofString s
  | none => .null

def ofInt (i : Int) : Json := .number (Decimal.ofInt i).toList

def ofNat (n : Nat) : Json := .number (Decimal.ofNat n).toList

/-- An object from its keys, in the order given. -/
def ofMembers (members : List (String × Json)) : Json :=
  .object (members.map fun (k, v) => (spell k, v))

/-! ## Text -/

/-- Whether a text is on one line, or has each item and member on a line of its own, indented by
two spaces for each array and object around it. -/
inductive Layout
  | compact
  | indented (depth : Nat)
  deriving DecidableEq, Repr

namespace Layout

/-- The layout inside an array or object. -/
def inner : Layout → Layout
  | .compact => .compact
  | .indented depth => .indented (depth + 1)

def lineBreak : Layout → List Char
  | .compact => []
  | .indented depth => '\n' :: List.replicate (2 * depth) ' '

def colon : Layout → List Char
  | .compact => [':']
  | .indented _ => [':', ' ']

end Layout

def quote (spelling : List Char) : List Char := '"' :: spelling ++ ['"']

mutual

/-- The text of a value. -/
def chars (l : Layout) : Json → List Char
  | .null => ['n', 'u', 'l', 'l']
  | .bool true => ['t', 'r', 'u', 'e']
  | .bool false => ['f', 'a', 'l', 's', 'e']
  | .number spelling => spelling
  | .string spelling => quote spelling
  | .array [] => ['[', ']']
  | .array (v :: vs) => '[' :: itemChars l.inner (v :: vs) ++ l.lineBreak ++ [']']
  | .object [] => ['\x7b', '\x7d']
  | .object (m :: ms) => '\x7b' :: memberChars l.inner (m :: ms) ++ l.lineBreak ++ ['\x7d']

/-- The text of the items of an array. -/
def itemChars (l : Layout) : List Json → List Char
  | [] => []
  | [v] => l.lineBreak ++ chars l v
  | v :: vs => l.lineBreak ++ chars l v ++ ',' :: itemChars l vs

/-- The text of the members of an object. -/
def memberChars (l : Layout) : List (List Char × Json) → List Char
  | [] => []
  | [(k, v)] => l.lineBreak ++ quote k ++ l.colon ++ chars l v
  | (k, v) :: ms => l.lineBreak ++ quote k ++ l.colon ++ chars l v ++ ',' :: memberChars l ms

end

/-- The text on one line. -/
def compact (j : Json) : String := String.ofList (j.chars .compact)

/-- The text on indented lines. -/
def pretty (j : Json) : String := String.ofList (j.chars (.indented 0))

end Json

end StackMachine
