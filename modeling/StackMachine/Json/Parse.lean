/-
Reading JSON text, and reading what a JSON string says.
-/
import StackMachine.Json

namespace StackMachine.Json

/-! ## What a string says -/

/-- The value of a hexadecimal digit, of either case. -/
def hexDigit? (c : Char) : Option Nat :=
  if '0' ≤ c ∧ c ≤ '9' then some (c.toNat - '0'.toNat)
  else if 'a' ≤ c ∧ c ≤ 'f' then some (c.toNat - 'a'.toNat + 10)
  else if 'A' ≤ c ∧ c ≤ 'F' then some (c.toNat - 'A'.toNat + 10)
  else none

/-- The value of four hexadecimal digits. -/
def hex4? (a b c d : Char) : Option Nat := do
  return 4096 * (← hexDigit? a) + 256 * (← hexDigit? b) + 16 * (← hexDigit? c) + (← hexDigit? d)

/-- The character that a one-letter escape stands for. -/
def shortEscape? : Char → Option Char
  | '"' => some '"'
  | '\\' => some '\\'
  | '/' => some '/'
  | 'b' => some '\x08'
  | 'f' => some '\x0c'
  | 'n' => some '\n'
  | 'r' => some '\r'
  | 't' => some '\t'
  | _ => none

/-- The code units that are the first half of a surrogate pair. -/
def isHigh (n : Nat) : Bool := 0xd800 ≤ n && n ≤ 0xdbff

/-- The code units that are the second half of a surrogate pair. -/
def isLow (n : Nat) : Bool := 0xdc00 ≤ n && n ≤ 0xdfff

/-- The character of a surrogate pair. -/
def ofPair (high low : Nat) : Char :=
  Char.ofNat (0x10000 + (high - 0xd800) * 0x400 + (low - 0xdc00))

/-- What a spelling says. Two escapes that make up a surrogate pair are one character; half a pair
is none. -/
def unspell? : List Char → Option (List Char)
  | [] => some []
  | c :: rest =>
    if c ≠ '\\' then (unspell? rest).map (c :: ·)
    else
      match rest with
      | [] => none
      | e :: rest =>
        if e ≠ 'u' then (shortEscape? e).bind fun c => (unspell? rest).map (c :: ·)
        else
          match rest with
          | a :: b :: c :: d :: rest =>
            (hex4? a b c d).bind fun n =>
              if isLow n then none
              else if isHigh n then
                match rest with
                | '\\' :: 'u' :: a :: b :: c :: d :: rest =>
                  (hex4? a b c d).bind fun low =>
                    if isLow low then (unspell? rest).map (ofPair n low :: ·) else none
                | _ => none
              else (unspell? rest).map (Char.ofNat n :: ·)
          | _ => none

def text? (spelling : List Char) : Option String := (unspell? spelling).map String.ofList

/-! ## Tokens -/

/-- The white space of JSON. -/
def isSpace (c : Char) : Bool := c == ' ' || c == '\n' || c == '\t' || c == '\r'

def skipSpace (cs : List Char) : List Char := cs.dropWhile isSpace

/-- The rest of a string after its opening quote: its spelling, and what follows its closing quote.
Escapes have to be complete; control characters have to be escaped. -/
def scanString? : List Char → Option (List Char × List Char)
  | [] => none
  | '"' :: rest => some ([], rest)
  | '\\' :: 'u' :: a :: b :: c :: d :: rest => do
    let _ ← hex4? a b c d
    let (spelling, rest) ← scanString? rest
    return ('\\' :: 'u' :: a :: b :: c :: d :: spelling, rest)
  | '\\' :: c :: rest => do
    let _ ← shortEscape? c
    let (spelling, rest) ← scanString? rest
    return ('\\' :: c :: spelling, rest)
  | c :: rest => do
    guard (c ≠ '\\' ∧ 0x20 ≤ c.toNat)
    let (spelling, rest) ← scanString? rest
    return (c :: spelling, rest)

/-- A run of digits, at least one. -/
def scanDigits? (cs : List Char) : Option (List Char × List Char) :=
  let digits := cs.takeWhile Char.isDigit
  if digits.isEmpty then none else some (digits, cs.dropWhile Char.isDigit)

/-- The whole part of a number: a zero stands alone. -/
def scanWhole? : List Char → Option (List Char × List Char)
  | '0' :: rest => some (['0'], rest)
  | cs => scanDigits? cs

/-- The places of a number, if it has any. -/
def scanPlaces? : List Char → Option (List Char × List Char)
  | '.' :: rest => do
    let (digits, rest) ← scanDigits? rest
    return ('.' :: digits, rest)
  | cs => some ([], cs)

/-- The exponent of a number, if it has one. -/
def scanExponent? : List Char → Option (List Char × List Char)
  | mark :: rest =>
    if mark == 'e' || mark == 'E' then
      let (sign, rest) := match rest with
        | '+' :: rest => (['+'], rest)
        | '-' :: rest => (['-'], rest)
        | rest => ([], rest)
      do
        let (digits, rest) ← scanDigits? rest
        return (mark :: sign ++ digits, rest)
    else some ([], mark :: rest)
  | [] => some ([], [])

def scanNumber? (cs : List Char) : Option (List Char × List Char) := do
  let (sign, cs) := match cs with
    | '-' :: rest => (['-'], rest)
    | cs => ([], cs)
  let (whole, cs) ← scanWhole? cs
  let (places, cs) ← scanPlaces? cs
  let (exponent, cs) ← scanExponent? cs
  return (sign ++ whole ++ places ++ exponent, cs)

/-! ## Values -/

mutual

/-- A value and what follows it. Every call uses up a unit of fuel. -/
def scanValue? : Nat → List Char → Option (Json × List Char)
  | 0, _ => none
  | n + 1, cs =>
    match skipSpace cs with
    | 'n' :: 'u' :: 'l' :: 'l' :: rest => some (.null, rest)
    | 't' :: 'r' :: 'u' :: 'e' :: rest => some (.bool true, rest)
    | 'f' :: 'a' :: 'l' :: 's' :: 'e' :: rest => some (.bool false, rest)
    | '"' :: rest => do
      let (spelling, rest) ← scanString? rest
      return (.string spelling, rest)
    | '[' :: rest =>
      match skipSpace rest with
      | ']' :: rest => some (.array [], rest)
      | rest => do
        let (items, rest) ← scanItems? n rest
        return (.array items, rest)
    | '\x7b' :: rest =>
      match skipSpace rest with
      | '\x7d' :: rest => some (.object [], rest)
      | rest => do
        let (members, rest) ← scanMembers? n rest
        return (.object members, rest)
    | cs => do
      let (spelling, rest) ← scanNumber? cs
      return (.number spelling, rest)

/-- The items of an array that has some, up to and including its closing bracket. -/
def scanItems? : Nat → List Char → Option (List Json × List Char)
  | 0, _ => none
  | n + 1, cs => do
    let (v, rest) ← scanValue? n cs
    match skipSpace rest with
    | ',' :: rest =>
      let (vs, rest) ← scanItems? n rest
      return (v :: vs, rest)
    | ']' :: rest => return ([v], rest)
    | _ => none

/-- The members of an object that has some, up to and including its closing brace. -/
def scanMembers? : Nat → List Char → Option (List (List Char × Json) × List Char)
  | 0, _ => none
  | n + 1, cs =>
    match skipSpace cs with
    | '"' :: rest => do
      let (k, rest) ← scanString? rest
      match skipSpace rest with
      | ':' :: rest =>
        let (v, rest) ← scanValue? n rest
        match skipSpace rest with
        | ',' :: rest =>
          let (ms, rest) ← scanMembers? n rest
          return ((k, v) :: ms, rest)
        | '\x7d' :: rest => return ([(k, v)], rest)
        | _ => none
      | _ => none
    | _ => none

end

/-- The value of a text that holds one value and nothing but white space around it. No call uses
fewer than one character for every two units of fuel. -/
def parse? (text : String) : Option Json := do
  let cs := text.toList
  let (j, rest) ← scanValue? (2 * cs.length + 2) cs
  guard (skipSpace rest).isEmpty
  return j

end StackMachine.Json
