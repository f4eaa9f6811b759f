/-
A terminal: answers are lines of input bytes, prompts and printed values are written out.

A request looks at the stop flag, writes the prompt, reads one line, and looks at the flag again
before it takes the line for an answer. The end of the input, a line that is not UTF-8 and a raised
flag cancel the request. Trouble on the output side never shows in an answer.
-/
import StackMachine.Device

namespace StackMachine

structure Terminal where
  /-- The input that has arrived and is not yet consumed. -/
  input : List UInt8 := []
  /-- Whether no more input will arrive. -/
  closed : Bool := true
  /-- Written before each line is read. -/
  prompt : Option String := none
  /-- Whether prompts and printed values are written at all. -/
  echo : Bool := true
  /-- Why every write fails, if writes fail. -/
  failure : Option String := none
  /-- Why every flush fails, if flushes fail. -/
  flushFailure : Option String := none
  /-- What has been written. -/
  written : String := ""
  /-- Whether a request has got as far as reading its line. -/
  reading : Bool := false
  deriving DecidableEq, Repr

namespace Terminal

def newline : UInt8 := 10

/-- The first line of the input, with its newline if it has one, and what follows it. -/
def cutLine (input : List UInt8) : List UInt8 × List UInt8 :=
  let line := input.takeWhile (· != newline)
  let rest := input.dropWhile (· != newline)
  (line ++ rest.take 1, rest.drop 1)

/-- Nothing is written where writes fail. -/
def write (t : Terminal) (s : String) : Terminal :=
  if t.failure.isSome then t else { t with written := t.written ++ s }

def writePrompt (t : Terminal) : Terminal :=
  match t.prompt with
  | some s => if t.echo then t.write s else t
  | none => t

/-- The answer in a line of input. -/
def readLine (stopped : Bool) (t : Terminal) : Response Terminal Reply :=
  if !t.closed && !t.input.contains newline then { reply := .waiting, device := t }
  else
    let (line, rest) := cutLine t.input
    let t := { t with input := rest, reading := false }
    if line.isEmpty then { reply := .refused .cancelled, device := t }
    else
      match String.fromUTF8? line.toByteArray with
      | none => { reply := .refused .cancelled, device := t, notices := [.readFailed .notUtf8] }
      | some text =>
        { reply := if stopped then .refused .cancelled else .ofAnswer text, device := t }

def ask (stopped : Bool) (t : Terminal) : Response Terminal Reply :=
  if t.reading then t.readLine stopped
  else if stopped then { reply := .refused .cancelled, device := t }
  else { reply := .pending, device := { t.writePrompt with reading := true } }

/-- A flush that fails is mentioned like a write that fails, but the text has been written. -/
def emit (v : Word) (t : Terminal) : Response Terminal Unit :=
  if t.echo then
    let notices := (t.failure <|> t.flushFailure).toList.map .writeFailed
    { reply := (), device := t.write (resultText v ++ "\n"), notices }
  else { reply := (), device := t }

instance : Device Terminal := ⟨ask, emit⟩

/-! ## Input that arrives while the machine runs -/

/-- More input. -/
def feed (t : Terminal) (bytes : List UInt8) : Terminal := { t with input := t.input ++ bytes }

/-- The end of the input. -/
def close (t : Terminal) : Terminal := { t with closed := true }

end Terminal

end StackMachine
