/-
Commands: what the arguments of a command line ask for. Arguments are options, option values and
operands; each command knows which options it takes, takes every one but `--input` at most once,
and wants exactly one operand, the object file.
-/
import StackMachine.Settings

namespace StackMachine

/-! ## Arguments -/

/-- The options of a command, by their long names. -/
structure OptionNames where
  /-- Options without a value. -/
  flags : List String := []
  /-- Options with a value. -/
  valued : List String := []
  /-- One-letter names of options with a value. -/
  letters : List (Char × String) := []

/-- An argument understood. -/
inductive Token
  | flag (name : String)
  | option (name value : String)
  | operand (text : String)
  deriving DecidableEq, Repr

namespace Token

/-- Whether an argument has the look of an option, so that it is neither a value nor an operand.
A single dash has not. -/
def looksLikeOption (arg : String) : Bool := arg.startsWith "-" && arg ≠ "-"

/-- The name and the value in `name=value`. -/
def splitValue (cs : List Char) : String × Option String :=
  let name := String.ofList (cs.takeWhile (· != '='))
  match cs.dropWhile (· != '=') with
  | [] => (name, none)
  | _ :: value => (name, some (String.ofList value))

/-- The name of the option that an argument `--name`, `--name=value`, `-l`, `-lvalue` or `-l=value`
gives, and the value in it, if it has one. -/
def optionOf? (names : OptionNames) (arg : String) : Option (String × Option String) :=
  match arg.toList with
  | '-' :: '-' :: rest => some (splitValue rest)
  | '-' :: letter :: rest => do
    let name ← names.letters.lookup letter
    match rest with
    | [] => return (name, none)
    | '=' :: value => return (name, some (String.ofList value))
    | value => return (name, some (String.ofList value))
  | _ => none

/-- The arguments of a command, understood; `--` makes operands of all that follow it. -/
def scan? (names : OptionNames) : List String → Option (List Token)
  | [] => some []
  | arg :: args =>
    if arg = "--" then some (args.map .operand)
    else if looksLikeOption arg then do
      let (name, value) ← optionOf? names arg
      if names.flags.contains name then
        guard value.isNone
        return .flag name :: (← scan? names args)
      else
        guard (names.valued.contains name)
        match value, args with
        | some value, args => return .option name value :: (← scan? names args)
        | none, value :: args =>
          guard !looksLikeOption value
          return .option name value :: (← scan? names args)
        | none, [] => none
    else return .operand arg :: (← scan? names args)

/-- Whether a flag is given; not understood if it is given twice. -/
def flag? (tokens : List Token) (name : String) : Option Bool :=
  match tokens.count (.flag name) with
  | 0 => some false
  | 1 => some true
  | _ => none

/-- The values of an option, in order. -/
def values (tokens : List Token) (name : String) : List String :=
  tokens.filterMap fun
    | .option n v => if n = name then some v else none
    | _ => none

/-- The number an option gives, if it is given; not understood if it is given twice or is none. -/
def number? (tokens : List Token) (name : String) : Option (Option Nat) :=
  match values tokens name with
  | [] => some none
  | [v] => (Decimal.count? v).map some
  | _ => none

/-- The only operand, which names a file. -/
def file? (tokens : List Token) : Option String :=
  match tokens.filterMap fun | .operand text => some text | _ => none with
  | [file] => if file.isEmpty then none else some file
  | _ => none

end Token

/-! ## Commands -/

structure RunOptions where
  /-- Answers to use in place of the terminal's input. -/
  input : Option (List String) := none
  memory : Option Nat := none
  maxSteps : Option Nat := none
  trace : Bool := false
  json : Bool := false
  deriving DecidableEq, Repr

inductive Command
  | run (file : String) (options : RunOptions)
  | list (file : String)
  | insights (file : String) (json : Bool)
  deriving DecidableEq, Repr

namespace Command

def file : Command → String
  | .run file _ | .list file | .insights file _ => file

/-- The answers in the values of `--input`, if it is given: each value is cut at its commas. -/
def answers? (values : List String) : Option (List String) :=
  if values.isEmpty then none
  else some (values.flatMap fun v => (v.toList.splitOn ',').map String.ofList)

/-- The command that the arguments ask for, if they ask for one. -/
def ofArguments? : List String → Option Command
  | "run" :: args => do
    let tokens ← Token.scan?
      { flags := ["trace", "json"]
        valued := ["input", "memory", "max-steps"]
        letters := [('i', "input")] } args
    return .run (← Token.file? tokens)
      { input := answers? (Token.values tokens "input")
        memory := ← Token.number? tokens "memory"
        maxSteps := ← Token.number? tokens "max-steps"
        trace := ← Token.flag? tokens "trace"
        json := ← Token.flag? tokens "json" }
  | "disasm" :: args => do
    let tokens ← Token.scan? {} args
    return .list (← Token.file? tokens)
  | "insights" :: args => do
    let tokens ← Token.scan? { flags := ["json"] } args
    return .insights (← Token.file? tokens) (← Token.flag? tokens "json")
  | _ => none

end Command

/-- The settings of a run: options come before what the environment says. -/
def RunOptions.settings (o : RunOptions) (environment : Settings) : Settings where
  memory := o.memory.getD environment.memory
  stepLimit := o.maxSteps.or environment.stepLimit
  trace := environment.trace || o.trace

end StackMachine
