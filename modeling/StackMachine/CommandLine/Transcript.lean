/-
Transcripts: what a command writes, and how it exits. 0 is success, 1 a run that ended in a fault,
2 a file that could not be loaded or arguments that ask for nothing.
-/
import StackMachine.CommandLine.Console
import StackMachine.ObjectFile
import StackMachine.Program.Insights
import StackMachine.Program.Listing
import StackMachine.Report
import StackMachine.Session

namespace StackMachine

/-! ## Forms of output -/

def TraceEntry.toJson (e : TraceEntry) : Json :=
  .ofMembers [("step", .ofNat e.step), ("pc", .ofInt e.pc), ("op", .ofString e.operation.text),
    ("sp_after", .ofInt e.sp), ("note", .ofOption (e.note.map Note.text))]

namespace Insights

def toJson (i : Insights) : Json :=
  .ofMembers [("instructions", .ofNat i.instructions), ("labels", .ofNat i.labels),
    ("calls", .ofNat i.calls), ("allocated_cells", .ofInt i.allocatedCells.toInt),
    ("reads", .ofNat i.reads), ("prints", .ofNat i.prints),
    ("skipped_lines", .ofNat i.skippedLines)]

/-- One count on a line; skipped lines are mentioned only if there are some. -/
def lines (i : Insights) : List String :=
  ["instructions:    " ++ Decimal.ofNat i.instructions,
    "labels:          " ++ Decimal.ofNat i.labels,
    "calls:           " ++ Decimal.ofNat i.calls,
    "allocated cells: " ++ Decimal.ofWord i.allocatedCells,
    "reads:           " ++ Decimal.ofNat i.reads,
    "prints:          " ++ Decimal.ofNat i.prints] ++
  if i.skippedLines = 0 then [] else ["skipped lines:   " ++ Decimal.ofNat i.skippedLines]

end Insights

/-- Lines as text: a newline after each. -/
def textOfLines (lines : List String) : String := String.join (lines.map (· ++ "\n"))

/-! ## Transcripts -/

structure Transcript where
  exit : UInt8 := 0
  stdout : String := ""
  stderr : String := ""
  deriving DecidableEq, Repr

namespace Transcript

def ofLoadError (e : LoadError) : Transcript where
  exit := 2
  stderr := "error: loading " ++ e.path ++ ": " ++ e.message ++ ": " ++ e.cause.message ++ "\n"

def ofInsights (i : Insights) (json : Bool) : Transcript where
  stdout := textOfLines (if json then [i.toJson.pretty] else i.lines)

/-- The line that tells of a fault and its place. -/
def faultLines (o : Outcome) : List String :=
  o.ending.fault?.toList.map fun f =>
    "Error: " ++ f.message ++ " (at instruction " ++ Decimal.ofInt o.pc ++ ")"

/-- The end of a run: what the console still holds, the trace, and the report or the fault. -/
def ofRun (json : Bool) (o : Outcome) (console : Console) : Transcript where
  exit := if o.isSuccess then 0 else 1
  stdout := console.written ++ textOfLines (if json then [o.report.toJson.pretty] else [])
  stderr := textOfLines
    (o.trace.toList.map (·.toJson.compact) ++ if json then [] else faultLines o)

end Transcript

/-! ## Commands at work -/

/-- What is left to do for a command once its file has been looked at. -/
inductive Job
  | done (t : Transcript)
  | run (json : Bool) (session : Session Console)

/-- Sets about a command: `environment` is what the environment says, `program` what loading the
file led to, and `input` the terminal's input so far. -/
def Command.start (c : Command) (environment : Settings) (program : Except LoadError Program)
    (input : List UInt8) (closed : Bool) : Job :=
  match program with
  | .error e => .done (.ofLoadError e)
  | .ok p =>
    match c with
    | .list _ => .done { stdout := p.listing }
    | .insights _ json => .done (.ofInsights p.insights json)
    | .run _ o => .run o.json (.create (o.settings environment) p (.create o input closed))

end StackMachine
