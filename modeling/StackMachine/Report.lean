/-
Reports: the short form of an outcome, and its JSON form.
-/
import StackMachine.Json.Parse
import StackMachine.Outcome

namespace StackMachine

structure Report where
  success : Bool
  /-- The lines of the printed values, joined by newlines. -/
  output : String
  /-- The message of the fault that ended the run. -/
  error : Option String
  deriving DecidableEq, Repr

def Outcome.report (o : Outcome) : Report where
  success := o.isSuccess
  output := "\n".intercalate o.outputLines
  error := o.ending.fault?.map Fault.message

namespace Report

def toJson (r : Report) : Json :=
  .ofMembers [("success", .bool r.success), ("output", .ofString r.output),
    ("error", .ofOption r.error)]

/-! ## Reading -/

def bool? : Json → Option Bool
  | .bool b => some b
  | _ => none

def string? : Json → Option String
  | .string spelling => Json.text? spelling
  | _ => none

def stringOrNull? : Json → Option (Option String)
  | .null => some none
  | j => (string? j).map some

/-- The value of a key, if the key stands exactly once. -/
def single? (members : List (String × Json)) (key : String) : Option Json :=
  match members.filter (·.1 == key) with
  | [(_, v)] => some v
  | _ => none

/-- The value of a key that may be missing; `null` if it is. -/
def atMostOne? (members : List (String × Json)) (key : String) : Option Json :=
  match members.filter (·.1 == key) with
  | [] => some .null
  | [(_, v)] => some v
  | _ => none

/-- A report is an object with its fields as members, in any order and among others, or an array
of its fields. Only the error may be left out, and only of an object. -/
def ofJson? : Json → Option Report
  | .array [success, output, error] => do
    return ⟨← bool? success, ← string? output, ← stringOrNull? error⟩
  | .object members => do
    let members ← members.mapM fun (k, v) => (Json.text? k).map (·, v)
    let success ← (single? members "success").bind bool?
    let output ← (single? members "output").bind string?
    let error ← (atMostOne? members "error").bind stringOrNull?
    return ⟨success, output, error⟩
  | _ => none

def parse? (text : String) : Option Report := (Json.parse? text).bind ofJson?

end Report

end StackMachine
