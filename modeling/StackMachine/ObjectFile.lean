/-
Object files: programs read from files.
-/
import StackMachine.Program
import StackMachine.ReadError

namespace StackMachine

/-- A file that could not be loaded. -/
structure LoadError where
  path : String
  cause : ReadError
  deriving DecidableEq, Repr

def LoadError.message (e : LoadError) : String :=
  "cannot read object file " ++ e.path ++ ": " ++ e.cause.message

/-- The program in a file, given what reading the file led to. -/
def Program.ofFile (path : String) (content : Except ReadError ByteArray) :
    Except LoadError Program :=
  match content with
  | .error e => .error ⟨path, e⟩
  | .ok bytes =>
    match String.fromUTF8? bytes with
    | none => .error ⟨path, .notUtf8⟩
    | some text => .ok (.ofText text)

end StackMachine
