/-
Why text cannot be read from a file or a stream, in the words of the system.
-/
namespace StackMachine

inductive ReadError
  | notFound
  | notADirectory
  | isADirectory
  | notUtf8
  /-- Any other reason, with the text for it. -/
  | other (text : String)
  deriving DecidableEq, Repr

def ReadError.message : ReadError → String
  | .notFound => "No such file or directory (os error 2)"
  | .notADirectory => "Not a directory (os error 20)"
  | .isADirectory => "Is a directory (os error 21)"
  | .notUtf8 => "stream did not contain valid UTF-8"
  | .other text => text

end StackMachine
