/-
The command line at work: reads the object file and the environment, runs the command, and hands
lines of input to a run as it asks for them.
-/
import StackMachine.CommandLine.Transcript

namespace StackMachine

def readObjectFile (path : String) : IO (Except ReadError ByteArray) := do
  try
    return .ok (← IO.FS.readBinFile path)
  catch e =>
    return .error <| match e with
      | .noFileOrDirectory .. => .notFound
      | .inappropriateType _ 21 _ => .isADirectory
      | .inappropriateType .. => .notADirectory
      | e => .other (toString e)

def readSettings : IO Settings := do
  let values ← Settings.names.mapM fun name => do
    return (name, (← IO.getEnv name).map String.toUTF8)
  return .ofEnvironment fun name => (values.lookup name).join

/-- Runs to the end. What has been written is shown before each wait for input. -/
partial def runSession (json : Bool) (s : Session Console) : IO Transcript := do
  let (progress, s) := s.run 1000000
  match progress with
  | .ended o => return .ofRun json o s.device
  | .running | .waiting =>
    let (text, console) := s.device.flush
    let stdout ← IO.getStdout
    stdout.putStr text
    stdout.flush
    match progress with
    | .waiting =>
      let bytes ← (← IO.getStdin).read 1
      let console := if bytes.isEmpty then console.close else console.feed bytes.toList
      runSession json { s with device := console }
    | _ => runSession json { s with device := console }

def showTranscript (t : Transcript) : IO UInt32 := do
  (← IO.getStdout).putStr t.stdout
  (← IO.getStderr).putStr t.stderr
  return t.exit.toUInt32

end StackMachine

open StackMachine in
def main (args : List String) : IO UInt32 := do
  match Command.ofArguments? args with
  | none =>
    (← IO.getStderr).putStrLn
      "usage: run FILE [-i ANSWERS] [--memory N] [--max-steps N] [--trace] [--json] | disasm FILE | insights FILE [--json]"
    return 2
  | some command =>
    let program := Program.ofFile command.file (← readObjectFile command.file)
    match command.start (← readSettings) program [] false with
    | .done t => showTranscript t
    | .run json s => showTranscript (← runSession json s)
