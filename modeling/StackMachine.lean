import StackMachine.Word
import StackMachine.Text.Decimal
import StackMachine.Text.Blank
import StackMachine.Text.Column
import StackMachine.Text.Combining
import StackMachine.Text.Unprintable
import StackMachine.Text.Quoted
import StackMachine.Opcode
import StackMachine.Operation
import StackMachine.Instruction
import StackMachine.Fault
import StackMachine.Labels
import StackMachine.Memory
import StackMachine.Program
import StackMachine.Program.Listing
import StackMachine.Program.Insights
import StackMachine.Settings
import StackMachine.ReadError
import StackMachine.Device
import StackMachine.Device.Scripted
import StackMachine.Device.Terminal
import StackMachine.Device.Channel
import StackMachine.Device.Tripwire
import StackMachine.Trace
import StackMachine.Machine
import StackMachine.Outcome
import StackMachine.Log
import StackMachine.Session
import StackMachine.Json
import StackMachine.Json.Parse
import StackMachine.Report
import StackMachine.ObjectFile
import StackMachine.CommandLine.Command
import StackMachine.CommandLine.Console
import StackMachine.CommandLine.Transcript
import StackMachine.Main
import StackMachine.Proofs.Program
import StackMachine.Proofs.Script
import StackMachine.Proofs.Session
import StackMachine.Proofs.Certificate
import StackMachine.Proofs.Run
import StackMachine.Proofs.StepLimit
import StackMachine.Proofs.Request
import StackMachine.Proofs.Process
import StackMachine.Proofs.Bounds
import StackMachine.Proofs.WindDown
import StackMachine.Proofs.Stop
import StackMachine.Proofs.Exchange
import StackMachine.Proofs.Imitation
import StackMachine.Proofs.Interchange
import StackMachine.Proofs.Past
import StackMachine.Proofs.Printed
import StackMachine.Proofs.Trim
import StackMachine.Proofs.Loading
import StackMachine.Proofs.Access
import StackMachine.Proofs.Nesting
import StackMachine.Proofs.Copying
import StackMachine.Proofs.Framing
import StackMachine.Proofs.LineEnding
import StackMachine.Proofs.RoundTrip
import StackMachine.Proofs.Jumps
import StackMachine.Proofs.Listing
import StackMachine.Proofs.Guise
import StackMachine.Proofs.Tracing
import StackMachine.Proofs.Capacity
import StackMachine.Proofs.Answers
import StackMachine.Proofs.Renaming
import StackMachine.Proofs.Reached
import StackMachine.Proofs.Streaming
import StackMachine.Proofs.OutputSide
import StackMachine.Proofs.Extent
import StackMachine.Proofs.Expression
import StackMachine.Proofs.Failure
import StackMachine.Proofs.Balance
import StackMachine.Proofs.Division
import StackMachine.Proofs.Numeral
import StackMachine.Proofs.Lossless
import StackMachine.Proofs.Insights
import StackMachine.Proofs.LabelOrder
import StackMachine.Proofs.Counting
import StackMachine.Proofs.JsonGrammar
import StackMachine.Proofs.Report
