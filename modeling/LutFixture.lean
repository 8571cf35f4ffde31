import LutFixture.Bench
import LutFixture.Bench.Command
import LutFixture.Bench.Sweep
import LutFixture.Binary64
import LutFixture.Binary64.Shortest
import LutFixture.Bits
import LutFixture.CommandLine.Arguments
import LutFixture.CommandLine.Execute
import LutFixture.CommandLine.Operand
import LutFixture.Configuration
import LutFixture.Configuration.JsonText
import LutFixture.Counters
import LutFixture.Directory
import LutFixture.Event
import LutFixture.Fault
import LutFixture.File
import LutFixture.Json.Collection
import LutFixture.Json.Fault
import LutFixture.Json.Numeral
import LutFixture.Json.Printer
import LutFixture.Json.Reader
import LutFixture.Json.Scalar
import LutFixture.Json.Skip
import LutFixture.Json.String
import LutFixture.Json.Value
import LutFixture.Json.Word
import LutFixture.Log
import LutFixture.Main
import LutFixture.Pattern
import LutFixture.Placement
import LutFixture.Proofs.Applied
import LutFixture.Proofs.ArgumentRules
import LutFixture.Proofs.BitString
import LutFixture.Proofs.BlockCalls
import LutFixture.Proofs.CommandReading
import LutFixture.Proofs.CommandWords
import LutFixture.Proofs.Commands
import LutFixture.Proofs.ConfigurationJson
import LutFixture.Proofs.CounterBounds
import LutFixture.Proofs.Counting
import LutFixture.Proofs.EdgeHistory
import LutFixture.Proofs.ExitStatus
import LutFixture.Proofs.History
import LutFixture.Proofs.InitWord
import LutFixture.Proofs.Json.Compact
import LutFixture.Proofs.Json.Meaning
import LutFixture.Proofs.Json.Record
import LutFixture.Proofs.Json.Skip
import LutFixture.Proofs.Json.Spelling
import LutFixture.Proofs.Json.StringReading
import LutFixture.Proofs.LatchLog
import LutFixture.Proofs.LineFault
import LutFixture.Proofs.LineLayout
import LutFixture.Proofs.LineText
import LutFixture.Proofs.Load
import LutFixture.Proofs.Observation
import LutFixture.Proofs.PackedRegister
import LutFixture.Proofs.PatternMachine
import LutFixture.Proofs.PatternOperand
import LutFixture.Proofs.RegisterRun
import LutFixture.Proofs.RegisterText
import LutFixture.Proofs.Report
import LutFixture.Proofs.ReportSections
import LutFixture.Proofs.Reset
import LutFixture.Proofs.RunOutput
import LutFixture.Proofs.Settling
import LutFixture.Proofs.ShiftRegister
import LutFixture.Proofs.StimulusFile
import LutFixture.Proofs.StimulusJson
import LutFixture.Proofs.StimulusRun
import LutFixture.Proofs.Sweep
import LutFixture.Proofs.Synchronisation
import LutFixture.Proofs.TraceReplay
import LutFixture.Proofs.Transparency
import LutFixture.Proofs.Words
import LutFixture.Registers
import LutFixture.Report
import LutFixture.Sample
import LutFixture.Session
import LutFixture.ShiftRegister
import LutFixture.Step
import LutFixture.Stimulus
import LutFixture.Stimulus.BitString
import LutFixture.Stimulus.JsonText
import LutFixture.Stimulus.LineText
import LutFixture.SweepReport
import LutFixture.Text.Blank
import LutFixture.Text.GraphemeExtend
import LutFixture.Text.Natural
import LutFixture.Text.Pieces
import LutFixture.Text.Printable
import LutFixture.Text.Quoted
import LutFixture.Text.Ranges
import LutFixture.TraceRecord
import LutFixture.TruthTable
