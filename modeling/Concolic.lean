import Concolic.Assignment
import Concolic.Batch
import Concolic.BatchReport
import Concolic.CommandLine.Inspection
import Concolic.CommandLine.Invocation
import Concolic.CommandLine.Printout
import Concolic.CommandLine.Task
import Concolic.CommandLine.Tool
import Concolic.CommandLine.Usage
import Concolic.Configuration
import Concolic.Coverage.Analysis
import Concolic.Coverage.Collector
import Concolic.Coverage.Measurement
import Concolic.Coverage.Report
import Concolic.Coverage.Summary
import Concolic.Difference
import Concolic.Directory
import Concolic.Engine
import Concolic.Escape
import Concolic.Event
import Concolic.Failure
import Concolic.Fault
import Concolic.Json.Decode
import Concolic.Json.Printer
import Concolic.Json.Reader
import Concolic.Json.Token
import Concolic.Json.Value
import Concolic.Keyed
import Concolic.Main
import Concolic.Proofs.Agreement
import Concolic.Proofs.Naming
import Concolic.Proofs.RunTrace
import Concolic.Proofs.Utf8
import Concolic.Record.Message
import Concolic.Record.TestCase
import Concolic.Request
import Concolic.Run
import Concolic.Stream.CaseFile
import Concolic.Stream.Feed
import Concolic.Stream.Frame
import Concolic.Stream.Sink
import Concolic.Test.Body
import Concolic.Test.Exploration
import Concolic.Test.Replay
import Concolic.Text.Blank
import Concolic.Text.Cut
import Concolic.Text.Decimal
import Concolic.Text.Hex
import Concolic.Text.Hidden
import Concolic.Text.Interval
import Concolic.Text.Lines
import Concolic.Text.Quoted
import Concolic.Text.Utf8
import Concolic.Text.Word32
import Concolic.Value
import Concolic.VarName
import Concolic.Wire.Field
import Concolic.Wire.Key
import Concolic.Wire.Skip
import Concolic.Wire.Varint
import Concolic.Proofs.RecordCodec
import Concolic.Proofs.Delivery
import Concolic.Proofs.CaseStream
import Concolic.Proofs.PanickingEngine
import Concolic.Proofs.EngineProtocol
import Concolic.Proofs.BatchHistory
import Concolic.Proofs.CoverageProtocol
import Concolic.Proofs.BatchLedger
import Concolic.Proofs.Accounting
import Concolic.Proofs.Isolation
import Concolic.Proofs.DecimalText
import Concolic.Proofs.ReplayInputs
import Concolic.Proofs.Repacking
import Concolic.Proofs.TornFile
import Concolic.Proofs.Spelling
import Concolic.Proofs.Concatenation
import Concolic.Proofs.PrintedReport
import Concolic.Proofs.Dispatch
import Concolic.Proofs.InspectedReplay
import Concolic.Proofs.NameGrammar
import Concolic.Proofs.AssignmentEntries
import Concolic.Proofs.EntryCodec
import Concolic.Proofs.Pattern
import Concolic.Proofs.SummaryGrammar
import Concolic.Proofs.SummaryTable
import Concolic.Proofs.Reconciliation
import Concolic.Proofs.ReplayCourse
import Concolic.Proofs.LineChanges
import Concolic.Proofs.LineEndings
import Concolic.Proofs.Acquisition
import Concolic.Proofs.PanicGuard
import Concolic.Proofs.IntegerText
import Concolic.Proofs.FailureKind
import Concolic.Proofs.JsonText
import Concolic.Proofs.CaseText
import Concolic.Proofs.RefusedRecord
import Concolic.Proofs.InspectedLines
import Concolic.Proofs.ValueText
import Concolic.Proofs.ArgumentGrammar
import Concolic.Proofs.AcceptedArguments
import Concolic.Proofs.HarnessArguments
