import LineMachine.Cell
import LineMachine.Opcode
import LineMachine.Stack
import LineMachine.Memory
import LineMachine.Sink
import LineMachine.Fault
import LineMachine.Machine.Basic
import LineMachine.Machine.Dispatch
import LineMachine.Machine.Step
import LineMachine.Journal
import LineMachine.Trace
import LineMachine.Numeral
import LineMachine.Source.Line
import LineMachine.Source.Word
import LineMachine.Source.Listing
import LineMachine.Case.Basic
import LineMachine.Case.Verdict
import LineMachine.Case.Report
import LineMachine.Files
import LineMachine.CommandLine.Options
import LineMachine.CommandLine.Usage
import LineMachine.CommandLine.Session
import LineMachine.Main
import LineMachine.Proofs.ProgramMemory
import LineMachine.Proofs.Control
import LineMachine.Proofs.Runs
import LineMachine.Proofs.Erasure
import LineMachine.Proofs.Trials
import LineMachine.Proofs.ReturnAddresses
import LineMachine.Proofs.Nesting
import LineMachine.Proofs.StackFrame
import LineMachine.Proofs.Sentinel
import LineMachine.Proofs.FailingSteps
import LineMachine.Proofs.ProgramRuns
import LineMachine.Proofs.Drivers
import LineMachine.Proofs.WrittenNumbers
import LineMachine.Proofs.Readings
import LineMachine.Proofs.SpacedWords
import LineMachine.Proofs.ProgramLines
import LineMachine.Proofs.WrittenLines
import LineMachine.Proofs.Layout
import LineMachine.Proofs.Directives
import LineMachine.Proofs.Refusals
import LineMachine.Proofs.Malformed
import LineMachine.Proofs.Grammar
import LineMachine.Proofs.ParsingExpressions
import LineMachine.Proofs.NumberedLines
import LineMachine.Proofs.FirstFault
import LineMachine.Proofs.CompileLog
import LineMachine.Proofs.Arithmetic
import LineMachine.Proofs.Postfix
import LineMachine.Proofs.Division
import LineMachine.Proofs.CountedLoops
import LineMachine.Proofs.EmittedOutput
import LineMachine.Proofs.StepLimits
import LineMachine.Proofs.Branches
import LineMachine.Proofs.Underflow
import LineMachine.Proofs.Descents
import LineMachine.Proofs.Effects
import LineMachine.Proofs.Inlining
import LineMachine.Proofs.Tracing
import LineMachine.Proofs.CaseLayout
import LineMachine.Proofs.LineEnds
import LineMachine.Proofs.CaseDefects
import LineMachine.Proofs.CaseBlocks
import LineMachine.Proofs.OutputFrame
import LineMachine.Proofs.Turns
import LineMachine.Proofs.Streams
import LineMachine.Proofs.Reports
import LineMachine.Proofs.TestRuns
import LineMachine.Proofs.PushedNumbers
import LineMachine.Proofs.CaseNumbers
import LineMachine.Proofs.Loading
