import PerfFormula.CommandLine.Arguments
import PerfFormula.CommandLine.Definitions
import PerfFormula.CommandLine.Log
import PerfFormula.CommandLine.Run
import PerfFormula.Decimal.Digits
import PerfFormula.Decimal.Typed
import PerfFormula.Decimal.Notation
import PerfFormula.Decimal.Reader
import PerfFormula.Decimal.Shortest
import PerfFormula.Document.Basic
import PerfFormula.Document.Json.Error
import PerfFormula.Document.Json.Reader
import PerfFormula.Document.Json.Text
import PerfFormula.Document.Json.Writer
import PerfFormula.Document.Yaml.Cursor
import PerfFormula.Document.Yaml.Error
import PerfFormula.Document.Yaml.Implicit
import PerfFormula.Document.Yaml.Library
import PerfFormula.Document.Yaml.Node
import PerfFormula.Document.Yaml.Reader
import PerfFormula.Document.Yaml.Scalar
import PerfFormula.Document.Yaml.Token
import PerfFormula.Document.Yaml.Writer
import PerfFormula.Evaluation.Call
import PerfFormula.Evaluation.Context
import PerfFormula.Evaluation.FormulaError
import PerfFormula.Evaluation.Meaning
import PerfFormula.Evaluation.Needed
import PerfFormula.Evaluation.Reducible
import PerfFormula.Evaluation.Run
import PerfFormula.Files.Path
import PerfFormula.Files.Tree
import PerfFormula.Formula.Arithmetic
import PerfFormula.Formula.Basic
import PerfFormula.Formula.Derivation
import PerfFormula.Formula.Grammar
import PerfFormula.Formula.Parser
import PerfFormula.Formula.Printer
import PerfFormula.Formula.Recognition
import PerfFormula.Formula.SyntaxError
import PerfFormula.Formula.Token
import PerfFormula.Formula.TokenClass
import PerfFormula.Host.Basic
import PerfFormula.Host.CpuList
import PerfFormula.Host.CpuSpan
import PerfFormula.Host.Machine
import PerfFormula.Libraries.Basic
import PerfFormula.Libraries.Frames
import PerfFormula.Libraries.Yaml
import PerfFormula.Main
import PerfFormula.Metric.Basic
import PerfFormula.Metric.Compute
import PerfFormula.Metric.Entry
import PerfFormula.Metric.Events
import PerfFormula.Metric.Frame
import PerfFormula.Metric.Load
import PerfFormula.Metric.Reach
import PerfFormula.Metric.ScaleNumber
import PerfFormula.Metric.ScalePattern
import PerfFormula.Metric.ScaleUnit
import PerfFormula.Metric.Source
import PerfFormula.Metric.Table
import PerfFormula.Names.IdentifierSet
import PerfFormula.Names.NameMap
import PerfFormula.Names.Registry
import PerfFormula.Proofs.Memory
import PerfFormula.Proofs.SameNumber
import PerfFormula.Samples.Counts
import PerfFormula.Samples.Csv
import PerfFormula.Samples.Sheet
import PerfFormula.Text.Blank
import PerfFormula.Text.DecimalDigit
import PerfFormula.Text.Longest
import PerfFormula.Text.LowerCase
import PerfFormula.Text.Pattern
import PerfFormula.Text.Printable
import PerfFormula.Text.Quoted
import PerfFormula.Proofs.Folding
import PerfFormula.Proofs.Consulted
import PerfFormula.Proofs.Expansion
import PerfFormula.Proofs.Sample
import PerfFormula.Proofs.Sufficiency
import PerfFormula.Proofs.Levels
import PerfFormula.Proofs.Acceptance
import PerfFormula.Proofs.Determination
import PerfFormula.Proofs.Loop
import PerfFormula.Proofs.Cycles
import PerfFormula.Proofs.DepthFirst
import PerfFormula.Proofs.FailedCall
import PerfFormula.Proofs.Renaming
import PerfFormula.Proofs.LaterCalls
import PerfFormula.Proofs.Nesting
import PerfFormula.Proofs.Places
import PerfFormula.Proofs.PrintedNumbers
import PerfFormula.Proofs.PrintedText
import PerfFormula.Proofs.ReportedErrors
import PerfFormula.Proofs.Independence
import PerfFormula.Proofs.SharedSets
import PerfFormula.Proofs.Entries
import PerfFormula.Proofs.TextDocuments
import PerfFormula.Proofs.WrittenJson
import PerfFormula.Proofs.HexDigits
import PerfFormula.Proofs.WrittenLines
import PerfFormula.Proofs.PlainScalars
import PerfFormula.Proofs.QuotedScalars
import PerfFormula.Proofs.ScannedTokens
import PerfFormula.Proofs.ScannedBlocks
import PerfFormula.Proofs.WrittenCharacters
import PerfFormula.Proofs.WrittenNodes
import PerfFormula.Proofs.WrittenYaml
import PerfFormula.Proofs.FreedSets
import PerfFormula.Proofs.MalformedDocuments
import PerfFormula.Proofs.WrittenResults
import PerfFormula.Proofs.BlamedTokens
import PerfFormula.Proofs.Lockstep
import PerfFormula.Proofs.LongestMatch
import PerfFormula.Proofs.Lossless
import PerfFormula.Proofs.ErrorPlaces
import PerfFormula.Proofs.Spacing
import PerfFormula.Proofs.ReferenceCycles
import PerfFormula.Proofs.Remainders
import PerfFormula.Evaluation.Gathering
import PerfFormula.Evaluation.Stepwise
import PerfFormula.Metric.Stepwise
import PerfFormula.Proofs.BoundedNesting
import PerfFormula.Proofs.FollowedReferences
import PerfFormula.Proofs.FoundNames
import PerfFormula.Proofs.FrameRows
import PerfFormula.Proofs.PlainSheets
import PerfFormula.Proofs.MergedSets
import PerfFormula.Proofs.GroupQueries
import PerfFormula.Proofs.StableAnswers
import PerfFormula.Proofs.PrintedDoubles
import PerfFormula.Proofs.WrittenDefinitions
import PerfFormula.Proofs.ListedProcessors
import PerfFormula.Proofs.MatchedNumbers
import PerfFormula.Proofs.SplitScales
