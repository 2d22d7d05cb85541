import PerfFormula.CommandLine.Arguments
import PerfFormula.CommandLine.Definitions
import PerfFormula.CommandLine.Log
import PerfFormula.Host.Machine
import PerfFormula.Metric.Source
import PerfFormula.Samples.Counts

/-!
# Commands

What the commands do, as a function of the files that they can read, of the machine they run on and
of the libraries that they use. A command ends with a result to be printed, or with an error that is
reported in its place. Some errors are not reported but end the program.

Main definitions:

* `CommandError.isReported` — which errors are reported.
* `CommandLine.perform`, `CommandLine.run` — what a command, and a command line, comes to.
-/

namespace PerfFormula

/-- The libraries that commands use. -/
structure Libraries where
  yaml : YamlLibrary
  frames : FrameLibrary

/-- What a command finds around it. -/
structure Surroundings where
  files : FileTree
  machine : Machine
  /-- What the machine shows about its processors. -/
  processors : FileTree

/-- The answers to host literals under the given options. -/
def Surroundings.answers (s : Surroundings) (options : HostOptions) : HostLiteral → Float :=
  match options.smt with
  | .auto => s.machine.answers s.processors
  | .on => FixedHost.answers ⟨true, s.machine.cpus⟩
  | .off => FixedHost.answers ⟨false, s.machine.cpus⟩

/-- Why a command has no result. -/
inductive CommandError where
  | definition (error : DefinitionError)
  | formula (error : FormulaError)
  | resolve (error : ResolveError)
  | load (error : LoadError)
  | counts (error : CountsError)
  | frame (error : FrameError)
  /-- It cannot be told which metrics have no value. -/
  | summary (error : LibraryError)
  /-- The results cannot be written. -/
  | output (error : LibraryError)

namespace CommandError

/-- The report of an error. -/
def message : CommandError → String
  | definition e => e.message
  | formula e => e.message
  | resolve e => e.message
  | load e => e.message
  | counts e => e.message
  | frame e => e.message
  | summary e | output e => e.message

/-- Whether an error is reported; any other one ends the program. -/
def isReported : CommandError → Bool
  | definition _ | formula _ | resolve _ => true
  | load (.yaml e) | counts (.library e) | frame (.library e) => e.concernsValue
  | load (.directory _) | counts (.directory _) => false
  | load (.content (.entry (.groups _))) => false
  | load _ | counts _ => true
  | frame (.noValue _) => false
  | frame _ => true
  -- Nothing that fails once there are results is reported.
  | summary _ | output _ => false

end CommandError

/-- What a command that ended well leaves behind: its text and the files it wrote. -/
structure Result where
  text : String
  written : List (Path × String)

namespace CommandLine

/-- A step of a command: the messages so far, and a value or an error. -/
abbrev CommandM := ExceptT CommandError (StateM (List Log))

/-- Report some messages. -/
def report (log : List Log) : CommandM Unit := modify (· ++ log)

/-- An outcome, its error reported by the given messages. -/
def orReport {ε α : Type} (wrap : ε → CommandError) (log : ε → List Log) :
    Except ε α → CommandM α
  | .ok a => return a
  | .error e => do
    report (log e)
    throw (wrap e)

/-- An outcome whose error has no messages. -/
def orFail {ε α : Type} (wrap : ε → CommandError) : Except ε α → CommandM α :=
  orReport wrap fun _ => []

/-- A text without files. -/
def printed (text : String) : Result := ⟨text, []⟩

/-- One line for each of some names, in the order of their characters. -/
def sortedLines (names : List String) : String :=
  String.join ((names.mergeSort (· ≤ ·)).map (· ++ "\n"))

/-! ## Formulas -/

/-- Evaluate a formula under definitions. -/
def eval (s : Surroundings) (formula : String) (definitions : List String) (host : HostOptions) :
    CommandM Result := do
  let values ← orFail .definition (Definitions.parse definitions)
  let c ← orFail .formula (Context.make host.runtime (s.answers host))
  let c := c.withIds (.live (.ofList (values.entries.map fun v => (v.1, .value v.2))))
  let x ← orReport .formula FormulaError.log (c.evaluateText formula none).1
  return printed (Decimal.text x ++ "\n")

/-- List the names that a formula needs. -/
def ids (s : Surroundings) (formula : String) (excluded : List String) (host : HostOptions) :
    CommandM Result := do
  let answers := s.answers host
  let runtime ← orFail .formula (checkRuntime host.runtime)
  let f ← orReport .formula FormulaError.log (Context.parse formula runtime)
  report (f.foldLog answers)
  return printed (sortedLines ((f.needed answers).list.filter (· ∉ excluded)))

/-! ## Metrics -/

/-- Read the table of a file. -/
def loadTable (lib : Libraries) (s : Surroundings) (path : String) : CommandM MetricTable := do
  report [.loading path]
  orFail .load (MetricTable.ofFile lib.yaml s.files (.ofString path) none)

/-- List the events of a metric. -/
def events (lib : Libraries) (s : Surroundings) (metrics metric : String) (host : HostOptions) :
    CommandM Result := do
  let t ← loadTable lib s metrics
  let answers := s.answers host
  let (outcome, walk) := t.walkFrom metric host.runtime answers
  report (walk.formulas.flatMap (·.foldLog answers))
  let _ ← orReport .resolve ResolveError.log outcome
  return printed (sortedLines walk.events)

/-- Whether the column of a label has no value in any row. -/
def isNeverComputed (lib : FrameLibrary) (result : lib.Frame) (column : lib.Label) :
    Except LibraryError Bool := do
  match ← lib.select result column with
  | .series cells => return lib.allMissing cells
  | .frame columns => lib.truth (lib.columnsMissing columns)

/-- The columns that have no value in any row. -/
def neverComputed (lib : FrameLibrary) (result : lib.Frame) :
    Except LibraryError (List String) := do
  let told ← (lib.columns result).mapM fun column => do
    return (column, ← isNeverComputed lib result column)
  return (told.filter (·.2)).map fun column => lib.text column.1

/-- Compute metrics for all rows of a file of counts. -/
def compute (lib : Libraries) (s : Surroundings) (metrics counts : String)
    (names : Option (List String)) (output : Option String) (host : HostOptions) :
    CommandM Result := do
  let t ← loadTable lib s metrics
  let counts ← orFail .counts (Counts.ofFile lib.frames s.files (.ofString counts))
  let names := names.getD t.names
  let answers := s.answers host
  report ((t.triedForFrame lib.frames names counts host.runtime answers).flatMap (·.log))
  let result ← orFail .frame (t.computeFrame lib.frames names counts host.runtime answers)
  let failed ← orFail .summary (neverComputed lib.frames result)
  report (failed.map .neverComputed)
  match output with
  | none | some "" => return printed (lib.frames.toText result ++ "\n")
  | some output =>
    let text ← orFail .output (lib.frames.toCsv s.files result output)
    let rows := toString (lib.frames.length result)
    return ⟨"Wrote " ++ rows ++ " rows to " ++ output ++ "\n", [(.ofString output, text)]⟩

/-- A text filled up with spaces to a width. -/
def padded (width : Nat) (text : String) : String :=
  text ++ String.ofList (List.replicate (width - text.length) ' ')

/-- A line of the same character. -/
def rule (width : Nat) (c : Char) : String := String.ofList (List.replicate width c) ++ "\n"

/-- The lines of a metric. -/
def describe (m : Metric) : String :=
  let unit := if m.scaleText.isEmpty then "" else " [" ++ m.scaleText ++ "]"
  let description := if m.description.isEmpty then "" else "      " ++ m.description ++ "\n"
  "  " ++ m.name ++ unit ++ "\n" ++ "      " ++ m.source ++ "\n" ++ description

/-- The lines of the groups of a table, in the order of their characters. -/
def describeGroups (t : MetricTable) : String :=
  let groups := t.groups.entries.mergeSort fun a b => a.1 ≤ b.1
  if groups.isEmpty then ""
  else
    "Groups:\n" ++ rule 30 '-' ++ String.join (groups.map fun group =>
      "  " ++ padded 20 group.1 ++ " " ++ ", ".intercalate group.2 ++ "\n")

/-- Show the metrics and the groups of a table. -/
def info (lib : Libraries) (s : Surroundings) (metrics : String) : CommandM Result := do
  let t ← loadTable lib s metrics
  let count := toString t.metrics.length
  let title := rule 50 '=' ++ "METRICS: " ++ metrics ++ " (" ++ count ++ ")\n" ++ rule 50 '='
  return printed
    (title ++ "\n" ++ String.join (t.metrics.map describe) ++ "\n" ++ describeGroups t)

/-! ## All commands -/

/-- Do a command. -/
def perform (lib : Libraries) (s : Surroundings) : Command → CommandM Result
  | .eval formula definitions host => eval s formula definitions host
  | .ids formula excluded host => ids s formula excluded host
  | .events metrics metric host => events lib s metrics metric host
  | .compute metrics counts names output host => compute lib s metrics counts names output host
  | .info metrics => info lib s metrics

/-- How a command line ends. -/
inductive Ending where
  /-- Nothing was done; the exit code and what is printed. -/
  | exit (code : Nat) (text : String)
  /-- A command was done: the exit code, what is printed, the messages, and the files written. -/
  | done (code : Nat) (text messages : String) (written : List (Path × String))
  /-- An error that is not reported. -/
  | failed (error : CommandError)

/-- The name and the version of the program. -/
def versionLine : String := "metrickit 0.3.0\n"

/-- The ending of a command. -/
def ending (verbosity : Nat) (outcome : Except CommandError Result × List Log) : Ending :=
  let messages := Log.lines verbosity outcome.2
  match outcome.1 with
  | .ok r => .done 0 r.text messages r.written
  | .error e =>
    if e.isReported then .done 1 "" (messages ++ "Error: " ++ e.message ++ "\n") []
    else .failed e

/-- Do what a command line asks for. -/
def run (lib : Libraries) (s : Surroundings) (arguments : List String) : Ending :=
  match Arguments.parse arguments with
  | .version => .exit 0 versionLine
  | .help => .exit 0 ""
  | .misuse => .exit 2 ""
  | .run _ none => .done 0 "" "" []
  | .run verbosity (some command) => ending verbosity ((perform lib s command).run.run [])

end CommandLine
end PerfFormula
