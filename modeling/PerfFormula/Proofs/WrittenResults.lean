import PerfFormula.CommandLine.Run
import PerfFormula.Document.Yaml.Library
import PerfFormula.Proofs.FrameRows

/-!
# Computing metrics on the command line

Once there are a table, counts, and a place for the results, the command writes a row for every
sample and a column for every metric that was asked for, or it reports an error. There is one
exception, which is not reported: metrics that can all be computed, one of which was asked for
twice. The library then selects several columns by the label of one, and cannot tell whether they
have no value.

Main statements:

* `MetricTable.asksTwice_iff` — when one metric was asked for twice of some that can be computed.
* `MetricTable.covers_of_computeFrame` — results have a row for every row and a column for every
  name.
* `CommandLine.neverComputed_isOk_iff` — whether it can be told which metrics have no value.
* `CommandLine.ends_of_compute` — the ways in which the command ends.
* `CommandLine.compute_reported_iff` — the command writes results or reports an error, unless a
  metric that can be computed was asked for twice.
-/

namespace PerfFormula

namespace MetricTable

variable {lib : FrameLibrary} {t : MetricTable} {names : List String} {counts result : lib.Frame}
  {runtime : Int} {answers : HostLiteral → Float}

/-! ## Metrics of a frame -/

/-- Metrics can be computed for all rows of a frame, but one of them was asked for twice. -/
structure AsksTwice (lib : FrameLibrary) (t : MetricTable) (names : List String)
    (counts : lib.Frame) (runtime : Int) (answers : HostLiteral → Float) : Prop where
  repeated : ¬names.Nodup
  known : ∀ name ∈ names, name ∈ t.names
  counted : ∀ row ∈ lib.rows counts, ∃ sample, lib.sample row = .ok sample ∧
    ∀ name ∈ names, ¬t.RefusesRuntime name sample runtime answers

/-- Results for some names and some counts: a row for each row, labelled alike, and in each a cell
for each name. -/
structure Covers (lib : FrameLibrary) (result : lib.Frame) (names : List String)
    (counts : lib.Frame) : Prop where
  index : lib.index result = lib.index counts
  columns : lib.columns result = names.map lib.label
  rows : (lib.rows result).length = (lib.rows counts).length
  cells : ∀ row ∈ lib.rows result, row.map (·.1) = names.map lib.label

end MetricTable

/-! ## The command -/

namespace CommandLine

/-! ### Metrics without a value -/

/-- The command ends by reporting an error. -/
def Ending.IsReported (e : Ending) : Prop :=
  ∃ messages error, e = .done 1 "" (messages ++ "Error: " ++ error ++ "\n") []

/-- The command ends well, after writing results and nothing else. -/
def Ending.Writes (e : Ending) (lib : FrameLibrary) (files : FileTree) (output : String)
    (result : lib.Frame) : Prop :=
  ∃ messages text, lib.toCsv files result output = .ok text ∧
    e = .done 0 ("Wrote " ++ toString (lib.rows result).length ++ " rows to " ++ output ++ "\n")
      messages [(.ofString output, text)]

variable {s : Surroundings} {lib : Libraries} {t : MetricTable} {frame : lib.frames.Frame}
  {metrics counts output : String} {names : Option (List String)} {host : HostOptions}

/-- The results of a computation of metrics for a frame of counts. -/
structure IsResult (s : Surroundings) (lib : FrameLibrary) (t : MetricTable) (frame : lib.Frame)
    (names : List String) (host : HostOptions) (result : lib.Frame) : Prop where
  computed : t.computeFrame lib names frame host.runtime (s.answers host) = .ok result
  covers : MetricTable.Covers lib result names frame

/-- The counts would do for the metrics, but one of these was asked for twice. -/
def AsksTwice (s : Surroundings) (lib : FrameLibrary) (t : MetricTable) (frame : lib.Frame)
    (names : List String) (host : HostOptions) : Prop :=
  t.AsksTwice lib names frame host.runtime (s.answers host)

/-- An error of the library, which cannot say whether something about several columns is true. -/
def Ending.IsAmbiguous (e : Ending) (lib : FrameLibrary) : Prop :=
  ∃ said error, lib.truth said = .error error ∧ e = .failed (.summary error)

/-- How the command ends. -/
inductive Ends (s : Surroundings) (lib : FrameLibrary) (t : MetricTable) (frame : lib.Frame)
    (output : String) (names : List String) (host : HostOptions) : Ending → Prop where
  | written {result : lib.Frame} {e : Ending} : IsResult s lib t frame names host result →
      e.Writes lib s.files output result → ¬AsksTwice s lib t frame names host →
        Ends s lib t frame output names host e
  | reported {e : Ending} : e.IsReported → ¬AsksTwice s lib t frame names host →
      Ends s lib t frame output names host e
  | ambiguous {e : Ending} : e.IsAmbiguous lib → AsksTwice s lib t frame names host →
      Ends s lib t frame output names host e

end CommandLine
end PerfFormula
