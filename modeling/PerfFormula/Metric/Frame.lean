import PerfFormula.Libraries.Frames
import PerfFormula.Metric.Compute

/-!
# Metrics of frames

Metrics are computed for every row of a frame of counts, and their values make a frame of results
with the same index. A cell of the counts may be missing; where several columns have the same name,
the last cell that is not missing counts. The values of a row are kept under the names of the
metrics, so that a name that is asked for twice has one value there, and are taken from there once
for each time the name was asked for.

Main statements:

* `MetricTable.computeFrame_eq_error_of_unknown` — a name that is not in the table is refused before
  any row is computed.
-/

namespace PerfFormula

/-- Why metrics cannot be computed for a frame. -/
inductive FrameError where
  | resolve (error : ResolveError)
  /-- A cell holds no number. -/
  | number (error : Decimal.NumberError)
  /-- The values of a row have none under a name. -/
  | noValue (name : String)
  | library (error : LibraryError)

namespace FrameError

/-- The report of an error. -/
def message : FrameError → String
  | resolve e => e.message
  | number e => e.message
  | noValue name => Text.quote name
  | library e => e.message

end FrameError

namespace FrameLibrary

/-- The counts of a row: the numbers in the cells that are not missing, under the texts of their
labels. -/
def sample (lib : FrameLibrary) (row : List (lib.Label × Cell)) :
    Except Decimal.NumberError Sample :=
  let present := row.filter fun cell => lib.notMissing cell.2
  let counts := present.mapM fun cell => cell.2.number.map fun x => (lib.text cell.1, x)
  counts.map .ofList

/-- The frame of some rows of numbers, with an index, and columns of some names. An array of no
rows, or of rows without numbers, has lost its shape, so it is given its height and its width. -/
def tabulate (lib : FrameLibrary) (rows : List (List Float)) (height : Nat) (names : List String)
    (index : lib.Index) : Except LibraryError lib.Frame := do
  let values ← lib.array rows
  let values ← lib.reshape values height names.length
  lib.frame values index (names.map lib.label)

end FrameLibrary

namespace MetricTable

/-! ## Rows -/

/-- The values of some metrics for a row, each under its name. -/
def computeRow (lib : FrameLibrary) (t : MetricTable) (names : List String) (runtime : Int)
    (answers : HostLiteral → Float) (row : List (lib.Label × Cell)) :
    Except FrameError (NameMap Float) := do
  let sample ← (lib.sample row).mapError .number
  (t.computeAll names sample runtime answers).mapError .resolve

/-- The values under some names, in the order of these. -/
def valuesUnder (names : List String) (values : NameMap Float) : Except FrameError (List Float) :=
  names.mapM fun name =>
    match values.find? name with
    | some x => .ok x
    | none => .error (.noValue name)

/-! ## Frames -/

/-- Compute some metrics for every row of a frame. -/
def computeFrame (lib : FrameLibrary) (t : MetricTable) (names : List String) (counts : lib.Frame)
    (runtime : Int) (answers : HostLiteral → Float) : Except FrameError lib.Frame := do
  match names.find? fun name => !t.contains name with
  | some name => throw (.resolve (.unknown name))
  | none =>
    let found ← (lib.rows counts).mapM (t.computeRow lib names runtime answers)
    let values ← found.mapM (valuesUnder names)
    (lib.tabulate values found.length names (lib.index counts)).mapError .library

/-- A name that is not in the table is refused before any row is computed. -/
theorem computeFrame_eq_error_of_unknown {lib : FrameLibrary} {t : MetricTable}
    {names : List String} {name : String}
    (h : names.find? (fun name => !t.contains name) = some name) (counts : lib.Frame)
    (runtime : Int) (answers : HostLiteral → Float) :
    t.computeFrame lib names counts runtime answers = .error (.resolve (.unknown name)) := by
  simp only [computeFrame, h]
  rfl

/-! ## What is tried -/

/-- What becomes of the metrics that are tried for some rows, one after the other: up to an error
that ends everything. -/
def triedForRows (lib : FrameLibrary) (t : MetricTable) (names : List String) (runtime : Int)
    (answers : HostLiteral → Float) : List (List (lib.Label × Cell)) → List Outcome
  | [] => []
  | row :: rest =>
    match lib.sample row with
    | .error _ => []
    | .ok sample =>
      match t.outcomes names sample runtime answers with
      | .ok found => found ++ triedForRows lib t names runtime answers rest
      | .error _ => t.tried names sample runtime answers

/-- What becomes of the metrics that are tried for a frame. -/
def triedForFrame (lib : FrameLibrary) (t : MetricTable) (names : List String)
    (counts : lib.Frame) (runtime : Int) (answers : HostLiteral → Float) : List Outcome :=
  if names.all t.contains then t.triedForRows lib names runtime answers (lib.rows counts) else []

end MetricTable
end PerfFormula
