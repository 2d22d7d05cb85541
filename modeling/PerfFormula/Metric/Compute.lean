import PerfFormula.Metric.Events

/-!
# Computing metrics

The value of a metric for one sample: its formula, evaluated with the counts of the sample as values
and all metrics as references, times its scale. A count under the name of a metric takes the place
of that metric.

Main statements:

* `MetricTable.compute_unknown` — a metric that is not in the table has no value.
-/

namespace PerfFormula

/-- The counts of events in one sample. -/
abbrev Sample := NameMap Float

namespace MetricTable

/-- The data of a sample and of the metrics that it does not count, in this order. -/
def sampleData (t : MetricTable) (counts : Sample) : NameMap Datum :=
  let values := counts.entries.map fun entry => (entry.1, Datum.value entry.2)
  -- A name that is counted is a value, also if it is the name of a metric.
  let others := t.metrics.filter fun m => !counts.contains m.name
  .ofList (values ++ others.map fun m => (m.name, .reference m.source))

/-- The context in which the metrics of a sample are computed. -/
def sampleContext (t : MetricTable) (counts : Sample) (runtime : Nat)
    (answers : HostLiteral → Float) : Context :=
  ⟨.live (t.sampleData counts), runtime, answers⟩

/-- The value of a metric for one sample. -/
def compute (t : MetricTable) (name : String) (counts : Sample) (runtime : Int)
    (answers : HostLiteral → Float) : Except ResolveError Float := do
  match t.find? name with
  | none => throw (.unknown name)
  | some m =>
    let value ← (do
      let c := t.sampleContext counts (← checkRuntime runtime) answers
      (c.evaluateText m.source none).1).mapError .formula
    return value * m.scaleUnit.scale

/-- A metric that is not in the table has no value. -/
theorem compute_unknown {t : MetricTable} {name : String} (h : name ∉ t.names) (counts : Sample)
    (runtime : Int) (answers : HostLiteral → Float) :
    t.compute name counts runtime answers = .error (.unknown name) := by
  have : t.find? name = none := by
    rw [← Option.not_isSome_iff_eq_none, find?_isSome_iff]
    exact h
  simp only [compute, this]
  rfl

/-! ## Several metrics -/

/-- What became of a metric: its value, or why it has none. -/
abbrev Outcome := String × Except ResolveError Float

/-- Whether an error ends a computation of several metrics: one that is about the runtime parameter.
Any other error only concerns the metric. -/
def endsAll : ResolveError → Bool
  | .formula e => e.isOfRuntime
  | .unknown _ => false

/-- What becomes of some metrics for one sample. -/
def outcomes (t : MetricTable) (names : List String) (counts : Sample) (runtime : Int)
    (answers : HostLiteral → Float) : Except ResolveError (List Outcome) :=
  names.mapM fun name =>
    match t.compute name counts runtime answers with
    | .ok x => .ok (name, .ok x)
    | .error e => if endsAll e then .error e else .ok (name, .error e)

/-- What becomes of the metrics that are tried for one sample, up to an error that ends all. -/
def tried (t : MetricTable) (names : List String) (counts : Sample) (runtime : Int)
    (answers : HostLiteral → Float) : List Outcome :=
  (names.map fun name => (name, t.compute name counts runtime answers)).takeWhile fun outcome =>
    match outcome.2 with
    | .ok _ => true
    | .error e => !endsAll e

/-- The value of a metric, which is not a number if there is none. -/
def valueOf (outcome : Except ResolveError Float) : Float :=
  match outcome with
  | .ok x => x
  | .error _ => 0.0 / 0.0

/-- The values of some metrics for one sample, each under its name. -/
def computeAll (t : MetricTable) (names : List String) (counts : Sample) (runtime : Int)
    (answers : HostLiteral → Float) : Except ResolveError (NameMap Float) := do
  let found ← t.outcomes names counts runtime answers
  return .ofList (found.map fun outcome => (outcome.1, valueOf outcome.2))

end MetricTable
end PerfFormula
