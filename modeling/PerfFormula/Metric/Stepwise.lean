import PerfFormula.Evaluation.Stepwise
import PerfFormula.Metric.Events

/-!
# Expansion step by step

The walk from a metric to its events as a machine that takes one step after the other. The metrics
that are being expanded stand in the state, each with the names that it still has to go through.
-/

namespace PerfFormula

namespace Events

/-- The metrics that are being expanded, from the outermost to the innermost. They are listed the
other way round, each with the names that it still has to go through. -/
def expandingIn : List (String × List String) → List String
  | [] => []
  | (name, _) :: outer => expandingIn outer ++ [name]

/-- A moment of a walk: the metric that is expanded next, if it is one's turn, what is being
expanded and what was met so far. -/
structure Stage where
  next? : Option String
  waiting : List (String × List String)
  walk : Walk

namespace Stage

/-- The stage at which nothing was done. -/
def start (name : String) : Stage := ⟨some name, [], .start⟩

/-- The metrics that are being expanded, from the outermost to the innermost. -/
def expanding (s : Stage) : List String := expandingIn s.waiting

end Stage
end Events

namespace MetricTable

open Events Stepwise

variable (t : MetricTable) (runtime : Int) (answers : HostLiteral → Float)

/-- Begin to expand a metric. -/
def stepInto (outer : List (String × List String)) (w : Walk) (name : String) :
    Stepwise Stage (Except ResolveError Unit × Walk) :=
  if name ∈ expandingIn outer then
    ended (.error (.formula (.cycle (expandingIn outer ++ [name]))), w)
  else
    match t.find? name with
    | none => ended (.error (.unknown name), w)
    | some m =>
      match formulaOf m runtime with
      | .error e => ended (.error (.formula e), w)
      | .ok f => goesOn ⟨none, (name, neededBy answers m f) :: outer, w.enter f⟩

/-- Go on with the innermost metric that is being expanded, if there is one. -/
def stepOn (w : Walk) :
    List (String × List String) → Stepwise Stage (Except ResolveError Unit × Walk)
  | [] => ended (.ok (), w)
  -- The metric has been gone through.
  | (_, []) :: outer => goesOn ⟨none, outer, w⟩
  | (name, ident :: rest) :: outer =>
    if t.contains ident then goesOn ⟨some ident, (name, rest) :: outer, w⟩
    else goesOn ⟨none, (name, rest) :: outer, w.find ident⟩

/-- One step of a walk. -/
def step (s : Stage) : Stepwise Stage (Except ResolveError Unit × Walk) :=
  match s.next? with
  | some name => t.stepInto runtime answers s.waiting s.walk name
  | none => t.stepOn s.walk s.waiting

end MetricTable
end PerfFormula
