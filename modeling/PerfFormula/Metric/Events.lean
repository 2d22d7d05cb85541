import PerfFormula.Evaluation.Call
import PerfFormula.Metric.Table

/-!
# Events of a metric

Which events have to be counted to compute a metric. The names that its formula needs are looked up
in the table: a name of another metric stands for the events of that one, all others are events. The
name of a metric itself does not count among what its formula needs.

The walk goes depth first and in the order in which names are needed. It follows metrics that are on
its way already no further: such a name closes a cycle.

Main statements:

* `MetricTable.open_append_lt` — following a metric that is not on the way yet leaves fewer of them
  to follow. This is why the walk ends, also when metrics refer to each other in a circle.
* `Events.Walk.find_nodup` — no event is noted twice.
-/

namespace PerfFormula

/-- Why a metric has no events or no value. -/
inductive ResolveError where
  /-- No metric has the name. -/
  | unknown (name : String)
  | formula (error : FormulaError)

namespace ResolveError

/-- The report of an error. -/
def message : ResolveError → String
  | unknown name => (TableError.unknown name).message
  | formula e => e.message

end ResolveError

namespace Events

/-- What a walk has met so far: the events, in the order in which they were found, and the formulas
of the metrics that it went through. -/
structure Walk where
  events : List String
  formulas : List Formula

namespace Walk

/-- The walk that has not begun. -/
def start : Walk := ⟨[], []⟩

/-- Note an event, unless it is noted already. -/
def find (w : Walk) (event : String) : Walk :=
  if event ∈ w.events then w else { w with events := w.events ++ [event] }

/-- Go through the formula of a metric. -/
def enter (w : Walk) (f : Formula) : Walk := { w with formulas := w.formulas ++ [f] }

/-- No event is noted twice. -/
theorem find_nodup {w : Walk} (h : w.events.Nodup) (event : String) :
    (w.find event).events.Nodup := by
  unfold find
  split
  · exact h
  · next fresh =>
    rw [List.nodup_append]
    refine ⟨h, by simp, ?_⟩
    rintro a ha b hb rfl
    obtain rfl : a = event := by simpa using hb
    exact fresh ha

end Walk

/-- A step of a walk: an error ends it, what was met before is kept. -/
abbrev WalkM := ExceptT ResolveError (StateM Walk)

end Events

namespace MetricTable

open Events

/-- The metrics of a table that are not on the way. -/
def openNames (t : MetricTable) (chain : List String) : List String := t.names.filter (· ∉ chain)

/-- Following a metric that is not on the way yet leaves fewer of them to follow. -/
theorem open_append_lt {t : MetricTable} {chain : List String} {name : String} {m : Metric}
    (found : t.find? name = some m) (fresh : name ∉ chain) :
    (t.openNames (chain ++ [name])).length < (t.openNames chain).length := by
  have split : t.openNames (chain ++ [name]) = (t.openNames chain).filter (· ≠ name) := by
    rw [openNames, openNames, List.filter_filter]
    apply List.filter_congr
    intro n _
    by_cases hn : n = name <;> simp [hn]
  have present : name ∈ t.openNames chain := by
    have : name ∈ t.names := (find?_isSome_iff t name).1 (by simp [found])
    simp [openNames, this, fresh]
  rw [split]
  exact List.length_filter_lt_length_iff_exists.2 ⟨name, present, by simp⟩

/-- What the formula of a metric needs, its own name left aside. -/
def neededBy (answers : HostLiteral → Float) (m : Metric) (f : Formula) : List String :=
  (f.needed answers).list.filter (· ≠ m.name)

/-- The formula of a metric, for a runtime parameter that is still to be checked. -/
def formulaOf (m : Metric) (runtime : Int) : Except FormulaError Formula := do
  Context.parse m.source (← checkRuntime runtime)

/-- Walk through a metric, where `chain` are the metrics on the way to it. -/
def walk (t : MetricTable) (runtime : Int) (answers : HostLiteral → Float) (chain : List String)
    (name : String) : WalkM Unit := do
  if _fresh : name ∈ chain then throw (.formula (.cycle (chain ++ [name])))
  else
    match _found : t.find? name with
    | none => throw (.unknown name)
    | some m =>
      match formulaOf m runtime with
      | .error e => throw (.formula e)
      | .ok f =>
        modify (·.enter f)
        (neededBy answers m f).forM fun ident =>
          if t.contains ident then t.walk runtime answers (chain ++ [name]) ident
          else modify (·.find ident)
termination_by (t.openNames chain).length
decreasing_by exact open_append_lt _found _fresh

/-- The walk from a metric: how it ended, and what it met. -/
def walkFrom (t : MetricTable) (name : String) (runtime : Int) (answers : HostLiteral → Float) :
    Except ResolveError Unit × Walk :=
  (t.walk runtime answers [] name).run.run Walk.start

/-- The events of a metric. -/
def events (t : MetricTable) (name : String) (runtime : Int) (answers : HostLiteral → Float) :
    Except ResolveError (List String) :=
  let (outcome, w) := t.walkFrom name runtime answers
  outcome.map fun _ => w.events

end MetricTable
end PerfFormula
