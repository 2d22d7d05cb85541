import PerfFormula.Metric.Basic
import PerfFormula.Names.NameMap

/-!
# Tables of metrics

A table keeps metrics in the order in which they were added, each under a name of its own, and
answers which metrics belong to a group.

Main statements:

* `MetricTable.add_eq_error_iff` — a metric is refused exactly when its name is taken.
* `MetricTable.find?_name` — every metric of a table is found under its name.
-/

namespace PerfFormula

/-- Metrics in order, each with a name of its own. -/
structure MetricTable where
  metrics : List Metric
  distinct : (metrics.map (·.name)).Nodup

/-- Why a table does not take or give a metric. -/
inductive TableError where
  /-- A metric of the name is already there. -/
  | duplicate (name : String)
  /-- No metric has the name. -/
  | unknown (name : String)
  deriving DecidableEq, Repr

namespace TableError

/-- The report of an error. -/
def message : TableError → String
  | duplicate name => "Key '" ++ name ++ "' already present"
  | unknown name => "Unknown metric '" ++ name ++ "'"

end TableError

namespace MetricTable

/-- The table without metrics. -/
def empty : MetricTable := ⟨[], by simp⟩

/-- The names of the metrics, in order. -/
def names (t : MetricTable) : List String := t.metrics.map (·.name)

/-- Add a metric at the end. -/
def add (t : MetricTable) (m : Metric) : Except TableError MetricTable :=
  if taken : m.name ∈ t.names then .error (.duplicate m.name)
  else .ok {
    metrics := t.metrics ++ [m]
    distinct := by
      rw [List.map_append, List.nodup_append]
      refine ⟨t.distinct, by simp, ?_⟩
      rintro a ha b hb rfl
      obtain rfl : a = m.name := by simpa using hb
      exact taken ha }

/-- The metric of a name, if there is one. -/
def find? (t : MetricTable) (name : String) : Option Metric := t.metrics.find? (·.name == name)

/-- The metric of a name. -/
def get (t : MetricTable) (name : String) : Except TableError Metric :=
  match t.find? name with
  | some m => .ok m
  | none => .error (.unknown name)

/-- Whether a table has a metric of a name. -/
def contains (t : MetricTable) (name : String) : Bool := decide (name ∈ t.names)

/-- The names of the metrics of each group, the groups in the order in which they come up. A group
that a metric lists twice has it twice. -/
def groups (t : MetricTable) : NameMap (List String) :=
  (t.metrics.flatMap fun m => m.groups.map (·, m.name)).foldl
    (fun found entry => found.set entry.1 ((found.find? entry.1).getD [] ++ [entry.2])) .empty

/-- The metrics of a group. -/
def inGroup (t : MetricTable) (group : String) : List Metric :=
  t.metrics.filter fun m => decide (group ∈ m.groups)

/-- A metric is refused exactly when its name is taken. -/
theorem add_eq_error_iff (t : MetricTable) (m : Metric) (e : TableError) :
    t.add m = .error e ↔ m.name ∈ t.names ∧ e = .duplicate m.name := by
  unfold add
  split <;> simp_all [eq_comm]

theorem names_add {t t' : MetricTable} {m : Metric} (h : t.add m = .ok t') :
    t'.names = t.names ++ [m.name] := by
  unfold add at h
  split at h
  · cases h
  · cases h
    simp [names]

theorem find?_isSome_iff (t : MetricTable) (name : String) :
    (t.find? name).isSome ↔ name ∈ t.names := by
  simp [find?, names, List.find?_isSome]

/-- What is found under a name has that name and is in the table. -/
theorem of_find? {t : MetricTable} {name : String} {m : Metric} (h : t.find? name = some m) :
    m ∈ t.metrics ∧ m.name = name :=
  ⟨List.mem_of_find?_eq_some h, by simpa using List.find?_some h⟩

/-- Every metric of a table is found under its name. -/
theorem find?_name {t : MetricTable} {m : Metric} (hm : m ∈ t.metrics) :
    t.find? m.name = some m := by
  obtain ⟨metrics, distinct⟩ := t
  simp only [find?] at hm ⊢
  induction metrics with
  | nil => cases hm
  | cons first rest ih =>
    by_cases h : first.name = m.name
    · rcases List.mem_cons.1 hm with rfl | hm
      · simp
      · rw [List.map_cons, List.nodup_cons] at distinct
        exact absurd (List.mem_map.2 ⟨m, hm, h.symm⟩) distinct.1
    · rw [List.find?_cons_of_neg (by simpa using h)]
      rcases List.mem_cons.1 hm with rfl | hm
      · exact absurd rfl h
      · exact ih (List.nodup_cons.1 distinct).2 hm

end MetricTable
end PerfFormula
