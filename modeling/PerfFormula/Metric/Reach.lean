import PerfFormula.Metric.Events

/-!
# Reach of a metric

Which metrics and events a metric depends on, said as a relation on names instead of as a walk. A
metric needs what its formula needs, its own name left aside. What it needs is a metric again, which
needs more, or an event. A metric that needs itself through others has no events.

Main statements:

* `MetricTable.Reaches.trans` — what is reached from what is reached is reached.
* `MetricTable.mem_names_of_needs` — only a metric needs something.
-/

namespace PerfFormula
namespace MetricTable

/-- The formula of the metric `name` needs the name `i`, and that is not its own. -/
def Needs (t : MetricTable) (runtime : Int) (answers : HostLiteral → Float) (name i : String) :
    Prop :=
  ∃ m f, t.find? name = some m ∧ formulaOf m runtime = .ok f ∧ i ∈ neededBy answers m f

/-- A name that is needed after any number of steps from another one. -/
inductive Reaches (t : MetricTable) (runtime : Int) (answers : HostLiteral → Float)
    (name : String) : String → Prop where
  | refl : Reaches t runtime answers name name
  | step {m i : String} : Reaches t runtime answers name m → t.Needs runtime answers m i →
      Reaches t runtime answers name i

/-- A metric that needs itself after one or more steps. -/
def IsCyclic (t : MetricTable) (runtime : Int) (answers : HostLiteral → Float) (name : String) :
    Prop :=
  ∃ i, t.Needs runtime answers name i ∧ t.Reaches runtime answers i name

/-- A name that is reached and is not one of a metric. -/
def IsEventOf (t : MetricTable) (runtime : Int) (answers : HostLiteral → Float)
    (name event : String) : Prop :=
  t.Reaches runtime answers name event ∧ event ∉ t.names

/-- The formula of the metric `name` mentions the name `i`, whether it is needed or not. -/
def Mentions (t : MetricTable) (runtime : Int) (name i : String) : Prop :=
  ∃ m f, t.find? name = some m ∧ formulaOf m runtime = .ok f ∧ i ∈ f.names

variable {t : MetricTable} {runtime : Int} {answers : HostLiteral → Float}

/-- What is reached from what is reached is reached. -/
theorem Reaches.trans {a b c : String} (hab : t.Reaches runtime answers a b)
    (hbc : t.Reaches runtime answers b c) : t.Reaches runtime answers a c := by
  induction hbc with
  | refl => exact hab
  | step _ hneeds ih => exact ih.step hneeds

/-- Only a metric needs something. -/
theorem mem_names_of_needs {name i : String} (h : t.Needs runtime answers name i) :
    name ∈ t.names := by
  obtain ⟨m, f, hm, -⟩ := h
  exact (find?_isSome_iff t name).1 (by simp [hm])

/-- What is needed is mentioned. -/
theorem Needs.mentions {name i : String} (h : t.Needs runtime answers name i) :
    t.Mentions runtime name i := by
  obtain ⟨m, f, hm, hf, hi⟩ := h
  exact ⟨m, f, hm, hf, Formula.needed_subset_names answers f i (List.mem_filter.1 hi).1⟩

/-- A metric does not need itself in one step. -/
theorem not_needs_self (name : String) : ¬t.Needs runtime answers name name := by
  rintro ⟨m, f, hm, -, hi⟩
  have hname := (of_find? hm).2
  simp [neededBy, hname] at hi

end MetricTable
end PerfFormula
