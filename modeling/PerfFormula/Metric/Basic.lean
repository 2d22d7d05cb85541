import PerfFormula.Metric.ScaleUnit

/-!
# Metrics

A metric is a named formula that belongs to groups and has a description and a scale unit. The name,
the formula and the groups carry no blanks around them and are not empty; the scale unit is one that
can be read.

Main statements:

* `Metric.make_eq_error_iff` — which metrics are refused.
* `Metric.make_fields` — a metric made of the fields of a metric is that metric.
-/

namespace PerfFormula

open PerfFormula.Text

/-- A named formula. -/
structure Metric where
  name : String
  /-- The text of the formula. -/
  source : String
  groups : List String
  description : String
  /-- The text of the scale unit. -/
  scaleText : String
  name_trimmed : Trimmed name
  name_ne : name ≠ ""
  source_trimmed : Trimmed source
  source_ne : source ≠ ""
  groups_trimmed : ∀ g ∈ groups, Trimmed g ∧ g ≠ ""
  scale_readable : (ScaleUnit.ofText? scaleText).isSome
  deriving DecidableEq

/-- Why there is no metric of some fields. -/
inductive MetricError where
  | emptyName
  | emptyFormula (name : String)
  | scaleUnit (text : String)
  deriving DecidableEq, Repr

namespace MetricError

/-- The report of an error. -/
def message : MetricError → String
  | emptyName => "Metric name cannot be empty"
  | emptyFormula name => "Metric '" ++ name ++ "' has an empty expression"
  | scaleUnit text => "Invalid scale unit: " ++ quote text

end MetricError

namespace Metric

/-! ## Groups -/

/-- Groups as they are kept: without blanks around them, and without empty ones. -/
def trimGroups (groups : List String) : List String :=
  (groups.map strip).filter (· ≠ "")

/-- The characters that separate the groups in one text. -/
def isGroupSeparator (c : Char) : Bool := c == ';' || c == ','

/-- The groups that one text lists. -/
def splitGroups (s : String) : List String :=
  trimGroups ((s.toList.splitOnP isGroupSeparator).map String.ofList)

theorem trimGroups_trimmed (groups : List String) :
    ∀ g ∈ trimGroups groups, Trimmed g ∧ g ≠ "" := by
  intro g hg
  obtain ⟨hm, hne⟩ := List.mem_filter.1 hg
  obtain ⟨g', _, rfl⟩ := List.mem_map.1 hm
  exact ⟨trimmed_strip g', by simpa using hne⟩

/-- Groups that are kept as they are stay as they are. -/
theorem trimGroups_eq_self {groups : List String} (h : ∀ g ∈ groups, Trimmed g ∧ g ≠ "") :
    trimGroups groups = groups := by
  induction groups with
  | nil => rfl
  | cons g rest ih =>
    have hg := h g (by simp)
    have hr := ih fun g hg => h g (by simp [hg])
    simp only [trimGroups] at hr ⊢
    rw [List.map_cons, show strip g = g from hg.1, List.filter_cons_of_pos (by simpa using hg.2),
      hr]

/-! ## Making metrics -/

/-- A metric of some fields, blanks around the name and the formula left aside. -/
def make (name source : String) (groups : List String) (description scaleText : String) :
    Except MetricError Metric :=
  if nameNe : strip name = "" then .error .emptyName
  else if sourceNe : strip source = "" then .error (.emptyFormula (strip name))
  else if readable : (ScaleUnit.ofText? scaleText).isSome then
    .ok {
      name := strip name
      source := strip source
      groups := trimGroups groups
      description
      scaleText
      name_trimmed := trimmed_strip name
      name_ne := nameNe
      source_trimmed := trimmed_strip source
      source_ne := sourceNe
      groups_trimmed := trimGroups_trimmed groups
      scale_readable := readable }
  else .error (.scaleUnit scaleText)

/-- The scale and the unit of a metric. -/
def scaleUnit (m : Metric) : ScaleUnit := (ScaleUnit.ofText? m.scaleText).get m.scale_readable

/-- A metric is refused for its name, its formula or its scale unit. -/
theorem make_eq_error_iff (name source : String) (groups : List String)
    (description scaleText : String) :
    (∃ e, make name source groups description scaleText = .error e) ↔
      strip name = "" ∨ strip source = "" ∨ ScaleUnit.ofText? scaleText = none := by
  unfold make
  by_cases hn : strip name = ""
  · simp [hn]
  · by_cases hs : strip source = ""
    · simp [hs, hn]
    · by_cases hr : (ScaleUnit.ofText? scaleText).isSome = true
      · have := Option.isSome_iff_ne_none.1 hr
        simp [hs, hn, hr, this]
      · have := Option.not_isSome_iff_eq_none.1 hr
        simp [hs, hn, this]

/-- A metric made of the fields of a metric is that metric. -/
theorem make_fields (m : Metric) :
    make m.name m.source m.groups m.description m.scaleText = .ok m := by
  have hn : strip m.name = m.name := m.name_trimmed
  have hs : strip m.source = m.source := m.source_trimmed
  unfold make
  rw [dif_neg (by rw [hn]; exact m.name_ne), dif_neg (by rw [hs]; exact m.source_ne),
    dif_pos m.scale_readable]
  congr 1
  cases m
  simp_all [trimGroups_eq_self]

end Metric
end PerfFormula
