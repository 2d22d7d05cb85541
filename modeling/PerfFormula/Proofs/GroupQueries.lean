import PerfFormula.Metric.Table

/-!
# Two ways to ask for a group

A table can list the metrics of all groups at once, or select the metrics of one group. The list
goes through the groups of every metric, so that a metric stands in it as often as it names the
group; the selection asks of every metric whether it names the group, so that the metric comes once.
Both go through the metrics in the order of the table. They agree on a group exactly when no metric
names it twice.

Main statements:

* `NameMap.getD_find?_foldl_push` — what is under a name after values were put behind each other.
* `MetricTable.groupList_eq` — how often a metric is listed in a group.
* `MetricTable.groupList_agrees_iff` — when the list of a group is what the selection gives.
-/

namespace PerfFormula

namespace NameMap

variable {α : Type}

/-- Put a value behind those that are under a name. -/
def push (found : NameMap (List α)) (entry : String × α) : NameMap (List α) :=
  found.set entry.1 ((found.find? entry.1).getD [] ++ [entry.2])

theorem getD_find?_push (found : NameMap (List α)) (entry : String × α) (name : String) :
    ((found.push entry).find? name).getD [] =
      (found.find? name).getD [] ++ if entry.1 = name then [entry.2] else [] := by
  rw [push, find?_set]
  by_cases same : entry.1 = name
  · rw [if_pos same.symm, if_pos same, same]
    rfl
  · rw [if_neg (Ne.symm same), if_neg same, List.append_nil]

/-- Under a name are, in order, the values that were put there. -/
theorem getD_find?_foldl_push (entries : List (String × α)) (found : NameMap (List α))
    (name : String) :
    ((entries.foldl push found).find? name).getD [] =
      (found.find? name).getD [] ++
        entries.flatMap fun entry => if entry.1 = name then [entry.2] else [] := by
  induction entries generalizing found with
  | nil => simp
  | cons entry rest ih =>
    rw [List.foldl_cons, ih, getD_find?_push, List.append_assoc, List.flatMap_cons]

end NameMap

namespace MetricTable

/-- The names that a table lists in a group; none if no metric names the group. -/
def groupList (t : MetricTable) (group : String) : List String :=
  (t.groups.find? group).getD []

/-- The groups of one metric put its name into a group as often as they have this group. -/
theorem flatMap_groups (groups : List String) (group name : String) :
    (groups.map (·, name)).flatMap (fun entry => if entry.1 = group then [entry.2] else []) =
      List.replicate (groups.count group) name := by
  induction groups with
  | nil => rfl
  | cons first rest ih =>
    rw [List.map_cons, List.flatMap_cons, ih, List.count_cons]
    by_cases same : first = group
    · simp [same, List.replicate_succ]
    · simp [same]

/-- A group lists every metric as often as the metric names the group, in the order of the table. -/
theorem groupList_eq (t : MetricTable) (group : String) :
    t.groupList group =
      t.metrics.flatMap fun m => List.replicate (m.groups.count group) m.name := by
  have listed := NameMap.getD_find?_foldl_push
    (t.metrics.flatMap fun m => m.groups.map (·, m.name)) .empty group
  rw [NameMap.find?_empty, List.flatMap_assoc] at listed
  refine Eq.trans listed ?_
  show [] ++ _ = _
  rw [List.nil_append]
  congr 1
  funext m
  exact flatMap_groups m.groups group m.name

/-- The selected metrics, each once. -/
theorem names_inGroup (t : MetricTable) (group : String) :
    (t.inGroup group).map (·.name) =
      t.metrics.flatMap fun m => if group ∈ m.groups then [m.name] else [] := by
  unfold inGroup
  induction t.metrics with
  | nil => rfl
  | cons m rest ih =>
    rw [List.flatMap_cons, ← ih]
    by_cases mem : group ∈ m.groups
    · simp [mem]
    · simp [mem]

/-- The names of the selected metrics are names of the table, in its order and each once. -/
theorem names_inGroup_sublist (t : MetricTable) (group : String) :
    ((t.inGroup group).map (·.name)).Sublist t.names :=
  List.filter_sublist.map _

theorem mem_groupList_iff {t : MetricTable} {group name : String} :
    name ∈ t.groupList group ↔ name ∈ (t.inGroup group).map (·.name) := by
  rw [groupList_eq, names_inGroup, List.mem_flatMap, List.mem_flatMap]
  refine exists_congr fun m => and_congr_right fun _ => ?_
  rw [List.mem_replicate, ← Nat.pos_iff_ne_zero, List.count_pos_iff]
  by_cases mem : group ∈ m.groups
  · simp [mem]
  · simp [mem]

/-- In a list without repetition no metric of the table stands twice. -/
theorem count_le_one_of_nodup {t : MetricTable} {group : String}
    (once : (t.groupList group).Nodup) : ∀ m ∈ t.metrics, m.groups.count group ≤ 1 := by
  intro m mem
  obtain ⟨before, behind, split⟩ := List.append_of_mem mem
  rw [groupList_eq, split, List.flatMap_append, List.flatMap_cons] at once
  have own := (List.nodup_append.1 (List.nodup_append.1 once).2.1).1
  exact List.nodup_replicate.1 own

/-- A group lists every metric as often as the metric names the group, while the selection gives the
metrics that name it, each once; both are in the order of the table. So they have the same metrics,
and they are the same exactly when no metric names the group twice. -/
theorem groupList_agrees_iff (t : MetricTable) (group : String) :
    t.groupList group =
        (t.metrics.flatMap fun m => List.replicate (m.groups.count group) m.name) ∧
      (∀ m, m ∈ t.inGroup group ↔ m ∈ t.metrics ∧ group ∈ m.groups) ∧
      ((t.inGroup group).map (·.name)).Sublist t.names ∧
      ((t.inGroup group).map (·.name)).Nodup ∧
      (∀ name, name ∈ t.groupList group ↔ name ∈ (t.inGroup group).map (·.name)) ∧
      (t.groupList group = (t.inGroup group).map (·.name) ↔
        ∀ m ∈ t.metrics, m.groups.count group ≤ 1) := by
  have once : ((t.inGroup group).map (·.name)).Nodup :=
    t.distinct.sublist (t.names_inGroup_sublist group)
  refine ⟨t.groupList_eq group, ?_, t.names_inGroup_sublist group, once,
    fun _ => mem_groupList_iff, ?_, ?_⟩
  · intro m
    simp [inGroup]
  · intro same
    exact count_le_one_of_nodup (same ▸ once)
  · intro single
    rw [groupList_eq, names_inGroup]
    -- A metric names the group once or not at all, and is listed as often.
    rw [List.flatMap_def, List.flatMap_def]
    congr 1
    apply List.map_congr_left
    intro m mem
    have atMost := single m mem
    by_cases names : group ∈ m.groups
    · have one : m.groups.count group = 1 := by
        have := List.count_pos_iff.2 names
        omega
      rw [one, if_pos names]
      rfl
    · rw [List.count_eq_zero.2 names, if_neg names]
      rfl

/-- A metric that names the group `g` twice. -/
def namedTwice : Metric where
  name := "A"
  source := "b"
  groups := ["g", "g"]
  description := ""
  scaleText := ""
  name_trimmed := by cbv
  name_ne := by decide
  source_trimmed := by cbv
  source_ne := by decide
  groups_trimmed := by
    intro g mem
    obtain rfl : g = "g" := by simpa using mem
    exact ⟨by cbv, by decide⟩
  scale_readable := ScaleUnit.ofText?_empty

/-- It comes of a text that names `g` twice. -/
theorem make_namedTwice :
    Metric.make "A" "b" (Metric.splitGroups "g;g") "" "" = .ok namedTwice := by
  have groups : Metric.splitGroups "g;g" = namedTwice.groups := by cbv
  rw [groups]
  exact Metric.make_fields namedTwice

/-- A table does not always list the metrics of a group as it selects them: a text may name a group
twice. -/
theorem groupList_namedTwice :
    ¬∀ (text : String) (m : Metric) (t : MetricTable) (group : String),
      Metric.make "A" "b" (Metric.splitGroups text) "" "" = .ok m → empty.add m = .ok t →
        t.groupList group = (t.inGroup group).map (·.name) := by
  intro agree
  have same := agree "g;g" namedTwice ⟨[namedTwice], by decide⟩ "g" make_namedTwice rfl
  rw [groupList_eq] at same
  -- The one list has the metric twice, the other one once.
  have lengths := congrArg List.length same
  cases lengths

end MetricTable
end PerfFormula
