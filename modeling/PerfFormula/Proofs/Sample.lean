import PerfFormula.Metric.Compute

/-!
# What a sample says of a name

A name that a sample counts has that value. Any other name refers to the formula of the metric of
that name, if there is one, and nothing is known of it otherwise. The order of the counts and of the
metrics does not matter.

Main statements:

* `NameMap.find?_ofList` — in a map of entries with different names each name has its own datum.
* `MetricTable.datum_sampleContext` — what is known of a name in the context of a sample.
-/

namespace PerfFormula

namespace NameMap

variable {δ : Type}

theorem find?_foldl_set (entries : List (String × δ)) (m : NameMap δ) (name : String)
    (distinct : (entries.map (·.1)).Nodup) :
    (entries.foldl (fun m entry => m.set entry.1 entry.2) m).find? name =
      (lookupIn name entries).or (m.find? name) := by
  induction entries generalizing m with
  | nil => rfl
  | cons entry rest ih =>
    rw [List.map_cons, List.nodup_cons] at distinct
    rw [List.foldl_cons, ih _ distinct.2, find?_set]
    by_cases hn : entry.1 = name
    · -- The names behind the first entry are other ones.
      have absent : lookupIn name rest = none := lookupIn_eq_none_iff.2 (hn ▸ distinct.1)
      rw [absent, lookupIn, if_pos hn, if_pos hn.symm]
      rfl
    · rw [lookupIn, if_neg hn, if_neg (Ne.symm hn)]

/-- In a map of entries with different names each name has its own datum. -/
theorem find?_ofList {entries : List (String × δ)} (distinct : (entries.map (·.1)).Nodup)
    (name : String) : (ofList entries).find? name = lookupIn name entries := by
  rw [ofList, find?_foldl_set entries empty name distinct, find?_empty, Option.or_none]

theorem lookupIn_map {ε : Type} (g : δ → ε) (name : String) (entries : List (String × δ)) :
    lookupIn name (entries.map fun entry => (entry.1, g entry.2)) =
      (lookupIn name entries).map g := by
  induction entries with
  | nil => rfl
  | cons entry rest ih =>
    rw [List.map_cons, lookupIn, lookupIn, ih]
    split <;> rfl

end NameMap

namespace MetricTable

theorem lookupIn_references (metrics : List Metric) (name : String) :
    NameMap.lookupIn name (metrics.map fun m => (m.name, Datum.reference m.source)) =
      (metrics.find? (·.name == name)).map fun m => .reference m.source := by
  induction metrics with
  | nil => rfl
  | cons m rest ih =>
    rw [List.map_cons, NameMap.lookupIn, ih]
    by_cases hn : m.name = name
    · rw [if_pos hn, List.find?_cons, beq_iff_eq.2 hn]
      rfl
    · rw [if_neg hn, List.find?_cons_of_neg (by simpa using hn)]

/-- The metrics that a sample does not count. -/
def uncounted (t : MetricTable) (counts : Sample) : List Metric :=
  t.metrics.filter fun m => !counts.contains m.name

theorem find?_uncounted (t : MetricTable) {counts : Sample} {name : String}
    (uncountedName : counts.find? name = none) :
    (t.uncounted counts).find? (·.name == name) = t.find? name := by
  have keep : counts.contains name = false :=
    decide_eq_false (NameMap.find?_eq_none_iff.1 uncountedName)
  rw [uncounted, List.find?_filter, find?]
  congr 1
  funext m
  by_cases hn : m.name = name
  · rw [hn, keep]
    simp
  · simp [hn]

/-- What the context of a sample is made of. -/
def sampleEntries (t : MetricTable) (counts : Sample) : List (String × Datum) :=
  (counts.entries.map fun entry => (entry.1, .value entry.2)) ++
    (t.uncounted counts).map fun m => (m.name, .reference m.source)

theorem sampleData_eq (t : MetricTable) (counts : Sample) :
    t.sampleData counts = .ofList (t.sampleEntries counts) := rfl

/-- No name comes twice in what the context of a sample is made of. -/
theorem nodup_sampleEntries (t : MetricTable) (counts : Sample) :
    ((t.sampleEntries counts).map (·.1)).Nodup := by
  rw [sampleEntries, List.map_append, List.map_map, List.map_map, List.nodup_append]
  refine ⟨counts.distinct, t.distinct.sublist (List.filter_sublist.map _), ?_⟩
  rintro counted hcounted other hother rfl
  obtain ⟨m, hm, rfl⟩ := List.mem_map.1 hother
  have uncountedName := (List.mem_filter.1 hm).2
  have countedName : counts.contains m.name = true := NameMap.contains_iff.2 hcounted
  rw [countedName] at uncountedName
  cases uncountedName

/-- What is known of a name in the context of a sample: its count, or else the formula of the metric
of that name. -/
theorem datum_sampleContext (t : MetricTable) (counts : Sample) (runtime : Nat)
    (answers : HostLiteral → Float) (name : String) :
    (t.sampleContext counts runtime answers).datum name = .ok
      (match counts.find? name with
      | some x => .value x
      | none => ((t.find? name).map fun m => .reference m.source).getD .pending) := by
  show Except.ok (((t.sampleData counts).find? name).getD .pending) = _
  have found : (t.sampleData counts).find? name =
      ((counts.find? name).map Datum.value).or
        (((t.uncounted counts).find? (·.name == name)).map fun m => .reference m.source) := by
    rw [sampleData_eq, NameMap.find?_ofList (t.nodup_sampleEntries counts), sampleEntries,
      NameMap.lookupIn_append, NameMap.lookupIn_map, lookupIn_references, NameMap.find?]
  rw [found]
  cases counted : counts.find? name with
  | some x => rfl
  | none =>
    rw [find?_uncounted t counted]
    rfl

end MetricTable
end PerfFormula
