import PerfFormula.Proofs.Consulted
import PerfFormula.Proofs.DepthFirst

/-!
# What has no influence on a metric

A metric concerns the names that its formula mentions and, where these are metrics, the names that
their formulas mention, and so on. The context in which a metric is computed holds the whole table
and all counts, and the walk that finds its events looks up every name in the table; but neither
comes to a name that the metric does not concern. So tables and samples that agree on the names it
concerns give the same value and the same events, or the same error, whatever else they hold and in
whatever order.

Main statements:

* `MetricTable.nameMeaning_congr` — in the contexts of such samples a name has the same meaning.
* `MetricTable.walk_congr` — walks through such tables are the same.
* `MetricTable.outcome_of_concerned` — such tables and samples give a metric the same outcome.
-/

namespace PerfFormula

namespace Formula

/-- A name that an evaluation may look up occurs in the formula. -/
theorem Consults.mem_names {answers : HostLiteral → Float} {f : Formula} {n : String}
    (h : f.Consults answers n) : n ∈ f.names := by
  rcases h with needed | hidden
  · exact needed_subset_names answers f n needed
  · exact hidden.mem_names

end Formula

namespace NameMap

variable {δ : Type}

/-- An entry of a map is what is found under its name. -/
theorem find?_of_mem {m : NameMap δ} {name : String} {datum : δ} (mem : (name, datum) ∈ m.entries) :
    m.find? name = some datum := by
  cases found : m.find? name with
  | none => exact absurd (List.mem_map.2 ⟨_, mem, rfl⟩) (find?_eq_none_iff.1 found)
  | some other =>
    have mem' := Context.mem_entries_of_lookupIn found
    have same := List.inj_on_of_nodup_map m.distinct mem' mem rfl
    rw [(Prod.mk.inj same).2]

/-- Maps with the same entries find the same, in whatever order these stand. -/
theorem find?_of_perm {m m' : NameMap δ} (same : m.entries.Perm m'.entries) (name : String) :
    m.find? name = m'.find? name := by
  cases found : m.find? name with
  | some datum =>
    exact (find?_of_mem (same.mem_iff.1 (Context.mem_entries_of_lookupIn found))).symm
  | none =>
    have keys : m.keys.Perm m'.keys := same.map _
    exact (find?_eq_none_iff.2 fun mem => find?_eq_none_iff.1 found (keys.mem_iff.2 mem)).symm

end NameMap

namespace MetricTable

variable {t t' : MetricTable} {runtime : Int} {answers : HostLiteral → Float} {name : String}
  {counts counts' : Sample}

/-! ## Concerned names -/

/-- The names that the metric `name` concerns: its own, and with the name of a metric all names that
the formula of that metric mentions, if it can be read. -/
inductive Concerns (t : MetricTable) (runtime : Int) (name : String) : String → Prop where
  | itself : Concerns t runtime name name
  | mentioned {m i : String} : Concerns t runtime name m → t.Mentions runtime m i →
      Concerns t runtime name i

/-- Two tables hold the same metric, or none, under each name that a metric concerns. -/
def HoldsAlike (t t' : MetricTable) (runtime : Int) (name : String) : Prop :=
  ∀ n, t.Concerns runtime name n → t.find? n = t'.find? n

/-- Two samples count the same, or nothing, for each name that a metric concerns. -/
def CountsAlike (t : MetricTable) (runtime : Int) (name : String) (counts counts' : Sample) :
    Prop :=
  ∀ n, t.Concerns runtime name n → counts.find? n = counts'.find? n

/-! ## Evaluation -/

theorem formulaOf_of_checked {m : Metric} {k : Nat} {f : Formula}
    (checked : checkRuntime runtime = .ok k) (parses : Formula.parse m.source k = .ok f) :
    formulaOf m runtime = .ok f := by
  rw [formulaOf, checked]
  exact mapError_eq_ok_iff.2 parses

theorem eq_toNat_of_checkRuntime {k : Nat} (checked : checkRuntime runtime = .ok k) :
    k = runtime.toNat := by
  unfold checkRuntime at checked
  split at checked
  · cases checked
  · exact (Except.ok.inj checked).symm

/-- What a metric comes to, whether or not its formula can be read. -/
theorem compute_of_find? {m : Metric} (found : t.find? name = some m) (counts : Sample) :
    t.compute name counts runtime answers =
      ((formulaOf m runtime >>= (t.sampleContext counts runtime.toNat answers).meaning).mapError
        ResolveError.formula).map (· * m.scaleUnit.scale) := by
  cases checked : checkRuntime runtime with
  | error e =>
    rw [compute, found, formulaOf, checked]
    rfl
  | ok k =>
    obtain rfl := eq_toNat_of_checkRuntime checked
    cases parses : Context.parse m.source runtime.toNat with
    | ok f =>
      rw [compute_eq found checked parses, formulaOf, checked]
      show _ = ((Context.parse m.source runtime.toNat >>= _).mapError _).map _
      rw [parses]
      rfl
    | error e =>
      rw [compute, found, formulaOf, checked]
      show (((t.sampleContext counts runtime.toNat answers).evaluateText m.source none).1.mapError _
          >>= _) = ((Context.parse m.source runtime.toNat >>= _).mapError _).map _
      have started :
          (t.sampleContext counts runtime.toNat answers).start m.source none = .error e := by
        show (Context.parse m.source runtime.toNat >>= _) = _
        rw [parses]
        rfl
      rw [Context.evaluateText, started, parses]
      rfl

/-- A reference in the context of a sample is the formula of the metric of that name. -/
theorem metric_of_reference {k : Nat} {n source : String}
    (h : (t.sampleContext counts k answers).datum n = .ok (.reference source)) :
    ∃ m, t.find? n = some m ∧ m.source = source := by
  rw [datum_sampleContext] at h
  cases counted : counts.find? n with
  | some x =>
    rw [counted] at h
    cases h
  | none =>
    rw [counted] at h
    cases found : t.find? n with
    | none =>
      rw [found] at h
      cases h
    | some m =>
      rw [found] at h
      cases h
      exact ⟨m, rfl, rfl⟩

/-- In the contexts of samples that count alike, from tables that hold alike, each name that the
metric concerns has the same meaning, whatever references are being followed. -/
theorem nameMeaning_congr {k : Nat} (checked : checkRuntime runtime = .ok k)
    (holds : t.HoldsAlike t' runtime name) (count : t.CountsAlike runtime name counts counts')
    (followed : List String) (n : String) (concerned : t.Concerns runtime name n) :
    (t.sampleContext counts k answers).nameMeaning followed n =
      (t'.sampleContext counts' k answers).nameMeaning followed n := by
  induction followed, n using (t.sampleContext counts k answers).follow_induction with
  | each followed n ih =>
    have known : (t.sampleContext counts k answers).datum n =
        (t'.sampleContext counts' k answers).datum n := by
      rw [datum_sampleContext, datum_sampleContext, holds n concerned, count n concerned]
    have sameRuntime : (t'.sampleContext counts' k answers).runtime =
        (t.sampleContext counts k answers).runtime := rfl
    have sameAnswers : (t'.sampleContext counts' k answers).answers =
        (t.sampleContext counts k answers).answers := rfl
    rw [Context.nameMeaning_eq, Context.nameMeaning_eq (t'.sampleContext counts' k answers),
      ← known, sameRuntime, sameAnswers]
    -- the datum decides what becomes of the name, and it is the same in both contexts
    split
    · rfl
    · rfl
    · rfl
    · next source reference =>
      split
      · rfl
      · next fresh =>
        split
        · rfl
        · next f parses =>
          -- Only names that the formula of a concerned metric mentions are looked up.
          obtain ⟨m, found, rfl⟩ := metric_of_reference reference
          refine Formula.meaning_congr fun i consulted => ?_
          have mentions : t.Mentions runtime n i :=
            ⟨m, f, found, formulaOf_of_checked checked parses, consulted.mem_names⟩
          exact ih m.source reference fresh i (concerned.mentioned mentions)

/-- Tables that hold alike and samples that count alike give a metric the same value, or the same
error. -/
theorem compute_congr (holds : t.HoldsAlike t' runtime name)
    (count : t.CountsAlike runtime name counts counts') :
    t.compute name counts runtime answers = t'.compute name counts' runtime answers := by
  have same : t.find? name = t'.find? name := holds name .itself
  cases found : t.find? name with
  | none =>
    have absent : name ∉ t.names ∧ name ∉ t'.names := by
      rw [← find?_isSome_iff, ← find?_isSome_iff, ← same, found]
      simp
    rw [compute_unknown absent.1, compute_unknown absent.2]
  | some m =>
    rw [compute_of_find? found, compute_of_find? (same ▸ found)]
    cases formula : formulaOf m runtime with
    | error e => rfl
    | ok f =>
      obtain ⟨k, checked, -⟩ := formulaOf_eq_ok formula
      obtain rfl := eq_toNat_of_checkRuntime checked
      have meanings : (t.sampleContext counts runtime.toNat answers).meaning f =
          (t'.sampleContext counts' runtime.toNat answers).meaning f := by
        refine Formula.meaning_congr fun i consulted => ?_
        have concerned : t.Concerns runtime name i :=
          .mentioned .itself ⟨m, f, found, formula, consulted.mem_names⟩
        exact nameMeaning_congr checked holds count [] i concerned
      show (((t.sampleContext counts runtime.toNat answers).meaning f).mapError _).map _ = _
      rw [meanings]
      rfl

/-! ## Events -/

/-- Steps that are the same for each of some things are the same for all of them. -/
theorem forM_congr {ε σ α : Type} {step step' : α → ExceptT ε (StateM σ) Unit} {xs : List α}
    (each : ∀ x ∈ xs, step x = step' x) : xs.forM step = xs.forM step' := by
  induction xs with
  | nil => rfl
  | cons first rest ih =>
    rw [forM_cons, forM_cons, each first List.mem_cons_self,
      ih fun x hx => each x (List.mem_cons_of_mem _ hx)]

/-- Tables that hold alike have the same metrics among the names that a metric concerns. -/
theorem HoldsAlike.contains_eq (holds : t.HoldsAlike t' runtime name) {n : String}
    (concerned : t.Concerns runtime name n) : t.contains n = t'.contains n := by
  have same : n ∈ t.names ↔ n ∈ t'.names := by
    rw [← find?_isSome_iff, ← find?_isSome_iff, holds n concerned]
  rw [contains, contains]
  exact decide_eq_decide.2 same

/-- What a metric needs is mentioned by its formula. -/
theorem mem_names_of_neededBy {m : Metric} {f : Formula} {i : String}
    (mem : i ∈ neededBy answers m f) : i ∈ f.names :=
  Formula.needed_subset_names answers f i (List.mem_filter.1 mem).1

/-- Walks through tables that hold alike are the same from each name that the metric concerns. -/
theorem walk_congr (holds : t.HoldsAlike t' runtime name) (chain : List String) (n : String)
    (concerned : t.Concerns runtime name n) :
    t.walk runtime answers chain n = t'.walk runtime answers chain n := by
  induction chain, n using t.walk_induction with
  | each chain n ih =>
    -- a walk is compared by what it does from any state
    funext w
    show after (t.walk runtime answers chain n) w = after (t'.walk runtime answers chain n) w
    rw [after_walk, after_walk, ← holds n concerned]
    split
    · rfl
    · next fresh =>
      split
      · rfl
      · next m found =>
        split
        · rfl
        · next f formula =>
          have visits : (neededBy answers m f).forM (t.visit runtime answers (chain ++ [n])) =
              (neededBy answers m f).forM (t'.visit runtime answers (chain ++ [n])) := by
            refine forM_congr fun i mem => ?_
            have mentioned : t.Concerns runtime name i :=
              concerned.mentioned ⟨m, f, found, formula, mem_names_of_neededBy mem⟩
            rw [visit, visit, ← holds.contains_eq mentioned, ih m found fresh i mentioned]
          rw [visits]

/-- Tables that hold alike give a metric the same events in the same order, or the same error. -/
theorem events_congr (holds : t.HoldsAlike t' runtime name) :
    t.events name runtime answers = t'.events name runtime answers := by
  rw [events, events, walkFrom, walkFrom, walk_congr holds [] name .itself]

/-! ## Order -/

/-- A metric is found under its name wherever it stands in the table. -/
theorem find?_of_perm (same : t.metrics.Perm t'.metrics) (n : String) : t.find? n = t'.find? n := by
  cases found : t.find? n with
  | some m =>
    obtain ⟨mem, rfl⟩ := of_find? found
    exact (find?_name (same.mem_iff.1 mem)).symm
  | none =>
    cases found' : t'.find? n with
    | none => rfl
    | some m =>
      obtain ⟨mem, rfl⟩ := of_find? found'
      rw [find?_name (same.mem_iff.2 mem)] at found
      cases found

/-- Tables with the same metrics hold alike, in whatever order. -/
theorem holdsAlike_of_perm (same : t.metrics.Perm t'.metrics) : t.HoldsAlike t' runtime name :=
  fun n _ => find?_of_perm same n

/-- Samples with the same counts count alike, in whatever order. -/
theorem countsAlike_of_perm (same : counts.entries.Perm counts'.entries) :
    t.CountsAlike runtime name counts counts' :=
  fun n _ => NameMap.find?_of_perm same n

/-! ## What becomes of a metric -/

/-- What becomes of a metric depends on the names that it concerns alone. Tables that hold the same
metrics, or none, under these names, and samples that count the same, or nothing, for them give the
metric the same value and the same events in the same order, or the same errors. So the order of the
metrics and of the counts never matters. -/
theorem outcome_of_concerned (t : MetricTable) (name : String) (counts : Sample) (runtime : Int)
    (answers : HostLiteral → Float) :
    (∀ (t' : MetricTable) (counts' : Sample), t.HoldsAlike t' runtime name →
      t.CountsAlike runtime name counts counts' →
      t.compute name counts runtime answers = t'.compute name counts' runtime answers ∧
        t.events name runtime answers = t'.events name runtime answers) ∧
    ∀ (t' : MetricTable) (counts' : Sample), t.metrics.Perm t'.metrics →
      counts.entries.Perm counts'.entries →
      t.compute name counts runtime answers = t'.compute name counts' runtime answers ∧
        t.events name runtime answers = t'.events name runtime answers := by
  have alike : ∀ (t' : MetricTable) (counts' : Sample), t.HoldsAlike t' runtime name →
      t.CountsAlike runtime name counts counts' →
      t.compute name counts runtime answers = t'.compute name counts' runtime answers ∧
        t.events name runtime answers = t'.events name runtime answers :=
    fun t' counts' holds count => ⟨compute_congr holds count, events_congr holds⟩
  refine ⟨alike, fun t' counts' sameMetrics sameCounts => ?_⟩
  exact alike t' counts' (holdsAlike_of_perm sameMetrics) (countsAlike_of_perm sameCounts)

theorem concerned_excess {n : String} (h : efficiency.Concerns 0 "excess" n) :
    n ∈ ["excess", "ratio", "goal", "cycles", "instructions"] := by
  induction h with
  | itself => decide
  | mentioned _ mentions _ =>
    obtain ⟨m, f, found, formula, mem⟩ := mentions
    have ofRatio : formulaOf ratio 0 =
        .ok (.binary .div (.name "cycles") (.name "instructions")) := by cbv
    have ofExcess : formulaOf excess 0 =
        .ok (.binary .sub (.name "ratio") (.name "goal")) := by cbv
    rcases List.mem_cons.1 (of_find? found).1 with rfl | isExcess
    · obtain rfl := Except.ok.inj (ofRatio.symm.trans formula)
      have listed : _ ∈ ["cycles", "instructions"] := mem
      simp only [List.mem_cons, List.not_mem_nil, or_false] at listed ⊢
      rcases listed with rfl | rfl <;> simp
    · obtain rfl := List.mem_singleton.1 isExcess
      obtain rfl := Except.ok.inj (ofExcess.symm.trans formula)
      have listed : _ ∈ ["ratio", "goal"] := mem
      simp only [List.mem_cons, List.not_mem_nil, or_false] at listed ⊢
      rcases listed with rfl | rfl <;> simp

/-- The metrics of `efficiency` in another order, between metrics that fail. -/
def crowded : MetricTable :=
  ⟨[bare "loop" "loop + goals" (by cbv) (by decide), excess,
    bare "broken" "ratio +" (by cbv) (by decide), ratio], by decide⟩

/-- The counts of `atWork` in another order, among others. -/
def busy : Sample :=
  .ofList [("branches", 7.0), ("goal", 1.0), ("instructions", 4.0), ("loop", 2.0), ("cycles", 6.0)]

/-- Other metrics and other counts have no influence on a metric, nor has the order. -/
theorem outcome_of_excess :
    efficiency.HoldsAlike crowded 0 "excess" ∧ efficiency.CountsAlike 0 "excess" atWork busy ∧
      efficiency.compute "excess" atWork 0 (fun _ => 0.0) =
        crowded.compute "excess" busy 0 (fun _ => 0.0) ∧
      efficiency.events "excess" 0 (fun _ => 0.0) = crowded.events "excess" 0 (fun _ => 0.0) ∧
      efficiency.metrics.Perm [excess, ratio] ∧
      efficiency.events "excess" 0 (fun _ => 0.0) =
        MetricTable.events ⟨[excess, ratio], by decide⟩ "excess" 0 (fun _ => 0.0) := by
  have holds : efficiency.HoldsAlike crowded 0 "excess" := by
    intro n h
    have mem := concerned_excess h
    simp only [List.mem_cons, List.not_mem_nil, or_false] at mem
    rcases mem with rfl | rfl | rfl | rfl | rfl <;> rfl
  have count : efficiency.CountsAlike 0 "excess" atWork busy := by
    intro n h
    have mem := concerned_excess h
    simp only [List.mem_cons, List.not_mem_nil, or_false] at mem
    rcases mem with rfl | rfl | rfl | rfl | rfl <;> rfl
  have swapped : efficiency.metrics.Perm [excess, ratio] := .swap excess ratio []
  obtain ⟨alike, ordered⟩ := outcome_of_concerned efficiency "excess" atWork 0 fun _ => 0.0
  obtain ⟨values, events⟩ := alike crowded busy holds count
  exact ⟨holds, count, values, events, swapped,
    (ordered ⟨[excess, ratio], by decide⟩ atWork swapped (.refl _)).2⟩

end MetricTable
end PerfFormula
