import PerfFormula.Proofs.Consulted
import PerfFormula.Proofs.Expansion
import PerfFormula.Proofs.Sample

/-!
# The events of a metric suffice

Two walks go over the metrics that a metric needs. One finds the events, the other one evaluates:
it takes a name that is counted as a value, reads the formula of any other name again and follows
it. Where no formula on the way has a reducible choice or needs its own name, both go through the
same metrics: a sample that counts the events gives the metric a value, unless the arithmetic fails,
and no other count has any influence.

Main statements:

* `MetricTable.determined_of_expands` — evaluation follows a walk that came to an end.
* `MetricTable.compute_of_events` — samples that agree on the events of a metric give it the same
  value, or the same error of arithmetic.
-/

namespace PerfFormula

/-! ## Determined outcomes -/

/-- Two outcomes are the same: a value, or an error of arithmetic. -/
structure Determined (a b : Except FormulaError Float) : Prop where
  same : a = b
  failure : ∀ e, a = .error e → ∃ arithmetic, e = .arithmetic arithmetic

theorem determined_ok (x : Float) : Determined (.ok x) (.ok x) :=
  ⟨rfl, fun _ h => by cases h⟩

theorem Determined.ok_or_arithmetic {a b : Except FormulaError Float} (h : Determined a b) :
    (∃ x, a = .ok x) ∨ ∃ e, a = .error (.arithmetic e) := by
  cases a with
  | ok x => exact .inl ⟨x, rfl⟩
  | error e =>
    obtain ⟨e, rfl⟩ := h.failure _ rfl
    exact .inr ⟨e, rfl⟩

/-- Without reducible choices, the needed names determine what becomes of a formula. -/
theorem Formula.determined_meaning {answers : HostLiteral → Float} {f : Formula}
    {lookup lookup' : String → Except FormulaError Float}
    (irreducible : ∀ part ∈ f.subformulas, ¬part.IsReducible answers)
    (each : ∀ n ∈ (f.needed answers).list, Determined (lookup n) (lookup' n)) :
    Determined (f.meaning answers lookup) (f.meaning answers lookup') := by
  have needed : ∀ n, f.Consults answers n → n ∈ (f.needed answers).list := by
    rintro n (hn | ⟨c, t, e, mem, reducible, -⟩)
    · exact hn
    · exact absurd reducible (irreducible _ mem)
  constructor
  · exact meaning_congr fun n hn => (each n (needed n hn)).same
  · intro e failed
    rcases error_of_meaning failed with arithmetic | ⟨n, hn, failed⟩
    · exact arithmetic
    · exact (each n (needed n hn)).failure e failed

namespace MetricTable

variable {t : MetricTable} {runtime : Int} {answers : HostLiteral → Float}

/-! ## What is asked of metrics and samples -/

/-- No formula that is reached from a metric has a reducible choice or needs its own name. -/
def IsPlain (t : MetricTable) (runtime : Int) (answers : HostLiteral → Float) (name : String) :
    Prop :=
  ∀ i m f, t.Reaches runtime answers name i → t.find? i = some m → formulaOf m runtime = .ok f →
    (∀ part ∈ f.subformulas, ¬part.IsReducible answers) ∧ m.name ∉ (f.needed answers).list

theorem IsPlain.of_needs {name i : String} (h : t.IsPlain runtime answers name)
    (needs : t.Needs runtime answers name i) : t.IsPlain runtime answers i :=
  fun j m f reaches => h j m f (Reaches.trans (.step .refl needs) reaches)

/-- Two samples count the same for some events, and they count no metrics. -/
structure Agree (t : MetricTable) (events : List String) (counts counts' : Sample) : Prop where
  bound : ∀ e ∈ events, ∃ x, counts.find? e = some x ∧ counts'.find? e = some x
  apart : ∀ n ∈ t.names, counts.find? n = none
  apart' : ∀ n ∈ t.names, counts'.find? n = none

/-! ## Formulas of metrics -/

theorem formulaOf_eq_ok {m : Metric} {f : Formula} (h : formulaOf m runtime = .ok f) :
    ∃ k, checkRuntime runtime = .ok k ∧ Context.parse m.source k = .ok f :=
  ok_of_bind h

/-- What a metric comes to, in terms of the formula that it is read as. -/
theorem compute_eq {name : String} {m : Metric} {k : Nat} {f : Formula}
    (found : t.find? name = some m) (checked : checkRuntime runtime = .ok k)
    (parses : Context.parse m.source k = .ok f) (counts : Sample) :
    t.compute name counts runtime answers =
      (((t.sampleContext counts k answers).meaning f).mapError ResolveError.formula).map
        (· * m.scaleUnit.scale) := by
  have started : (t.sampleContext counts k answers).start m.source none =
      .ok (t.sampleContext counts k answers, f) := by
    show (Context.parse m.source k >>= _) = _
    rw [parses]
    rfl
  have evaluated : ((t.sampleContext counts k answers).evaluateText m.source none).1 =
      (t.sampleContext counts k answers).meaning f := by
    rw [Context.evaluateText, started]
    exact Context.evaluate_outcome _ f
  rw [compute, found, checked]
  show (((t.sampleContext counts k answers).evaluateText m.source none).1.mapError
    ResolveError.formula >>= _) = _
  rw [evaluated]
  cases (t.sampleContext counts k answers).meaning f <;> rfl

/-! ## Evaluation follows the walk -/

variable {events chain : List String} {name : String} {k : Nat} {counts counts' : Sample}

theorem nameMeaning_of_bound {followed : List String} {event : String} {x : Float}
    (bound : counts.find? event = some x) :
    (t.sampleContext counts k answers).nameMeaning followed event = .ok x := by
  rw [Context.nameMeaning_eq, datum_sampleContext, bound]

theorem nameMeaning_of_metric {followed : List String} {m : Metric} {f : Formula}
    (apart : counts.find? name = none) (found : t.find? name = some m)
    (parses : Context.parse m.source k = .ok f) (fresh : name ∉ followed) :
    (t.sampleContext counts k answers).nameMeaning followed name =
      f.meaning answers ((t.sampleContext counts k answers).nameMeaning (followed ++ [name])) := by
  have reference : (t.sampleContext counts k answers).datum name = .ok (.reference m.source) := by
    rw [datum_sampleContext, apart, found]
    rfl
  exact Context.nameMeaning_follow reference fresh (mapError_eq_ok_iff.1 parses)

/-- Where a walk came to an end, evaluation goes through the same metrics: samples that agree on the
events determine what becomes of the formula of each metric. -/
theorem determined_of_expands (expands : t.Expands runtime answers events chain name)
    (plain : t.IsPlain runtime answers name) (agree : t.Agree events counts counts')
    (checked : checkRuntime runtime = .ok k) {m : Metric} {f : Formula}
    (found : t.find? name = some m) (parses : Context.parse m.source k = .ok f)
    {followed : List String} (within : ∀ n ∈ followed, n ∈ chain ++ [name]) :
    Determined (f.meaning answers ((t.sampleContext counts k answers).nameMeaning followed))
      (f.meaning answers ((t.sampleContext counts' k answers).nameMeaning followed)) := by
  induction expands generalizing m f followed with
  | @intro chain name m₁ f₁ _ found₁ formula₁ metrics noted ih =>
    -- The metric and the formula are the ones that the walk went through.
    have formula : formulaOf m runtime = .ok f := by
      rw [formulaOf, checked]
      exact parses
    obtain rfl : m₁ = m := Option.some.inj (found₁.symm.trans found)
    obtain rfl : f₁ = f := Except.ok.inj (formula₁.symm.trans formula)
    obtain ⟨irreducible, notItself⟩ := plain name m₁ f₁ .refl found formula
    refine Formula.determined_meaning irreducible fun i needed => ?_
    have mem : i ∈ neededBy answers m₁ f₁ := by
      refine List.mem_filter.2 ⟨needed, decide_eq_true ?_⟩
      rintro rfl
      exact notItself needed
    by_cases isMetric : i ∈ t.names
    · obtain ⟨fresh, found', formula', -, -⟩ := metrics i mem isMetric
      obtain ⟨k', checked', parses'⟩ := formulaOf_eq_ok formula'
      obtain rfl : k' = k := Except.ok.inj (checked'.symm.trans checked)
      -- No metric on the way is met again, so no reference is either.
      have unfollowed : i ∉ followed := fun hi => fresh (within i hi)
      rw [nameMeaning_of_metric (agree.apart i isMetric) found' parses' unfollowed,
        nameMeaning_of_metric (agree.apart' i isMetric) found' parses' unfollowed]
      refine ih i mem isMetric (plain.of_needs ⟨m₁, f₁, found, formula, mem⟩) found' parses' ?_
      intro n hn
      rcases List.mem_append.1 hn with hn | hn
      · exact List.mem_append_left _ (within n hn)
      · exact List.mem_append_right _ hn
    · obtain ⟨x, bound, bound'⟩ := agree.bound i (noted i mem isMetric)
      rw [nameMeaning_of_bound bound, nameMeaning_of_bound bound']
      exact determined_ok x

/-! ## Computing a metric -/

/-- The events of a metric suffice to compute it: samples that agree on them give the metric the
same value, or the same error of arithmetic, if they count no metrics and if no formula on the way
has a reducible choice or needs its own name. -/
theorem compute_of_events (reported : t.events name runtime answers = .ok events)
    (plain : t.IsPlain runtime answers name) (agree : t.Agree events counts counts') :
    t.compute name counts runtime answers = t.compute name counts' runtime answers ∧
      ((∃ x, t.compute name counts runtime answers = .ok x) ∨
        ∃ e, t.compute name counts runtime answers = .error (.formula (.arithmetic e))) := by
  have expands := expands_of_events reported
  obtain @⟨_, _, m, f, -, found, formula, -, -⟩ := id expands
  obtain ⟨k, checked, parses⟩ := formulaOf_eq_ok formula
  have nothing : ∀ n ∈ ([] : List String), n ∈ [] ++ [name] := fun n hn => by cases hn
  have determined : Determined ((t.sampleContext counts k answers).meaning f)
      ((t.sampleContext counts' k answers).meaning f) :=
    determined_of_expands expands plain agree checked found parses nothing
  rw [compute_eq found checked parses, compute_eq found checked parses]
  refine ⟨by rw [determined.same], ?_⟩
  rcases determined.ok_or_arithmetic with ⟨x, hx⟩ | ⟨e, he⟩
  · rw [hx]
    exact .inl ⟨_, rfl⟩
  · rw [he]
    exact .inr ⟨e, rfl⟩

/-- A metric of a name and a formula, and nothing else. -/
def bare (name source : String) (trimmed : Text.Trimmed name ∧ Text.Trimmed source)
    (nonempty : name ≠ "" ∧ source ≠ "") : Metric where
  name
  source
  groups := []
  description := ""
  scaleText := ""
  name_trimmed := trimmed.1
  name_ne := nonempty.1
  source_trimmed := trimmed.2
  source_ne := nonempty.2
  groups_trimmed := fun g hg => by cases hg
  scale_readable := rfl

/-- The cycles for each instruction. -/
def ratio : Metric := bare "ratio" "cycles / instructions" (by cbv) (by decide)

/-- How much that is above a goal. -/
def excess : Metric := bare "excess" "ratio - goal" (by cbv) (by decide)

def efficiency : MetricTable := ⟨[ratio, excess], by decide⟩

/-- The counts of the events of `efficiency`. -/
def atWork : Sample := .ofList [("cycles", 6.0), ("instructions", 4.0), ("goal", 1.0)]

theorem irreducible_binary_names (op : Operator) (a b : String) :
    ∀ part ∈ (Formula.binary op (.name a) (.name b)).subformulas, ¬part.IsReducible answers := by
  intro part hpart
  simp only [Formula.subformulas, List.cons_append, List.nil_append, List.mem_cons,
    List.not_mem_nil, or_false] at hpart
  rcases hpart with rfl | rfl | rfl <;> exact id

theorem isPlain_excess : efficiency.IsPlain 0 (fun _ => 0.0) "excess" := by
  intro i m f _ found formula
  have ofRatio : formulaOf ratio 0 =
      .ok (.binary .div (.name "cycles") (.name "instructions")) := by cbv
  have ofExcess : formulaOf excess 0 =
      .ok (.binary .sub (.name "ratio") (.name "goal")) := by cbv
  rcases List.mem_cons.1 (of_find? found).1 with rfl | mem
  · obtain rfl := Except.ok.inj (ofRatio.symm.trans formula)
    exact ⟨irreducible_binary_names .div "cycles" "instructions", by decide⟩
  · obtain rfl := List.mem_singleton.1 mem
    obtain rfl := Except.ok.inj (ofExcess.symm.trans formula)
    exact ⟨irreducible_binary_names .sub "ratio" "goal", by decide⟩

/-- Another event that is counted as well has no influence. -/
theorem compute_excess_atWork :
    efficiency.events "excess" 0 (fun _ => 0.0) = .ok ["cycles", "instructions", "goal"] ∧
      efficiency.IsPlain 0 (fun _ => 0.0) "excess" ∧
      efficiency.Agree ["cycles", "instructions", "goal"] atWork (atWork.set "branches" 7.0) ∧
      efficiency.compute "excess" atWork 0 (fun _ => 0.0) =
        efficiency.compute "excess" (atWork.set "branches" 7.0) 0 (fun _ => 0.0) := by
  have reported : efficiency.events "excess" 0 (fun _ => 0.0) =
      .ok ["cycles", "instructions", "goal"] := by cbv
  have agree : efficiency.Agree ["cycles", "instructions", "goal"] atWork
      (atWork.set "branches" 7.0) := by
    constructor
    · intro e he
      rcases he with _ | ⟨_, _ | ⟨_, _ | ⟨_, he⟩⟩⟩
      · exact ⟨6.0, rfl, rfl⟩
      · exact ⟨4.0, rfl, rfl⟩
      · exact ⟨1.0, rfl, rfl⟩
      · cases he
    · decide
    · decide
  exact ⟨reported, isPlain_excess, agree, (compute_of_events reported isPlain_excess agree).1⟩

end MetricTable
end PerfFormula
