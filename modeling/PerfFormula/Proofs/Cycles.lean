import Mathlib.Data.List.Nodup
import PerfFormula.Proofs.Expansion
import PerfFormula.Proofs.Loop

/-!
# Cycles of metrics

A walk through the metrics that a metric needs fails with the report of a cycle, unless a formula on
the way cannot be read. The report lists a walk that closes a loop. In the other direction a walk
cannot end well if any metric that is reached lies on a cycle: the walk has no memory of the metrics
that it went through before, so it goes along every way there is, the one around the cycle included.

Main statements:

* `MetricTable.closesLoop_of_events_error` — the only failure is a cycle, and its report is right.
* `MetricTable.not_isCyclic_of_expands` — where a walk came to an end, no metric is on a cycle.
* `MetricTable.events_eq_cycle_iff` — so a cycle is reported exactly when there is one.
-/

namespace PerfFormula
namespace MetricTable

variable {t : MetricTable} {runtime : Int} {answers : HostLiteral → Float}

/-! ## Edges -/

theorem mem_names_of_find? {name : String} {m : Metric} (found : t.find? name = some m) :
    name ∈ t.names :=
  (find?_isSome_iff t name).1 (Option.isSome_of_eq_some found)

theorem needs_iff {name i : String} {m : Metric} {f : Formula} (found : t.find? name = some m)
    (parses : formulaOf m runtime = .ok f) :
    t.Needs runtime answers name i ↔ i ∈ neededBy answers m f := by
  constructor
  · rintro ⟨m', f', found', parses', mem⟩
    obtain rfl : m = m' := Option.some.inj (found.symm.trans found')
    obtain rfl : f = f' := Except.ok.inj (parses.symm.trans parses')
    exact mem
  · exact fun mem => ⟨m, f, found, parses, mem⟩

theorem reaches_iff {a b : String} :
    t.Reaches runtime answers a b ↔ Relation.ReflTransGen (t.Needs runtime answers) a b := by
  constructor
  · intro h
    induction h with
    | refl => exact .refl
    | step _ needs ih => exact ih.tail needs
  · intro h
    induction h with
    | refl => exact .refl
    | tail _ needs ih => exact ih.step needs

/-- What is reached is the name itself, or it is reached from something that the name needs. -/
theorem Reaches.cases_head {a b : String} (h : t.Reaches runtime answers a b) :
    a = b ∨ ∃ i, t.Needs runtime answers a i ∧ t.Reaches runtime answers i b := by
  rcases Relation.ReflTransGen.cases_head (reaches_iff.1 h) with same | ⟨i, needs, reaches⟩
  · exact .inl same
  · exact .inr ⟨i, needs, reaches_iff.2 reaches⟩

/-- Nothing but itself is reached from a name that is not one of a metric. -/
theorem Reaches.eq_of_event {a b : String} (h : t.Reaches runtime answers a b)
    (event : a ∉ t.names) : a = b := by
  rcases h.cases_head with same | ⟨i, needs, -⟩
  · exact same
  · exact absurd (mem_names_of_needs needs) event

/-- Every metric that is reached from a name has a formula that can be read. -/
def IsReadable (t : MetricTable) (runtime : Int) (answers : HostLiteral → Float) (name : String) :
    Prop :=
  ∀ i m, t.Reaches runtime answers name i → t.find? i = some m → ∃ f, formulaOf m runtime = .ok f

/-! ## Reports of cycles -/

/-- A walk that goes through known metrics with readable formulas can only fail in a cycle. -/
theorem closesLoop_of_walk_error {start : String} (readable : t.IsReadable runtime answers start)
    {chain : List String} {name : String} (known : name ∈ t.names)
    (starts : (chain ++ [name]).head? = some start)
    (along : (chain ++ [name]).IsChain (t.Needs runtime answers)) (distinct : chain.Nodup)
    {w w' : Events.Walk} {e : ResolveError}
    (failed : after (t.walk runtime answers chain name) w = (.error e, w')) :
    ∃ loop, e = .formula (.cycle loop) ∧
      ClosesLoop (t.Needs runtime answers) start loop := by
  induction chain, name using t.walk_induction generalizing w w' with
  | each chain name ih =>
    rw [after_walk] at failed
    split at failed
    · next onChain =>
      -- The name is met again: the chain and the name are the report.
      cases failed
      exact ⟨chain ++ [name], rfl, starts, along, chain, name, rfl, distinct, onChain⟩
    · next fresh =>
      obtain ⟨m, found⟩ := Option.isSome_iff_exists.1 ((find?_isSome_iff t name).2 known)
      have reaches : t.Reaches runtime answers start name :=
        reaches_iff.2 (reaches_of_isChain starts along)
      obtain ⟨f, parses⟩ := readable name m reaches found
      rw [found] at failed
      simp only [parses] at failed
      -- One of the needed names fails, and it is a metric: noting an event never does.
      obtain ⟨i, mem, w₁, failed⟩ := error_of_forM failed
      unfold visit at failed
      split at failed
      · next isMetric =>
        have known' : i ∈ t.names := of_decide_eq_true isMetric
        have starts' : (chain ++ [name] ++ [i]).head? = some start := by
          rw [List.head?_append, starts]
          rfl
        have along' : (chain ++ [name] ++ [i]).IsChain (t.Needs runtime answers) := by
          rw [List.append_assoc]
          exact List.isChain_append_cons_cons.2
            ⟨along, (needs_iff found parses).2 mem, List.isChain_singleton i⟩
        have distinct' : (chain ++ [name]).Nodup := by
          rw [← List.concat_eq_append]
          exact List.Nodup.concat fresh distinct
        exact ih m found fresh i known' starts' along' distinct' failed
      · cases failed

/-- From a known metric with readable formulas on every way, the only failure is a cycle, and the
report lists a walk from the metric that closes a loop. -/
theorem closesLoop_of_events_error {name : String} (known : name ∈ t.names)
    (readable : t.IsReadable runtime answers name) {e : ResolveError}
    (failed : t.events name runtime answers = .error e) :
    ∃ loop, e = .formula (.cycle loop) ∧ ClosesLoop (t.Needs runtime answers) name loop := by
  obtain ⟨w, ended⟩ := error_of_events failed
  exact closesLoop_of_walk_error readable known rfl (List.isChain_singleton name) List.nodup_nil
    ended

/-- Where a walk closes a loop, a metric on a cycle is reached from its start. -/
theorem exists_isCyclic_of_closesLoop {name : String} {loop : List String}
    (h : ClosesLoop (t.Needs runtime answers) name loop) :
    ∃ m, t.Reaches runtime answers name m ∧ t.IsCyclic runtime answers m := by
  obtain ⟨m, i, reaches, needs, back⟩ := h.exists_cycle
  exact ⟨m, reaches_iff.2 reaches, i, needs, reaches_iff.2 back⟩

/-! ## Walks without cycles -/

/-- Where a walk came to an end, no metric that is reached is on the way to it or on a cycle. -/
theorem not_isCyclic_of_expands {events chain : List String} {name : String}
    (expands : t.Expands runtime answers events chain name) :
    ∀ i, t.Reaches runtime answers name i → i ∈ t.names →
      i ∉ chain ∧ ¬t.IsCyclic runtime answers i := by
  induction expands with
  | @intro chain name m f fresh found parses metrics noted ih =>
    -- What is reached through a name that is needed is apart from this metric and its chain.
    have behind : ∀ i j, t.Needs runtime answers name i → t.Reaches runtime answers i j →
        j ∈ t.names → j ∉ chain ++ [name] ∧ ¬t.IsCyclic runtime answers j := by
      intro i j needs reaches known
      have isMetric : i ∈ t.names := by
        by_contra event
        exact event (reaches.eq_of_event event ▸ known)
      exact ih i ((needs_iff found parses).1 needs) isMetric j reaches known
    intro i reaches known
    rcases reaches.cases_head with rfl | ⟨j, needs, reaches⟩
    · refine ⟨fresh, ?_⟩
      rintro ⟨j, needs, back⟩
      exact (behind j name needs back known).1 (by simp)
    · obtain ⟨apart, acyclic⟩ := behind j i needs reaches known
      exact ⟨fun onChain => apart (List.mem_append_left _ onChain), acyclic⟩

/-- A cycle is reported exactly when one is reached. -/
theorem events_eq_cycle_iff {name : String} (known : name ∈ t.names)
    (readable : t.IsReadable runtime answers name) :
    (∃ loop, t.events name runtime answers = .error (.formula (.cycle loop))) ↔
      ∃ m, t.Reaches runtime answers name m ∧ t.IsCyclic runtime answers m := by
  constructor
  · rintro ⟨loop, failed⟩
    obtain ⟨loop', same, closes⟩ := closesLoop_of_events_error known readable failed
    exact exists_isCyclic_of_closesLoop closes
  · rintro ⟨m, reaches, cyclic⟩
    cases outcome : t.events name runtime answers with
    | error e =>
      obtain ⟨loop, rfl, -⟩ := closesLoop_of_events_error known readable outcome
      exact ⟨loop, rfl⟩
    | ok events =>
      have isMetric : m ∈ t.names := by
        obtain ⟨i, needs, -⟩ := cyclic
        exact mem_names_of_needs needs
      have expands := expands_of_events outcome
      exact absurd cyclic (not_isCyclic_of_expands expands m reaches isMetric).2

end MetricTable
end PerfFormula
