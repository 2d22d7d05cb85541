import Mathlib.Data.List.Perm.Subperm
import PerfFormula.Metric.Stepwise
import PerfFormula.Proofs.DepthFirst
import PerfFormula.Proofs.Stepwise

/-!
# Nesting is bounded

Neither an evaluation nor the walk from a metric to its events goes on without end, and at no moment
is too much going on at the same time: the references that are being resolved are different ones,
and so are the metrics that are being expanded. This holds whatever the references and the metrics
are, also where they lead back to themselves.

Main statements:

* `MetricTable.leads_walk` — a walk by steps ends as the walk by recursion does.
* `Context.nesting_is_bounded` — both end, and how deep they get.
-/

namespace PerfFormula

/-- Different elements of a list are no more than the list has. -/
theorem length_le_of_nodup {α : Type} {xs ys : List α} (distinct : xs.Nodup)
    (subset : ∀ x ∈ xs, x ∈ ys) : xs.length ≤ ys.length :=
  (List.subperm_of_subset distinct subset).length_le

/-! ## Evaluations -/

namespace Evaluation

variable {c : Context} {f : Formula} {s : Moment}

/-- Of a name that is not remembered the same is known as before. -/
theorem datum_settle {run : Run} {name : String} (unknown : name ∉ run.names) :
    (c.settle run).datum name = c.datum name := by
  rcases Context.get?_settle c run name with same | ⟨x, there, -⟩
  · rw [Context.datum, Context.datum, same]
  · exact absurd (List.mem_map_of_mem there) unknown

/-- What is going on at a moment of an evaluation: the references that are being resolved are
different, still refer to formulas, and are no more than the context has or had; and the evaluations
inside each other are no more than can be computed beforehand. -/
structure Moment.IsBounded (c : Context) (f : Formula) (s : Moment) : Prop where
  distinct : s.resolving.Nodup
  references : ∀ name ∈ s.resolving, ∃ source, (c.settle s.run).datum name = .ok (.reference source)
  few : s.resolving.length ≤ (c.settle s.run).references.length
  few_at_first : s.resolving.length ≤ c.references.length
  shallow : s.depth ≤ c.deepest f

theorem isBounded_of_steps {n : Nat} (h : Stepwise.steps c.step n (.start f) = .goesOn s) :
    s.IsBounded c f := by
  have resolves := resolves_of_steps h
  have references : ∀ name ∈ s.resolving,
      ∃ source, (c.settle s.run).datum name = .ok (.reference source) := by
    intro name resolving
    obtain ⟨source, reference⟩ := resolves.references name resolving
    exact ⟨source, (datum_settle (resolves.apart name resolving)).trans reference⟩
  refine ⟨resolves.distinct, references, length_le_of_nodup resolves.distinct fun name h => ?_,
    length_le_of_nodup resolves.distinct fun name h => ?_, (fits_of_steps h).depth_le⟩
  · obtain ⟨source, reference⟩ := references name h
    exact Context.mem_references reference
  · obtain ⟨source, reference⟩ := resolves.references name h
    exact Context.mem_references reference

end Evaluation

/-! ## Expansions -/

namespace MetricTable

open Events Stepwise

variable {t : MetricTable} {runtime : Int} {answers : HostLiteral → Float}
  {outer : List (String × List String)}

/-- What is being expanded goes on. -/
def goingOn (outer : List (String × List String)) (_ : Unit) (w : Walk) : Stage := ⟨none, outer, w⟩

/-- Going through needed names by steps comes to what recursion comes to, if it does so for
metrics. -/
theorem arrives_forM {chain : List String}
    (metrics : ∀ i outer w, expandingIn outer = chain →
      Arrives (t.step runtime answers) (goingOn outer) ⟨some i, outer, w⟩
        (after (t.walk runtime answers chain i) w))
    (name : String) (names : List String) (same : expandingIn outer ++ [name] = chain) (w : Walk) :
    Arrives (t.step runtime answers) (goingOn outer) ⟨none, (name, names) :: outer, w⟩
      (after (names.forM (t.visit runtime answers chain)) w) := by
  induction names generalizing w with
  | nil => exact arrives_of_goesOn rfl
  | cons i rest ih =>
    have here : t.step runtime answers ⟨none, (name, i :: rest) :: outer, w⟩ =
        t.stepOn w ((name, i :: rest) :: outer) := rfl
    rw [stepOn] at here
    -- the metric is gone through, or the event is noted, and then the names behind it follow
    have first : Arrives (t.step runtime answers) (goingOn ((name, rest) :: outer))
        ⟨none, (name, i :: rest) :: outer, w⟩ (after (t.visit runtime answers chain i) w) := by
      by_cases metric : t.contains i = true
      · rw [if_pos metric] at here
        rw [visit, if_pos metric]
        exact .step here (metrics i ((name, rest) :: outer) w same)
      · rw [if_neg metric] at here
        rw [visit, if_neg metric]
        exact arrives_of_goesOn here
    rw [forM_cons]
    exact first.bind fun _ w' => ih w'

theorem arrives_walk (t : MetricTable) (runtime : Int) (answers : HostLiteral → Float)
    (chain : List String) (name : String) (outer : List (String × List String)) (w : Walk)
    (same : expandingIn outer = chain) :
    Arrives (t.step runtime answers) (goingOn outer) ⟨some name, outer, w⟩
      (after (t.walk runtime answers chain name) w) := by
  induction chain, name using t.walk_induction generalizing outer w with
  | each chain name ih =>
    have here : t.step runtime answers ⟨some name, outer, w⟩ =
        t.stepInto runtime answers outer w name := rfl
    subst same
    unfold stepInto at here
    rw [after_walk]
    by_cases onChain : name ∈ expandingIn outer
    · rw [if_pos onChain] at here
      rw [if_pos onChain]
      exact leads_of_ended here
    · rw [if_neg onChain] at here
      rw [if_neg onChain]
      cases found : t.find? name with
      | none =>
        rw [found] at here
        exact leads_of_ended here
      | some m =>
        simp only [found] at here
        cases parses : formulaOf m runtime with
        | error e =>
          rw [parses] at here
          simp only [parses]
          exact leads_of_ended here
        | ok f =>
          rw [parses] at here
          simp only [parses]
          -- behind this metric fewer of them are left to go through
          have metrics := ih m found onChain
          exact .step here (arrives_forM metrics name _ rfl (w.enter f))

/-- A walk by steps ends as the walk by recursion does. -/
theorem leads_walk (t : MetricTable) (name : String) (runtime : Int)
    (answers : HostLiteral → Float) :
    Leads (t.step runtime answers) (.start name) (ended (t.walkFrom name runtime answers)) :=
  (arrives_walk t runtime answers [] name [] .start rfl).leads fun _ _ => rfl

end MetricTable

namespace Events

variable {t : MetricTable} {runtime : Int} {answers : HostLiteral → Float} {s s' : Stage}

/-- What is going on at a moment of a walk: the metrics that are being expanded are different, and
are metrics of the table, so that they are no more than the table has. -/
structure Stage.IsBounded (t : MetricTable) (s : Stage) : Prop where
  distinct : s.expanding.Nodup
  metrics : ∀ name ∈ s.expanding, name ∈ t.names
  few : s.expanding.length ≤ t.metrics.length

theorem isBounded_of_distinct (distinct : s.expanding.Nodup)
    (metrics : ∀ name ∈ s.expanding, name ∈ t.names) : s.IsBounded t := by
  refine ⟨distinct, metrics, ?_⟩
  have few := length_le_of_nodup distinct metrics
  rwa [MetricTable.names, List.length_map] at few

theorem Stage.IsBounded.step (h : s.IsBounded t)
    (step : t.step runtime answers s = Stepwise.goesOn s') : s'.IsBounded t := by
  obtain ⟨next?, outer, w⟩ := s
  cases next? with
  | some name =>
    have step : t.stepInto runtime answers outer w name = Stepwise.goesOn s' := step
    unfold MetricTable.stepInto at step
    split at step
    · cases step
    · next fresh =>
      split at step
      · cases step
      · next m found =>
        split at step
        · cases step
        · cases step
          refine isBounded_of_distinct (List.nodup_append.2 ⟨h.distinct, by simp, ?_⟩) ?_
          · rintro i hi j hj rfl
            exact fresh (List.mem_singleton.1 hj ▸ hi)
          · intro i hi
            rcases List.mem_append.1 hi with hi | hi
            · exact h.metrics i hi
            · rw [List.mem_singleton.1 hi]
              exact MetricTable.mem_names_of_find? found
  | none =>
    have step : t.stepOn w outer = Stepwise.goesOn s' := step
    unfold MetricTable.stepOn at step
    split at step
    · cases step
    · next name outer =>
      cases step
      exact isBounded_of_distinct (List.nodup_append.1 h.distinct).1
        fun i hi => h.metrics i (List.mem_append_left _ hi)
    · split at step
      · cases step
        exact isBounded_of_distinct h.distinct h.metrics
      · cases step
        exact isBounded_of_distinct h.distinct h.metrics

theorem isBounded_start (t : MetricTable) (name : String) : (Stage.start name).IsBounded t :=
  isBounded_of_distinct List.nodup_nil fun i h => (by cases h)

end Events

/-! ## Both -/

namespace Context

open Stepwise

/-- Evaluation ends, in every context, for every formula, and so does the walk from a name to its
events in every table. From some number of steps on nothing happens any more, and the outcome is
that of the recursion. At every moment before that, the references that are being resolved are
different and no more than the context has, the evaluations inside each other are no more than the
bound, and the metrics that are being expanded are different and no more than the table has. -/
theorem nesting_is_bounded (c : Context) (f : Formula) (t : MetricTable) (name : String)
    (runtime : Int) (answers : HostLiteral → Float) :
    (∃ n, ∀ m, n ≤ m → steps c.step m (.start f) = ended (c.runFormula f)) ∧
      (∀ n s, steps c.step n (.start f) = goesOn s → s.IsBounded c f) ∧
      (∃ n, ∀ m, n ≤ m → steps (t.step runtime answers) m (.start name) =
        ended (t.walkFrom name runtime answers)) ∧
      ∀ n s, steps (t.step runtime answers) n (.start name) = goesOn s → s.IsBounded t := by
  obtain ⟨n, evaluated⟩ := leads_evaluation c f
  obtain ⟨n', walked⟩ := t.leads_walk name runtime answers
  refine ⟨⟨n, fun m le => steps_of_le evaluated le⟩, fun n s h => Evaluation.isBounded_of_steps h,
    ⟨n', fun m le => steps_of_le walked le⟩, fun n s h => ?_⟩
  exact steps_keep (fun _ _ bounded step => bounded.step step) (Events.isBounded_start t name) h

/-- Two names that refer to each other. -/
def circular : Context :=
  ⟨.live (.ofList [("a", .reference "b"), ("b", .reference "a")]), 0, fun _ => 0.0⟩

/-- Two references that lead back to each other are resolved at the same time, and two metrics that
need each other are expanded at the same time, but no more than these. -/
theorem nesting_is_bounded_circular :
    (∃ n, ∀ m, n ≤ m → steps circular.step m (.start (.name "a")) =
        ended (.error (.cycle ["a", "b", "a"]), .start)) ∧
      (∃ s, steps circular.step 2 (.start (.name "a")) = goesOn s ∧ s.resolving = ["a", "b"] ∧
        s.IsBounded circular (.name "a")) ∧
      ∃ s, steps (MetricTable.shared.step 0 fun _ => 0.0) 3 (.start "ping") = goesOn s ∧
        s.expanding = ["ping", "pong"] ∧ s.IsBounded MetricTable.shared := by
  have two : steps circular.step 2 (.start (.name "a")) =
      goesOn ⟨.evaluate (.name "a"), [.reference "b", .reference "a"], .start⟩ := by cbv
  have three : steps circular.step 3 (.start (.name "a")) =
      ended (.error (.cycle ["a", "b", "a"]), .start) := by cbv
  obtain ⟨⟨n, evaluated⟩, bounded, -, expanded⟩ := nesting_is_bounded circular (.name "a")
    MetricTable.shared "ping" 0 (fun _ => 0.0)
  have outcome : circular.runFormula (.name "a") = (.error (.cycle ["a", "b", "a"]), .start) := by
    have later := steps_of_le three (Nat.le_max_right n 3)
    rw [evaluated _ (Nat.le_max_left n 3)] at later
    injection later
  rw [outcome] at evaluated
  have pong : steps (MetricTable.shared.step 0 fun _ => 0.0) 3 (.start "ping") =
      goesOn ⟨none, [("pong", ["ping", "total", "misses"]), ("ping", ["hits"])],
        ⟨[], [.binary .add (.name "pong") (.name "hits"),
          .choice (.name "ping") (.name "total") (.name "misses")]⟩⟩ := by cbv
  exact ⟨⟨n, evaluated⟩, ⟨_, two, rfl, bounded 2 _ two⟩, _, pong, rfl, expanded 3 _ pong⟩

end Context
end PerfFormula
