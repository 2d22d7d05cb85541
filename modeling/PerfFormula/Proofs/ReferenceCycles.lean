import PerfFormula.Proofs.Independence
import PerfFormula.Proofs.Loop

/-!
# Cycles of references

An evaluation follows references through formulas that it reads on the way, and what it has resolved
already it does not follow again. When it reports a cycle, the report is the way that it went: from
a name in the formula, each name refers to the next, and the last one was passed before. None of the
names has a value by then, since a reference gets one only when all that it needs has been resolved.

Main statements:

* `Context.closesLoop_of_nameMeaning` — a report lists a walk along references that closes a loop.
* `Context.nameMeaning_of_report` — every name on the way fails with the report of the whole.
* `Context.evaluate_cycle_closesLoop` — what an evaluation reports are references, before and after,
  and without a cycle in reach it reports none.
-/

namespace PerfFormula
namespace Context

variable {c : Context} {f : Formula} {chain report : List String} {name start : String}

/-! ## References between names -/

/-- One name refers to a formula that can be read and mentions the other. -/
def RefersTo (c : Context) (a b : String) : Prop :=
  ∃ source f, c.datum a = .ok (.reference source) ∧ Formula.parse source c.runtime = .ok f ∧
    b ∈ f.names

/-- A name that leads back to itself along references. -/
def IsCircular (c : Context) (name : String) : Prop := Relation.TransGen c.RefersTo name name

/-! ## Failing look-ups -/

/-- A cycle that a formula reports is reported by one of the names in it. -/
theorem name_of_meaning_cycle {lookup : String → Except FormulaError Float}
    (failed : f.meaning c.answers lookup = .error (.cycle report)) :
    ∃ n ∈ f.names, lookup n = .error (.cycle report) := by
  rcases Formula.error_of_meaning failed with ⟨a, same⟩ | ⟨n, consulted, failed⟩
  · cases same
  · exact ⟨n, consulted.mem_names, failed⟩

/-- A look-up reports a cycle where it meets a name of the chain again, or else behind a reference
that it follows. -/
theorem cases_of_nameMeaning_cycle (failed : c.nameMeaning chain name = .error (.cycle report)) :
    ∃ source, c.datum name = .ok (.reference source) ∧
      ((name ∈ chain ∧ report = chain ++ [name]) ∨
        (name ∉ chain ∧ ∃ n, c.RefersTo name n ∧
          c.nameMeaning (chain ++ [name]) n = .error (.cycle report))) := by
  rw [nameMeaning_eq] at failed
  split at failed
  · cases failed
  · cases failed
  · cases failed
  next source reference =>
  refine ⟨source, reference, ?_⟩
  split at failed
  · next onChain =>
    cases failed
    exact .inl ⟨onChain, rfl⟩
  next fresh =>
  split at failed
  · cases failed
  next g parses =>
  obtain ⟨n, mem, failed⟩ := name_of_meaning_cycle failed
  exact .inr ⟨fresh, n, ⟨source, g, reference, parses, mem⟩, failed⟩

/-! ## Reports -/

/-- A report lists a walk along references that closes a loop, and all of the names are references.
-/
theorem closesLoop_of_nameMeaning (starts : (chain ++ [name]).head? = some start)
    (along : (chain ++ [name]).IsChain c.RefersTo) (distinct : chain.Nodup)
    (failed : c.nameMeaning chain name = .error (.cycle report)) :
    ClosesLoop c.RefersTo start report := by
  -- Along the references that are followed: each one that is new makes the walk longer.
  induction chain, name using c.follow_induction with
  | each chain name ih =>
    obtain ⟨source, reference, ⟨onChain, rfl⟩ | ⟨fresh, n, refers, failed⟩⟩ :=
      cases_of_nameMeaning_cycle failed
    · exact ⟨starts, along, chain, name, rfl, distinct, onChain⟩
    · have starts' : (chain ++ [name] ++ [n]).head? = some start := by
        rw [List.head?_append, starts]
        rfl
      have along' : (chain ++ [name] ++ [n]).IsChain c.RefersTo := by
        rw [List.append_assoc]
        exact List.isChain_append_cons_cons.2 ⟨along, refers, List.isChain_singleton n⟩
      have distinct' : (chain ++ [name]).Nodup := by
        rw [← List.concat_eq_append]
        exact List.Nodup.concat fresh distinct
      exact ih source reference fresh n starts' along' distinct' failed

/-- Where every name of the chain fails with a report, so does every name of the report, behind
those in front of it. -/
theorem nameMeaning_of_report
    (failedBefore : ∀ before n, before ++ [n] <+: chain →
      c.nameMeaning before n = .error (.cycle report))
    (failed : c.nameMeaning chain name = .error (.cycle report)) (before : List String) (n : String)
    (passed : before ++ [n] <+: report) : c.nameMeaning before n = .error (.cycle report) := by
  induction chain, name using c.follow_induction with
  | each chain name ih =>
    -- The look-up itself is the last of the names that the chain has by then.
    have failedUpTo : ∀ before n, before ++ [n] <+: chain ++ [name] →
        c.nameMeaning before n = .error (.cycle report) := by
      intro before n passed
      rcases List.prefix_concat_iff.1 passed with same | passed
      · obtain ⟨rfl, rfl⟩ := List.append_singleton_inj.1 same
        exact failed
      · exact failedBefore before n passed
    obtain ⟨source, reference, ⟨-, rfl⟩ | ⟨fresh, m, -, failedBehind⟩⟩ :=
      cases_of_nameMeaning_cycle failed
    · exact failedUpTo before n passed
    · exact ih source reference fresh m failedUpTo failedBehind

/-! ## Evaluations -/

/-- A run that remembers what is meant remembers no name of a report: behind those in front of it,
which are not remembered either, it would have its value. -/
theorem apart_of_report {r : Run} (remembers : c.Remembers r)
    (fails : ∀ before n, before ++ [n] <+: report →
      c.nameMeaning before n = .error (.cycle report)) : Run.Apart report r := by
  -- From the front: what is remembered has the value that it has behind names that are not.
  have each : ∀ before, before <+: report → Run.Apart before r := by
    intro before
    induction before using List.reverseRecOn with
    | nil =>
      rintro - n ⟨⟩
    | append_singleton before n ih =>
      intro passed
      have apart := ih ((List.prefix_append before [n]).trans passed)
      refine Run.apart_append apart fun remembered => ?_
      obtain ⟨⟨n, x⟩, mem, rfl⟩ := List.mem_map.1 remembered
      have value := remembers.value _ mem before apart
      rw [fails before n passed] at value
      cases value
  exact each report (List.prefix_refl report)

/-- What an evaluation does not remember has the datum that it had. -/
theorem datum_evaluate_of_apart {n : String} (unknown : n ∉ (c.runFormula f).2.names) :
    (c.evaluate f).2.datum n = c.datum n := by
  rcases get?_settle c (c.runFormula f).2 n with same | ⟨x, mem, -⟩
  · exact congrArg (Except.map (·.getD .pending)) same
  · exact absurd (List.mem_map.2 ⟨(n, x), mem, rfl⟩) unknown

/-- When an evaluation reports a cycle, the report is a walk from a name in the formula along
references that passes no name twice, but for the last, which it has passed before; all of its names
are references and still are afterwards. Where no cycle of references is in reach, no evaluation
reports one. -/
theorem evaluate_cycle_closesLoop (c : Context) (f : Formula) :
    (∀ report, (c.evaluate f).1 = .error (.cycle report) →
      (∃ start ∈ f.names, ClosesLoop c.RefersTo start report) ∧
        ∀ n ∈ report, ∃ source, c.datum n = .ok (.reference source) ∧
          (c.evaluate f).2.datum n = .ok (.reference source)) ∧
      ((∀ start ∈ f.names, ∀ n, Relation.ReflTransGen c.RefersTo start n → ¬c.IsCircular n) →
        ∀ report, (c.evaluate f).1 ≠ .error (.cycle report)) := by
  have walk : ∀ report, (c.evaluate f).1 = .error (.cycle report) →
      ∃ start ∈ f.names, c.nameMeaning [] start = .error (.cycle report) ∧
        ClosesLoop c.RefersTo start report := by
    intro report failed
    rw [evaluate_outcome] at failed
    obtain ⟨start, mem, failed⟩ := name_of_meaning_cycle failed
    exact ⟨start, mem, failed,
      closesLoop_of_nameMeaning rfl (List.isChain_singleton start) List.nodup_nil failed⟩
  refine ⟨fun report failed => ?_, fun acyclic report failed => ?_⟩
  · obtain ⟨start, mem, failed, loop⟩ := walk report failed
    have fails : ∀ before n, before ++ [n] <+: report →
        c.nameMeaning before n = .error (.cycle report) :=
      nameMeaning_of_report (by simp) failed
    have apart := apart_of_report (faithful_runFormula c f).remembers fails
    refine ⟨⟨start, mem, loop⟩, fun n passed => ?_⟩
    obtain ⟨before, behind, rfl⟩ := List.append_of_mem passed
    obtain ⟨source, reference, -⟩ :=
      cases_of_nameMeaning_cycle (fails before n ⟨behind, by simp⟩)
    exact ⟨source, reference, (datum_evaluate_of_apart (apart n passed)).trans reference⟩
  · obtain ⟨start, mem, -, loop⟩ := walk report failed
    obtain ⟨n, next, reaches, leaves, returns⟩ := loop.exists_cycle
    exact acyclic start mem n reaches (.head' leaves returns)

/-- A context in which `a` and `b` refer to each other. -/
def circling : Context :=
  ⟨.live (.ofList [("a", .reference "c - b"), ("b", .reference "a"), ("c", .value 2.0)]), 0,
    fun _ => 0.0⟩

/-- From `a` the way leads to `b` and back, and neither has a value afterwards. -/
theorem evaluate_circling :
    (circling.evaluate (.name "a")).1 = .error (.cycle ["a", "b", "a"]) ∧
      ClosesLoop circling.RefersTo "a" ["a", "b", "a"] ∧
      (circling.evaluate (.name "a")).2.datum "b" = .ok (.reference "a") := by
  have failed : (circling.evaluate (.name "a")).1 = .error (.cycle ["a", "b", "a"]) := by
    have parsesA : Formula.parse "c - b" 0 = .ok (.binary .sub (.name "c") (.name "b")) := by cbv
    have parsesB : Formula.parse "a" 0 = .ok (.name "a") := by cbv
    have again : circling.nameMeaning ["a", "b"] "a" = .error (.cycle ["a", "b", "a"]) := by
      rw [nameMeaning_eq]
      rfl
    have value : circling.nameMeaning ["a"] "c" = .ok 2.0 := by
      rw [nameMeaning_eq]
      rfl
    rw [evaluate_outcome]
    show circling.nameMeaning [] "a" = _
    rw [nameMeaning_follow rfl (by simp) parsesA]
    show (circling.nameMeaning ["a"] "c" >>= fun x => circling.nameMeaning ["a"] "b" >>= _) = _
    rw [value]
    show (circling.nameMeaning ["a"] "b" >>= _) = _
    rw [nameMeaning_follow rfl (by simp) parsesB]
    show (circling.nameMeaning ["a", "b"] "a" >>= _) = _
    rw [again]
    rfl
  obtain ⟨⟨start, mem, loop⟩, references⟩ := (evaluate_cycle_closesLoop circling _).1 _ failed
  obtain rfl := List.mem_singleton.1 mem
  obtain ⟨source, before, after⟩ := references "b" (by simp)
  cases before
  exact ⟨failed, loop, after⟩

end Context
end PerfFormula
