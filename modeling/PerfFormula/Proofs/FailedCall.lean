import Mathlib
import PerfFormula.Evaluation.Call
import PerfFormula.Proofs.Memory

/-!
# What a failed call leaves behind

A call on a context may fail for its runtime parameter, for its text, or in the evaluation. Before
the evaluation begins nothing has changed, and finding the names of a text fails only there. An
evaluation that fails has taken over the runtime parameter of its call, and it keeps the values of
the references that it resolved on the way to the failure. Nothing else has changed then.

Main statements:

* `Context.evaluateText_changes_referring` — so a call that fails may well change the context.
* `Context.resolved_evaluate` — what an evaluation changes, whether it fails or not.
* `Context.failed_call_keeps` — what is left of a context after a call that failed.
-/

namespace PerfFormula
namespace Context

variable {c : Context}

/-! ## A call that fails and changes the context -/

/-- A context in which `a` refers to the formula `b`. -/
def referring (runtime : Nat) : Context :=
  ⟨.live (.ofList [("a", .reference "b"), ("b", .value 2.0)]), runtime, fun _ => 0.0⟩

theorem runFormula_referring : (referring 3).runFormula (.binary .add (.name "a") (.name "c")) =
    (.error (.undefined "c"), ⟨[("a", 2.0)], []⟩) := by
  have parses : Formula.parse "b" 3 = .ok (.name "b") := by cbv
  have b : after ((referring 3).resolve ["a"] "b") Run.start = (.ok 2.0, Run.start) := by
    rw [after_resolve]
    rfl
  have a : after ((referring 3).resolve [] "a") Run.start = (.ok 2.0, ⟨[("a", 2.0)], []⟩) := by
    have reference : (referring 3).datum "a" = .ok (.reference "b") := rfl
    rw [after_resolve_follow rfl reference (by simp) parses]
    show remembering "a" (after ((referring 3).resolve ["a"] "b") Run.start) = _
    rw [b]
    rfl
  have missing : after ((referring 3).resolve [] "c") ⟨[("a", 2.0)], []⟩ =
      (.error (.undefined "c"), ⟨[("a", 2.0)], []⟩) := by
    rw [after_resolve]
    rfl
  show after ((referring 3).resolve [] "a" >>= _) Run.start = _
  rw [after_bind, a]
  show after ((referring 3).resolve [] "c" >>= _) _ = _
  rw [after_bind, missing]

theorem evaluateText_referring : (referring 0).evaluateText "a + c" (some 3) =
    (.error (.undefined "c"), (referring 3).settle ⟨[("a", 2.0)], []⟩) := by
  have parses : parse "a + c" 3 = .ok (.binary .add (.name "a") (.name "c")) := by cbv
  have started : (referring 0).start "a + c" (some 3) =
      .ok (referring 3, .binary .add (.name "a") (.name "c")) := by
    show parse "a + c" 3 >>= _ = _
    rw [parses]
    rfl
  rw [evaluateText, started]
  show (referring 3).evaluate _ = _
  rw [evaluate, runFormula_referring]

/-- A call that misses a name has changed the runtime parameter and the datum of another name. -/
theorem evaluateText_changes_referring :
    ((referring 0).evaluateText "a + c" (some 3)).1 = .error (.undefined "c") ∧
      ((referring 0).evaluateText "a + c" (some 3)).2.runtime ≠ (referring 0).runtime ∧
      ((referring 0).evaluateText "a + c" (some 3)).2.ids.get? "a" ≠
        (referring 0).ids.get? "a" := by
  rw [evaluateText_referring]
  refine ⟨rfl, ?_, ?_⟩
  · show 3 ≠ 0
    decide
  · show Except.ok (some (Datum.value 2.0)) ≠ Except.ok (some (Datum.reference "b"))
    intro h
    cases h

/-! ## What an evaluation changes -/

/-- A context after an evaluation with a runtime parameter: the names and their order are the same,
and a datum that is not the same was a reference and is now the value that it means. -/
structure Resolved (c : Context) (runtime : Nat) (after : Context) : Prop where
  runtime_eq : after.runtime = runtime
  answers_eq : after.answers = c.answers
  keys_eq : after.ids.keys = c.ids.keys
  datum : ∀ name, after.ids.get? name = c.ids.get? name ∨
    ∃ source x, c.ids.get? name = .ok (some (.reference source)) ∧
      after.ids.get? name = .ok (some (.value x)) ∧
      ({ c with runtime } : Context).meaning (.name name) = .ok x

theorem settle_runtime (c : Context) (r : Run) : (c.settle r).runtime = c.runtime := by
  unfold settle
  split <;> rfl

theorem settle_answers (c : Context) (r : Run) : (c.settle r).answers = c.answers := by
  unfold settle
  split <;> rfl

/-- What an evaluation changes, whether it fails or not. -/
theorem resolved_evaluate (c : Context) (f : Formula) :
    c.Resolved c.runtime (c.evaluate f).2 := by
  have faithful := faithful_runFormula c f
  show c.Resolved c.runtime (c.settle (c.runFormula f).2)
  refine ⟨settle_runtime c _, settle_answers c _, keys_settle_of_remembers faithful.remembers,
    fun name => ?_⟩
  rcases get?_settle c (c.runFormula f).2 name with same | ⟨x, hx, value⟩
  · exact .inl same
  · obtain ⟨source, reference⟩ := faithful.remembers.reference _ hx
    have meant : c.nameMeaning [] name = .ok x := faithful.remembers.value _ hx [] faithful.apart
    exact .inr ⟨source, x, get?_of_reference reference, value, meant⟩

/-- Where no name refers to a formula, there is nothing that an evaluation could change. -/
theorem evaluate_of_unreferenced (unreferenced : ∀ n source, c.datum n ≠ .ok (.reference source))
    (f : Formula) : (c.evaluate f).2 = c := by
  have nothing : (c.runFormula f).2.resolved = [] := by
    rw [List.eq_nil_iff_forall_not_mem]
    intro entry mem
    obtain ⟨source, reference⟩ := (faithful_runFormula c f).remembers.reference entry mem
    exact unreferenced entry.1 source reference
  show c.settle (c.runFormula f).2 = c
  unfold settle
  split
  · rfl
  · next m live =>
    rw [nothing, List.foldr_nil, ← live]
    rfl

/-! ## Calls that fail -/

theorem start_eq_ok {source : String} {given : Option Int} {c' : Context} {f : Formula}
    (h : c.start source given = .ok (c', f)) :
    ∃ r, c.callRuntime given = .ok r ∧ parse source r = .ok f ∧ c' = { c with runtime := r } := by
  obtain ⟨r, checked, h⟩ := ok_of_bind h
  obtain ⟨g, parses, h⟩ := ok_of_bind h
  cases h
  exact ⟨r, checked, parses, rfl⟩

/-- What is left of a context after a call that failed: all of it, if the call failed for its
runtime parameter or its text, and else what an evaluation with the runtime parameter of the call
leaves. -/
inductive LeftBy (c : Context) (source : String) (given : Option Int) (e : FormulaError) :
    Context → Prop where
  | unstarted : c.start source given = .error e → LeftBy c source given e c
  | evaluated {r : Nat} {f : Formula} {after : Context} :
      c.callRuntime given = .ok r → parse source r = .ok f →
      ({ c with runtime := r } : Context).meaning f = .error e → c.Resolved r after →
      LeftBy c source given e after

theorem leftBy_evaluateText {source : String} {given : Option Int} {e : FormulaError}
    (failed : (c.evaluateText source given).1 = .error e) :
    c.LeftBy source given e (c.evaluateText source given).2 := by
  unfold evaluateText at failed ⊢
  cases started : c.start source given with
  | error e' =>
    rw [started] at failed
    cases failed
    exact .unstarted started
  | ok result =>
    obtain ⟨c', f⟩ := result
    obtain ⟨r, checked, parses, rfl⟩ := start_eq_ok started
    rw [started] at failed
    have meant : ({ c with runtime := r } : Context).meaning f = .error e := by
      rw [← evaluate_outcome]
      exact failed
    have resolved := resolved_evaluate { c with runtime := r } f
    exact .evaluated checked parses meant
      ⟨resolved.runtime_eq, resolved.answers_eq, resolved.keys_eq, resolved.datum⟩

/-- An answer with status -1 stands for a failed evaluation. -/
theorem evaluateText_of_tryText {source : String} {given : Option Int} {x : Float}
    (failed : (c.tryText source given).1 = .ok (x, -1)) :
    (∃ e, (c.evaluateText source given).1 = .error e) ∧
      (c.tryText source given).2 = (c.evaluateText source given).2 := by
  unfold tryText at failed ⊢
  generalize c.evaluateText source given = result at failed ⊢
  rcases result with ⟨e | y, after⟩
  · refine ⟨⟨e, rfl⟩, ?_⟩
    cases e <;> rfl
  · have status : (0 : Int) = -1 := congrArg Prod.snd (Except.ok.inj failed)
    cases status

/-- Finding the names of a text in a live context fails only for the runtime parameter and for the
text. -/
theorem start_of_findText {m : NameMap Datum} (live : c.ids = .live m) {source : String}
    {excluded : List String} {given : Option Int} {e : FormulaError}
    (failed : (c.findText source excluded given).1 = .error e) :
    c.start source given = .error e ∧ (c.findText source excluded given).2 = c := by
  have found : c.findNames source excluded given = .error e := by
    unfold findText at failed
    split at failed
    · cases failed
    · next e' h =>
      cases failed
      exact h
  refine ⟨?_, by rw [findText, found]⟩
  rcases error_of_bind found with needed | ⟨names, -, added⟩
  · -- The names are found in the same steps as an evaluation starts.
    rcases error_of_bind needed with unchecked | ⟨r, checked, needed⟩
    · rw [start, unchecked]
      rfl
    · rcases error_of_bind needed with malformed | ⟨f, -, listed⟩
      · rw [start, checked]
        show parse source r >>= _ = _
        rw [malformed]
        rfl
      · cases listed
  · rw [live] at added
    cases added

/-- What is left of a live context after a call that failed. A call that finds names leaves it as it
was. So does an evaluation that failed for the runtime parameter or the text; one that failed later
has taken over the runtime parameter, and it may have given references their values. Without
references and without another runtime parameter the context is as it was in any case. -/
theorem failed_call_keeps {m : NameMap Datum} (live : c.ids = .live m) (source : String)
    (excluded : List String) (given : Option Int) :
    (∀ e, (c.findText source excluded given).1 = .error e →
      c.start source given = .error e ∧ (c.findText source excluded given).2 = c) ∧
    (∀ e, (c.evaluateText source given).1 = .error e →
      c.LeftBy source given e (c.evaluateText source given).2) ∧
    (∀ x, (c.tryText source given).1 = .ok (x, -1) →
      ∃ e, c.LeftBy source given e (c.tryText source given).2) ∧
    ((∀ n source, c.datum n ≠ .ok (.reference source)) →
      (given = none ∨ given = some (c.runtime : Int)) →
      (c.evaluateText source given).2 = c) := by
  refine ⟨fun e failed => start_of_findText live failed, fun e => leftBy_evaluateText, ?_, ?_⟩
  · intro x failed
    obtain ⟨⟨e, evaluated⟩, same⟩ := evaluateText_of_tryText failed
    rw [same]
    exact ⟨e, leftBy_evaluateText evaluated⟩
  · intro unreferenced own
    have runtime : c.callRuntime given = .ok c.runtime := by
      rcases own with rfl | rfl
      · rfl
      · show checkRuntime (c.runtime : Int) = _
        rw [checkRuntime, if_neg (by omega), Int.toNat_natCast]
    unfold evaluateText
    cases started : c.start source given with
    | error e => rfl
    | ok result =>
      obtain ⟨c', f⟩ := result
      obtain ⟨r, checked, -, rfl⟩ := start_eq_ok started
      obtain rfl : r = c.runtime := Except.ok.inj (checked.symm.trans runtime)
      exact evaluate_of_unreferenced unreferenced f

/-- A context without references. -/
def lacking : Context := ⟨.live (.ofList [("b", .value 2.0)]), 0, fun _ => 0.0⟩

/-- A call with another runtime parameter on a context with a reference, and one without either. -/
theorem failed_call_keeps_referring :
    ((referring 0).findText "a + c" ["c"] (some (-1))).1 = .error (.negativeRuntime (-1)) ∧
      ((referring 0).findText "a + c" ["c"] (some (-1))).2 = referring 0 ∧
      (referring 0).LeftBy "a + c" (some 3) (.undefined "c")
        ((referring 0).evaluateText "a + c" (some 3)).2 ∧
      ((referring 0).tryText "a + c" (some 3)).1 = .ok (0.0 / 0.0, -1) ∧
      (∃ e, (referring 0).LeftBy "a + c" (some 3) e ((referring 0).tryText "a + c" (some 3)).2) ∧
      (lacking.evaluateText "b + c" none).2 = lacking := by
  have refused : ((referring 0).findText "a + c" ["c"] (some (-1))).1 =
      .error (.negativeRuntime (-1)) := rfl
  have failed : ((referring 0).evaluateText "a + c" (some 3)).1 = .error (.undefined "c") := by
    rw [evaluateText_referring]
  have status : ((referring 0).tryText "a + c" (some 3)).1 = .ok (0.0 / 0.0, -1) := by
    rw [tryText, evaluateText_referring]
  have closed : lacking.references = [] := rfl
  obtain ⟨find, -, -, -⟩ := failed_call_keeps (c := referring 0) rfl "a + c" ["c"] (some (-1))
  obtain ⟨-, evaluate, attempt, -⟩ := failed_call_keeps (c := referring 0) rfl "a + c" [] (some 3)
  obtain ⟨-, -, -, own⟩ := failed_call_keeps (c := lacking) rfl "b + c" [] none
  exact ⟨refused, (find _ refused).2, evaluate _ failed, status, attempt _ status,
    own (datum_ne_reference closed) (.inl rfl)⟩

end Context
end PerfFormula
