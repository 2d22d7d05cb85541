import PerfFormula.Proofs.Consulted
import PerfFormula.Proofs.Folding
import PerfFormula.Proofs.Memory

/-!
# The needed names determine the value

What a formula needs is found out before any of its names is known. Whatever they turn out to be,
two evaluations that give values give the same number if they know the same of the needed names. In
particular a formula that folds to a constant has no other value. The values are the same number and
not the same double: `0.0 if x else -0.0` needs nothing, and `x` decides the sign of its zero.

The two evaluations may differ on their way. They take different branches of a choice only if the
choice is reducible, and then both branches are the constant that the choice folds to.

Main statements:

* `Formula.sameNumber_of_meaning` — look-ups that agree on the needed names give the same number.
* `Context.sameNumber_of_evaluate_constant` — the value of a formula that folds to a constant.
* `Context.sameNumber_of_knowsAlike` — the values of a formula in contexts that agree on what it
  needs.
-/

namespace PerfFormula

/-! ## Look-ups that agree -/

namespace Formula

variable {answers : HostLiteral → Float} {lookup lookup' : String → Except FormulaError Float}

/-- If two look-ups give the needed names the same numbers, wherever both give a number, then they
give the formula the same number. -/
theorem sameNumber_of_meaning {f : Formula} {w w' : Float}
    (agree : ∀ n ∈ (f.needed answers).list, ∀ x x',
      lookup n = .ok x → lookup' n = .ok x' → SameNumber x x')
    (value : f.meaning answers lookup = .ok w) (value' : f.meaning answers lookup' = .ok w') :
    SameNumber w w' := by
  induction f generalizing w w' with
  | number x =>
    cases value
    cases value'
    exact .refl _
  | name n => exact agree n (List.mem_singleton.2 rfl) w w' value value'
  | host l =>
    cases value
    cases value'
    exact .refl _
  | binary op l r ihl ihr =>
    obtain ⟨x, hx, value⟩ := ok_of_bind value
    obtain ⟨y, hy, value⟩ := ok_of_bind value
    obtain ⟨x', hx', value'⟩ := ok_of_bind value'
    obtain ⟨y', hy', value'⟩ := ok_of_bind value'
    have left : SameNumber x x' :=
      ihl (fun n hn => agree n (Needed.mem_list_fold₂.2 (.inl hn))) hx hx'
    have right : SameNumber y y' :=
      ihr (fun n hn => agree n (Needed.mem_list_fold₂.2 (.inr hn))) hy hy'
    exact Operator.sameNumber_apply left right (mapError_eq_ok_iff.1 value)
      (mapError_eq_ok_iff.1 value')
  | negate f ih =>
    obtain ⟨x, hx, value⟩ := ok_of_bind value
    obtain ⟨x', hx', value'⟩ := ok_of_bind value'
    have operand : SameNumber x x' := by
      refine ih (fun n hn => agree n ?_) hx hx'
      rw [needed, Needed.list_fold₁]
      exact hn
    cases value
    cases value'
    exact operand.neg
  | choice c t f ihc iht ihf =>
    by_cases reducible : (choice c t f).IsReducible answers
    · -- The conditions may differ here, but the choice is a constant.
      obtain ⟨v, folded⟩ := needed_of_isReducible reducible
      exact (meaning_of_constant folded value).symm.trans (meaning_of_constant folded value')
    · obtain ⟨x, hx, value⟩ := ok_of_bind value
      obtain ⟨x', hx', value'⟩ := ok_of_bind value'
      -- Both conditions select the same branch, and what that one needs is needed.
      have same : isTrue x' = isTrue x := by
        cases hc : c.needed answers with
        | constant v => rw [isTrue_of_constant hc hx, isTrue_of_constant hc hx']
        | names ns =>
          have condition : SameNumber x x' :=
            ihc (fun n hn => agree n ((mem_needed_choice hc reducible).2 (.inl hn))) hx hx'
          exact condition.isTrue_eq.symm
      have selected := selected_of_meaning hx
      rw [same] at value'
      cases hb : isTrue x with
      | true =>
        rw [hb] at value value' selected
        exact iht (fun n hn => agree n (mem_needed_of_branch (b := true) hn selected)) value value'
      | false =>
        rw [hb] at value value' selected
        exact ihf (fun n hn => agree n (mem_needed_of_branch (b := false) hn selected)) value value'
  | call g a b iha ihb =>
    obtain ⟨x, hx, value⟩ := ok_of_bind value
    obtain ⟨y, hy, value⟩ := ok_of_bind value
    obtain ⟨x', hx', value'⟩ := ok_of_bind value'
    obtain ⟨y', hy', value'⟩ := ok_of_bind value'
    have first : SameNumber x x' :=
      iha (fun n hn => agree n (Needed.mem_list_fold₂.2 (.inl hn))) hx hx'
    have second : SameNumber y y' :=
      ihb (fun n hn => agree n (Needed.mem_list_fold₂.2 (.inr hn))) hy hy'
    cases value
    cases value'
    exact Builtin.sameNumber_apply first second

end Formula

namespace Context

/-! ## Contexts that agree -/

/-- Without references a name that has a meaning has it as its value. -/
theorem value_of_nameMeaning {c : Context} {chain : List String} {name : String} {x : Float}
    (unreferenced : ∀ n source, c.datum n ≠ .ok (.reference source))
    (value : c.nameMeaning chain name = .ok x) : c.datum name = .ok (.value x) := by
  rw [nameMeaning_eq] at value
  split at value
  · cases value
  · cases value
  · next found =>
    cases value
    exact found
  · next source reference => exact absurd reference (unreferenced name source)

/-- Two contexts know the same of a name: both have a value for it, and that is the same number, or
neither has one. -/
def KnowsAlike (c c' : Context) (name : String) : Prop :=
  (∃ x x', c.datum name = .ok (.value x) ∧ c'.datum name = .ok (.value x') ∧ SameNumber x x') ∨
    (∀ x, c.datum name ≠ .ok (.value x)) ∧ ∀ x, c'.datum name ≠ .ok (.value x)

theorem KnowsAlike.sameNumber {c c' : Context} {name : String} (h : c.KnowsAlike c' name)
    {x x' : Float} (value : c.datum name = .ok (.value x))
    (value' : c'.datum name = .ok (.value x')) : SameNumber x x' := by
  rcases h with ⟨y, y', hy, hy', same⟩ | ⟨valueless, -⟩
  · rw [value] at hy
    rw [value'] at hy'
    cases hy
    cases hy'
    exact same
  · exact absurd value (valueless x)

/-! ## Folded formulas -/

/-- If a formula folds to a constant, then no context gives it another value, whatever its names are
in there: values, references to formulas, or nothing. -/
theorem sameNumber_of_evaluate_constant {c : Context} {f : Formula} {v w : Float}
    (folded : f.needed c.answers = .constant v) (value : (c.evaluate f).1 = .ok w) :
    SameNumber w v := by
  rw [evaluate_outcome] at value
  exact (Formula.meaning_of_constant folded value).symm

/-- The formula `min(0.0 if a else -0.0, 1.0)`, in which `a` decides no more than a sign. -/
def signOnly : Formula :=
  .call .min (.choice (.name "a") (.number 0.0) (.number (-0.0))) (.number 1.0)

/-- A context in which `a` refers to a formula. -/
def referringA : Context :=
  ⟨.live (.ofList [("a", .reference "b"), ("b", .value 0.0)]), 0, fun _ => 0.0⟩

/-- The constant is one zero, and the value is the other one. -/
theorem evaluate_signOnly_referringA :
    signOnly.needed referringA.answers = .constant 0.0 ∧
      (referringA.evaluate signOnly).1 = .ok (-0.0) ∧ SameNumber (-0.0) 0.0 := by
  have zeros : ((0.0 : Float) == -0.0) = true := by decide +kernel
  have less : (0.0 : Float) < 1.0 := by decide +kernel
  have folded : signOnly.needed referringA.answers = .constant 0.0 := by
    simp only [signOnly, Formula.needed, Needed.choose, Needed.fold₂, zeros, if_true,
      Builtin.apply, if_pos less]
  have parses : Formula.parse "b" 0 = .ok (.name "b") := by cbv
  have reference : referringA.datum "a" = .ok (.reference "b") := rfl
  have a : referringA.nameMeaning [] "a" = .ok 0.0 := by
    rw [nameMeaning_follow reference (by simp) parses, Formula.meaning, nameMeaning_eq]
    rfl
  have value : (referringA.evaluate signOnly).1 = .ok (-0.0) := by
    rw [evaluate_outcome]
    simp only [meaning, Formula.meaning, a, signOnly]
    rfl
  exact ⟨folded, value, sameNumber_of_evaluate_constant folded value⟩

/-! ## Two contexts -/

/-- The values of a formula in two contexts are the same number if the contexts have the same
answers to host literals, refer to no formulas, and know the same of each name that the formula
needs. What else they know makes no difference. -/
theorem sameNumber_of_knowsAlike {c c' : Context} {f : Formula} {w w' : Float}
    (system : c'.answers = c.answers)
    (unreferenced : ∀ n source, c.datum n ≠ .ok (.reference source))
    (unreferenced' : ∀ n source, c'.datum n ≠ .ok (.reference source))
    (alike : ∀ n ∈ (f.needed c.answers).list, c.KnowsAlike c' n)
    (value : (c.evaluate f).1 = .ok w) (value' : (c'.evaluate f).1 = .ok w') :
    SameNumber w w' := by
  rw [evaluate_outcome, meaning] at value value'
  rw [system] at value'
  refine Formula.sameNumber_of_meaning (fun n hn x x' hx hx' => ?_) value value'
  have found := value_of_nameMeaning unreferenced hx
  have found' := value_of_nameMeaning unreferenced' hx'
  exact (alike n hn).sameNumber found found'

/-- The formula `b + (0.0 if a else -0.0)`, which needs `b`. -/
def signedSum : Formula :=
  .binary .add (.name "b") (.choice (.name "a") (.number 0.0) (.number (-0.0)))

/-- A context in which `a` and `b` have values, and `c` waits for one. -/
def valued (a b : Float) : Context :=
  ⟨.live (.ofList [("a", .value a), ("b", .value b), ("c", .pending)]), 0, fun _ => 0.0⟩

/-- The contexts differ in `a`, and in the sign of the zero `b`: so does the value. -/
theorem evaluate_signedSum_valued :
    (∀ n ∈ (signedSum.needed (valued 1.0 0.0).answers).list,
      (valued 1.0 0.0).KnowsAlike (valued 0.0 (-0.0)) n) ∧
      ((valued 1.0 0.0).evaluate signedSum).1 = .ok 0.0 ∧
      ((valued 0.0 (-0.0)).evaluate signedSum).1 = .ok (-0.0) ∧ SameNumber 0.0 (-0.0) := by
  have zeros : ((0.0 : Float) == -0.0) = true := by decide +kernel
  have needsB : (signedSum.needed (valued 1.0 0.0).answers).list = ["b"] := by
    simp only [signedSum, Formula.needed, Needed.choose, Needed.fold₂, zeros, if_true]
    rfl
  have alike : ∀ n ∈ (signedSum.needed (valued 1.0 0.0).answers).list,
      (valued 1.0 0.0).KnowsAlike (valued 0.0 (-0.0)) n := by
    intro n hn
    rw [needsB] at hn
    obtain rfl : n = "b" := List.mem_singleton.1 hn
    exact .inl ⟨0.0, -0.0, rfl, rfl, .of_beq zeros⟩
  have value : ((valued 1.0 0.0).evaluate signedSum).1 = .ok 0.0 := by
    rw [evaluate_outcome]
    simp only [meaning, Formula.meaning, nameMeaning_eq, signedSum]
    rfl
  have value' : ((valued 0.0 (-0.0)).evaluate signedSum).1 = .ok (-0.0) := by
    rw [evaluate_outcome]
    simp only [meaning, Formula.meaning, nameMeaning_eq, signedSum]
    rfl
  have system : (valued 0.0 (-0.0)).answers = (valued 1.0 0.0).answers := rfl
  have closed : ∀ a b, (valued a b).references = [] := fun _ _ => rfl
  have unreferenced := datum_ne_reference (closed 1.0 0.0)
  have unreferenced' := datum_ne_reference (closed 0.0 (-0.0))
  have same : SameNumber 0.0 (-0.0) :=
    sameNumber_of_knowsAlike system unreferenced unreferenced' alike value value'
  exact ⟨alike, value, value', same⟩

end Context
end PerfFormula
