import PerfFormula.Evaluation.Meaning
import PerfFormula.Evaluation.Needed
import PerfFormula.Proofs.Outcome
import PerfFormula.Proofs.SameNumber

/-!
# Folding is sound

A formula that is folded to a constant before its names are known has no other value: whatever the
names stand for, if an evaluation gives a value, then that value and the constant are equal as
numbers. They need not be equal: `0.0 if x else -0.0` folds to `0.0`, and its value may be `-0.0`.

Main statements:

* `Formula.meaning_of_constant` — the value of a formula that folds to a constant is that constant.
* `Formula.isTrue_of_constant` — so a condition that folds to a constant selects the branch that the
  constant selects.
-/

namespace PerfFormula

/-! ## What folds to a constant -/

namespace Needed

theorem fold₁_eq_constant {g : Float → Except ArithmeticError Float} {a : Needed} {z : Float}
    (h : fold₁ g a = .constant z) : ∃ x, a = .constant x ∧ g x = .ok z := by
  unfold fold₁ at h
  split at h
  · next x =>
    split at h
    · next y hy =>
      cases h
      exact ⟨x, rfl, hy⟩
    · cases h
  · cases h

theorem fold₂_eq_constant {g : Float → Float → Except ArithmeticError Float} {a b : Needed}
    {z : Float} (h : fold₂ g a b = .constant z) :
    ∃ x y, a = .constant x ∧ b = .constant y ∧ g x y = .ok z := by
  unfold fold₂ at h
  split at h
  · next x y =>
    split at h
    · next z hz =>
      cases h
      exact ⟨x, y, rfl, rfl, hz⟩
    · cases h
  · cases h

theorem choose_eq_constant {a b c : Needed} {z : Float} (h : choose a b c = .constant z) :
    ∃ y, b = .constant z ∧ c = .constant y ∧ (z == y) = true := by
  unfold choose at h
  simp only at h
  split at h
  · next x y =>
    split at h
    · next same =>
      cases h
      exact ⟨y, rfl, rfl, same⟩
    · cases h
  · cases h

end Needed

namespace Formula

variable {answers : HostLiteral → Float} {lookup : String → Except FormulaError Float}

/-- If a formula folds to a constant and an evaluation gives it a value, then the two are equal as
numbers. -/
theorem meaning_of_constant {f : Formula} {v w : Float} (folded : f.needed answers = .constant v)
    (value : f.meaning answers lookup = .ok w) : SameNumber v w := by
  induction f generalizing v w with
  | number x =>
    cases folded
    cases value
    exact .refl _
  | name n => cases folded
  | host l =>
    cases folded
    cases value
    exact .refl _
  | binary op l r ihl ihr =>
    obtain ⟨x, y, hl, hr, hv⟩ := Needed.fold₂_eq_constant folded
    obtain ⟨x', hx, value⟩ := ok_of_bind value
    obtain ⟨y', hy, value⟩ := ok_of_bind value
    exact Operator.sameNumber_apply (ihl hl hx) (ihr hr hy) hv (mapError_eq_ok_iff.1 value)
  | negate f ih =>
    obtain ⟨x, hf, hv⟩ := Needed.fold₁_eq_constant folded
    obtain ⟨x', hx, value⟩ := ok_of_bind value
    cases hv
    cases value
    exact (ih hf hx).neg
  | choice c t f ihc iht ihf =>
    obtain ⟨x', hx, value⟩ := ok_of_bind value
    unfold needed at folded
    split at folded
    · next x hc =>
      -- A constant condition selects the same branch before and after.
      rw [(ihc hc hx).isTrue_eq] at folded
      split at folded
      · next yes =>
        rw [if_pos yes] at value
        exact iht folded value
      · next no =>
        rw [if_neg no] at value
        exact ihf folded value
    · -- The branches are the same number, so that it does not matter which one is taken.
      obtain ⟨y, ht, hf, same⟩ := Needed.choose_eq_constant folded
      split at value
      · exact iht ht value
      · exact (SameNumber.of_beq same).trans (ihf hf value)
  | call g a b iha ihb =>
    obtain ⟨x, y, ha, hb, hv⟩ := Needed.fold₂_eq_constant folded
    obtain ⟨x', hx, value⟩ := ok_of_bind value
    obtain ⟨y', hy, value⟩ := ok_of_bind value
    cases hv
    cases value
    exact Builtin.sameNumber_apply (iha ha hx) (ihb hb hy)

/-- A condition that folds to a constant selects the branch that the constant selects. -/
theorem isTrue_of_constant {f : Formula} {v w : Float} (folded : f.needed answers = .constant v)
    (value : f.meaning answers lookup = .ok w) : isTrue w = isTrue v :=
  (meaning_of_constant folded value).isTrue_eq.symm

end Formula
end PerfFormula
