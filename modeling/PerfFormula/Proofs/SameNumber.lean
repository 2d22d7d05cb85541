import Mathlib
import PerfFormula.Formula.Arithmetic

/-!
# Equality as numbers

Two doubles are equal as numbers when they compare as equal or when neither is a number. This is
coarser than equality: it does not tell the two zeros apart. Every operator and every function of
formulas respects it, as far as it has a value: the sign of a zero shows only in a division by that
zero, and such a division is an error or answered by zero.

Main statements:

* `Operator.sameNumber_apply` — an operator sends operands that are equal as numbers to values that
  are equal as numbers.
* `Builtin.sameNumber_apply` — so does a function.
* `SameNumber.isTrue_eq` — numbers that are equal as numbers select the same branch of a choice.
-/

namespace PerfFormula

open Float.Model (UnpackedFloat)

/-- Equal as numbers: the two zeros are, and what is not a number is equal to itself only. -/
def SameNumber (x y : Float) : Prop := (x == y) = true ∨ (x.isNaN = true ∧ y.isNaN = true)

/-! ## Unpacked doubles -/

/-- Unpacked doubles that are equal up to the sign of a zero. -/
def UpToZeroSign (u v : UnpackedFloat) : Prop := u = v ∨ ∃ s t, u = .zero s ∧ v = .zero t

namespace UpToZeroSign

theorem refl (u : UnpackedFloat) : UpToZeroSign u u := .inl rfl

theorem zero (s t : UnpackedFloat.Sign) : UpToZeroSign (.zero s) (.zero t) := .inr ⟨s, t, rfl, rfl⟩

theorem trans {u v w : UnpackedFloat} (huv : UpToZeroSign u v) (hvw : UpToZeroSign v w) :
    UpToZeroSign u w := by
  rcases huv with rfl | ⟨s, t, rfl, rfl⟩
  · exact hvw
  · rcases hvw with rfl | ⟨s', t', -, rfl⟩
    · exact zero s t
    · exact zero s t'

/-- An operation respects equality up to the sign of a zero if it does so in each operand. -/
theorem map₂ {op : UnpackedFloat → UnpackedFloat → UnpackedFloat}
    (left : ∀ s t v, UpToZeroSign (op (.zero s) v) (op (.zero t) v))
    (right : ∀ s t u, UpToZeroSign (op u (.zero s)) (op u (.zero t)))
    {u u' v v' : UnpackedFloat} (hu : UpToZeroSign u u') (hv : UpToZeroSign v v') :
    UpToZeroSign (op u v) (op u' v') := by
  have first : UpToZeroSign (op u v) (op u' v) := by
    rcases hu with rfl | ⟨s, t, rfl, rfl⟩
    · exact refl _
    · exact left s t v
  have second : UpToZeroSign (op u' v) (op u' v') := by
    rcases hv with rfl | ⟨s, t, rfl, rfl⟩
    · exact refl _
    · exact right s t u'
  exact first.trans second

theorem neg {u v : UnpackedFloat} (h : UpToZeroSign u v) : UpToZeroSign u.neg v.neg := by
  rcases h with rfl | ⟨s, t, rfl, rfl⟩
  · exact refl _
  · exact zero _ _

theorem add {u u' v v' : UnpackedFloat} (hu : UpToZeroSign u u') (hv : UpToZeroSign v v') :
    UpToZeroSign (UnpackedFloat.add .binary64 u v) (UnpackedFloat.add .binary64 u' v') := by
  refine map₂ (fun s t v => ?_) (fun s t u => ?_) hu hv
  · -- Only a zero plus a zero depends on the signs, and it is a zero again.
    cases v with
    | zero r => cases r <;> cases s <;> cases t <;> exact zero _ _
    | _ => exact refl _
  · cases u with
    | zero r => cases r <;> cases s <;> cases t <;> exact zero _ _
    | _ => exact refl _

theorem sub_eq_add_neg (spec : Float.Model.Format) (u v : UnpackedFloat) :
    UnpackedFloat.sub spec u v = UnpackedFloat.add spec u v.neg := by
  cases u with
  | finite s m e hm =>
    cases v with
    | finite t m' e' hm' =>
      cases t with
      | positive => rfl
      | negative =>
        show UnpackedFloat.normalize spec (_ - -_) _ _ = UnpackedFloat.normalize spec (_ + _) _ _
        rw [Int.sub_neg]
        rfl
    | _ => rfl
  | _ => cases v <;> rfl

theorem sub {u u' v v' : UnpackedFloat} (hu : UpToZeroSign u u') (hv : UpToZeroSign v v') :
    UpToZeroSign (UnpackedFloat.sub .binary64 u v) (UnpackedFloat.sub .binary64 u' v') := by
  rw [sub_eq_add_neg, sub_eq_add_neg]
  exact add hu hv.neg

theorem mul {u u' v v' : UnpackedFloat} (hu : UpToZeroSign u u') (hv : UpToZeroSign v v') :
    UpToZeroSign (UnpackedFloat.mul .binary64 u v) (UnpackedFloat.mul .binary64 u' v') := by
  refine map₂ (fun s t v => ?_) (fun s t u => ?_) hu hv
  · -- Zero times what is not finite is not a number; any other product is a zero.
    cases v with
    | notANumber | infinity => exact refl _
    | zero | finite => exact zero _ _
  · cases u with
    | notANumber | infinity => exact refl _
    | zero | finite => exact zero _ _

/-- The sign of the divisor shows in the quotient, so only the dividend may be a zero here. -/
theorem div {u u' : UnpackedFloat} (hu : UpToZeroSign u u') (v : UnpackedFloat) :
    UpToZeroSign (UnpackedFloat.div .binary64 u v) (UnpackedFloat.div .binary64 u' v) := by
  rcases hu with rfl | ⟨s, t, rfl, rfl⟩
  · exact refl _
  · cases v with
    | notANumber | zero => exact refl _
    | infinity | finite => exact zero _ _

theorem compare_eq {u u' v v' : UnpackedFloat} (hu : UpToZeroSign u u') (hv : UpToZeroSign v v') :
    u.compare v = u'.compare v' := by
  have first : u.compare v = u'.compare v := by
    rcases hu with rfl | ⟨s, t, rfl, rfl⟩
    · rfl
    · cases v with
      | infinity r | finite r => cases r <;> rfl
      | _ => rfl
  have second : u'.compare v = u'.compare v' := by
    rcases hv with rfl | ⟨s, t, rfl, rfl⟩
    · rfl
    · cases u' with
      | infinity r | finite r => cases r <;> rfl
      | _ => rfl
  exact first.trans second

/-- Unpacked doubles that compare as equal differ in the sign of a zero at most. -/
theorem of_beq {u v : UnpackedFloat} (h : u.beq v = true) : UpToZeroSign u v := by
  rcases (UnpackedFloat.beq_iff_ne_notANumber_and_eq u v).1 h with
    ⟨-, -, rfl | ⟨rfl, rfl⟩ | ⟨rfl, rfl⟩⟩
  · exact refl _
  · exact zero _ _
  · exact zero _ _

end UpToZeroSign

namespace SameNumber

/-! ## Doubles -/

theorem beq_iff_unpack {x y : Float} :
    (x == y) = true ↔ x.toModel.unpack.beq y.toModel.unpack = true := Iff.rfl

theorem isNaN_iff_unpack {x : Float} : x.isNaN = true ↔ x.toModel.unpack = .notANumber :=
  UnpackedFloat.isNaN_iff

/-- Equality as numbers is equality up to the sign of a zero. -/
theorem iff_unpack {x y : Float} :
    SameNumber x y ↔ UpToZeroSign x.toModel.unpack y.toModel.unpack := by
  rw [SameNumber, beq_iff_unpack, isNaN_iff_unpack, isNaN_iff_unpack]
  constructor
  · rintro (h | ⟨hx, hy⟩)
    · exact .of_beq h
    · rw [hx, hy]
      exact .refl _
  · rintro (h | ⟨s, t, hx, hy⟩)
    · rw [← h]
      by_cases nan : x.toModel.unpack = .notANumber
      · exact .inr ⟨nan, nan⟩
      · exact .inl ((UnpackedFloat.beq_iff_ne_notANumber_and_eq _ _).2 ⟨nan, nan, .inl rfl⟩)
    · rw [hx, hy]
      exact .inl rfl

theorem refl (x : Float) : SameNumber x x := iff_unpack.2 (.refl _)

theorem symm {x y : Float} (h : SameNumber x y) : SameNumber y x := by
  rcases iff_unpack.1 h with h | ⟨s, t, hx, hy⟩
  · exact iff_unpack.2 (.inl h.symm)
  · exact iff_unpack.2 (.inr ⟨t, s, hy, hx⟩)

theorem trans {x y z : Float} (hxy : SameNumber x y) (hyz : SameNumber y z) : SameNumber x z :=
  iff_unpack.2 ((iff_unpack.1 hxy).trans (iff_unpack.1 hyz))

theorem of_beq {x y : Float} (h : (x == y) = true) : SameNumber x y := .inl h

theorem unpack_pack_zero (s : UnpackedFloat.Sign) :
    (Float.Model.pack (.zero s)).unpack = .zero s := by
  cases s <;> rfl

/-- Results that agree up to the sign of a zero are equal as numbers once they are packed. -/
theorem of_pack {u v : UnpackedFloat} (h : UpToZeroSign u v) :
    SameNumber (.ofModel (.pack u)) (.ofModel (.pack v)) := by
  rcases h with rfl | ⟨s, t, rfl, rfl⟩
  · exact refl _
  · refine iff_unpack.2 ?_
    show UpToZeroSign (Float.Model.pack (.zero s)).unpack (Float.Model.pack (.zero t)).unpack
    rw [unpack_pack_zero, unpack_pack_zero]
    exact .zero s t

variable {x x' y y' : Float}

theorem neg (hx : SameNumber x x') : SameNumber (-x) (-x') := of_pack (iff_unpack.1 hx).neg

theorem add (hx : SameNumber x x') (hy : SameNumber y y') : SameNumber (x + y) (x' + y') :=
  of_pack ((iff_unpack.1 hx).add (iff_unpack.1 hy))

theorem sub (hx : SameNumber x x') (hy : SameNumber y y') : SameNumber (x - y) (x' - y') :=
  of_pack ((iff_unpack.1 hx).sub (iff_unpack.1 hy))

theorem mul (hx : SameNumber x x') (hy : SameNumber y y') : SameNumber (x * y) (x' * y') :=
  of_pack ((iff_unpack.1 hx).mul (iff_unpack.1 hy))

/-- Comparing does not see the sign of a zero. -/
theorem beq_eq (hx : SameNumber x x') (hy : SameNumber y y') : (x == y) = (x' == y') := by
  show (x.toModel.unpack.compare y.toModel.unpack == some .eq) =
    (x'.toModel.unpack.compare y'.toModel.unpack == some .eq)
  rw [(iff_unpack.1 hx).compare_eq (iff_unpack.1 hy)]

theorem lt_iff (hx : SameNumber x x') (hy : SameNumber y y') : x < y ↔ x' < y' := by
  show (decide ((x.toModel.unpack.compare y.toModel.unpack == some .lt) = true)) = true ↔
    (decide ((x'.toModel.unpack.compare y'.toModel.unpack == some .lt) = true)) = true
  rw [(iff_unpack.1 hx).compare_eq (iff_unpack.1 hy)]

/-- A quotient sees the sign of a zero only where it divides by that zero. -/
theorem div (hx : SameNumber x x') (hy : SameNumber y y') (nonzero : ¬(y == 0.0) = true) :
    SameNumber (x / y) (x' / y') := by
  rcases iff_unpack.1 hy with same | ⟨s, t, hs, -⟩
  · show SameNumber
      (.ofModel (.pack (UnpackedFloat.div .binary64 x.toModel.unpack y.toModel.unpack)))
      (.ofModel (.pack (UnpackedFloat.div .binary64 x'.toModel.unpack y'.toModel.unpack)))
    rw [← same]
    exact of_pack ((iff_unpack.1 hx).div _)
  · refine absurd (beq_iff_unpack.2 ?_) nonzero
    rw [hs]
    rfl

/-- Numbers that are equal as numbers select the same branch of a choice. -/
theorem isTrue_eq (hx : SameNumber x x') : isTrue x = isTrue x' := by
  show (!(x == 0.0)) = !(x' == 0.0)
  rw [hx.beq_eq (refl _)]

/-- The whole part does not see the sign of a zero. -/
theorem wholePart?_eq (hx : SameNumber x x') : wholePart? x = wholePart? x' := by
  rcases iff_unpack.1 hx with same | ⟨s, t, hs, ht⟩
  · rw [wholePart?, wholePart?, same]
  · rw [wholePart?, wholePart?, hs, ht]

end SameNumber

/-! ## Operators and functions -/

theorem sameNumber_remainder {x x' y y' z z' : Float} (hx : SameNumber x x')
    (hy : SameNumber y y') (h : remainder x y = .ok z) (h' : remainder x' y' = .ok z') :
    SameNumber z z' := by
  unfold remainder at h
  split at h
  · cases h
  · next a ha =>
    split at h
    · cases h
    · next b hb =>
      split at h
      · cases h
      · next nonzero =>
        -- The whole parts are the same on both sides, and the remainder is theirs.
        have ha' : wholePart? x' = some a := hx.wholePart?_eq ▸ ha
        have hb' : wholePart? y' = some b := hy.wholePart?_eq ▸ hb
        rw [remainder_eq_ok ha' hb' nonzero] at h'
        cases h
        cases h'
        exact .refl _

/-- An operator sends operands that are equal as numbers to values that are equal as numbers. -/
theorem Operator.sameNumber_apply {op : Operator} {x x' y y' z z' : Float} (hx : SameNumber x x')
    (hy : SameNumber y y') (h : op.apply x y = .ok z) (h' : op.apply x' y' = .ok z') :
    SameNumber z z' := by
  cases op with
  | add => cases h; cases h'; exact hx.add hy
  | sub => cases h; cases h'; exact hx.sub hy
  | mul => cases h; cases h'; exact hx.mul hy
  | mod => exact sameNumber_remainder hx hy h h'
  | div =>
    simp only [apply] at h h'
    split at h
    · cases h
    · next nonzero =>
      split at h'
      · cases h'
      · cases h
        cases h'
        exact hx.div hy nonzero
  | less =>
    cases h
    cases h'
    rw [decide_eq_decide.2 (hx.lt_iff hy)]
    exact .refl _
  | greater =>
    cases h
    cases h'
    rw [decide_eq_decide.2 (hy.lt_iff hx)]
    exact .refl _
  | or =>
    cases h
    cases h'
    rw [hx.isTrue_eq, hy.isTrue_eq]
    exact .refl _
  | and =>
    cases h
    cases h'
    rw [hx.isTrue_eq, hy.isTrue_eq]
    exact .refl _

/-- A function sends arguments that are equal as numbers to values that are equal as numbers. -/
theorem Builtin.sameNumber_apply {f : Builtin} {x x' y y' : Float} (hx : SameNumber x x')
    (hy : SameNumber y y') : SameNumber (f.apply x y) (f.apply x' y') := by
  cases f with
  | min =>
    simp only [apply, hx.lt_iff hy]
    split
    · exact hx
    · exact hy
  | max =>
    simp only [apply, gt_iff_lt, hy.lt_iff hx]
    split
    · exact hx
    · exact hy
  | ratio =>
    simp only [apply, ← hy.beq_eq (.refl 0.0)]
    split
    · exact .refl _
    · next nonzero => exact hx.div hy nonzero

end PerfFormula
