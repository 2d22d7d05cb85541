import PerfFormula.Proofs.WholeNumbers

/-!
# Exact remainders

A finite double stands for a rational number, and its whole part is this number without its
fraction. The remainder of two doubles is taken of their whole parts, which may have hundreds of
digits. It is a double again and stands for the remainder of the whole numbers itself: nothing is
rounded on the way, neither when the whole parts are made doubles nor when the remainder is.

Main statements:

* `wholePart?_eq_map` — the whole part of a double is the number that it stands for, rounded toward
  zero.
* `rational?_ofWhole` — a short whole number has a double that stands for it.
* `apply_mod_exact` — what the remainder of any two doubles is.
-/

namespace PerfFormula

open Float.Model (UnpackedFloat)
open Float.Model.UnpackedFloat (Sign)

/-! ## The number that a double stands for -/

/-- The number that a double stands for; `none` for infinities and for what is not a number. -/
def rational? (x : Float) : Option ℚ :=
  match x.toModel.unpack with
  | .finite s m e _ => some (s.apply (m : ℤ) * 2 ^ e)
  | .zero _ => some 0
  | .infinity _ | .notANumber => none

/-- A number without its fraction. -/
def towardZero (q : ℚ) : ℤ := if 0 ≤ q then ⌊q⌋ else ⌈q⌉

theorem rational?_of_unpack {x : Float} {s : Sign} {m : ℕ} {e : ℤ} {positive : 0 < m}
    (h : x.toModel.unpack = .finite s m e positive) :
    rational? x = some ((s.apply (m : ℤ) : ℚ) * 2 ^ e) := by
  rw [rational?, h]

theorem isFinite_iff (x : Float) : x.isFinite = true ↔ ∃ q, rational? x = some q := by
  show x.toModel.unpack.isFinite = true ↔ _
  unfold rational?
  cases x.toModel.unpack <;> simp [UnpackedFloat.isFinite]

theorem towardZero_intCast (n : ℤ) : towardZero n = n := by
  unfold towardZero
  split
  · exact Int.floor_intCast n
  · exact Int.ceil_intCast n

theorem towardZero_of_nonneg {q : ℚ} (h : 0 ≤ q) : towardZero q = ⌊q⌋ := if_pos h

theorem towardZero_neg (q : ℚ) : towardZero (-q) = -towardZero q := by
  unfold towardZero
  rcases lt_trichotomy q 0 with negative | rfl | positive
  · rw [if_pos (by linarith), if_neg (by linarith), Int.floor_neg]
  · simp
  · rw [if_neg (by linarith), if_pos (by linarith), Int.ceil_neg]

/-! ## Whole parts -/

/-- Digits in front of a power of two without their fraction: those that are not shifted out. -/
theorem towardZero_digits (m : ℕ) (e : ℤ) :
    towardZero (m * 2 ^ e) =
      ((if 0 ≤ e then m <<< e.toNat else m >>> (-e).toNat : ℕ) : ℤ) := by
  by_cases nonneg : 0 ≤ e
  · obtain ⟨k, rfl⟩ := Int.eq_ofNat_of_zero_le nonneg
    rw [if_pos nonneg, Int.toNat_natCast, Nat.shiftLeft_eq]
    exact_mod_cast towardZero_intCast (m * 2 ^ k : ℕ)
  · obtain ⟨k, rfl⟩ : ∃ k : ℕ, e = -(k : ℤ) := ⟨(-e).toNat, by omega⟩
    have quotient : (m : ℚ) * 2 ^ (-(k : ℤ)) = (m : ℚ) / (2 ^ k : ℕ) := by
      rw [zpow_neg, zpow_natCast, ← div_eq_mul_inv]
      push_cast
      rfl
    rw [if_neg nonneg, quotient, towardZero_of_nonneg (by positivity), neg_neg, Int.toNat_natCast,
      Nat.shiftRight_eq_div_pow, Rat.floor_natCast_div_natCast]
    rfl

/-- The whole part of a double is the number that it stands for, rounded toward zero. -/
theorem wholePart?_eq_map (x : Float) : wholePart? x = (rational? x).map towardZero := by
  cases unpacked : x.toModel.unpack with
  | finite s m e positive =>
    rw [wholePart?_of_unpack unpacked, rational?_of_unpack unpacked]
    show some _ = some (towardZero _)
    rw [← towardZero_digits]
    cases s with
    | positive => rfl
    | negative =>
      -- the sign goes past the rounding
      show some (-towardZero _) = some (towardZero ((-(m : ℤ) : ℤ) * 2 ^ e))
      rw [← towardZero_neg]
      push_cast
      rw [neg_mul]
  | zero s =>
    rw [wholePart?, rational?, unpacked]
    exact congrArg some (towardZero_intCast 0).symm
  | infinity s => rw [wholePart?, rational?, unpacked]; rfl
  | notANumber => rw [wholePart?, rational?, unpacked]; rfl

/-! ## Doubles of whole numbers -/

/-- A short number in the form of a double is the number that this form stands for. -/
theorem IsNormal.value_eq {n m : ℕ} {e : ℤ} (h : IsNormal n m e) : (m : ℚ) * 2 ^ e = n := by
  rcases h.value with ⟨le, value⟩ | ⟨lt, value⟩
  · obtain ⟨k, rfl⟩ : ∃ k : ℕ, e = -(k : ℤ) := ⟨(-e).toNat, by omega⟩
    rw [neg_neg, Int.toNat_natCast, Nat.shiftLeft_eq] at value
    rw [value, zpow_neg, zpow_natCast]
    push_cast
    exact mul_inv_cancel_right₀ (by positivity) _
  · obtain ⟨k, rfl⟩ := Int.eq_ofNat_of_zero_le (le_of_lt lt)
    rw [value, Int.toNat_natCast, zpow_natCast]
    push_cast
    rfl

theorem IsNormal.apply_eq {n m : ℕ} {e : ℤ} (h : IsNormal n m e) (s : Sign) :
    (s.apply (m : ℤ) : ℚ) * 2 ^ e = (s.apply (n : ℤ) : ℤ) := by
  cases s with
  | positive => exact_mod_cast h.value_eq
  | negative =>
    show ((-(m : ℤ) : ℤ) : ℚ) * 2 ^ e = ((-(n : ℤ) : ℤ) : ℚ)
    push_cast
    rw [neg_mul, h.value_eq]

/-- A short whole number has a double that stands for it. -/
theorem rational?_ofWhole {n : ℤ} (short : IsShort n.natAbs) :
    rational? (ofWhole n) = some (n : ℚ) := by
  by_cases zero : n = 0
  · subst zero
    decide
  · have positive : 0 < n.natAbs := Int.natAbs_pos.2 zero
    obtain ⟨m, e, normal⟩ := short.exists_isNormal positive
    obtain ⟨s, signed⟩ : ∃ s : Sign, s.apply (n.natAbs : ℤ) = n := by
      rcases Int.natAbs_eq n with same | opposite
      · exact ⟨.positive, same.symm⟩
      · exact ⟨.negative, opposite.symm⟩
    have made := rational?_of_unpack (unpack_ofWhole normal s positive)
    rwa [normal.apply_eq s, signed] at made

/-! ## Remainders -/

/-- What is left of a whole number after as many of another as fit into it: less than the other, and
on the same side of zero as the number. -/
structure IsRemainder (a b r : ℤ) : Prop where
  quotient : ∃ k, a = k * b + r
  small : |r| < |b|
  sign : r = 0 ∨ r.sign = a.sign

theorem isRemainder_tmod (a : ℤ) {b : ℤ} (nonzero : b ≠ 0) : IsRemainder a b (a.tmod b) := by
  refine ⟨⟨a.tdiv b, ?_⟩, ?_, ?_⟩
  · rw [Int.mul_comm]
    exact (Int.mul_tdiv_add_tmod a b).symm
  · have positive : 0 < b.natAbs := Int.natAbs_pos.2 nonzero
    rw [Int.abs_eq_natAbs, Int.abs_eq_natAbs, Int.natAbs_tmod]
    exact_mod_cast Nat.mod_lt a.natAbs positive
  · by_cases zero : a.tmod b = 0
    · exact .inl zero
    · refine .inr ?_
      rw [Int.sign_tmod, if_neg fun divides => zero (Int.tmod_eq_zero_of_dvd divides)]

/-- The remainder of short whole numbers has a double that stands for it. -/
theorem rational?_wholeRemainder {a b : ℤ} (shortA : IsShort a.natAbs) (shortB : IsShort b.natAbs)
    (nonzero : b ≠ 0) : rational? (wholeRemainder a b) = some ((a.tmod b : ℤ) : ℚ) := by
  have short : IsShort (a.tmod b).natAbs := by
    rw [Int.natAbs_tmod]
    exact shortA.mod shortB (Int.natAbs_pos.2 nonzero)
  unfold wholeRemainder
  dsimp only
  split
  · next zero =>
    -- of the two zeros it is the one with the sign of the dividend
    rw [zero]
    split <;> decide
  · exact rational?_ofWhole short

theorem wholePart?_of_not_finite {x : Float} (h : x.isFinite = false) : wholePart? x = none := by
  have none : rational? x = none := by
    by_contra some
    obtain ⟨q, hq⟩ := Option.ne_none_iff_exists'.1 some
    rw [(isFinite_iff x).2 ⟨q, hq⟩] at h
    cases h
  rw [wholePart?_eq_map, none]
  rfl

/-- The remainder of any two doubles. It fails for a first operand that is infinite or not a number,
and then for such a second one. Otherwise both stand for numbers, and what counts are these without
their fractions, which are doubles too. If that of the divisor is zero, the remainder fails as well;
if not, it is a double that stands for the remainder of the whole numbers. -/
theorem Operator.apply_mod_exact (x y : Float) :
    (x.isFinite = false → mod.apply x y = .error (.notFinite x)) ∧
    (x.isFinite = true → y.isFinite = false → mod.apply x y = .error (.notFinite y)) ∧
    (x.isFinite = true → y.isFinite = true →
      ∃ (p q : ℚ) (a b : ℤ), rational? x = some p ∧ rational? y = some q ∧
        a = towardZero p ∧ b = towardZero q ∧
        rational? (ofWhole a) = some (a : ℚ) ∧ rational? (ofWhole b) = some (b : ℚ) ∧
        (mod.apply x y = .error (.remainderByZero x y) ↔ b = 0) ∧
        (b ≠ 0 → ∃ z r, mod.apply x y = .ok z ∧ IsRemainder a b r ∧
          rational? z = some (r : ℚ))) := by
  have whole : ∀ {z : Float} {q : ℚ}, rational? z = some q →
      wholePart? z = some (towardZero q) := by
    intro z q value
    rw [wholePart?_eq_map, value]
    rfl
  refine ⟨?_, ?_, ?_⟩
  · intro infinite
    show remainder x y = _
    rw [remainder, wholePart?_of_not_finite infinite]
  · intro finite infinite
    obtain ⟨p, hp⟩ := (isFinite_iff x).1 finite
    show remainder x y = _
    rw [remainder, whole hp, wholePart?_of_not_finite infinite]
  · intro finiteX finiteY
    obtain ⟨p, hp⟩ := (isFinite_iff x).1 finiteX
    obtain ⟨q, hq⟩ := (isFinite_iff y).1 finiteY
    have shortX := isShort_wholePart (whole hp)
    have shortY := isShort_wholePart (whole hq)
    -- from here on only the whole parts matter
    refine ⟨p, q, towardZero p, towardZero q, hp, hq, rfl, rfl, rational?_ofWhole shortX,
      rational?_ofWhole shortY, ?_, ?_⟩
    · show remainder x y = _ ↔ _
      by_cases zero : towardZero q = 0
      · simp [remainder, whole hp, whole hq, zero]
      · simp [remainder_eq_ok (whole hp) (whole hq) zero, zero]
    · intro nonzero
      exact ⟨_, _, remainder_eq_ok (whole hp) (whole hq) nonzero, isRemainder_tmod _ nonzero,
        rational?_wholeRemainder shortX shortY nonzero⟩

/-- The largest double. -/
def largest : Float := .ofBits 0x7FEFFFFFFFFFFFFF

/-- An infinite operand and a divisor less than one fail; the largest double, a number of 309
digits, leaves a remainder without any rounding. -/
theorem apply_mod_largest :
    Operator.mod.apply (1.0 / 0.0) largest = .error (.notFinite (1.0 / 0.0)) ∧
      Operator.mod.apply largest (1.0 / 0.0) = .error (.notFinite (1.0 / 0.0)) ∧
      Operator.mod.apply largest (-0.75) = .error (.remainderByZero largest (-0.75)) ∧
      ∃ z, Operator.mod.apply largest (-10.5) = .ok z ∧ rational? z = some 8 := by
  have finite : largest.isFinite = true := by decide
  obtain ⟨infiniteX, -, -⟩ := Operator.apply_mod_exact (1.0 / 0.0) largest
  obtain ⟨-, infiniteY, -⟩ := Operator.apply_mod_exact largest (1.0 / 0.0)
  obtain ⟨-, -, small⟩ := Operator.apply_mod_exact largest (-0.75)
  obtain ⟨-, -, large⟩ := Operator.apply_mod_exact largest (-10.5)
  have dividend : rational? largest = some (((2 ^ 53 - 1) * 2 ^ 971 : ℤ) : ℚ) := by
    obtain ⟨positive, unpacked⟩ : ∃ h, largest.toModel.unpack =
        .finite .positive (2 ^ 53 - 1) 971 h := ⟨_, rfl⟩
    rw [rational?_of_unpack unpacked]
    norm_num [Sign.apply]
  refine ⟨infiniteX (by decide), infiniteY finite (by decide), ?_, ?_⟩
  · obtain ⟨-, q, -, b, -, divisor, -, rfl, -, -, fails, -⟩ := small finite (by decide)
    have known : rational? (-0.75) = some (-3 * 2 ^ (-2 : ℤ)) := by
      obtain ⟨positive, unpacked⟩ : ∃ h, (-0.75 : Float).toModel.unpack =
          .finite .negative (3 * 2 ^ 51) (-53) h := ⟨_, rfl⟩
      rw [rational?_of_unpack unpacked]
      norm_num [Sign.apply]
    obtain rfl := Option.some.inj (known.symm.trans divisor)
    refine fails.2 ?_
    norm_num [towardZero]
  · obtain ⟨p, q, -, -, dividend', divisor, rfl, rfl, -, -, -, leaves⟩ := large finite (by decide)
    have known : rational? (-10.5) = some (-10.5) := by
      obtain ⟨positive, unpacked⟩ : ∃ h, (-10.5 : Float).toModel.unpack =
          .finite .negative (21 * 2 ^ 48) (-49) h := ⟨_, rfl⟩
      rw [rational?_of_unpack unpacked]
      norm_num [Sign.apply]
    obtain rfl := Option.some.inj (known.symm.trans divisor)
    obtain rfl := Option.some.inj (dividend.symm.trans dividend')
    have ten : towardZero (-10.5) = -10 := by norm_num [towardZero]
    rw [ten, towardZero_intCast] at leaves
    obtain ⟨z, r, done, ⟨⟨k, split⟩, below, signed⟩, value⟩ := leaves (by decide)
    refine ⟨z, done, value.trans ?_⟩
    have eight : r = 8 := by
      have positive : ((2 ^ 53 - 1) * 2 ^ 971 : ℤ).sign = 1 :=
        Int.sign_eq_one_of_pos (by positivity)
      rw [positive, Int.sign_eq_one_iff_pos] at signed
      rw [abs_lt] at below
      norm_num at split below
      omega
    rw [eight]
    rfl

end PerfFormula
