import PerfFormula.Proofs.WholeNumbers

/-!
# Rounding to the nearest double

A double is rounded from digits that may be too many, and from what is known of the part behind
them: one bit for its first half, and one for whether there is anything else. Together they say
where the exact number lies, and shifting keeps this true. So a number in the neighbourhood of a
double, nearer to it than to the next ones, is rounded to this double, also where the neighbourhood
reaches down to doubles with half the spacing.

A decimal that is read is multiplied by its power of ten, or divided by it with more digits than are
needed, so that it is rounded only once, and what is near to a double is read as this double.

Main statements:

* `Represents.shiftRight` — shifted digits stand for the shifted number.
* `Represents.roundedMantissa_eq` — they are rounded to the whole number that is nearest.
* `roundWithAccuracy_of_roundsTo` — a number near to a double is rounded to it.
* `ofScientific_of_roundsTo` — a decimal near to a double is read as the double.
-/

namespace PerfFormula

open Float.Model (UnpackedFloat Format totalExponent)
open Float.Model.UnpackedFloat (Sign ExtendedMantissa Accuracy)

/-! ## Digits and what is behind them -/

/-- The worth of a round bit. -/
def half (round : Bool) : ℚ := if round then 1 / 2 else 0

/-- What digits with a round and a sticky bit stand for: the sticky bit says whether there is a
rest, which is less than a half. -/
def Represents (em : ExtendedMantissa) (z : ℚ) : Prop :=
  ∃ rest, z = em.mantissa + half em.roundBit + rest ∧
    if em.stickyBit then 0 < rest ∧ rest < 1 / 2 else rest = 0

namespace Represents

variable {em : ExtendedMantissa} {z : ℚ}

theorem bounds (h : Represents em z) : em.mantissa ≤ z ∧ z < em.mantissa + 1 := by
  obtain ⟨m, round, sticky⟩ := em
  obtain ⟨rest, rfl, part⟩ := h
  cases round <;> cases sticky <;>
    simp only [half, if_true, if_false, Bool.false_eq_true] at part ⊢ <;>
    constructor <;> linarith

theorem shiftRightOne (h : Represents em z) : Represents em.shiftRightOne (z / 2) := by
  obtain ⟨m, round, sticky⟩ := em
  obtain ⟨rest, rfl, part⟩ := h
  -- The last digit becomes the round bit, and what was behind it becomes the rest.
  refine ⟨half round / 2 + rest / 2, ?_, ?_⟩
  · have last : half (m % 2 != 0) = (m % 2 : ℕ) / 2 := by
      rcases Nat.mod_two_eq_zero_or_one m with even | odd <;> simp [half, *]
    have digits : (m : ℚ) = 2 * (m / 2 : ℕ) + (m % 2 : ℕ) := by
      exact_mod_cast (Nat.div_add_mod m 2).symm
    simp only [ExtendedMantissa.shiftRightOne, last]
    linarith
  · cases round <;> cases sticky <;>
      simp only [ExtendedMantissa.shiftRightOne, half, Bool.or_true, Bool.or_false,
        if_true, if_false, Bool.false_eq_true] at part ⊢
    · rw [part]
      norm_num
    · constructor <;> linarith
    · rw [part]
      norm_num
    · constructor <;> linarith

theorem shiftRight (h : Represents em z) (k : ℕ) : Represents (em >>> k) (z / 2 ^ k) := by
  induction k with
  | zero => simpa [HShiftRight.hShiftRight, Nat.repeat] using h
  | succ k ih =>
    have shifted := ih.shiftRightOne
    rwa [div_div, ← pow_succ] at shifted

/-- Digits are rounded to the nearest whole number; of two that are equally near, to the even. -/
theorem roundedMantissa_eq (h : Represents em z) {n : ℕ}
    (near : (n : ℚ) - 1 / 2 ≤ z ∧ z ≤ n + 1 / 2)
    (odd : n % 2 = 1 → (n : ℚ) - 1 / 2 < z ∧ z < n + 1 / 2) : em.roundedMantissa = n := by
  obtain ⟨m, round, sticky⟩ := em
  obtain ⟨rest, rfl, part⟩ := h
  obtain ⟨low, high⟩ := near
  cases round <;> cases sticky <;>
    simp only [half, if_true, if_false, Bool.false_eq_true] at part low high odd <;>
    simp only [ExtendedMantissa.roundedMantissa, ExtendedMantissa.accuracy,
      Accuracy.roundToNearestEven]
  · have below : (m : ℚ) < n + 1 := by linarith
    have above : (n : ℚ) < m + 1 := by linarith
    norm_cast at below above
    omega
  · have below : (m : ℚ) < n + 1 := by linarith
    have above : (n : ℚ) < m + 1 := by linarith
    norm_cast at below above
    omega
  · -- Halfway between two whole numbers: an odd one would have to be nearer.
    have below : (m : ℚ) ≤ n := by linarith
    have above : (n : ℚ) ≤ m + 1 := by linarith
    norm_cast at below above
    have even : n % 2 = 0 := by
      by_contra h
      obtain ⟨low, high⟩ := odd (by omega)
      have below : (m : ℚ) < n := by linarith
      have above : (n : ℚ) < m + 1 := by linarith
      norm_cast at below above
      omega
    omega
  · have below : (m : ℚ) + 1 < n + 1 := by linarith
    have above : (n : ℚ) < m + 1 + 1 := by linarith
    norm_cast at below above
    omega

/-- A fraction of a digit as the accuracy of the digits in front of it. -/
theorem of_fraction (m : ℕ) {num den : ℕ} (proper : num < den) :
    Represents (.ofMantissaAndAccuracy m (UnpackedFloat.accuracyOfFraction num den))
      (m + num / den) := by
  have positive : (0 : ℚ) < den := by exact_mod_cast Nat.zero_lt_of_lt proper
  unfold UnpackedFloat.accuracyOfFraction
  split
  · next zero => exact ⟨0, by simp [ExtendedMantissa.ofMantissaAndAccuracy, half, zero], rfl⟩
  · next nonzero =>
    have some : (0 : ℚ) < num / den :=
      div_pos (by exact_mod_cast Nat.pos_of_ne_zero nonzero) positive
    have below : (num : ℚ) / den < 1 := (div_lt_one positive).2 (by exact_mod_cast proper)
    cases order : compare (2 * num) den with
    | lt =>
      have less : 2 * (num : ℚ) < den := by exact_mod_cast Nat.compare_eq_lt.1 order
      refine ⟨num / den, by simp [ExtendedMantissa.ofMantissaAndAccuracy, half], some, ?_⟩
      rw [div_lt_iff₀ positive]
      linarith
    | eq =>
      have same : 2 * (num : ℚ) = den := by exact_mod_cast Nat.compare_eq_eq.1 order
      refine ⟨0, ?_, rfl⟩
      have middle : (num : ℚ) / den = 1 / 2 := by
        rw [div_eq_iff (ne_of_gt positive)]
        linarith
      simp [ExtendedMantissa.ofMantissaAndAccuracy, half, middle]
    | gt =>
      have more : (den : ℚ) < 2 * num := by exact_mod_cast Nat.compare_eq_gt.1 order
      refine ⟨num / den - 1 / 2, ?_, ?_, by linarith⟩
      · simp only [ExtendedMantissa.ofMantissaAndAccuracy, half, if_true]
        ring
      · rw [sub_pos, lt_div_iff₀ positive]
        linarith

theorem of_exact (m : ℕ) : Represents (.ofMantissaAndAccuracy m .exact) m :=
  ⟨0, by simp [ExtendedMantissa.ofMantissaAndAccuracy, half], rfl⟩

end Represents

/-! ## The neighbourhood of a double -/

/-- The numbers that round to a double, in terms of its last place: those half a place around it,
but only a quarter below it if the doubles below it are closer to each other. The ends are included
when the double is even. -/
structure RoundsTo (m : ℕ) (q : ℤ) (r : ℚ) : Prop where
  near : (m : ℚ) - 1 / 2 ≤ r / 2 ^ q ∧ r / 2 ^ q ≤ m + 1 / 2
  odd : m % 2 = 1 → (m : ℚ) - 1 / 2 < r / 2 ^ q ∧ r / 2 ^ q < m + 1 / 2
  narrow : m = 2 ^ 52 → q ≠ -1074 → (m : ℚ) - 1 / 4 ≤ r / 2 ^ q

theorem zpow_two_pos (q : ℤ) : (0 : ℚ) < 2 ^ q := zpow_pos (by norm_num) q

/-- Digits that are shifted to a greater exponent stand for the same number. -/
theorem shiftToExponent_represents {M : ℕ} {e t : ℤ} {acc : Accuracy} {y : ℚ}
    (h : Represents (.ofMantissaAndAccuracy M acc) y) (le : e ≤ t) :
    ∃ em, UnpackedFloat.shiftToExponent M e acc t = (em, t) ∧
      Represents em (y * 2 ^ e / 2 ^ t) := by
  have places : e + ((t - e).toNat : ℤ) = t := by omega
  refine ⟨_, Prod.ext rfl places, ?_⟩
  have shifted := h.shiftRight (t - e).toNat
  have split : (2 : ℚ) ^ t = 2 ^ e * 2 ^ (t - e).toNat := by
    rw [← zpow_natCast, ← zpow_add₀ (by norm_num), places]
  rwa [split, mul_comm y, mul_div_mul_left _ _ (ne_of_gt (zpow_two_pos e))]

/-- The exponent that digits are shifted to leaves 53 of them, except for the least exponent. -/
theorem bounds_of_target {M : ℕ} {e t : ℤ} {y : ℚ} (low : (M : ℚ) ≤ y) (high : y < M + 1)
    (ht : t = max ((M.log2 : ℤ) + 1 + e - 53) (-1074)) (le : e ≤ t) :
    y * 2 ^ e / 2 ^ t < 2 ^ 53 ∧ (t = -1074 ∨ 2 ^ 52 ≤ y * 2 ^ e / 2 ^ t) := by
  have positive := zpow_two_pos t
  constructor
  · have short : y < 2 ^ (M.log2 + 1) := by
      have : (M : ℚ) + 1 ≤ 2 ^ (M.log2 + 1) := by exact_mod_cast @Nat.lt_log2_self M
      linarith
    rw [div_lt_iff₀ positive]
    calc y * 2 ^ e < 2 ^ (M.log2 + 1) * 2 ^ e :=
          mul_lt_mul_of_pos_right short (zpow_two_pos e)
      _ = 2 ^ ((M.log2 : ℤ) + 1 + e) := by
          rw [← zpow_natCast, ← zpow_add₀ (by norm_num)]
          push_cast
          rfl
      _ ≤ 2 ^ (53 + t) := zpow_le_zpow_right₀ (by norm_num) (by omega)
      _ = 2 ^ 53 * 2 ^ t := by
          rw [zpow_add₀ (by norm_num)]
          norm_cast
  · by_cases least : t = -1074
    · exact .inl least
    have exponent : (M.log2 : ℤ) + e = 52 + t := by omega
    have nonzero : M ≠ 0 := by
      rintro rfl
      have : Nat.log2 0 = 0 := by decide
      omega
    have long : (2 : ℚ) ^ M.log2 ≤ y := by
      have : (2 : ℚ) ^ M.log2 ≤ M := by exact_mod_cast Nat.log2_self_le nonzero
      linarith
    right
    rw [le_div_iff₀ positive]
    calc (2 : ℚ) ^ 52 * 2 ^ t = 2 ^ (52 + t) := by
          rw [zpow_add₀ (by norm_num)]
          norm_cast
      _ = 2 ^ M.log2 * 2 ^ e := by
          rw [← exponent, zpow_add₀ (by norm_num), zpow_natCast]
      _ ≤ y * 2 ^ e := mul_le_mul_of_nonneg_right long (le_of_lt (zpow_two_pos e))

theorem div_zpow_eq (r : ℚ) (q t : ℤ) : r / 2 ^ t = r / 2 ^ q * 2 ^ (q - t) := by
  rw [zpow_sub₀ (by norm_num), div_mul_div_comm, mul_comm (2 ^ q : ℚ),
    mul_div_mul_right _ _ (ne_of_gt (zpow_two_pos q))]

/-- A number near to a double has the double's exponent, unless it is below a power of two. -/
theorem RoundsTo.exponent {m : ℕ} {q t : ℤ} {r : ℚ} (rounds : RoundsTo m q r)
    (canonical : IsCanonical m q) (least : -1074 ≤ t) (short : r / 2 ^ t < 2 ^ 53)
    (long : t = -1074 ∨ 2 ^ 52 ≤ r / 2 ^ t) :
    t = q ∨ t + 1 = q ∧ m = 2 ^ 52 ∧ (2 : ℚ) ^ 53 - 1 / 2 ≤ r / 2 ^ t := by
  obtain ⟨low, high⟩ := rounds.near
  rcases Int.lt_trichotomy t q with less | same | more
  · right
    have large : 2 ^ 52 ≤ m := canonical.normal.resolve_right (by omega)
    have large' : (2 : ℚ) ^ 52 ≤ m := by exact_mod_cast large
    have scaled := div_zpow_eq r q t
    by_cases next : t + 1 = q
    · -- One place below, the number has to be less than the least significand, so that is it.
      rw [show q - t = 1 by omega, zpow_one] at scaled
      have least : m = 2 ^ 52 := by
        have : (m : ℚ) < 2 ^ 52 + 1 := by linarith
        have : m < 2 ^ 52 + 1 := by exact_mod_cast this
        omega
      have narrow := rounds.narrow least (by omega)
      rw [least] at narrow
      push_cast at narrow
      exact ⟨next, least, by linarith⟩
    · have four : (4 : ℚ) ≤ 2 ^ (q - t) := by
        calc (4 : ℚ) = 2 ^ (2 : ℤ) := by norm_num
          _ ≤ 2 ^ (q - t) := zpow_le_zpow_right₀ (by norm_num) (by omega)
      have : (2 ^ 52 - 1 / 2) * 4 ≤ r / 2 ^ q * 2 ^ (q - t) :=
        mul_le_mul (by linarith) four (by norm_num) (by linarith)
      linarith
  · exact .inl same
  · have long := long.resolve_left (by have := canonical.least; omega)
    have two : (2 : ℚ) ≤ 2 ^ (t - q) := by
      calc (2 : ℚ) = 2 ^ (1 : ℤ) := by norm_num
        _ ≤ 2 ^ (t - q) := zpow_le_zpow_right₀ (by norm_num) (by omega)
    have : (2 : ℚ) ^ 52 * 2 ≤ r / 2 ^ t * 2 ^ (t - q) :=
      mul_le_mul long two (by norm_num) (by linarith)
    rw [← div_zpow_eq] at this
    have upper : (m : ℚ) + 1 ≤ 2 ^ 53 := by exact_mod_cast canonical.upper
    linarith

/-- Digits that were rounded up to a 54th one are shifted once more. -/
theorem shiftToTargetExponent_carry {t : ℤ} (least : -1074 ≤ t) :
    UnpackedFloat.shiftToTargetExponent .binary64 (2 ^ 53) t .exact =
      (⟨2 ^ 52, false, false⟩, t + 1) := by
  have target : Format.binary64.targetExponent (totalExponent (2 ^ 53) t) = t + 1 := by
    rw [targetExponent_binary64, totalExponent, Nat.log2_two_pow]
    omega
  have one : (t + 1 - t).toNat = 1 := by omega
  rw [UnpackedFloat.shiftToTargetExponent, target, UnpackedFloat.shiftToExponent, one]
  have shifted := shiftRight_zeros (2 ^ 52) 1
  rw [← Nat.pow_add] at shifted
  exact Prod.ext shifted rfl

/-- A number near to a double is rounded to it, whatever digits and accuracy stand for it. -/
theorem roundWithAccuracy_of_roundsTo {m M : ℕ} {q e : ℤ} {acc : Accuracy} {y : ℚ}
    (canonical : IsCanonical m q) (h : Represents (.ofMantissaAndAccuracy M acc) y)
    (enough : e ≤ Format.binary64.targetExponent (totalExponent M e))
    (rounds : RoundsTo m q (y * 2 ^ e)) (s : Sign) :
    UnpackedFloat.roundWithAccuracy .binary64 s M e acc = .finite s m q canonical.positive := by
  have mantissa : (ExtendedMantissa.ofMantissaAndAccuracy M acc).mantissa = M := by
    unfold ExtendedMantissa.ofMantissaAndAccuracy
    split <;> rfl
  obtain ⟨low, high⟩ := h.bounds
  rw [mantissa] at low high
  obtain ⟨t, ht⟩ : ∃ t, Format.binary64.targetExponent (totalExponent M e) = t := ⟨_, rfl⟩
  have target : t = max ((M.log2 : ℤ) + 1 + e - 53) (-1074) :=
    ht.symm.trans (targetExponent_binary64 _)
  have least : -1074 ≤ t := by omega
  rw [ht] at enough
  obtain ⟨short, long⟩ := bounds_of_target low high target enough
  obtain ⟨em, shifted, represents⟩ := shiftToExponent_represents h enough
  have first : UnpackedFloat.shiftToTargetExponent .binary64 M e acc = (em, t) := by
    rw [UnpackedFloat.shiftToTargetExponent, ht, shifted]
  simp only [UnpackedFloat.roundWithAccuracy, first]
  rcases rounds.exponent canonical least short long with rfl | ⟨rfl, rfl, above⟩
  · have rounded : em.roundedMantissa = m := represents.roundedMantissa_eq rounds.near rounds.odd
    have stays := shiftToTargetExponent_of_lt canonical.upper least
    simp only [rounded, stays]
    rw [dif_neg (Nat.ne_of_gt canonical.positive)]
  · -- The digits fill up to the next power of two.
    have rounded : em.roundedMantissa = 2 ^ 53 := by
      refine represents.roundedMantissa_eq ⟨?_, ?_⟩ fun odd => absurd odd (by decide)
      · exact_mod_cast above
      · push_cast
        linarith
    have carried := shiftToTargetExponent_carry least
    simp only [rounded, carried]
    rw [dif_neg (by decide)]

/-! ## Decimals near to a double -/

theorem RoundsTo.range {m : ℕ} {q : ℤ} {r : ℚ} (rounds : RoundsTo m q r)
    (canonical : IsCanonical m q) : (2 : ℚ) ^ (-1075 : ℤ) ≤ r ∧ r < 2 ^ (1024 : ℤ) := by
  obtain ⟨low, high⟩ := rounds.near
  have positive := zpow_two_pos q
  have one : (1 : ℚ) ≤ m := by exact_mod_cast canonical.positive
  have upper : (m : ℚ) + 1 ≤ 2 ^ 53 := by exact_mod_cast canonical.upper
  constructor
  · calc (2 : ℚ) ^ (-1075 : ℤ) ≤ 2 ^ (-1 + q) :=
          zpow_le_zpow_right₀ (by norm_num) (by have := canonical.least; omega)
      _ = 1 / 2 * 2 ^ q := by
          rw [zpow_add₀ (by norm_num)]
          norm_num
      _ ≤ r := (le_div_iff₀ positive).1 (by linarith)
  · calc r < 2 ^ 53 * 2 ^ q := (div_lt_iff₀ positive).1 (by linarith)
      _ = 2 ^ (53 + q) := by
          rw [zpow_add₀ (by norm_num)]
          norm_cast
      _ ≤ 2 ^ (1024 : ℤ) :=
          zpow_le_zpow_right₀ (by norm_num) (by have := canonical.greatest; omega)

/-- The exponents of decimals that round to a double are not so large or small that it can be said
without looking at the digits. -/
theorem RoundsTo.exponent10 {m d : ℕ} {q E : ℤ} (rounds : RoundsTo m q (d * 10 ^ E))
    (canonical : IsCanonical m q) : d ≠ 0 ∧ E ≤ 1024 ∧ -(1076 + (d.log2 : ℤ)) < E := by
  obtain ⟨low, high⟩ := rounds.range canonical
  have nonzero : d ≠ 0 := by
    rintro rfl
    rw [Nat.cast_zero, zero_mul] at low
    exact absurd low (not_le.2 (zpow_two_pos _))
  refine ⟨nonzero, ?_, ?_⟩
  · -- One digit in front of so many zeros is out of range already.
    by_contra! large
    have one : (1 : ℚ) ≤ d := by exact_mod_cast Nat.pos_of_ne_zero nonzero
    have : (2 : ℚ) ^ (1024 : ℤ) ≤ d * 10 ^ E := by
      calc (2 : ℚ) ^ (1024 : ℤ) ≤ 2 ^ E := zpow_le_zpow_right₀ (by norm_num) (by omega)
        _ ≤ 10 ^ E := zpow_le_zpow_left₀ (by omega) (by norm_num) (by norm_num)
        _ ≤ d * 10 ^ E := le_mul_of_one_le_left (by positivity) one
    linarith
  · -- So far behind the point all the digits together are less than half the least double.
    by_contra! small
    obtain ⟨k, rfl⟩ : ∃ k : ℕ, E = -k := ⟨(-E).toNat, by omega⟩
    have digits : (d : ℚ) < 2 ^ ((d.log2 : ℤ) + 1) := by exact_mod_cast @Nat.lt_log2_self d
    have power : (10 : ℚ) ^ (-(k : ℤ)) ≤ 2 ^ (-(k : ℤ)) := by
      rw [zpow_neg, zpow_neg, zpow_natCast, zpow_natCast]
      exact inv_anti₀ (by positivity) (pow_le_pow_left₀ (by norm_num) (by norm_num) k)
    have : (d : ℚ) * 10 ^ (-(k : ℤ)) < 2 ^ (-1075 : ℤ) := by
      calc (d : ℚ) * 10 ^ (-(k : ℤ)) < 2 ^ ((d.log2 : ℤ) + 1) * 2 ^ (-(k : ℤ)) :=
            mul_lt_mul digits power (by positivity) (by positivity)
        _ = 2 ^ ((d.log2 : ℤ) + 1 + -(k : ℤ)) := (zpow_add₀ (by norm_num) _ _).symm
        _ ≤ 2 ^ (-1075 : ℤ) := zpow_le_zpow_right₀ (by norm_num) (by omega)
    linarith

/-- A whole number and a power of ten are multiplied exactly and rounded once. -/
theorem mul_of_roundsTo {m d : ℕ} {q : ℤ} {k : ℕ} (rounds : RoundsTo m q (d * 10 ^ (k : ℤ)))
    (canonical : IsCanonical m q) (nonzero : d ≠ 0) :
    UnpackedFloat.roundWithAccuracy .binary64 .positive (d <<< 53 * 10 ^ k) (-53) .exact =
      .finite .positive m q canonical.positive := by
  have digits : d <<< 53 * 10 ^ k = d * 10 ^ k * 2 ^ 53 := by
    rw [Nat.shiftLeft_eq]
    ring
  have positive : 0 < d * 10 ^ k :=
    Nat.mul_pos (Nat.pos_of_ne_zero nonzero) (Nat.pow_pos (by decide))
  rw [digits]
  generalize hn : d * 10 ^ k = n at positive
  have value : ((n * 2 ^ 53 : ℕ) : ℚ) * 2 ^ (-53 : ℤ) = d * 10 ^ (k : ℤ) := by
    rw [← hn, zpow_natCast]
    push_cast
    norm_num
    ring
  refine roundWithAccuracy_of_roundsTo canonical (.of_exact _) ?_ (value ▸ rounds) .positive
  have long : 53 ≤ (n * 2 ^ 53).log2 := by
    rw [Nat.le_log2 (by omega)]
    exact Nat.le_mul_of_pos_left _ positive
  rw [targetExponent_binary64, totalExponent]
  omega

/-- A whole number is divided by another far enough to be rounded once. -/
theorem div_of_roundsTo {m d p : ℕ} {q : ℤ} (rounds : RoundsTo m q (d / p))
    (canonical : IsCanonical m q) (nonzero : d ≠ 0) (positive : 0 < p) :
    (let c := UnpackedFloat.divCore .binary64 d 0 p 0
     UnpackedFloat.roundWithAccuracy .binary64 .positive c.1 c.2.1 c.2.2) =
      .finite .positive m q canonical.positive := by
  unfold UnpackedFloat.divCore
  extract_lets e shift n c
  have place : e = -(shift : ℤ) := by omega
  have fraction : Represents
      (.ofMantissaAndAccuracy (n / p) (UnpackedFloat.accuracyOfFraction (n % p) p))
      ((n / p : ℕ) + (n % p : ℕ) / p) := .of_fraction _ (Nat.mod_lt n positive)
  have value : (((n / p : ℕ) : ℚ) + (n % p : ℕ) / p) * 2 ^ e = d / p := by
    have parts : (n : ℚ) = p * (n / p : ℕ) + (n % p : ℕ) := by
      exact_mod_cast (Nat.div_add_mod n p).symm
    have shifted : (n : ℚ) = d * 2 ^ shift := by
      rw [show n = d * 2 ^ shift from Nat.shiftLeft_eq d shift]
      push_cast
      rfl
    have nonzero : (p : ℚ) ≠ 0 := by exact_mod_cast Nat.ne_of_gt positive
    have whole : ((n / p : ℕ) : ℚ) + (n % p : ℕ) / p = n / p := by
      rw [parts]
      field_simp
    rw [whole, shifted, place, zpow_neg, zpow_natCast]
    field_simp
  refine roundWithAccuracy_of_roundsTo canonical fraction ?_ (value ▸ rounds) .positive
  -- Above the least exponent the quotient has at least 53 digits.
  have target : e = min 0 (max ((d.log2 : ℤ) - p.log2 - 53) (-1074)) := by
    show min _ (Format.binary64.targetExponent _) = _
    rw [targetExponent_binary64, totalExponent, totalExponent]
    congr 2
    omega
  show e ≤ Format.binary64.targetExponent (totalExponent (n / p) e)
  rw [targetExponent_binary64, totalExponent]
  by_cases least : e ≤ -1074
  · omega
  have enough : p.log2 + 53 ≤ d.log2 + shift := by omega
  have long : 52 ≤ (n / p).log2 := by
    have low := Nat.log2_self_le nonzero
    have high := @Nat.lt_log2_self p
    have quotient : 2 ^ 52 ≤ n / p := by
      rw [Nat.le_div_iff_mul_le positive, show n = d * 2 ^ shift from Nat.shiftLeft_eq d shift]
      calc 2 ^ 52 * p ≤ 2 ^ 52 * 2 ^ (p.log2 + 1) := Nat.mul_le_mul_left _ (Nat.le_of_lt high)
        _ = 2 ^ (p.log2 + 53) := by rw [← Nat.pow_add]; congr 1; omega
        _ ≤ 2 ^ (d.log2 + shift) := Nat.pow_le_pow_right (by decide) enough
        _ = 2 ^ d.log2 * 2 ^ shift := Nat.pow_add ..
        _ ≤ d * 2 ^ shift := Nat.mul_le_mul_right _ low
    rw [Nat.le_log2 (Nat.ne_of_gt (Nat.lt_of_lt_of_le (by decide) quotient))]
    exact quotient
  omega

/-- A decimal near to a double is read as the double. -/
theorem ofScientific_of_roundsTo {m d : ℕ} {q E : ℤ} (rounds : RoundsTo m q (d * 10 ^ E))
    (canonical : IsCanonical m q) :
    UnpackedFloat.ofScientific .binary64 d E = .finite .positive m q canonical.positive := by
  obtain ⟨nonzero, small, large⟩ := rounds.exponent10 canonical
  unfold UnpackedFloat.ofScientific
  have power : ((2 : ℤ) ^ Format.binary64.exponentBits) = 2048 := rfl
  rw [dif_neg nonzero, power, if_neg (by omega), if_neg (by omega)]
  split
  · next nonneg =>
    obtain ⟨k, rfl⟩ := Int.eq_ofNat_of_zero_le nonneg
    exact mul_of_roundsTo rounds canonical nonzero
  · next negative =>
    obtain ⟨k, rfl⟩ : ∃ k : ℕ, E = -k := ⟨(-E).toNat, by omega⟩
    have quotient : (d : ℚ) * 10 ^ (-(k : ℤ)) = d / (10 ^ k : ℕ) := by
      rw [zpow_neg, zpow_natCast, Nat.cast_pow, div_eq_mul_inv]
      rfl
    rw [quotient] at rounds
    have places : (- -(k : ℤ)).toNat = k := by omega
    simp only [places]
    exact div_of_roundsTo rounds canonical nonzero (Nat.pow_pos (by decide))

end PerfFormula
