import Mathlib
import PerfFormula.Formula.Arithmetic

/-!
# Whole numbers among the doubles

The whole part of a finite double may be far too large for a machine word, but it is a number of 53
bits and some zeros behind them, so the double that is made of it again is exact. The remainder of
two such numbers is one too: it is a multiple of the smaller of the two powers of two, and it is not
larger than the operand that this power comes from.

Main statements:

* `isShort_wholePart` — the whole part of a finite double is short.
* `wholePart?_ofWhole` — a short whole number has a double with exactly that whole part.
* `wholePart?_wholeRemainder` — so a remainder is exact, and no conversion on the way is too large.
-/

namespace PerfFormula

open Float.Model (UnpackedFloat Format totalExponent)
open Float.Model.UnpackedFloat (Sign ExtendedMantissa)

/-! ## Short numbers -/

/-- A number of at most 53 binary digits and zeros behind them, within the range of doubles. -/
def IsShort (n : Nat) : Prop :=
  ∃ digits zeros, n = digits * 2 ^ zeros ∧ digits < 2 ^ 53 ∧ zeros ≤ 971

theorem IsShort.of_lt {n : Nat} (h : n < 2 ^ 53) : IsShort n := ⟨n, 0, by simp, h, by decide⟩

/-- The remainder of short numbers is short: with the fewer zeros of the two behind it. -/
theorem IsShort.mod {a b : Nat} (ha : IsShort a) (hb : IsShort b) (positive : 0 < b) :
    IsShort (a % b) := by
  obtain ⟨x, i, rfl, hx, hi⟩ := ha
  obtain ⟨y, j, rfl, hy, hj⟩ := hb
  rcases Nat.le_total i j with le | le
  · obtain ⟨k, rfl⟩ := Nat.exists_eq_add_of_le le
    refine ⟨x % (y * 2 ^ k), i, ?_, Nat.lt_of_le_of_lt (Nat.mod_le _ _) hx, hi⟩
    rw [Nat.pow_add, Nat.mul_comm (2 ^ i), ← Nat.mul_assoc, Nat.mul_mod_mul_right]
  · obtain ⟨k, rfl⟩ := Nat.exists_eq_add_of_le le
    have positive : 0 < y := Nat.pos_of_mul_pos_right positive
    refine ⟨x * 2 ^ k % y, j, ?_, Nat.lt_trans (Nat.mod_lt _ positive) hy, hj⟩
    rw [Nat.pow_add, Nat.mul_comm (2 ^ j), ← Nat.mul_assoc, Nat.mul_mod_mul_right]

/-- A short number in the form of a double: exactly 53 digits, times a power of two. -/
structure IsNormal (n m : Nat) (e : Int) : Prop where
  lower : 2 ^ 52 ≤ m
  upper : m < 2 ^ 53
  exponent : e = (n.log2 : Int) - 52
  bounded : e ≤ 971
  value : e ≤ 0 ∧ m = n <<< (-e).toNat ∨ 0 < e ∧ n = m * 2 ^ e.toNat

theorem IsShort.exists_isNormal {n : Nat} (h : IsShort n) (positive : 0 < n) :
    ∃ m e, IsNormal n m e := by
  have ne : n ≠ 0 := Nat.ne_of_gt positive
  have low := Nat.log2_self_le ne
  have high := @Nat.lt_log2_self n
  rcases Nat.lt_or_ge 52 n.log2 with large | small
  · -- The digits behind the first 53 are zeros.
    obtain ⟨digits, zeros, rfl, hdigits, hzeros⟩ := h
    generalize hL : (digits * 2 ^ zeros).log2 = L at low high large
    have fits : L < 53 + zeros := by
      rw [← hL, Nat.log2_lt ne, Nat.pow_add]
      exact Nat.mul_lt_mul_of_pos_right hdigits (Nat.two_pow_pos zeros)
    obtain ⟨k, rfl⟩ := Nat.exists_eq_add_of_lt large
    have split : digits * 2 ^ zeros = digits * 2 ^ (zeros - (k + 1)) * 2 ^ (k + 1) := by
      rw [Nat.mul_assoc, ← Nat.pow_add, Nat.sub_add_cancel (by omega)]
    rw [split] at low high
    refine ⟨digits * 2 ^ (zeros - (k + 1)), (k : Int) + 1, ?_, ?_, ?_, by omega,
      .inr ⟨by omega, ?_⟩⟩
    · rw [show 52 + k + 1 = 52 + (k + 1) by omega, Nat.pow_add] at low
      exact Nat.le_of_mul_le_mul_right low (Nat.two_pow_pos _)
    · rw [show 52 + k + 1 + 1 = 53 + (k + 1) by omega, Nat.pow_add 2 53] at high
      exact Nat.lt_of_mul_lt_mul_right high
    · rw [hL]
      omega
    · rw [split]
      congr 2
  · refine ⟨n <<< (52 - n.log2), (n.log2 : Int) - 52, ?_, ?_, rfl, by omega, .inl ⟨by omega, ?_⟩⟩
    · rw [Nat.shiftLeft_eq]
      calc 2 ^ 52 = 2 ^ n.log2 * 2 ^ (52 - n.log2) := by rw [← Nat.pow_add]; congr 1; omega
        _ ≤ n * 2 ^ (52 - n.log2) := Nat.mul_le_mul_right _ low
    · rw [Nat.shiftLeft_eq]
      calc n * 2 ^ (52 - n.log2) < 2 ^ (n.log2 + 1) * 2 ^ (52 - n.log2) :=
            Nat.mul_lt_mul_of_pos_right high (Nat.two_pow_pos _)
        _ = 2 ^ 53 := by rw [← Nat.pow_add]; congr 1; omega
    · congr 1
      omega

/-! ## Rounding that changes nothing -/

theorem targetExponent_binary64 (t : Int) :
    Format.binary64.targetExponent t = max (t - 53) (-1074) := by
  rw [Format.targetExponent]
  rfl

theorem shiftRight_zeros (m k : Nat) :
    (⟨m * 2 ^ k, false, false⟩ : ExtendedMantissa) >>> k = ⟨m, false, false⟩ := by
  induction k generalizing m with
  | zero => simp [HShiftRight.hShiftRight, Nat.repeat]
  | succ k ih =>
    show ExtendedMantissa.shiftRightOne
      ((⟨m * 2 ^ (k + 1), false, false⟩ : ExtendedMantissa) >>> k) = _
    rw [show m * 2 ^ (k + 1) = m * 2 * 2 ^ k by rw [Nat.pow_succ]; ring, ih]
    simp [ExtendedMantissa.shiftRightOne]

/-- Digits that have their place already stay where they are. -/
theorem shiftToTargetExponent_of_lt {m : Nat} {e : Int} (digits : m < 2 ^ 53) (le : -1074 ≤ e) :
    UnpackedFloat.shiftToTargetExponent .binary64 m e .exact = (⟨m, false, false⟩, e) := by
  have log : m.log2 ≤ 52 := by
    by_cases zero : m = 0
    · rw [zero]
      decide
    · exact Nat.le_of_lt_succ ((Nat.log2_lt zero).2 digits)
  have none : (Format.binary64.targetExponent (totalExponent m e) - e).toNat = 0 := by
    rw [targetExponent_binary64, totalExponent]
    omega
  rw [UnpackedFloat.shiftToTargetExponent, UnpackedFloat.shiftToExponent, none]
  simp [HShiftRight.hShiftRight, Nat.repeat, ExtendedMantissa.ofMantissaAndAccuracy]

/-- A short number is not rounded. -/
theorem round_of_isNormal {n m : Nat} {e : Int} (h : IsNormal n m e) (s : Sign) :
    UnpackedFloat.round .binary64 s n 0 = .finite s m e (by have := h.lower; omega) := by
  have exponent := h.exponent
  have nonzero : m ≠ 0 := by have := h.lower; omega
  have stays := shiftToTargetExponent_of_lt h.upper (show -1074 ≤ e by omega)
  have target : Format.binary64.targetExponent (totalExponent n 0) = e := by
    rw [targetExponent_binary64, totalExponent]
    omega
  -- The first shift brings the digits to their place, the second one finds them there.
  obtain ⟨m', e', lowered, shifted⟩ : ∃ m' e',
      UnpackedFloat.decreaseExponent n 0 e = (m', e') ∧
        UnpackedFloat.shiftToTargetExponent .binary64 m' e' .exact = (⟨m, false, false⟩, e) := by
    rcases h.value with ⟨le, value⟩ | ⟨lt, value⟩
    · refine ⟨m, e, ?_, stays⟩
      rw [UnpackedFloat.decreaseExponent, value]
      simp only [Int.zero_sub, Prod.mk.injEq, true_and]
      omega
    · refine ⟨n, 0, ?_, ?_⟩
      · have none : (0 - e).toNat = 0 := by omega
        rw [UnpackedFloat.decreaseExponent, none]
        rfl
      · have up : (0 : Int) + (e - 0).toNat = e := by omega
        have places : (e - 0).toNat = e.toNat := by omega
        rw [UnpackedFloat.shiftToTargetExponent, target, UnpackedFloat.shiftToExponent]
        simp only [up, Prod.mk.injEq, and_true]
        rw [places, ExtendedMantissa.ofMantissaAndAccuracy, value]
        exact shiftRight_zeros m e.toNat
  rw [UnpackedFloat.round, target, lowered]
  have kept : (⟨m, false, false⟩ : ExtendedMantissa).roundedMantissa = m := rfl
  simp only [UnpackedFloat.roundWithAccuracy, shifted, kept, stays]
  rw [dif_neg nonzero]

/-! ## Packing -/

theorem toNat_one_append {w : Nat} (v : BitVec w) : (1#1 ++ v).toNat = 2 ^ w + v.toNat := by
  rw [BitVec.toNat_append, ← Nat.shiftLeft_add_eq_or_of_lt v.isLt, Nat.shiftLeft_eq]
  simp

/-- The digits and the exponent of a finite double: 53 digits, or fewer at the least exponent. -/
structure IsCanonical (m : Nat) (e : Int) : Prop where
  positive : 0 < m
  upper : m < 2 ^ 53
  least : -1074 ≤ e
  greatest : e ≤ 971
  normal : 2 ^ 52 ≤ m ∨ e = -1074

theorem IsNormal.isCanonical {n m : Nat} {e : Int} (h : IsNormal n m e) : IsCanonical m e := by
  have lower := h.lower
  have exponent := h.exponent
  exact ⟨by omega, h.upper, by omega, h.bounded, .inl lower⟩

/-- A double within the range is unpacked as it was packed. -/
theorem unpack_pack_of_isCanonical {m : Nat} {e : Int} (h : IsCanonical m e) (s : Sign)
    (positive : 0 < m) :
    (Float.Model.pack (.finite s m e positive)).unpack = .finite s m e positive := by
  have upper := h.upper
  have least := h.least
  have greatest := h.greatest
  have biased : (e + (Format.binary64.exponentBias : Int) +
      (Format.binary64.mantissaBitsWithoutImplicit : Int)).toNat = (e + 1075).toNat := by
    show (e + (1023 : Int) + (52 : Int)).toNat = _
    omega
  show UnpackedFloat.unpack .binary64 (UnpackedFloat.pack .binary64 _) = _
  rw [UnpackedFloat.pack]
  simp only [biased]
  rw [if_neg (by show ¬2 ^ 11 ≤ _; omega)]
  rcases Nat.lt_or_ge m (2 ^ 52) with few | lower
  · -- Fewer digits than 53 are stored as they are, with the least exponent.
    obtain rfl : e = -1074 := h.normal.resolve_left (by omega)
    have short : m.log2 < 52 := (Nat.log2_lt (Nat.ne_of_gt positive)).2 few
    have mantissa : (BitVec.ofNat 52 m).toNat = m := by
      rw [BitVec.toNat_ofNat, Nat.mod_eq_of_lt few]
    have some : BitVec.ofNat 52 m ≠ 0#52 := by
      intro zero
      rw [zero] at mantissa
      exact Nat.ne_of_gt positive mantissa.symm
    rw [if_neg (by show ¬_ = 53; omega), UnpackedFloat.unpack]
    simp only [UnpackedFloat.unpackMantissa_packComponents,
      UnpackedFloat.unpackExponent_packComponents, UnpackedFloat.unpackSign_packComponents,
      Sign.ofBitVec_toBitVec]
    rw [if_neg (by decide), if_pos trivial, dif_neg some]
    simp only [mantissa]
    rfl
  · have long : m.log2 = 52 := (Nat.log2_eq_iff (Nat.ne_of_gt positive)).2 ⟨lower, upper⟩
    have inRange : (BitVec.ofNat 11 (e + 1075).toNat).toNat = (e + 1075).toNat := by
      rw [BitVec.toNat_ofNat, Nat.mod_eq_of_lt (by omega)]
    have finite : BitVec.ofNat 11 (e + 1075).toNat ≠ -1#11 := by
      intro h
      have := congrArg BitVec.toNat h
      rw [inRange] at this
      have : (-1#11).toNat = 2047 := by decide
      omega
    have normal : BitVec.ofNat 11 (e + 1075).toNat ≠ 0#11 := by
      intro h
      have := congrArg BitVec.toNat h
      rw [inRange] at this
      have : (0#11).toNat = 0 := by decide
      omega
    have mantissa : (1#1 ++ BitVec.ofNat 52 m).toNat = m := by
      rw [toNat_one_append, BitVec.toNat_ofNat]
      omega
    rw [long, if_pos (by decide), UnpackedFloat.unpack]
    simp only [UnpackedFloat.unpackMantissa_packComponents,
      UnpackedFloat.unpackExponent_packComponents, UnpackedFloat.unpackSign_packComponents,
      Sign.ofBitVec_toBitVec]
    rw [if_neg finite, if_neg normal]
    simp only [mantissa, inRange]
    congr 1
    show ((e + 1075).toNat : Int) - ((1023 : Int) + 52) = e
    omega

/-- The fields that a finite double is unpacked from. -/
theorem fields_of_unpack {b : BitVec Format.binary64.numBits} {s : Sign} {m : Nat} {e : Int}
    {positive : 0 < m} (h : UnpackedFloat.unpack .binary64 b = .finite s m e positive) :
    s = .ofBitVec (UnpackedFloat.unpackSign b) ∧
      (UnpackedFloat.unpackExponent b = 0#11 ∧ m = (UnpackedFloat.unpackMantissa b).toNat ∧
          e = -1074 ∨
        UnpackedFloat.unpackExponent b ≠ 0#11 ∧ (UnpackedFloat.unpackExponent b).toNat ≠ 2047 ∧
          m = 2 ^ 52 + (UnpackedFloat.unpackMantissa b).toNat ∧
          e = (UnpackedFloat.unpackExponent b).toNat - 1075) := by
  have bias : (Format.binary64.exponentBias : Int) + Format.binary64.mantissaBitsWithoutImplicit =
      1075 := rfl
  simp only [UnpackedFloat.unpack, bias] at h
  split at h
  · split at h <;> cases h
  · next finite =>
    have below : (UnpackedFloat.unpackExponent b).toNat ≠ 2047 := fun h =>
      finite (BitVec.eq_of_toNat_eq (h.trans (by decide)))
    split at h
    · next subnormal =>
      split at h
      · cases h
      · have zero : (UnpackedFloat.unpackExponent b).toNat = 0 := by rw [subnormal]; rfl
        cases h
        exact ⟨rfl, .inl ⟨subnormal, rfl, by omega⟩⟩
    · next normal =>
      cases h
      exact ⟨rfl, .inr ⟨normal, below, toNat_one_append _, rfl⟩⟩

/-- What a finite double consists of: at most 53 digits, within the range. -/
theorem canonical_of_unpack {b : BitVec Format.binary64.numBits} {s : Sign} {m : Nat} {e : Int}
    {positive : 0 < m} (h : UnpackedFloat.unpack .binary64 b = .finite s m e positive) :
    IsCanonical m e := by
  have digits : (UnpackedFloat.unpackMantissa b).toNat < 2 ^ 52 :=
    (UnpackedFloat.unpackMantissa b).isLt
  have power : (UnpackedFloat.unpackExponent b).toNat < 2048 :=
    (UnpackedFloat.unpackExponent b).isLt
  obtain ⟨-, ⟨-, rfl, rfl⟩ | ⟨nonzero, below, rfl, rfl⟩⟩ := fields_of_unpack h
  · exact ⟨positive, by omega, by omega, by omega, .inr rfl⟩
  · have some : 0 < (UnpackedFloat.unpackExponent b).toNat := by
      refine Nat.pos_of_ne_zero fun zero => nonzero (BitVec.eq_of_toNat_eq (zero.trans ?_))
      rfl
    exact ⟨positive, by omega, by omega, by omega, .inl (by omega)⟩

theorem toBitVec_ofBitVec (v : BitVec 1) : (Sign.ofBitVec v).toBitVec = v := by
  rcases BitVec.eq_zero_or_eq_one v with rfl | rfl <;> rfl

theorem packComponents_unpack (b : BitVec Format.binary64.numBits) :
    UnpackedFloat.packComponents .binary64 (.ofBitVec (UnpackedFloat.unpackSign b))
      (UnpackedFloat.unpackExponent b) (UnpackedFloat.unpackMantissa b) = b := by
  unfold UnpackedFloat.packComponents
  rw [toBitVec_ofBitVec]
  -- Bits next to each other are digits of one number, so the fields are compared as numbers.
  apply BitVec.eq_of_toNat_eq
  have bound : b.toNat < 2 ^ 64 := b.isLt
  rw [BitVec.toNat_append, BitVec.toNat_append,
    ← Nat.shiftLeft_add_eq_or_of_lt (UnpackedFloat.unpackMantissa b).isLt,
    ← Nat.shiftLeft_add_eq_or_of_lt (UnpackedFloat.unpackExponent b).isLt]
  simp [UnpackedFloat.unpackMantissa, UnpackedFloat.unpackExponent, UnpackedFloat.unpackSign,
    Nat.shiftLeft_eq, Nat.shiftRight_eq_div_pow]
  omega

/-- A finite double is packed as it was unpacked. -/
theorem pack_of_unpack {b : BitVec Format.binary64.numBits} {s : Sign} {m : Nat} {e : Int}
    {positive : 0 < m} (h : UnpackedFloat.unpack .binary64 b = .finite s m e positive) :
    UnpackedFloat.pack .binary64 (.finite s m e positive) = b := by
  have canonical := canonical_of_unpack h
  have digits : (UnpackedFloat.unpackMantissa b).toNat < 2 ^ 52 :=
    (UnpackedFloat.unpackMantissa b).isLt
  have power : (UnpackedFloat.unpackExponent b).toNat < 2048 :=
    (UnpackedFloat.unpackExponent b).isLt
  have biased : (e + (Format.binary64.exponentBias : Int) +
      (Format.binary64.mantissaBitsWithoutImplicit : Int)).toNat = (e + 1075).toNat := by
    show (e + (1023 : Int) + (52 : Int)).toNat = _
    omega
  have finite : ¬2 ^ Format.binary64.exponentBits ≤ (e + 1075).toNat + 1 := by
    show ¬2 ^ 11 ≤ _
    have := canonical.greatest
    omega
  rw [UnpackedFloat.pack]
  simp only [biased]
  rw [if_neg finite]
  obtain ⟨rfl, ⟨zero, rfl, rfl⟩ | ⟨nonzero, below, rfl, rfl⟩⟩ := fields_of_unpack h
  · have short : (UnpackedFloat.unpackMantissa b).toNat.log2 < 52 :=
      (Nat.log2_lt (Nat.ne_of_gt positive)).2 digits
    rw [if_neg (by show ¬_ = 53; omega), BitVec.ofNat_toNat, BitVec.setWidth_eq, ← zero]
    exact packComponents_unpack b
  · have long : (2 ^ 52 + (UnpackedFloat.unpackMantissa b).toNat).log2 = 52 :=
      (Nat.log2_eq_iff (Nat.ne_of_gt positive)).2 ⟨by omega, by omega⟩
    have places : (((UnpackedFloat.unpackExponent b).toNat : Int) - 1075 + 1075).toNat =
        (UnpackedFloat.unpackExponent b).toNat := by omega
    -- The first of the 53 digits is not stored.
    have stored : BitVec.ofNat 52 (2 ^ 52 + (UnpackedFloat.unpackMantissa b).toNat) =
        UnpackedFloat.unpackMantissa b := by
      apply BitVec.eq_of_toNat_eq
      rw [BitVec.toNat_ofNat]
      omega
    rw [if_pos (by show _ = 53; omega), places, stored, BitVec.ofNat_toNat, BitVec.setWidth_eq]
    exact packComponents_unpack b

theorem pack_of_unpack_zero {b : BitVec Format.binary64.numBits} {s : Sign}
    (h : UnpackedFloat.unpack .binary64 b = .zero s) :
    UnpackedFloat.pack .binary64 (.zero s) = b := by
  have fields := packComponents_unpack b
  simp only [UnpackedFloat.unpack] at h
  split at h
  · split at h <;> cases h
  split at h
  · next exponent =>
    split at h
    · next mantissa =>
      cases h
      rwa [exponent, mantissa] at fields
    · cases h
  · cases h

/-! ## Whole parts -/

theorem wholePart?_of_unpack {x : Float} {s : Sign} {m : Nat} {e : Int} {positive : 0 < m}
    (h : x.toModel.unpack = .finite s m e positive) :
    wholePart? x =
      some (s.apply ((if 0 ≤ e then m <<< e.toNat else m >>> (-e).toNat : Nat) : Int)) := by
  simp only [wholePart?, h]
  by_cases nonneg : 0 ≤ e
  · rw [if_pos nonneg, if_pos nonneg]
  · rw [if_neg nonneg, if_neg nonneg]

/-- The whole part of a finite double is short. -/
theorem isShort_wholePart {x : Float} {n : Int} (h : wholePart? x = some n) :
    IsShort n.natAbs := by
  have natAbs_apply : ∀ (s : Sign) (k : Nat), (s.apply k).natAbs = k := by
    intro s k
    cases s with
    | positive => exact Int.natAbs_natCast k
    | negative => exact (Int.natAbs_neg k).trans (Int.natAbs_natCast k)
  cases unpacked : x.toModel.unpack with
  | finite s m e positive =>
    have canonical := canonical_of_unpack unpacked
    have range := canonical.greatest
    obtain rfl := Option.some.inj ((wholePart?_of_unpack unpacked).symm.trans h)
    rw [natAbs_apply]
    split
    · exact ⟨m, e.toNat, Nat.shiftLeft_eq m e.toNat, canonical.upper, by omega⟩
    · exact .of_lt (Nat.lt_of_le_of_lt (Nat.shiftRight_le m _) canonical.upper)
  | zero s =>
    rw [wholePart?, unpacked] at h
    obtain rfl := Option.some.inj h
    exact .of_lt (by decide)
  | infinity s =>
    rw [wholePart?, unpacked] at h
    cases h
  | notANumber =>
    rw [wholePart?, unpacked] at h
    cases h

/-- The double that is made of a short number has its digits. -/
theorem unpack_ofWhole {k m : Nat} {e : Int} (normal : IsNormal k m e) (s : Sign)
    (positive : 0 < k) :
    (ofWhole (s.apply k)).toModel.unpack =
      .finite s m e (by have := normal.lower; omega) := by
  have lower := normal.lower
  rw [← unpack_pack_of_isCanonical normal.isCanonical s, ← round_of_isNormal normal s]
  show (Float.Model.pack (UnpackedFloat.normalize .binary64 (s.apply k) 0 .positive)).unpack = _
  cases s with
  | positive =>
    have order : compare (Sign.positive.apply (k : Int)) 0 = .gt :=
      Int.compare_eq_gt.2 (by show (0 : Int) < k; omega)
    rw [UnpackedFloat.normalize, order]
    rfl
  | negative =>
    have order : compare (Sign.negative.apply (k : Int)) 0 = .lt :=
      Int.compare_eq_lt.2 (by show -(k : Int) < 0; omega)
    have size : (-Sign.negative.apply (k : Int)).toNat = k := by
      show (- -(k : Int)).toNat = k
      omega
    rw [UnpackedFloat.normalize, order]
    simp only [size]

theorem wholePart?_ofWhole_apply {k : Nat} (short : IsShort k) (positive : 0 < k) (s : Sign) :
    wholePart? (ofWhole (s.apply k)) = some (s.apply k) := by
  obtain ⟨m, e, normal⟩ := short.exists_isNormal positive
  rw [wholePart?_of_unpack (unpack_ofWhole normal s positive)]
  congr 3
  rcases normal.value with ⟨le, value⟩ | ⟨lt, value⟩
  · by_cases zero : e = 0
    · subst zero
      rw [if_pos (Int.le_refl 0), value]
      rfl
    · rw [if_neg (by omega), value, Nat.shiftLeft_shiftRight]
  · rw [if_pos (by omega), Nat.shiftLeft_eq, value]

/-- A short whole number has a double with exactly that whole part. -/
theorem wholePart?_ofWhole {n : Int} (short : IsShort n.natAbs) :
    wholePart? (ofWhole n) = some n := by
  rcases Int.lt_trichotomy n 0 with negative | rfl | positive
  · have exact := wholePart?_ofWhole_apply short (by omega) .negative
    have signed : Sign.negative.apply (n.natAbs : Int) = n := by
      show -(n.natAbs : Int) = n
      omega
    rwa [signed] at exact
  · decide
  · have exact := wholePart?_ofWhole_apply short (by omega) .positive
    rwa [show Sign.positive.apply (n.natAbs : Int) = n by show (n.natAbs : Int) = n; omega] at exact

/-! ## Remainders -/

/-- A remainder of finite operands is exact: their whole parts are converted to doubles and back
without loss, and so is what remains. -/
theorem wholePart?_wholeRemainder {x y : Float} {a b : Int} (hx : wholePart? x = some a)
    (hy : wholePart? y = some b) (nonzero : b ≠ 0) :
    wholePart? (ofWhole a) = some a ∧ wholePart? (ofWhole b) = some b ∧
      wholePart? (wholeRemainder a b) = some (a.tmod b) := by
  have shortA := isShort_wholePart hx
  have shortB := isShort_wholePart hy
  refine ⟨wholePart?_ofWhole shortA, wholePart?_ofWhole shortB, ?_⟩
  have short : IsShort (a.tmod b).natAbs := by
    rw [Int.natAbs_tmod]
    exact shortA.mod shortB (Int.natAbs_pos.2 nonzero)
  unfold wholeRemainder
  dsimp only
  split
  · next zero =>
    rw [zero]
    split <;> rfl
  · exact wholePart?_ofWhole short

end PerfFormula
