import PerfFormula.Proofs.PrintedNumbers
import PerfFormula.Proofs.Rounding

/-!
# The shortest decimal reads back

The bounds of a neighbourhood and the points of a decimal grid are whole numbers over a common
denominator, so the search for the shortest decimal compares exact numbers. What it picks is near to
the double, hence read as the double.

The search picks something: a step of the grid with seventeen digits is less than the distance to
the next double on the side where it is closer, so one of the two points next to the double is in
its neighbourhood. With 53 binary digits, 16 decimal digits behind the first are enough, since
`2 ^ 53 < 10 ^ 16`.

Main statements:

* `Neighbourhood.holds_iff` — what it means that a point of a grid is in the neighbourhood.
* `Neighbourhood.pick?_isSome` — on a grid of seventeen digits something is picked.
* `shortest_roundsTo` — the shortest decimal is near to the double.
* `value_write` — a number without a sign is read as it is written.
-/

namespace PerfFormula

open Float.Model (UnpackedFloat Format)

theorem pow_toNat {b : ℚ} (nonzero : b ≠ 0) (z : ℤ) : b ^ z.toNat = b ^ z * b ^ (-z).toNat := by
  rw [← zpow_natCast, ← zpow_natCast, ← zpow_add₀ nonzero]
  congr 1
  omega

namespace Decimal
namespace Neighbourhood

/-! ## Points of a neighbourhood -/

variable {m d : ℕ} {q E : ℤ}

/-- The distance from a double to the lower end of its neighbourhood, in quarters of the last
place. -/
def below (m : ℕ) (q : ℤ) : ℕ := if m = 1 <<< 52 ∧ q ≠ -1074 then 1 else 2

theorem below_cases (m : ℕ) (q : ℤ) :
    m = 2 ^ 52 ∧ q ≠ -1074 ∧ below m q = 1 ∨ ¬(m = 2 ^ 52 ∧ q ≠ -1074) ∧ below m q = 2 := by
  have power : 1 <<< 52 = 2 ^ 52 := by decide
  unfold below
  rw [power]
  by_cases narrow : m = 2 ^ 52 ∧ q ≠ -1074
  · exact .inl ⟨narrow.1, narrow.2, if_pos narrow⟩
  · exact .inr ⟨narrow, if_neg narrow⟩

theorem scale_pos : 0 < (of m q).scale := by
  show 0 < 1 <<< (2 - q).toNat
  rw [Nat.one_shiftLeft]
  exact Nat.two_pow_pos _

/-- Points of a grid and bounds in quarters of the last place are scaled by the same factor. -/
theorem scaled (m : ℕ) (q E : ℤ) : ∃ w : ℚ, 0 < w ∧
    (∀ a : ℕ, ((a * 1 <<< (q - 2).toNat * Nat.pow 10 (-E).toNat : ℕ) : ℚ) = a / 4 * w) ∧
    ∀ d : ℕ, ((d * (Nat.pow 10 E.toNat * (of m q).scale) : ℕ) : ℚ) = d * 10 ^ E / 2 ^ q * w := by
  have scale : (of m q).scale = 2 ^ (2 - q).toNat := Nat.one_shiftLeft _
  have positive := zpow_two_pos q
  -- The denominators of the last place and of the grid, in units of the last place.
  refine ⟨2 ^ q * 2 ^ (2 - q).toNat * 10 ^ (-E).toNat, by positivity, ?_, ?_⟩
  · intro a
    have up := @pow_toNat 2 (by norm_num) (q - 2)
    rw [zpow_sub₀ (by norm_num), Int.neg_sub] at up
    rw [Nat.one_shiftLeft, Nat.pow_eq]
    push_cast
    rw [up]
    ring
  · intro d
    have power := @pow_toNat 10 (by norm_num) E
    rw [scale, Nat.pow_eq]
    push_cast
    rw [power]
    field_simp

/-- A point of a grid is in the neighbourhood if it is between the ends, which only belong to it if
the double is even. -/
theorem holds_iff (positive : 0 < m) :
    (of m q).holds (d * (Nat.pow 10 E.toNat * (of m q).scale)) (Nat.pow 10 (-E).toNat) = true ↔
      if m % 2 = 0 then
        (m : ℚ) - below m q / 4 ≤ d * 10 ^ E / 2 ^ q ∧ (d : ℚ) * 10 ^ E / 2 ^ q ≤ m + 1 / 2
      else (m : ℚ) - below m q / 4 < d * 10 ^ E / 2 ^ q ∧ (d : ℚ) * 10 ^ E / 2 ^ q < m + 1 / 2 := by
  obtain ⟨w, hw, bound, point⟩ := scaled m q E
  have lower : (of m q).lower = (4 * m - below m q) * 1 <<< (q - 2).toNat := rfl
  have upper : (of m q).upper = (4 * m + 2) * 1 <<< (q - 2).toNat := rfl
  have low : ((4 * m - below m q : ℕ) : ℚ) / 4 = m - below m q / 4 := by
    have : below m q ≤ 4 * m := by
      rcases below_cases m q with ⟨-, -, one⟩ | ⟨-, two⟩ <;> omega
    push_cast [this]
    ring
  have high : ((4 * m + 2 : ℕ) : ℚ) / 4 = m + 1 / 2 := by
    push_cast
    ring
  unfold holds
  rw [lower, upper, ← low, ← high]
  by_cases even : m % 2 = 0
  · have closed : (of m q).closed = true := decide_eq_true even
    rw [if_pos closed, if_pos even, Bool.and_eq_true, decide_eq_true_eq, decide_eq_true_eq]
    refine and_congr ?_ ?_ <;>
      rw [← @Nat.cast_le ℚ, bound, point, mul_le_mul_iff_of_pos_right hw]
  · have closed : ¬(of m q).closed = true := fun h => even (of_decide_eq_true h)
    rw [if_neg closed, if_neg even, Bool.and_eq_true, decide_eq_true_eq, decide_eq_true_eq]
    refine and_congr ?_ ?_ <;>
      rw [← @Nat.cast_lt ℚ, bound, point, mul_lt_mul_iff_of_pos_right hw]

theorem roundsTo_of_holds (positive : 0 < m)
    (h : (of m q).holds (d * (Nat.pow 10 E.toNat * (of m q).scale)) (Nat.pow 10 (-E).toNat)) :
    RoundsTo m q (d * 10 ^ E) := by
  rw [holds_iff positive] at h
  generalize (d : ℚ) * 10 ^ E = r at *
  have half : (m : ℚ) - 1 / 2 ≤ m - below m q / 4 := by
    rcases below_cases m q with ⟨-, -, one⟩ | ⟨-, two⟩
    · rw [one, Nat.cast_one]
      linarith
    · rw [two, Nat.cast_ofNat]
      linarith
  have near : (m : ℚ) - below m q / 4 ≤ r / 2 ^ q ∧ r / 2 ^ q ≤ m + 1 / 2 := by
    split at h
    · exact h
    · exact ⟨le_of_lt h.1, le_of_lt h.2⟩
  refine ⟨⟨by linarith, near.2⟩, fun odd => ?_, fun least range => ?_⟩
  · rw [if_neg (by omega)] at h
    exact ⟨by linarith, h.2⟩
  · rcases below_cases m q with ⟨-, -, one⟩ | ⟨wide, -⟩
    · rw [one, Nat.cast_one] at near
      exact near.1
    · exact absurd ⟨least, range⟩ wide

/-! ## Seventeen digits -/

theorem below_mem_neighbours (n : Neighbourhood) (step den : ℕ) :
    n.value * den / step ∈ n.neighbours step den ∧
      n.value * den / step + 1 ∈ n.neighbours step den := by
  unfold neighbours
  extract_lets target below toBelow toAbove
  split <;> simp [below, target]

/-- One of the two neighbours is at most half a step away. -/
theorem exists_near (n : Neighbourhood) {step : ℕ} (positive : 0 < step) (den : ℕ) :
    ∃ d ∈ n.neighbours step den, 2 * (d * step) ≤ 2 * (n.value * den) + step ∧
      2 * (n.value * den) ≤ 2 * (d * step) + step := by
  obtain ⟨low, high⟩ := n.below_mem_neighbours step den
  have split := Nat.div_add_mod' (n.value * den) step
  have rest := Nat.mod_lt (n.value * den) positive
  by_cases first : 2 * (n.value * den % step) ≤ step
  · exact ⟨_, low, by omega, by omega⟩
  · refine ⟨_, high, ?_, ?_⟩ <;>
      · rw [Nat.add_mul, Nat.one_mul]
        omega

/-- On a grid of at least seventeen digits there is a point in the neighbourhood. -/
theorem pick?_isSome (canonical : IsCanonical m q)
    (fine : Nat.pow 10 E.toNat * (of m q).scale * 10 ^ 16 ≤
      (of m q).value * Nat.pow 10 (-E).toNat) : ((of m q).pick? E).isSome := by
  have step : 0 < Nat.pow 10 E.toNat * (of m q).scale :=
    Nat.mul_pos (Nat.pow_pos (by decide)) scale_pos
  obtain ⟨d, mem, high, low⟩ := (of m q).exists_near step (Nat.pow 10 (-E).toNat)
  refine List.find?_isSome.2 ⟨d, mem, ?_⟩
  rw [holds_iff canonical.positive]
  obtain ⟨w, hw, bound, point⟩ := scaled m q E
  have value : (((of m q).value * Nat.pow 10 (-E).toNat : ℕ) : ℚ) = m * w := by
    have written : (of m q).value = 4 * m * 1 <<< (q - 2).toNat := rfl
    rw [written, bound]
    push_cast
    ring
  have grid := point 1
  have point := point d
  rw [Nat.cast_one, one_mul, one_mul] at grid
  -- In last places the double is `m`, the point is `u`, and the grid has steps of `g`.
  generalize (d : ℚ) * 10 ^ E / 2 ^ q = u at point ⊢
  generalize (10 : ℚ) ^ E / 2 ^ q = g at grid
  generalize Nat.pow 10 E.toNat * (of m q).scale = steps at *
  generalize (of m q).value * Nat.pow 10 (-E).toNat = target at *
  have high : 2 * ((d * steps : ℕ) : ℚ) ≤ 2 * target + steps := by exact_mod_cast high
  have low : 2 * (target : ℚ) ≤ 2 * (d * steps : ℕ) + steps := by exact_mod_cast low
  have fine : (steps : ℚ) * 10 ^ 16 ≤ target := by exact_mod_cast fine
  rw [point, value, grid] at high low
  rw [value, grid] at fine
  have high : 2 * u ≤ 2 * m + g := le_of_mul_le_mul_right (by linarith) hw
  have low : 2 * m ≤ 2 * u + g := le_of_mul_le_mul_right (by linarith) hw
  have fine : g * 10 ^ 16 ≤ m := le_of_mul_le_mul_right (by linarith) hw
  have upper : (m : ℚ) < 2 ^ 53 := by exact_mod_cast canonical.upper
  have inside : (m : ℚ) - below m q / 4 < u ∧ u < m + 1 / 2 := by
    refine ⟨?_, by linarith⟩
    rcases below_cases m q with ⟨least, -, one⟩ | ⟨-, two⟩
    · rw [one, Nat.cast_one]
      rw [least] at fine low ⊢
      push_cast at fine low ⊢
      linarith
    · rw [two, Nat.cast_ofNat]
      linarith
  split
  · exact ⟨le_of_lt inside.1, le_of_lt inside.2⟩
  · exact inside

/-- The search ends at a point that is picked, if there is one at the last try at the latest. -/
theorem pick?_search {n : Neighbourhood} {leading : ℤ} {fuel count : ℕ}
    (last : (n.pick? (leading - (count + fuel : ℕ) + 1)).isSome) :
    n.pick? (n.search leading (fuel + 1) count).exponent =
      some (n.search leading (fuel + 1) count).digits := by
  -- Each try that picks nothing leaves one try fewer and goes one digit further.
  induction fuel generalizing count with
  | zero =>
    obtain ⟨d, picked⟩ := Option.isSome_iff_exists.1 last
    rw [Nat.add_zero] at picked
    simp only [search, picked]
  | succ fuel ih =>
    rw [search]
    cases picked : n.pick? (leading - count + 1) with
    | some d => simp only [picked]
    | none =>
      refine ih ?_
      rwa [Nat.add_right_comm, Nat.add_assoc]

/-! ## The leading digit -/

theorem lt_pow_length_toDigits (n : ℕ) : n < 10 ^ (Nat.toDigits 10 n).length :=
  (Nat.length_toDigits_le_iff (by decide) Nat.length_toDigits_pos).1 (Nat.le_refl _)

theorem pow_le_of_length_toDigits {n : ℕ} (positive : 0 < n) :
    10 ^ ((Nat.toDigits 10 n).length - 1) ≤ n := by
  have some := @Nat.length_toDigits_pos 10 n
  by_contra! less
  by_cases one : (Nat.toDigits 10 n).length - 1 = 0
  · rw [one] at less
    omega
  · have := (Nat.length_toDigits_le_iff (by decide) (by omega)).2 less
    omega

/-- The first digit of a double stands at the leading exponent or above it. -/
theorem leadingExponent_le {n : Neighbourhood} (value : 0 < n.value) (scale : 0 < n.scale) :
    (10 : ℚ) ^ n.leadingExponent * n.scale ≤ n.value := by
  unfold leadingExponent
  split
  · next large =>
    have long := pow_le_of_length_toDigits (Nat.div_pos large scale)
    have some := @Nat.length_toDigits_pos 10 (n.value / n.scale)
    generalize (Nat.toDigits 10 (n.value / n.scale)).length = len at *
    rw [show ((len : ℤ) - 1) = ((len - 1 : ℕ) : ℤ) by omega, zpow_natCast]
    have product : 10 ^ (len - 1) * n.scale ≤ n.value :=
      (Nat.le_div_iff_mul_le scale).1 long
    exact_mod_cast product
  · next small =>
    have short := lt_pow_length_toDigits ((n.scale + n.value - 1) / n.value - 1)
    generalize (Nat.toDigits 10 ((n.scale + n.value - 1) / n.value - 1)).length = len at *
    -- The reciprocal is rounded up, so that it is compared with the power from above.
    have quotient : (n.scale + n.value - 1) / n.value < 10 ^ len + 1 := by omega
    have product : n.scale + n.value - 1 < (10 ^ len + 1) * n.value :=
      (Nat.div_lt_iff_lt_mul value).1 quotient
    have enough : n.scale ≤ 10 ^ len * n.value := by
      rw [Nat.add_mul, Nat.one_mul] at product
      omega
    have enough : (n.scale : ℚ) ≤ 10 ^ len * n.value := by exact_mod_cast enough
    rw [zpow_neg, zpow_natCast, inv_mul_le_iff₀ (by positivity)]
    exact enough

/-- A grid is fine enough if its step is sixteen digits below the first digit of the double. -/
theorem fine_of_leading {n : Neighbourhood}
    (leading : (10 : ℚ) ^ (E + 16) * n.scale ≤ n.value) :
    Nat.pow 10 E.toNat * n.scale * 10 ^ 16 ≤ n.value * Nat.pow 10 (-E).toNat := by
  rw [← @Nat.cast_le ℚ, Nat.pow_eq, Nat.pow_eq]
  push_cast
  rw [@pow_toNat 10 (by norm_num) E]
  rw [zpow_add₀ (by norm_num)] at leading
  calc (10 : ℚ) ^ E * 10 ^ (-E).toNat * n.scale * 10 ^ 16
      = 10 ^ E * 10 ^ (16 : ℤ) * n.scale * 10 ^ (-E).toNat := by
        norm_cast
        ring
    _ ≤ n.value * 10 ^ (-E).toNat := mul_le_mul_of_nonneg_right leading (by positivity)

end Neighbourhood

/-! ## The shortest decimal -/

/-- Zeros behind the digits of a decimal are the same as a greater exponent. -/
theorem amount_of_zeros {a b k : ℕ} {e f : ℤ} (digits : a = b * 10 ^ k) (exponent : f = e + k) :
    (b : ℚ) * 10 ^ f = a * 10 ^ e := by
  rw [digits, exponent, zpow_add₀ (by norm_num), zpow_natCast]
  push_cast
  ring

/-- The shortest decimal of a double is near to it. -/
theorem shortest_roundsTo {m : ℕ} {q : ℤ} (canonical : IsCanonical m q) :
    RoundsTo m q ((shortest m q).digits * 10 ^ (shortest m q).exponent) := by
  have value : 0 < (Neighbourhood.of m q).value := by
    show 0 < 4 * m * 1 <<< (q - 2).toNat
    rw [Nat.one_shiftLeft]
    exact Nat.mul_pos (Nat.mul_pos (by decide) canonical.positive) (Nat.two_pow_pos _)
  have leading := Neighbourhood.leadingExponent_le value Neighbourhood.scale_pos
  unfold shortest
  extract_lets n
  obtain ⟨k, exponent, digits⟩ := Scaled.normalize_value 20 (n.search n.leadingExponent 17 1)
  rw [amount_of_zeros digits exponent]
  -- The last of the seventeen grids is fine enough, if none before it is.
  refine Neighbourhood.roundsTo_of_holds canonical.positive
    (Neighbourhood.pick_mem (Neighbourhood.pick?_search ?_))
  refine Neighbourhood.pick?_isSome canonical (Neighbourhood.fine_of_leading ?_)
  rwa [show n.leadingExponent - ((1 + 16 : ℕ) : ℤ) + 1 + 16 = n.leadingExponent by omega]

/-! ## Reading what was written -/

/-- The shortest decimal of a double is read as the double. -/
theorem value_shortest {m : ℕ} {q : ℤ} (canonical : IsCanonical m q) :
    value ((shortest m q).write plain) =
      .ofModel (.pack (.finite .positive m q canonical.positive)) := by
  obtain ⟨n, spelled, k, digits, exponent⟩ := spells_write (shortest m q)
  have near := shortest_roundsTo canonical
  rw [amount_of_zeros digits exponent] at near
  have read := ofScientific_of_roundsTo near canonical
  simp only [value, spelled.scan, Numeral.toFloat, Float.Model.ofScientific, read]

/-- A positive double is read as it is written. -/
theorem value_write_of_positive {x : Float} {m : ℕ} {q : ℤ} {positive : 0 < m}
    (unpacked : x.toModel.unpack = .finite .positive m q positive) : value (write plain x) = x := by
  have read := value_shortest (canonical_of_unpack unpacked)
  have bits := pack_of_unpack unpacked
  obtain ⟨⟨⟨b⟩, valid⟩⟩ := x
  simp only [write, unpacked, signText, List.nil_append]
  refine read.trans ?_
  simp only [Float.Model.pack, bits]

/-- A number without a sign is read as it is written. -/
theorem value_write {x : Float} (finite : x.isFinite = true)
    (unsigned : x.toBits < 0x8000000000000000) : value (write plain x) = x := by
  rcases unpack_of_unsigned finite unsigned with unpacked | ⟨m, q, positive, unpacked⟩
  · have zero : value ['0', '.', '0'] = .ofModel (.pack (.zero .positive)) := by decide +kernel
    have bits := pack_of_unpack_zero unpacked
    obtain ⟨⟨⟨b⟩, valid⟩⟩ := x
    simp only [write, unpacked]
    refine zero.trans ?_
    simp only [Float.Model.pack, bits]
  · exact value_write_of_positive unpacked

end Decimal
end PerfFormula
