/-!
# The shortest decimal that reads back

A positive double is `m · 2^q`. Of all decimals that round to it we want one with the fewest digits
and, among those, the one nearest to it. Everything is done in exact integer arithmetic: the
half-open neighbourhood of the double is scaled to integers over a common denominator, and for one,
two, … digits the two neighbours of the value on that decimal grid are tried. If any point of a grid
lies in the neighbourhood, then so does one of these two, so the first grid with a hit is the
coarsest one.

Main statements:

* `Decimal.Scaled.normalize_value` — dropping the final zeros of a decimal keeps its value.
* `Neighbourhood.pick_mem` — what is picked from a grid lies in the neighbourhood.
-/

namespace PerfFormula.Decimal

/-- The number `digits · 10 ^ exponent`. -/
structure Scaled where
  digits : Nat
  exponent : Int
  deriving DecidableEq, Repr

namespace Scaled

/-- Move final zeros of the digits into the exponent, at most `fuel` of them. -/
def normalize : (fuel : Nat) → Scaled → Scaled
  | 0, d => d
  | fuel + 1, d =>
    if d.digits ≠ 0 ∧ d.digits % 10 = 0 then normalize fuel ⟨d.digits / 10, d.exponent + 1⟩ else d

/-- Each zero that is dropped raises the exponent by one, so the value is kept: the digits before
are the digits after followed by as many zeros as the exponent has grown. -/
theorem normalize_value (fuel : Nat) (d : Scaled) :
    ∃ k : Nat, (normalize fuel d).exponent = d.exponent + k ∧
      d.digits = (normalize fuel d).digits * Nat.pow 10 k := by
  induction fuel generalizing d with
  | zero => exact ⟨0, by simp [normalize], (Nat.mul_one _).symm⟩
  | succ fuel ih =>
    unfold normalize
    split
    · next h =>
      obtain ⟨k, hexp, hdig⟩ := ih ⟨d.digits / 10, d.exponent + 1⟩
      simp only at hexp hdig
      refine ⟨k + 1, by rw [hexp]; push_cast; omega, ?_⟩
      rw [show Nat.pow 10 (k + 1) = Nat.pow 10 k * 10 from rfl, ← Nat.mul_assoc, ← hdig]
      omega
    · exact ⟨0, by simp, (Nat.mul_one _).symm⟩

end Scaled

/-! ## The neighbourhood of a double -/

/-- The reals that round to `value / scale`: those between `lower / scale` and `upper / scale`, the
ends included when the double is even. -/
structure Neighbourhood where
  value : Nat
  lower : Nat
  upper : Nat
  scale : Nat
  closed : Bool

namespace Neighbourhood

/-- The neighbourhood of `m · 2^q`. The next smaller double is only half as far away as the next
larger one when `m` is the least significand of its binade, unless the spacing cannot shrink any
more. -/
def of (m : Nat) (q : Int) : Neighbourhood :=
  -- All bounds are quarters of the last place, so the value is scaled by four.
  let narrow := m = 1 <<< 52 ∧ q ≠ -1074
  let up := 1 <<< (q - 2).toNat
  { value := 4 * m * up
    lower := (4 * m - if narrow then 1 else 2) * up
    upper := (4 * m + 2) * up
    scale := 1 <<< (2 - q).toNat
    closed := m % 2 = 0 }

/-- Whether `num / (den · scale)` rounds to the double. -/
def holds (n : Neighbourhood) (num den : Nat) : Bool :=
  if n.closed then n.lower * den ≤ num && num ≤ n.upper * den
  else n.lower * den < num && num < n.upper * den

/-- The exponent of the first decimal digit of the double. -/
def leadingExponent (n : Neighbourhood) : Int :=
  if n.scale ≤ n.value then ((Nat.toDigits 10 (n.value / n.scale)).length : Int) - 1
  else -((Nat.toDigits 10 ((n.scale + n.value - 1) / n.value - 1)).length : Int)

/-- The two neighbours of the double on the grid of the multiples of `step / (den · scale)`, the
nearer one first; of two equally near ones the even one comes first. -/
def neighbours (n : Neighbourhood) (step den : Nat) : List Nat :=
  -- The value lies between `below` and `below + 1` steps of the grid.
  let target := n.value * den
  let below := target / step
  let toBelow := target - below * step
  let toAbove := (below + 1) * step - target
  if toBelow < toAbove ∨ (toBelow = toAbove ∧ below % 2 = 0) then [below, below + 1]
  else [below + 1, below]

/-- The neighbour of the double on the grid of the multiples of `10 ^ exponent` that rounds to the
double, the nearer one if both do. -/
def pick? (n : Neighbourhood) (exponent : Int) : Option Nat :=
  let step := Nat.pow 10 exponent.toNat * n.scale
  let den := Nat.pow 10 (-exponent).toNat
  (n.neighbours step den).find? fun d => n.holds (d * step) den

/-- What is picked from a grid lies in the neighbourhood. -/
theorem pick_mem {n : Neighbourhood} {exponent : Int} {d : Nat} (h : n.pick? exponent = some d) :
    n.holds (d * (Nat.pow 10 exponent.toNat * n.scale)) (Nat.pow 10 (-exponent).toNat) = true := by
  simpa using List.find?_some h

/-- Try grids of `count`, `count + 1`, … digits; the double itself has at most seventeen. -/
def search (n : Neighbourhood) (leading : Int) : (fuel count : Nat) → Scaled
  | 0, _ => ⟨0, 0⟩
  | fuel + 1, count =>
    -- A number with this leading exponent has `count` digits on this grid.
    let exponent := leading - count + 1
    match n.pick? exponent with
    | some d => ⟨d, exponent⟩
    | none => search n leading fuel (count + 1)

end Neighbourhood

/-- The shortest decimal that rounds to `m · 2^q`, the nearest one if there are several. -/
def shortest (m : Nat) (q : Int) : Scaled :=
  let n := Neighbourhood.of m q
  Scaled.normalize 20 (n.search n.leadingExponent 17 1)

end PerfFormula.Decimal
