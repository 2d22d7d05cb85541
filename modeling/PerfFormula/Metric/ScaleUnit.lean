import PerfFormula.Decimal.Reader

/-!
# Scale units

What the value of a metric is multiplied by, and the unit that it then has: `100%`, `1e-6MB/s`, or a
unit alone. The text starts with the longest number that it can; the rest is the unit, without
blanks around it. A unit stands on one line.

Main statements:

* `ScaleUnit.ofText?_eq_none_iff` — a text is a scale unit unless its unit breaks the line.
-/

namespace PerfFormula

/-- A factor and the unit of what it is multiplied with. -/
structure ScaleUnit where
  scale : Float
  unit : String

namespace ScaleUnit

open PerfFormula.Text PerfFormula.Decimal

/-- The longest number in front of a text: digits with at most one point, which has a digit behind
it, and perhaps a power of ten. -/
def numberPrefix (cs : List Char) : List Char :=
  let whole := cs.takeWhile isDigit
  let fraction := Numeral.fractionPrefix (cs.dropWhile isDigit)
  let mantissa := whole ++ fraction
  if mantissa.isEmpty then [] else mantissa ++ Numeral.powerPrefix (cs.drop mantissa.length)

/-- The unit behind the number of a trimmed text. -/
def unitOf (cs : List Char) : List Char := trim (cs.drop (numberPrefix cs).length)

/-- Read a scale unit. Without a number the scale is one. -/
def ofText? (s : String) : Option ScaleUnit :=
  let cs := trim s.toList
  let number := numberPrefix cs
  let unit := unitOf cs
  if '\n' ∈ unit then none
  else some ⟨if number.isEmpty then 1.0 else value number, String.ofList unit⟩

theorem ofText?_empty : (ofText? "").isSome := rfl

/-- A text is a scale unit unless its unit breaks the line. -/
theorem ofText?_eq_none_iff (s : String) : ofText? s = none ↔ '\n' ∈ unitOf (trim s.toList) := by
  by_cases h : '\n' ∈ unitOf (trim s.toList) <;> simp [ofText?, h]

end ScaleUnit
end PerfFormula
