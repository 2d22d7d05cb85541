import PerfFormula.Formula.Basic
import PerfFormula.Decimal.Notation

/-!
# Arithmetic of formulas

What the operators and functions compute on doubles. A number other than zero counts as true, also
when it is not a number; comparisons and connectives give one or zero. Division by zero is an error,
except in `d_ratio`, where a zero denominator means that nothing was counted. The remainder is taken
of the whole parts of its operands, in exact integer arithmetic, and has the sign of the dividend.

Main statements:

* `remainder_eq_error_iff` — a remainder of finite operands fails exactly when the whole part of the
  divisor is zero.
-/

namespace PerfFormula

open Float.Model (UnpackedFloat)

/-- Why an operator has no value. -/
inductive ArithmeticError where
  | divisionByZero (left right : Float)
  | remainderByZero (left right : Float)
  /-- The remainder of an operand that is infinite or not a number. -/
  | notFinite (operand : Float)

namespace ArithmeticError

/-- The report of an arithmetic error. -/
def message : ArithmeticError → String
  | divisionByZero l _ => "Division by zero: " ++ Decimal.text l ++ " / 0"
  | remainderByZero l r => "Modulo by zero: " ++ Decimal.text l ++ " % " ++ Decimal.text r
  | notFinite x => "Non-finite operand " ++ Decimal.text x ++ " to '%'"

end ArithmeticError

/-! ## Whole parts -/

/-- The whole part of a double, rounded toward zero; `none` for infinities and for what is not a
number. -/
def wholePart? (x : Float) : Option Int :=
  match x.toModel.unpack with
  | .finite s m e _ => some (s.apply (if 0 ≤ e then m <<< e.toNat else m >>> (-e).toNat))
  | .zero _ => some 0
  | .infinity _ | .notANumber => none

/-- The double of a whole number that has one. -/
def ofWhole (n : Int) : Float := .ofModel (.ofInt n)

/-- The remainder of two whole numbers as a double. A zero remainder keeps the sign of the
dividend. -/
def wholeRemainder (a b : Int) : Float :=
  let r := a.tmod b
  if r = 0 then (if a < 0 then -0.0 else 0.0) else ofWhole r

/-- The remainder of the whole parts of two doubles. -/
def remainder (x y : Float) : Except ArithmeticError Float :=
  match wholePart? x with
  | none => .error (.notFinite x)
  | some a =>
    match wholePart? y with
    | none => .error (.notFinite y)
    | some b => if b = 0 then .error (.remainderByZero x y) else .ok (wholeRemainder a b)

theorem remainder_eq_ok {x y : Float} {a b : Int} (hx : wholePart? x = some a)
    (hy : wholePart? y = some b) (hb : b ≠ 0) : remainder x y = .ok (wholeRemainder a b) := by
  simp [remainder, hx, hy, hb]

/-- A remainder of finite operands fails exactly when the whole part of the divisor is zero. -/
theorem remainder_eq_error_iff {x y : Float} {a b : Int} (hx : wholePart? x = some a)
    (hy : wholePart? y = some b) : (∃ e, remainder x y = .error e) ↔ b = 0 := by
  by_cases hb : b = 0 <;> simp [remainder, hx, hy, hb]

/-! ## Operators and functions -/

/-- Whether a number counts as true. -/
def isTrue (x : Float) : Bool := x != 0.0

/-- The number of a truth value. -/
def ofBool (b : Bool) : Float := if b then 1.0 else 0.0

/-- What an operator computes. -/
def Operator.apply (op : Operator) (x y : Float) : Except ArithmeticError Float :=
  match op with
  | add => .ok (x + y)
  | sub => .ok (x - y)
  | mul => .ok (x * y)
  | div => if y == 0.0 then .error (.divisionByZero x y) else .ok (x / y)
  | mod => remainder x y
  | less => .ok (ofBool (x < y))
  | greater => .ok (ofBool (x > y))
  | or => .ok (ofBool (isTrue x || isTrue y))
  | and => .ok (ofBool (isTrue x && isTrue y))

/-- What a function computes. When neither argument is the smaller or the larger one, as with
numbers that are not comparable, the second one is the answer. -/
def Builtin.apply (f : Builtin) (x y : Float) : Float :=
  match f with
  | min => if x < y then x else y
  | max => if x > y then x else y
  | ratio => if y == 0.0 then 0.0 else x / y

end PerfFormula
