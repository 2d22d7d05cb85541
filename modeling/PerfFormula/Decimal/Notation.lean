import PerfFormula.Decimal.Shortest

/-!
# Writing numbers

A double is written with the fewest digits that read back. A number whose first digit stands at an
exponent from -4 to 15 is written positionally and always shows a point; all others are written with
a power of ten whose exponent has a sign and at least two digits.
-/

namespace PerfFormula.Decimal

/-- How the digits of a decimal are laid out. -/
structure Notation where
  /-- The least exponent of the first digit that is written positionally. -/
  least : Int
  /-- The greatest exponent of the first digit that is written positionally. -/
  greatest : Int
  /-- What follows a whole number in positional notation. -/
  wholeMark : List Char
  /-- The least number of digits of a written exponent. -/
  exponentWidth : Nat

/-- The layout of every number that the library writes: `0.0001`, `1.0`, `1e-05`, `1.5e+16`. -/
def plain : Notation := ⟨-4, 15, ['.', '0'], 2⟩

/-- A decimal with the exponent `e` of its first digit, written positionally. -/
def positional (layout : Notation) (digits : List Char) (e : Int) : List Char :=
  if e < 0 then
    '0' :: '.' :: List.replicate (-e - 1).toNat '0' ++ digits
  else
    let whole := e.toNat + 1
    if digits.length ≤ whole then
      digits ++ List.replicate (whole - digits.length) '0' ++ layout.wholeMark
    else
      digits.take whole ++ '.' :: digits.drop whole

/-- A decimal with the exponent `e` of its first digit, written with a power of ten. -/
def scientific (layout : Notation) (digits : List Char) (e : Int) : List Char :=
  let power := Nat.toDigits 10 e.natAbs
  let padded := List.replicate (layout.exponentWidth - power.length) '0' ++ power
  let mantissa := match digits with
    | [] => []
    | [d] => [d]
    | d :: rest => d :: '.' :: rest
  mantissa ++ 'e' :: (if e < 0 then '-' else '+') :: padded

/-- The text of a decimal: positional where the layout says so. -/
def Scaled.write (layout : Notation) (d : Scaled) : List Char :=
  let digits := Nat.toDigits 10 d.digits
  let e := d.exponent + digits.length - 1
  if layout.least ≤ e ∧ e ≤ layout.greatest then positional layout digits e
  else scientific layout digits e

/-- The sign of a number that is written. -/
def signText : Float.Model.UnpackedFloat.Sign → List Char
  | .positive => []
  | .negative => ['-']

/-- The text of a double. -/
def write (layout : Notation) (x : Float) : List Char :=
  match x.toModel.unpack with
  | .notANumber => ['n', 'a', 'n']
  | .infinity s => signText s ++ ['i', 'n', 'f']
  | .zero s => signText s ++ '0' :: layout.wholeMark
  | .finite s m q _ => signText s ++ (shortest m q).write layout

/-- The text of a double in the library's own layout. -/
def text (x : Float) : String := String.ofList (write plain x)

end PerfFormula.Decimal
