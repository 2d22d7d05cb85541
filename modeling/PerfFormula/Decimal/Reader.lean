import PerfFormula.Text.Blank
import PerfFormula.Text.DecimalDigit
import PerfFormula.Text.Quoted

/-!
# Reading numbers

Numbers as people type them: surrounding blanks, digits of any script, and single underscores
between digits are allowed. A whole number is an optional sign and digits, of which there may not be
too many. A real number also has a point, a power of ten, or is one of the words `inf`, `infinity`
and `nan`, in any case.

Main statements:

* `readReal_eq_ok` — a real number is read exactly when there is one.
* `ofDigits_of_length_le` — digits that are not too many are read as the number that they denote.
-/

namespace PerfFormula.Decimal

open PerfFormula.Text

/-! ## Numerals -/

/-- The digits before and after the point, and the power of ten of an unsigned numeral. -/
structure Numeral where
  whole : List Char
  fraction : List Char
  exponent : Int
  deriving DecidableEq, Repr

namespace Numeral

/-- The double nearest to a numeral. -/
def toFloat (n : Numeral) : Float :=
  .ofModel (.ofScientific (natOfDigits (n.whole ++ n.fraction)) (n.exponent - n.fraction.length))

/-- Whether there is a digit at all. -/
def hasDigit (n : Numeral) : Bool := !(n.whole.isEmpty && n.fraction.isEmpty)

/-- The sign in front of a text, negative or not, and the rest. -/
def sign : List Char → Bool × List Char
  | '-' :: cs => (true, cs)
  | '+' :: cs => (false, cs)
  | cs => (false, cs)

/-- A power of ten at the front of a text: the letter, a sign, and digits. -/
def scanExponent (cs : List Char) : Int × List Char :=
  match cs with
  | c :: rest =>
    if c = 'e' ∨ c = 'E' then
      let (negative, digits) := sign rest
      let power := digits.takeWhile isDigit
      if power.isEmpty then (0, cs)
      else (if negative then -natOfDigits power else natOfDigits power, digits.dropWhile isDigit)
    else (0, cs)
  | [] => (0, [])

/-- The fraction at the front of a text: a point and digits. -/
def scanFraction : List Char → List Char × List Char
  | '.' :: cs => (cs.takeWhile isDigit, cs.dropWhile isDigit)
  | cs => ([], cs)

/-- The characters of a power of ten at the front of a text. -/
def powerPrefix (cs : List Char) : List Char :=
  cs.take (cs.length - (scanExponent cs).2.length)

/-- A point and at least one digit at the front of a text. -/
def fractionPrefix : List Char → List Char
  | '.' :: cs => if (cs.takeWhile isDigit).isEmpty then [] else '.' :: cs.takeWhile isDigit
  | _ => []

/-- The numeral at the front of a text, and what follows it. -/
def scan (cs : List Char) : Numeral × List Char :=
  let (fraction, afterFraction) := scanFraction (cs.dropWhile isDigit)
  let (exponent, rest) := scanExponent afterFraction
  (⟨cs.takeWhile isDigit, fraction, exponent⟩, rest)

end Numeral

/-- The value of a text that is known to be an unsigned numeral of ASCII digits. -/
def value (cs : List Char) : Float := (Numeral.scan cs).1.toFloat

/-! ## Typed numbers -/

/-- Write digits of any script with the ASCII digits. -/
def asciiDigits (cs : List Char) : List Char :=
  cs.map fun c => match digitValue? c with
    | some v => Char.ofNat ('0'.toNat + v)
    | none => c

/-- Drop underscores that stand between two digits; `none` if one stands elsewhere. -/
def dropSeparators : (afterDigit : Bool) → List Char → Option (List Char)
  | _, [] => some []
  | afterDigit, '_' :: cs =>
    if afterDigit && (cs.head?.any isDigit) then dropSeparators false cs else none
  | _, c :: cs => (dropSeparators (isDigit c) cs).map (c :: ·)

/-- The characters of a typed number that matter: trimmed, with ASCII digits and no separators. -/
def typed? (s : String) : Option (List Char) :=
  dropSeparators false (asciiDigits (trimBy isNumberBlank s.toList))

/-- A text of ASCII letters in lower case. -/
def lower (cs : List Char) : List Char := cs.map Char.toLower

/-- Read a real number. -/
def readReal? (s : String) : Option Float := do
  let (negative, cs) := Numeral.sign (← typed? s)
  let magnitude ←
    if lower cs = "inf".toList ∨ lower cs = "infinity".toList then some (1.0 / 0.0)
    else if lower cs = "nan".toList then some (0.0 / 0.0)
    else match Numeral.scan cs with
      | (numeral, []) => if numeral.hasDigit then some numeral.toFloat else none
      | _ => none
  return if negative then -magnitude else magnitude

/-- Why a text is no number. -/
inductive NumberError where
  | notReal (text : String)
  | notWhole (base : Nat) (text : String)
  /-- A whole number has too many digits to be read. -/
  | tooLong (digits : Nat)
  deriving DecidableEq, Repr

/-- A whole number is read or written with at most so many decimal digits. -/
def digitLimit : Nat := 4300

/-- The report of a text that is no number. Of a text that should be a whole number it shows the
beginning. -/
def NumberError.message : NumberError → String
  | notReal s => "could not convert string to float: " ++ quote s
  | notWhole base s =>
    "invalid literal for int() with base " ++ toString base ++ ": "
      ++ .ofList ((quoteChars s.toList).take 200)
  | tooLong digits =>
    "Exceeds the limit (" ++ toString digitLimit
      ++ " digits) for integer string conversion: value has " ++ toString digits
      ++ " digits; use sys.set_int_max_str_digits() to increase the limit"

/-- The digits of a natural number, unless they are too many. -/
def writeNat? (n : Nat) : Option (List Char) :=
  let digits := Nat.toDigits 10 n
  if digits.length ≤ digitLimit then some digits else none

/-- The report of a whole number that is too long to be written. -/
def tooLongText : String :=
  "Exceeds the limit (" ++ toString digitLimit ++ " digits) for integer string conversion; "
    ++ "use sys.set_int_max_str_digits() to increase the limit"

/-- The number of some digits, unless they are too many. -/
def ofDigits (digits : List Char) : Except NumberError Nat :=
  if digits.length ≤ digitLimit then .ok (natOfDigits digits) else .error (.tooLong digits.length)

/-- Read a real number or say that there is none. -/
def readReal (s : String) : Except NumberError Float :=
  match readReal? s with
  | some x => .ok x
  | none => .error (.notReal s)

/-- Read a whole number or say why there is none. Whether it has too many digits is known before it
is known what follows them. -/
def readWhole (s : String) : Except NumberError Int :=
  let (negative, cs) := Numeral.sign (asciiDigits (trimBy isNumberBlank s.toList))
  let run := cs.takeWhile fun c => isDigit c || c == '_'
  match dropSeparators false run with
  | none => .error (.notWhole 10 s)
  | some digits => do
    let n ← ofDigits digits
    if digits.isEmpty || run.length < cs.length then throw (.notWhole 10 s)
    return if negative then -(n : Int) else n

/-- Read a whole number. -/
def readWhole? (s : String) : Option Int := (readWhole s).toOption

theorem readReal_eq_ok {s : String} {x : Float} : readReal s = .ok x ↔ readReal? s = some x := by
  unfold readReal
  split <;> simp_all

theorem writeNat?_eq_none_iff {n : Nat} :
    writeNat? n = none ↔ digitLimit < (Nat.toDigits 10 n).length := by
  simp [writeNat?]

/-- A number that can be written at all is written with its digits. -/
theorem writeNat?_eq_some {n : Nat} (short : writeNat? n ≠ none) :
    writeNat? n = some (Nat.toDigits 10 n) := by
  rw [ne_eq, writeNat?_eq_none_iff, Nat.not_lt] at short
  exact if_pos short

/-- Digits that are not too many are read as the number that they denote. -/
theorem ofDigits_of_length_le {digits : List Char} (h : digits.length ≤ digitLimit) :
    ofDigits digits = .ok (natOfDigits digits) := if_pos h

end PerfFormula.Decimal
