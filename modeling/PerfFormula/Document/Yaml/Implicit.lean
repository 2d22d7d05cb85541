import PerfFormula.Document.Basic
import PerfFormula.Document.Yaml.Error

/-!
# Types of plain scalars

A plain scalar may stand for something other than its text: nothing, a truth value, a whole or a
real number. Whole numbers may be binary, octal (with a leading zero), hexadecimal, or in base sixty
with colons between the digits; real numbers need a point, and a sign in front of their power of
ten. Underscores between digits do not count. What is written like a number has that type even if
its value cannot be told. Dates, and the marks of merging and of default values,
are told apart from texts as well, but have no value here.

Main statements:

* `Yaml.resolve_text` — a plain scalar of no other type stands for its text.
-/

namespace PerfFormula
namespace Yaml

open PerfFormula.Text

/-! ## Words -/

/-- The words for nothing. -/
def nullWords : List String := ["", "~", "null", "Null", "NULL"]

/-- The words for a truth value. -/
def boolWords : List (String × Bool) := [
  ("yes", true), ("Yes", true), ("YES", true), ("no", false), ("No", false), ("NO", false),
  ("true", true), ("True", true), ("TRUE", true), ("false", false), ("False", false),
  ("FALSE", false), ("on", true), ("On", true), ("ON", true), ("off", false), ("Off", false),
  ("OFF", false)]

/-- The words for numbers that have no digits. -/
def realWords : List (String × Float) := [
  (".inf", 1.0 / 0.0), (".Inf", 1.0 / 0.0), (".INF", 1.0 / 0.0),
  ("+.inf", 1.0 / 0.0), ("+.Inf", 1.0 / 0.0), ("+.INF", 1.0 / 0.0),
  ("-.inf", -1.0 / 0.0), ("-.Inf", -1.0 / 0.0), ("-.INF", -1.0 / 0.0),
  (".nan", 0.0 / 0.0), (".NaN", 0.0 / 0.0), (".NAN", 0.0 / 0.0)]

/-! ## Numbers -/

/-- Digits without the underscores among them. -/
def bare (cs : List Char) : List Char := cs.filter (· ≠ '_')

/-- A sign in front of a number, negative or not, and the rest. -/
def signOf (cs : List Char) : Bool × List Char := Decimal.Numeral.sign cs

/-- A run of digits and underscores. -/
def isDigitRun (isDigitChar : Char → Bool) (cs : List Char) : Bool :=
  !cs.isEmpty && cs.all fun c => isDigitChar c || c == '_'

/-- A run of digits and underscores that starts with a digit. -/
def isNumberRun (cs : List Char) : Bool := cs.head?.any isDigit && isDigitRun isDigit cs

/-- Whether a character is a binary digit. -/
def isBinary (c : Char) : Bool := c == '0' || c == '1'

/-- Whether a character is an octal digit. -/
def isOctal (c : Char) : Bool := '0' ≤ c && c ≤ '7'

/-- Whether a character is a hexadecimal digit. -/
def isHex (c : Char) : Bool := isDigit c || ('a' ≤ c && c ≤ 'f') || ('A' ≤ c && c ≤ 'F')

/-- The number that digits denote in a base up to sixteen. -/
def natInBase (base : Nat) (cs : List Char) : Nat :=
  cs.foldl (fun n c => base * n + (if isDigit c then asciiValue c else c.toNat % 32 + 9)) 0

/-- A digit of base sixty: one or two decimal digits below sixty. -/
def isSixtieth : List Char → Bool
  | [a] => isDigit a
  | [a, b] => '0' ≤ a && a ≤ '5' && isDigit b
  | _ => false

/-- The digits of a number in base sixty. -/
def sixtieths (cs : List Char) : List (List Char) := cs.splitOnP (· == ':')

/-- Whether digits in base sixty follow a run of decimal digits. -/
def isSixtyBased (cs : List Char) : Bool :=
  match sixtieths cs with
  | first :: second :: more => isNumberRun first && (second :: more).all isSixtieth
  | _ => false

/-- The number that digits behind the mark of a base denote; there has to be one. -/
def basedNumber (base : Nat) (digits : List Char) : Except Error Nat :=
  if (bare digits).isEmpty then .error (.number (.notWhole base ""))
  else .ok (natInBase base (bare digits))

/-- The number that decimal digits denote. -/
def decimalNumber (digits : List Char) : Except Error Nat :=
  (Decimal.ofDigits (bare digits)).mapError .number

/-- The value of an unsigned whole number, if a text is written like one. -/
def wholeMagnitude? (cs : List Char) : Option (Except Error Nat) :=
  match cs with
  | '0' :: 'b' :: digits => if isDigitRun isBinary digits then some (basedNumber 2 digits) else none
  | '0' :: 'x' :: digits => if isDigitRun isHex digits then some (basedNumber 16 digits) else none
  | ['0'] => some (.ok 0)
  | '0' :: digits =>
    if isDigitRun isOctal digits then some (.ok (natInBase 8 (bare digits))) else none
  | _ =>
    if isNumberRun cs then some (decimalNumber cs)
    else if isSixtyBased cs then
      some (((sixtieths cs).mapM decimalNumber).map fun digits =>
        digits.foldl (fun n digit => 60 * n + digit) 0)
    else none

/-- The value of a whole number, if a text is written like one. -/
def whole? (cs : List Char) : Option (Except Error Int) :=
  let (negative, digits) := signOf cs
  (wholeMagnitude? digits).map fun n => n.map fun n => if negative then -(n : Int) else n

/-- Whether a power of ten with its sign, or nothing, follows. -/
def isPower : List Char → Bool
  | [] => true
  | e :: s :: digits =>
    (e == 'e' || e == 'E') && (s == '-' || s == '+') && !digits.isEmpty && digits.all isDigit
  | _ => false

/-- What stands before and behind the first point. -/
def splitPoint (cs : List Char) : Option (List Char × List Char) :=
  match cs.dropWhile (· ≠ '.') with
  | [] => none
  | _ :: rest => some (cs.takeWhile (· ≠ '.'), rest)

/-- Whether an unsigned number has a point and decimal digits in front of it. -/
def isDecimal (whole fraction : List Char) : Bool :=
  isNumberRun whole && isPower (fraction.dropWhile fun c => isDigit c || c == '_')

/-- Whether a number without a sign starts with its point. -/
def isFraction (whole fraction : List Char) : Bool :=
  whole.isEmpty && fraction.head?.any isDigit
    && isPower (fraction.dropWhile fun c => isDigit c || c == '_')

/-- The value of a real number in base sixty. The weight of every digit has to be a double. -/
def sixtyBasedReal (cs : List Char) : Except Error Float :=
  let digits := ((sixtieths (bare cs)).reverse.map Decimal.value).zipIdx
  digits.foldlM (fun sum (digit, place) =>
    let weight := Nat.pow 60 place
    if weight < 1 <<< 1024 then .ok (sum + digit * .ofModel (.ofScientific weight 0))
    else .error .overflow) 0

/-- The value of a real number that has digits, if a text is written like one. -/
def realDigits? (cs : List Char) : Option (Except Error Float) := do
  let (negative, unsigned) := signOf cs
  let (whole, fraction) ← splitPoint unsigned
  let magnitude ←
    if isDecimal whole fraction then some (.ok (Decimal.value (bare unsigned)))
    else if isFraction whole fraction && unsigned.length == cs.length then
      some (.ok (Decimal.value (bare unsigned)))
    else if isSixtyBased whole && fraction.all (fun c => isDigit c || c == '_') then
      some (sixtyBasedReal unsigned)
    else none
  return magnitude.map fun x => if negative then -x else x

/-- The value of a real number, if a text is written like one. -/
def real? (cs : List Char) : Option (Except Error Float) :=
  match realWords.find? fun word => word.1.toList == cs with
  | some word => some (.ok word.2)
  | none => realDigits? cs

/-! ## Dates -/

/-- Split one or two digits off the front of a text. -/
def shortNumber? (cs : List Char) : Option (List Char) :=
  let digits := (cs.takeWhile isDigit).length
  if digits == 1 || digits == 2 then some (cs.drop digits) else none

/-- What follows a character at the front of a text. -/
def after? (c : Char) : List Char → Option (List Char)
  | d :: rest => if d == c then some rest else none
  | [] => none

/-- What follows two digits at the front of a text. -/
def twoDigits? (cs : List Char) : Option (List Char) :=
  if (cs.takeWhile isDigit).length == 2 then some (cs.drop 2) else none

/-- What follows a date at the front of a text: a year of four digits, a month and a day. -/
def date? (cs : List Char) : Option (List Char) := do
  if (cs.takeWhile isDigit).length ≠ 4 then none
  shortNumber? (← after? '-' (← shortNumber? (← after? '-' (cs.drop 4))))

/-- What follows the time of a day at the front of a text. -/
def time? (cs : List Char) : Option (List Char) := do
  let rest ← twoDigits? (← after? ':' (← twoDigits? (← after? ':' (← shortNumber? cs))))
  match rest with
  | '.' :: fraction => some (fraction.dropWhile isDigit)
  | _ => some rest

/-- Whether a text is a zone of time, or nothing. -/
def isZone (cs : List Char) : Bool :=
  match cs with
  | [] => true
  | ['Z'] => true
  | s :: rest =>
    (s == '-' || s == '+') &&
      match shortNumber? rest with
      | some [] => true
      | some (':' :: minutes) => (twoDigits? minutes).any List.isEmpty
      | _ => false

/-- Whether a text is a date, with or without the time of the day. -/
def isTimestamp (cs : List Char) : Bool :=
  match date? cs with
  | none => false
  | some [] => cs.length == 10
  | some (c :: rest) =>
    let isSpace := fun c : Char => c == ' ' || c == '\t'
    let rest := if c == 't' || c == 'T' then some rest
      else if isSpace c then some (rest.dropWhile isSpace) else none
    match rest.bind time? with
    | none => false
    | some zone => zone.isEmpty || isZone (zone.dropWhile isSpace)

/-! ## Types -/

/-- What a plain scalar stands for. -/
inductive Resolved where
  /-- A value, if that of a number can be told. -/
  | value (d : Except Error Document)
  | text
  /-- A mark of merging or of a default value. -/
  | mark
  | date

/-- The mark of merging, which stands for a key. -/
def mergeMark : List Char := ['<', '<']

/-- The mark of a default value. -/
def defaultMark : List Char := ['=']

/-- What a plain scalar stands for. -/
def resolve (cs : List Char) : Resolved :=
  if nullWords.any (·.toList == cs) then .value (.ok .null)
  else
    match boolWords.find? (fun word => word.1.toList == cs), real? cs, whole? cs with
    | some word, _, _ => .value (.ok (.bool word.2))
    | _, some x, _ => .value (x.map .real)
    | _, _, some n => .value (n.map .whole)
    | _, _, _ =>
      if cs == mergeMark || cs == defaultMark then .mark
      else if isTimestamp cs then .date
      else .text

/-- The value of a plain scalar; a mark has none, and a date counts as a text. -/
def plainValue (cs : List Char) : Except Error Document :=
  match resolve cs with
  | .value d => d
  | .text | .date => .ok (.text (.ofList cs))
  | .mark => .error .malformed

/-- A plain scalar of no other type stands for its text. -/
theorem resolve_text {cs : List Char} (h : resolve cs = .text) :
    plainValue cs = .ok (.text (.ofList cs)) := by
  simp [plainValue, h]

end Yaml
end PerfFormula
