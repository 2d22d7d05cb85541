import PerfFormula.Decimal.Reader

/-!
# Errors in JSON

What can be wrong with a JSON text, and where. A place is told by line and column, both counted from
one, and by the number of characters before it. A whole number that is too long is no fault of the
text, and its place is not told.

Main definitions:

* `Json.Mistake` — a fault and its place.
* `Json.Error` — why a text has no document.
-/

namespace PerfFormula
namespace Json

/-- What is wrong with a JSON text. -/
inductive Fault where
  /-- There is no value where one has to stand. -/
  | value
  /-- There is no text for the key of an entry. -/
  | key
  /-- There is no colon behind a key. -/
  | colon
  /-- Neither a comma nor the end follows a part. -/
  | comma
  /-- A text does not end; the place is its start. -/
  | unterminated
  /-- A control character stands in a text. -/
  | control
  /-- A backslash stands before a character that it does not escape. -/
  | escape
  /-- What follows the letter of a unit escape are not four hexadecimal digits. -/
  | unitEscape
  /-- Something follows the document. -/
  | extra
  /-- The text starts with a byte order mark. -/
  | byteOrderMark
  deriving DecidableEq, Repr

namespace Fault

/-- The words for what is wrong. -/
def text : Fault → String
  | value => "Expecting value"
  | key => "Expecting property name enclosed in double quotes"
  | colon => "Expecting ':' delimiter"
  | comma => "Expecting ',' delimiter"
  | unterminated => "Unterminated string starting at"
  | control => "Invalid control character at"
  | escape => "Invalid \\escape"
  | unitEscape => "Invalid \\uXXXX escape"
  | extra => "Extra data"
  | byteOrderMark => "Unexpected UTF-8 BOM (decode using utf-8-sig)"

end Fault

/-- A fault of a JSON text, and where it is. -/
structure Mistake where
  fault : Fault
  line : Nat
  column : Nat
  /-- How many characters stand before the place. -/
  position : Nat
  deriving DecidableEq, Repr

namespace Mistake

/-- A fault behind some characters. -/
def ofBefore (fault : Fault) (before : List Char) : Mistake where
  fault
  line := before.count '\n' + 1
  column := (before.reverse.takeWhile (· ≠ '\n')).length + 1
  position := before.length

/-- The report of a fault. -/
def message (m : Mistake) : String :=
  m.fault.text ++ ": line " ++ toString m.line ++ " column " ++ toString m.column ++ " (char "
    ++ toString m.position ++ ")"

end Mistake

/-- Why a JSON text has no document. -/
inductive Error where
  | mistake (m : Mistake)
  | number (error : Decimal.NumberError)
  deriving DecidableEq, Repr

/-- The report of an error. -/
def Error.message : Error → String
  | mistake m => m.message
  | number e => e.message

/-- Where reading stops. -/
inductive Stop where
  /-- At a fault, with so many characters left at its place. -/
  | fault (fault : Fault) (left : Nat)
  | number (error : Decimal.NumberError)
  deriving DecidableEq, Repr

/-- The error of a text in which reading stops. -/
def Stop.error (text : List Char) : Stop → Error
  | fault f left => .mistake (.ofBefore f (text.take (text.length - left)))
  | number e => .number e

end Json
end PerfFormula
