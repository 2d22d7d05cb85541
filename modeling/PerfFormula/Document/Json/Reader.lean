import PerfFormula.Decimal.Reader
import PerfFormula.Document.Basic
import PerfFormula.Document.Json.Text

/-!
# Reading JSON

The document that a JSON text is. The words `NaN`, `Infinity` and `-Infinity` are numbers, whole
numbers are exact but may not be too long, and the last of several entries under one key wins.

Main statements:

* `Json.read?_eq_some_iff` — a text has a document exactly when reading it does not stop.
-/

namespace PerfFormula
namespace Json

open PerfFormula.Text

/-! ## Numbers -/

/-- Digits without a leading zero, or the single digit zero, at the front of a text. -/
def wholeDigits (cs : List Char) : List Char :=
  match cs with
  | '0' :: _ => ['0']
  | _ => cs.takeWhile isDigit

/-- A number without its sign at the front of a text, and what follows it: a whole one if it has
neither fraction nor power. -/
def readNumber? (cs : List Char) (negative : Bool) : Option (Except Stop Document × List Char) :=
  let whole := wholeDigits cs
  if whole.isEmpty then none
  else
    let rest := cs.drop whole.length
    let fraction := Decimal.Numeral.fractionPrefix rest
    let rest := rest.drop fraction.length
    let power := Decimal.Numeral.powerPrefix rest
    let rest := rest.drop power.length
    if fraction.isEmpty && power.isEmpty then
      let n := (Decimal.ofDigits whole).mapError .number
      some (n.map fun n => .whole (if negative then -n else n), rest)
    else
      let x := Decimal.value (whole ++ fraction ++ power)
      some (.ok (.real (if negative then -x else x)), rest)

/-! ## Values -/

/-- The characters that may stand between the parts of a document. -/
def isSpace (c : Char) : Bool := c == ' ' || c == '\t' || c == '\n' || c == '\r'

/-- Drop the space in front of a text. -/
def skip (cs : List Char) : List Char := cs.dropWhile isSpace

/-- What follows a word at the front of a text. -/
def after? (word : String) (cs : List Char) : Option (List Char) :=
  if word.toList.isPrefixOf cs then some (cs.drop word.length) else none

/-- The words that stand for values. -/
def constants : List (String × Document) :=
  [("null", .null), ("true", .bool true), ("false", .bool false), ("NaN", .real (0.0 / 0.0)),
    ("Infinity", .real (1.0 / 0.0)), ("-Infinity", .real (-1.0 / 0.0))]

/-- The value of a word or a number at the front of a text. -/
def readScalar? (cs : List Char) : Option (Except Stop Document × List Char) :=
  match constants.findSome? fun word => (after? word.1 cs).map (.ok word.2, ·) with
  | some found => some found
  | none =>
    match cs with
    | '-' :: digits => readNumber? digits true
    | _ => readNumber? cs false

/-- Where reading stops at the front of a text. -/
def stopAt {α : Type} (fault : Fault) (cs : List Char) : Except Stop α :=
  .error (.fault fault cs.length)

mutual

/-- The value at the front of a text. A list or a mapping and its first part each take one of
`fuel`, and its bracket is a character, so twice the length of the text and one more is enough. -/
def readValue : (fuel : Nat) → List Char → Except Stop (Document × List Char)
  | 0, cs => stopAt .value cs
  | fuel + 1, cs =>
    match cs with
    | '"' :: rest => (readString rest).map fun (s, rest) => (.text (.ofList s), rest)
    | '[' :: rest =>
      match skip rest with
      | ']' :: rest => .ok (.list [], rest)
      | rest => (readItems fuel rest).map fun (items, rest) => (.list items, rest)
    | '\x7b' :: rest =>
      match skip rest with
      | '\x7d' :: rest => .ok (.mapping [], rest)
      | rest => (readEntries fuel rest).map fun (entries, rest) => (.ofEntries entries, rest)
    | _ =>
      match readScalar? cs with
      | some (d, rest) => d.map (·, rest)
      | none => stopAt .value cs

/-- The items of a list from the first one on, the closing bracket included. -/
def readItems : (fuel : Nat) → List Char → Except Stop (List Document × List Char)
  | 0, cs => stopAt .value cs
  | fuel + 1, cs => do
    let (item, rest) ← readValue fuel cs
    match skip rest with
    | ']' :: rest => return ([item], rest)
    | ',' :: rest =>
      let (items, rest) ← readItems fuel (skip rest)
      return (item :: items, rest)
    | rest => stopAt .comma rest

/-- The entries of a mapping from the first one on, the closing brace included. -/
def readEntries : (fuel : Nat) → List Char →
    Except Stop (List (Document × Document) × List Char)
  | 0, cs => stopAt .value cs
  | fuel + 1, cs =>
    match cs with
    | '"' :: rest => do
      let (key, rest) ← readString rest
      match skip rest with
      | ':' :: rest =>
        let (value, rest) ← readValue fuel (skip rest)
        let entry := (Document.text (.ofList key), value)
        match skip rest with
        | '\x7d' :: rest => return ([entry], rest)
        | ',' :: rest =>
          let (entries, rest) ← readEntries fuel (skip rest)
          return (entry :: entries, rest)
        | rest => stopAt .comma rest
      | rest => stopAt .colon rest
    | _ => stopAt .key cs

end

/-- The document that some characters are, with nothing but space around it. -/
def readChars (cs : List Char) : Except Stop Document := do
  if cs.head? = some '\uFEFF' then stopAt .byteOrderMark cs
  else
    let (d, rest) ← readValue (2 * cs.length + 1) (skip cs)
    if (skip rest).isEmpty then return d else stopAt .extra (skip rest)

/-- The document that a text is, or what is wrong with it. -/
def read (s : String) : Except Error Document :=
  (readChars s.toList).mapError (Stop.error s.toList)

/-- The document that a text is. -/
def read? (s : String) : Option Document := (read s).toOption

/-- A text has a document exactly when reading it does not stop. -/
theorem read?_eq_some_iff {s : String} {d : Document} :
    read? s = some d ↔ readChars s.toList = .ok d := by
  unfold read? read
  cases readChars s.toList with
  | error stop => exact ⟨(nomatch ·), (nomatch ·)⟩
  | ok e => exact ⟨fun h => by cases h; rfl, fun h => by cases h; rfl⟩

end Json
end PerfFormula
