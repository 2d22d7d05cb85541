/-!
# Comma-separated values

Rows of fields, one row per line, the fields separated by commas. A field that holds a comma, a
quote or a line break is written between double quotes, in which a quote is doubled. Lines that hold
nothing but spaces are skipped when reading; a row of a single empty field is therefore written as a
pair of quotes.

Main definitions:

* `Csv.read`, `Csv.write` — rows of fields and their text.
-/

namespace PerfFormula
namespace Csv

/-- A row of fields. -/
abbrev Record := List String

/-! ## Reading -/

/-- Where reading stands in a field: before it, among its characters, between its quotes, or behind
a quote that may have been the closing one. -/
inductive Place where
  | start
  | plain
  | quoted
  | behindQuote
  deriving DecidableEq, Repr

/-- Whether a line ends here, or nothing but spaces stands before its end. -/
def isEmptyLine (cs : List Char) : Bool :=
  match cs.dropWhile fun c => c == ' ' || c == '\t' with
  | [] => true
  | c :: _ => c == '\n'

/-- A row with a last field added; both are collected latest first. -/
def close (field : List Char) (fields : List String) : Record :=
  (String.ofList field.reverse :: fields).reverse

/-- Read rows. `field` are the characters of the current field and `fields` the fields before it in
its row, both latest first. -/
def readFrom : Place → (field : List Char) → (fields : List String) → List Char → List Record
  | .start, _, [], [] => []
  | _, field, fields, [] => [close field fields]
  | .quoted, field, fields, c :: cs =>
    -- Between quotes commas and line breaks are characters like any other.
    if c == '"' then readFrom .behindQuote field fields cs
    else readFrom .quoted (c :: field) fields cs
  | place, field, fields, c :: cs =>
    -- Lines without anything on them are no rows.
    if place == .start && fields.isEmpty && isEmptyLine (c :: cs) then readFrom .start [] [] cs
    else if c == ',' then readFrom .start [] (String.ofList field.reverse :: fields) cs
    else if c == '\n' then close field fields :: readFrom .start [] [] cs
    else if c == '"' && place == .start then readFrom .quoted [] fields cs
    -- The quote behind a quote is doubled, so the field goes on.
    else if c == '"' && place == .behindQuote then readFrom .quoted (c :: field) fields cs
    else readFrom .plain (c :: field) fields cs

/-- The rows of a text. -/
def read (s : String) : List Record := readFrom .start [] [] s.toList

/-! ## Writing -/

/-- Whether a character cannot stand in a field without quotes. -/
def isSpecial (c : Char) : Bool := c == ',' || c == '"' || c == '\n' || c == '\r'

/-- A field. -/
def writeField (s : String) : List Char :=
  let cs := s.toList
  if cs.any isSpecial then
    '"' :: cs.flatMap (fun c => if c == '"' then ['"', '"'] else [c]) ++ ['"']
  else cs

/-- The fields of a row. -/
def writeFields : Record → List Char
  | [] => []
  | [field] => writeField field
  | field :: rest => writeField field ++ ',' :: writeFields rest

/-- A row and the end of its line. -/
def writeRecord (r : Record) : List Char :=
  (if r = [""] then ['"', '"'] else writeFields r) ++ ['\n']

/-- Rows as a text. -/
def write (records : List Record) : String := String.ofList (records.flatMap writeRecord)

end Csv
end PerfFormula
