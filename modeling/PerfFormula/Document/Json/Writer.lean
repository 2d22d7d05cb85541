import PerfFormula.Document.Basic
import PerfFormula.Document.Json.Text

/-!
# Writing JSON

Documents as JSON, on one line or with one part per line.
-/

namespace PerfFormula
namespace Json

/-- How the parts of a document are laid out: on one line, or each on a line of its own that is
indented by so many columns more than the part it belongs to. -/
inductive Layout where
  | compact
  | indented (columns : Nat)

namespace Layout

/-- What stands in front of a part at the given depth. -/
def lineBreak : Layout → (depth : Nat) → List Char
  | compact, _ => []
  | indented columns, depth => '\n' :: List.replicate (columns * depth) ' '

/-- What stands between two parts at the given depth. -/
def separator (layout : Layout) (depth : Nat) : List Char :=
  match layout with
  | compact => [',', ' ']
  | indented _ => ',' :: layout.lineBreak depth

end Layout

/-- A double as JSON. -/
def writeReal (x : Float) : List Char :=
  if x.isNaN then "NaN".toList
  else if x.isInf then (if x < 0 then "-Infinity" else "Infinity").toList
  else Decimal.write Decimal.plain x

/-- A key of a mapping as JSON: always a text. -/
def writeKey : Document → List Char
  | .text s => writeText s.toList
  | .null => writeText "null".toList
  | .bool b => writeText (if b then "true" else "false").toList
  | .real x => writeText (writeReal x)
  | d => writeText d.literal

mutual

/-- A document as JSON, at the given depth. -/
def writeAt (layout : Layout) (depth : Nat) : Document → List Char
  | .null => "null".toList
  | .bool b => (if b then "true" else "false").toList
  | .whole n => (toString n).toList
  | .real x => writeReal x
  | .text s => writeText s.toList
  | .list [] => ['[', ']']
  | .list items =>
    '[' :: layout.lineBreak (depth + 1) ++ writeItems layout (depth + 1) items
      ++ layout.lineBreak depth ++ [']']
  | .mapping [] => ['\x7b', '\x7d']
  | .mapping entries =>
    '\x7b' :: layout.lineBreak (depth + 1) ++ writeEntries layout (depth + 1) entries
      ++ layout.lineBreak depth ++ ['\x7d']

/-- The items of a list. -/
def writeItems (layout : Layout) (depth : Nat) : List Document → List Char
  | [] => []
  | [item] => writeAt layout depth item
  | item :: rest =>
    writeAt layout depth item ++ layout.separator depth ++ writeItems layout depth rest

/-- The entries of a mapping. -/
def writeEntries (layout : Layout) (depth : Nat) : List (Document × Document) → List Char
  | [] => []
  | [(key, value)] => writeKey key ++ ':' :: ' ' :: writeAt layout depth value
  | (key, value) :: rest =>
    writeKey key ++ ':' :: ' ' :: writeAt layout depth value ++ layout.separator depth
      ++ writeEntries layout depth rest

end

/-- A document as JSON. -/
def write (layout : Layout) (d : Document) : String := String.ofList (writeAt layout 0 d)

end Json
end PerfFormula
