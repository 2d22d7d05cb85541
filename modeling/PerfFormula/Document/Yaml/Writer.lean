import PerfFormula.Document.Yaml.Implicit
import PerfFormula.Document.Yaml.Scalar

/-!
# Writing YAML

Documents as blocks: one entry or item per line, the items of a list in a mapping no further to the
right than its key. A text is written plain if it reads back as itself, else between single quotes,
else between double quotes, in which everything outside printable ASCII is escaped. A line that has
grown beyond 80 columns is broken at the next single space.

Main statements:

* `Yaml.chooseStyle_plain` — a text that would read back as something else is not written plain.
-/

namespace PerfFormula
namespace Yaml

/-- The column behind which lines are broken. -/
def lineWidth : Nat := 80

/-! ## Choosing a style -/

/-- What decides how a text can be written. -/
structure Analysis where
  /-- Some character has a meaning of its own in a block. -/
  hasIndicator : Bool
  /-- Some character is neither printable ASCII nor a line feed. -/
  hasSpecial : Bool
  hasBreak : Bool
  /-- A space or a line feed is the first or the last character. -/
  hasOuterGap : Bool
  /-- A space follows a line feed. -/
  breakThenSpace : Bool
  /-- A line feed follows a space. -/
  spaceThenBreak : Bool
  deriving DecidableEq, Repr

/-- The characters that mean something at the start of a scalar. -/
def leadingIndicators : List Char :=
  ['#', ',', '[', ']', '\x7b', '\x7d', '&', '*', '!', '|', '>', '\'', '"', '%', '@', '`']

/-- Whether a character is a printable character of ASCII. -/
def isPlainAscii (c : Char) : Bool := ' ' ≤ c && c ≤ '~'

/-- Whether the first character of a text means something there. -/
def startsWithIndicator (cs : List Char) : Bool :=
  match cs with
  | [] => false
  | c :: rest =>
    c ∈ leadingIndicators || ((c == '?' || c == ':' || c == '-') && rest.head?.all isGap)
      || ['-', '-', '-'].isPrefixOf cs || ['.', '.', '.'].isPrefixOf cs

/-- Whether a later character means something: a colon before a gap, or a number sign behind one. -/
def hasInnerIndicator : List Char → Bool
  | a :: b :: rest =>
    (b == ':' && rest.head?.all isGap) || (b == '#' && isGap a) || hasInnerIndicator (b :: rest)
  | _ => false

/-- Whether a character with the property `p` stands before one with the property `q`. -/
def hasPair (p q : Char → Bool) : List Char → Bool
  | a :: b :: rest => (p a && q b) || hasPair p q (b :: rest)
  | _ => false

/-- What decides how a text can be written. -/
def analyse (cs : List Char) : Analysis where
  hasIndicator := startsWithIndicator cs || hasInnerIndicator cs
  hasSpecial := cs.any fun c => !(c == '\n' || isPlainAscii c)
  hasBreak := '\n' ∈ cs
  hasOuterGap :=
    let isOuter := fun c => c == ' ' || c == '\n'
    cs.head?.any isOuter || cs.getLast?.any isOuter
  breakThenSpace := hasPair (· == '\n') (· == ' ') cs
  spaceThenBreak := hasPair (· == ' ') (· == '\n') cs

/-- The ways to write a text. -/
inductive Style where
  | plain
  | singleQuoted
  | doubleQuoted
  deriving DecidableEq, Repr

/-- Whether a text without quotes stands for a text. -/
def isTextByType (cs : List Char) : Bool := resolve cs matches .text

/-- How a text is written. -/
def chooseStyle (cs : List Char) : Style :=
  let a := analyse cs
  if isTextByType cs && !(a.hasIndicator || a.hasSpecial || a.hasBreak || a.hasOuterGap) then .plain
  else if !(a.hasSpecial || a.breakThenSpace || a.spaceThenBreak) then .singleQuoted
  else .doubleQuoted

/-- A text that would read back as something else is not written plain. -/
theorem chooseStyle_plain {cs : List Char} (h : chooseStyle cs = .plain) :
    resolve cs = .text := by
  unfold chooseStyle at h
  simp only at h
  split at h
  · next plain =>
    have typed : isTextByType cs = true := by
      simp only [Bool.and_eq_true] at plain
      exact plain.1
    unfold isTextByType at typed
    split at typed
    · assumption
    · cases typed
  · split at h <;> cases h

/-! ## Scalars -/

/-- A new line that starts at a column. -/
def newLine (column : Nat) : List Char := '\n' :: List.replicate column ' '

/-- The runs of a text: each a word, a run of spaces or a run of line feeds. -/
def runs : List Char → List (List Char)
  | [] => []
  | c :: rest =>
    match runs rest with
    | (d :: run) :: more =>
      if (c == ' ') == (d == ' ') && (c == '\n') == (d == '\n') then (c :: d :: run) :: more
      else [c] :: (d :: run) :: more
    | more => [c] :: more

/-- Quotes inside single quotes are doubled. -/
def doubleQuotes (cs : List Char) : List Char :=
  cs.flatMap fun c => if c == '\'' then ['\'', '\''] else [c]

/-- Write the runs of a plain or single-quoted text from a column on. A single space beyond the line
width breaks the line, unless it is the first or, between quotes, the last run. -/
def writeRuns (indent : Nat) (first quoted : Bool) : (column : Nat) → List (List Char) → List Char
  | _, [] => []
  | column, run :: more =>
    if run == [' '] && lineWidth < column && !(quoted && (first || more.isEmpty)) then
      newLine indent ++ writeRuns indent false quoted indent more
    else if run.head? == some '\n' then
      '\n' :: run ++ List.replicate indent ' ' ++ writeRuns indent false quoted indent more
    else
      let shown := if quoted then doubleQuotes run else run
      shown ++ writeRuns indent false quoted (column + shown.length) more

/-- The letter that escapes a character between double quotes. -/
def escapeLetter? (c : Char) : Option Char :=
  if c == '"' || c == '\\' then some c
  else if c == '\x00' then some '0'
  else if c == '\x07' then some 'a'
  else if c == '\x08' then some 'b'
  else if c == '\t' then some 't'
  else if c == '\n' then some 'n'
  else if c == '\x0b' then some 'v'
  else if c == '\x0c' then some 'f'
  else if c == '\r' then some 'r'
  else if c == '\x1b' then some 'e'
  else if c == '\u0085' then some 'N'
  else if c == '\u00a0' then some '_'
  else if c == '\u2028' then some 'L'
  else if c == '\u2029' then some 'P'
  else none

/-- Hexadecimal digits in upper case. -/
def upperHex (width n : Nat) : List Char := (Text.hex width n).map Char.toUpper

/-- A character between double quotes. -/
def escape (c : Char) : List Char :=
  match escapeLetter? c with
  | some letter => ['\\', letter]
  | none =>
    let n := c.toNat
    if isPlainAscii c then [c]
    else if n < 0x100 then '\\' :: 'x' :: upperHex 2 n
    else if n < 0x10000 then '\\' :: 'u' :: upperHex 4 n
    else '\\' :: 'U' :: upperHex 8 n

/-- Break a line between double quotes: a backslash ends it, and another one keeps a space at the
start of the next line, whose first column after that is given as well. -/
def breakQuoted (indent : Nat) (nextIsSpace : Bool) : List Char × Nat :=
  if nextIsSpace then ('\\' :: newLine indent ++ ['\\'], indent + 1)
  else ('\\' :: newLine indent, indent)

/-- Write a text between double quotes from a column on. Beyond the line width the line is broken
before a space, and before or behind an escape, but neither at the first character nor at the last.
`pending` are the characters since the last break or escape, the latest first. -/
def writeEscaped (indent : Nat) (first : Bool) :
    (column : Nat) → (pending : List Char) → List Char → List Char
  | _, pending, [] => pending.reverse
  | column, pending, c :: rest =>
    let inside := !first && !rest.isEmpty
    let column := column + pending.length
    if (escape c).length == 1 then
      if inside && (c == ' ' || pending.isEmpty) && lineWidth < column then
        let (ending, column) := breakQuoted indent (c == ' ')
        pending.reverse ++ ending ++ writeEscaped indent false column [c] rest
      else writeEscaped indent false (column - pending.length) (c :: pending) rest
    else
      let shown := pending.reverse ++ escape c
      let column := column + (escape c).length
      if inside && lineWidth + 1 < column then
        let (ending, column) := breakQuoted indent (rest.head? == some ' ')
        shown ++ ending ++ writeEscaped indent false column [] rest
      else shown ++ writeEscaped indent false column [] rest

/-- Write a text from a column on; further lines start at the column `indent`. -/
def writeText (indent column : Nat) (cs : List Char) : List Char :=
  match chooseStyle cs with
  | .plain => writeRuns indent true false column (runs cs)
  | .singleQuoted => '\'' :: writeRuns indent true true (column + 1) (runs cs) ++ ['\'']
  | .doubleQuoted => '"' :: writeEscaped indent true (column + 1) [] cs ++ ['"']

/-- A real number: with a point, also in front of a power of ten. -/
def writeReal (x : Float) : List Char :=
  if x.isNaN then ".nan".toList
  else if x.isInf then (if x < 0 then "-.inf" else ".inf").toList
  else
    let shown := Decimal.write Decimal.plain x
    if '.' ∈ shown then shown
    else shown.takeWhile (· ≠ 'e') ++ ['.', '0'] ++ shown.dropWhile (· ≠ 'e')

/-- A document that is no list and no mapping, from a column on. -/
def writeScalar (indent column : Nat) : Document → List Char
  | .text s => writeText indent column s.toList
  | .null => "null".toList
  | .bool b => (if b then "true" else "false").toList
  | .whole n => (toString n).toList
  | .real x => writeReal x
  | .list _ | .mapping _ => []

/-! ## Blocks -/

mutual

/-- What follows the colon behind a key that stands at the column `indent` and ends at `column`. -/
def writeValue (indent column : Nat) : Document → List Char
  | .list [] => " []".toList
  | .mapping [] => [' ', '\x7b', '\x7d']
  | .list items => newLine indent ++ writeItems indent items
  | .mapping entries => newLine (indent + 2) ++ writeEntries (indent + 2) entries
  | d => ' ' :: writeScalar (indent + 2) (column + 2) d

/-- What follows the dash of an item that stands at the column `indent`. -/
def writeItem (indent : Nat) : Document → List Char
  | .list [] => " []".toList
  | .mapping [] => [' ', '\x7b', '\x7d']
  | .list items => ' ' :: writeItems (indent + 2) items
  | .mapping entries => ' ' :: writeEntries (indent + 2) entries
  | d => ' ' :: writeScalar (indent + 2) (indent + 2) d

/-- The items of a list. -/
def writeItems (indent : Nat) : List Document → List Char
  | [] => []
  | [item] => '-' :: writeItem indent item
  | item :: rest => '-' :: writeItem indent item ++ newLine indent ++ writeItems indent rest

/-- The entries of a mapping. -/
def writeEntries (indent : Nat) : List (Document × Document) → List Char
  | [] => []
  | [(key, value)] =>
    let shown := writeScalar indent indent key
    shown ++ ':' :: writeValue indent (indent + shown.length) value
  | (key, value) :: rest =>
    let shown := writeScalar indent indent key
    shown ++ ':' :: writeValue indent (indent + shown.length) value ++ newLine indent
      ++ writeEntries indent rest

end

/-- A document as YAML. -/
def write (d : Document) : String :=
  let shown := match d with
    | .list [] => "[]".toList
    | .mapping [] => ['\x7b', '\x7d']
    | .list items => writeItems 0 items
    | .mapping entries => writeEntries 0 entries
    | d => writeScalar 2 0 d
  String.ofList (shown ++ ['\n'])

end Yaml
end PerfFormula
