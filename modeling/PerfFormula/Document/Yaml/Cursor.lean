/-!
# Places in a YAML text

A place in a text knows the line and the column it is at, because indentation carries the structure
of a YAML document. A line ends at a line feed, a carriage return or both together, or at one of the
line separators of Unicode.

Main definitions:

* `Yaml.Cursor` — a place, and what is left of the text behind it.
* `Yaml.Cursor.next` — the place behind the next character.
-/

namespace PerfFormula
namespace Yaml

/-- The characters that end a line. -/
def isBreak (c : Char) : Bool :=
  c == '\n' || c == '\r' || c == '\u0085' || c == '\u2028' || c == '\u2029'

/-- Spaces, tabs and the ends of lines. -/
def isGap (c : Char) : Bool := c == ' ' || c == '\t' || isBreak c

/-- A place in a text: what follows it, the line and the column it is at, and how many characters
stand before it. -/
structure Cursor where
  rest : List Char
  line : Nat
  column : Nat
  index : Nat

namespace Cursor

/-- The start of a text. A byte order mark in front of it does not count. -/
def start (cs : List Char) : Cursor :=
  match cs with
  | '\uFEFF' :: rest => ⟨rest, 0, 0, 1⟩
  | _ => ⟨cs, 0, 0, 0⟩

/-- Step over one character. -/
def next (c : Cursor) : Cursor :=
  match c.rest with
  | [] => c
  | ch :: rest =>
    if isBreak ch && !(ch == '\r' && rest.head? == some '\n') then
      ⟨rest, c.line + 1, 0, c.index + 1⟩
    else if ch == '\uFEFF' then ⟨rest, c.line, c.column, c.index + 1⟩
    else ⟨rest, c.line, c.column + 1, c.index + 1⟩

/-- Step over some characters. -/
def skip : Nat → Cursor → Cursor
  | 0, c => c
  | n + 1, c => skip n c.next

/-- Step over the characters that satisfy `p`. -/
def skipWhile (p : Char → Bool) (c : Cursor) : Cursor := c.skip (c.rest.takeWhile p).length

/-- Whether the character `n` characters further on satisfies `p`. -/
def sees (c : Cursor) (p : Char → Bool) (n : Nat) : Bool := (c.rest[n]?).any p

/-- Whether a space, a tab, the end of the line or that of the text is `n` characters further on. -/
def gapAt (c : Cursor) (n : Nat) : Bool := (c.rest[n]?).all isGap

/-- Whether the line ends here. -/
def atLineEnd (c : Cursor) : Bool := c.rest.head?.all isBreak

/-- The line break here, as the character that it stands for, and the start of the next line. -/
def lineBreak? (c : Cursor) : Option (Char × Cursor) :=
  match c.rest with
  | '\r' :: '\n' :: _ => some ('\n', c.next.next)
  | ch :: _ =>
    if ch == '\u2028' || ch == '\u2029' then some (ch, c.next)
    else if isBreak ch then some ('\n', c.next)
    else none
  | [] => none

/-- Whether the three characters of a document marker stand here, apart from what follows. -/
def atMarker (c : Cursor) (mark : Char) : Bool :=
  c.rest.take 3 == [mark, mark, mark] && c.gapAt 3

/-- Whether a document starts or ends here. -/
def atSeparator (c : Cursor) : Bool := c.atMarker '-' || c.atMarker '.'

end Cursor
end Yaml
end PerfFormula
