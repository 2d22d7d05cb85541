import PerfFormula.Document.Json.Text
import PerfFormula.Document.Yaml.Cursor
import PerfFormula.Document.Yaml.Error

/-!
# Scalars of YAML

The text of one scalar, in each of the ways to write it: plain, between single or double quotes, or
as a block of lines. A single line break inside a scalar counts as a space and further ones as
themselves; a literal block keeps all of them.
-/

namespace PerfFormula
namespace Yaml

/-- What reading a scalar gives: its text, and the place behind it. -/
abbrev Scanned := Except Error (List Char × Cursor)

/-- No scalar can be read. -/
def refuse {α : Type} : Except Error α := .error .malformed

/-! ## Plain scalars -/

/-- The characters that end a plain scalar inside brackets or braces. -/
def isFlowMark (c : Char) : Bool :=
  c == ',' || c == '?' || c == '[' || c == ']' || c == '\x7b' || c == '\x7d'

/-- Whether a colon before the given text ends a word. -/
def colonEnds (inFlow : Bool) (rest : List Char) : Bool :=
  rest.head?.all fun c => isGap c || (inFlow && (isFlowMark c && c != '?'))

/-- A word of a plain scalar: what stands before a gap, a colon that ends it, or, inside brackets
and braces, one of their marks. -/
def plainWord (inFlow : Bool) : List Char → List Char
  | [] => []
  | c :: rest =>
    if isGap c || (c == ':' && colonEnds inFlow rest) || (inFlow && isFlowMark c) then []
    else c :: plainWord inFlow rest

/-- What stands between two words of a plain scalar, the place behind it, and whether a line ended
there. The text is empty if nothing may follow. -/
structure PlainGap where
  text : List Char
  cursor : Cursor
  newLine : Bool

/-- The empty lines after the end of a line; `none` before the start or the end of a document. -/
def emptyLines : (fuel : Nat) → Cursor → Option (List Char) × Cursor
  | 0, c => (some [], c)
  | fuel + 1, c =>
    if c.sees (· == ' ') 0 then emptyLines fuel c.next
    else
      match c.lineBreak? with
      | none => (some [], c)
      | some (ch, c) =>
        if c.atSeparator then (none, c)
        else
          let (more, c) := emptyLines fuel c
          (more.map (ch :: ·), c)

/-- A line break and the empty lines behind it as text: a line break alone is a space. -/
def foldBreak (ch : Char) (more : List Char) : List Char :=
  if ch != '\n' then ch :: more else if more.isEmpty then [' '] else more

/-- What follows a word of a plain scalar. -/
def plainGap (c : Cursor) : PlainGap :=
  let spaces := c.rest.takeWhile (· == ' ')
  let after := c.skip spaces.length
  match after.lineBreak? with
  | none => ⟨spaces, after, false⟩
  | some (ch, c) =>
    if c.atSeparator then ⟨[], c, true⟩
    else
      match emptyLines (c.rest.length + 1) c with
      | (none, c) => ⟨[], c, true⟩
      | (some more, c) => ⟨foldBreak ch more, c, true⟩

/-- A plain scalar from its first word on, the place behind it and the gap that follows, and whether
a line ended in that gap. Further lines belong to it from the column `indent` on. -/
def plainScalar (inFlow : Bool) (indent : Nat) : (fuel : Nat) → Cursor → List Char × Cursor × Bool
  | 0, c => ([], c, false)
  | fuel + 1, c =>
    let word := plainWord inFlow c.rest
    let gap := plainGap (c.skip word.length)
    -- A comment, a smaller indentation or a mark ends the scalar.
    let goesOn := !gap.text.isEmpty && !gap.cursor.sees (· == '#') 0
      && (inFlow || indent ≤ gap.cursor.column) && !(plainWord inFlow gap.cursor.rest).isEmpty
    if goesOn then
      let (more, c, newLine) := plainScalar inFlow indent fuel gap.cursor
      (word ++ gap.text ++ more, c, newLine)
    else (word, gap.cursor, gap.newLine)

/-! ## Quoted scalars -/

/-- The empty lines inside a quoted scalar, and the spaces in front of the next line. A document may
not start or end there. -/
def quotedLines : (fuel : Nat) → Cursor → Scanned
  | 0, _ => refuse
  | fuel + 1, c =>
    if c.atSeparator then refuse
    else
      let c := c.skipWhile fun ch => ch == ' ' || ch == '\t'
      match c.lineBreak? with
      | none => .ok ([], c)
      | some (ch, c) => do
        let (more, c) ← quotedLines fuel c
        return (ch :: more, c)

/-- The character of an escape by a single letter. -/
def letterEscape? (c : Char) : Option Char :=
  if c == '"' || c == '\\' || c == '/' || c == ' ' || c == '\t' then some c
  else if c == '0' then some '\x00'
  else if c == 'a' then some '\x07'
  else if c == 'b' then some '\x08'
  else if c == 't' then some '\t'
  else if c == 'n' then some '\n'
  else if c == 'v' then some '\x0b'
  else if c == 'f' then some '\x0c'
  else if c == 'r' then some '\r'
  else if c == 'e' then some '\x1b'
  else if c == 'N' then some '\u0085'
  else if c == '_' then some '\u00a0'
  else if c == 'L' then some '\u2028'
  else if c == 'P' then some '\u2029'
  else none

/-- How many hexadecimal digits follow the letter of an escape by code point. -/
def codeDigits? (c : Char) : Option Nat :=
  if c == 'x' then some 2 else if c == 'u' then some 4 else if c == 'U' then some 8 else none

/-- The number of hexadecimal digits. -/
def hexNumber? (digits : List Char) : Option Nat :=
  (digits.mapM Json.hexValue?).map fun values => values.foldl (fun n v => 16 * n + v) 0

/-- The character of a code point; that of a surrogate is replaced. -/
def ofCodePoint (n : Nat) : Except Error Char :=
  if n < 0x110000 then .ok (if n.isValidChar then Char.ofNat n else '\uFFFD')
  else .error (if n < 0x80000000 then .noCharacter else .overflow)

/-- An escape in double quotes, from the character behind the backslash on. An escaped line break
stands for nothing. -/
def quotedEscape (c : Cursor) : Scanned :=
  match c.rest with
  | [] => refuse
  | ch :: rest =>
    match letterEscape? ch, codeDigits? ch, c.lineBreak? with
    | some found, _, _ => .ok ([found], c.next)
    | _, some width, _ =>
      match hexNumber? (rest.take width) with
      | some n =>
        if rest.length < width then refuse
        else (ofCodePoint n).map fun found => ([found], c.skip (width + 1))
      | none => refuse
    | _, _, some (_, c) => quotedLines (c.rest.length + 1) c
    | _, _, _ => refuse

/-- A gap inside quotes: spaces as they are, line breaks folded. -/
def quotedGap (c : Cursor) : Scanned :=
  let spaces := c.rest.takeWhile fun ch => ch == ' ' || ch == '\t'
  let after := c.skip spaces.length
  match after.lineBreak? with
  | none => .ok (spaces, after)
  | some (ch, c) => do
    let (more, c) ← quotedLines (c.rest.length + 1) c
    return (foldBreak ch more, c)

/-- The next part of a scalar between the quotes `mark`, up to its closing quote. -/
def quotedPart (mark : Char) (c : Cursor) : Scanned :=
  match c.rest with
  | [] => refuse
  | ch :: rest =>
    if isGap ch then quotedGap c
    else if ch == '\\' && mark == '"' then quotedEscape c.next
    else if ch == mark then
      -- Two single quotes stand for one.
      if mark == '\'' && rest.head? == some mark then .ok ([mark], c.skip 2) else .ok ([], c)
    else .ok ([ch], c.next)

/-- A scalar between quotes from its first character on, its closing quote included. -/
def quotedScalar (mark : Char) : (fuel : Nat) → Cursor → Scanned
  | 0, _ => refuse
  | fuel + 1, c => do
    let (part, after) ← quotedPart mark c
    if part.isEmpty && after.index == c.index then return ([], c.next)
    else
      let (more, c) ← quotedScalar mark fuel after
      return (part ++ more, c)

/-! ## Block scalars -/

/-- What becomes of the line breaks at the end of a block: all but one are dropped, all are dropped,
or all are kept. -/
inductive Chomping where
  | clip
  | strip
  | keep
  deriving DecidableEq, Repr

/-- The header of a block: how its end is treated, and by how much it is indented. -/
structure BlockHeader where
  chomping : Chomping
  indent : Option Nat

/-- The chomping that a character asks for. -/
def chomping? (c : Char) : Option Chomping :=
  if c == '-' then some .strip else if c == '+' then some .keep else none

/-- The indentation that a character asks for: a digit other than zero. -/
def indentDigit? (c : Char) : Option Nat :=
  if '1' ≤ c && c ≤ '9' then some (Text.asciiValue c) else none

/-- Read the header of a block. -/
def blockHeader (c : Cursor) : BlockHeader × Cursor :=
  let first := c.rest.head?
  let second := c.next.rest.head?
  match first.bind chomping?, first.bind indentDigit? with
  | some chomping, _ =>
    match second.bind indentDigit? with
    | some indent => (⟨chomping, some indent⟩, c.skip 2)
    | none => (⟨chomping, none⟩, c.next)
  | _, some indent =>
    match second.bind chomping? with
    | some chomping => (⟨chomping, some indent⟩, c.skip 2)
    | none => (⟨.clip, some indent⟩, c.next)
  | _, _ => (⟨.clip, none⟩, c)

/-- Skip a comment. -/
def skipComment (c : Cursor) : Cursor :=
  if c.sees (· == '#') 0 then c.skipWhile fun ch => !isBreak ch else c

/-- The empty lines in front of a block, the indentation of its first line or that of a longer empty
line, and the place where the first line starts. -/
def blockStart : (fuel deepest : Nat) → Cursor → List Char × Nat × Cursor
  | 0, deepest, c => ([], deepest, c)
  | fuel + 1, deepest, c =>
    if c.sees (· == ' ') 0 then blockStart fuel (max deepest c.next.column) c.next
    else
      match c.lineBreak? with
      | none => ([], deepest, c)
      | some (ch, c) =>
        let (more, deepest, c) := blockStart fuel deepest c
        (ch :: more, deepest, c)

/-- Skip spaces up to a column. -/
def skipIndent (indent : Nat) : (fuel : Nat) → Cursor → Cursor
  | 0, c => c
  | fuel + 1, c =>
    if c.column < indent && c.sees (· == ' ') 0 then skipIndent indent fuel c.next else c

/-- The empty lines inside a block, and the place where the next line starts. -/
def blockBreaks (indent : Nat) : (fuel : Nat) → Cursor → List Char × Cursor
  | 0, c => ([], c)
  | fuel + 1, c =>
    let c := skipIndent indent indent c
    match c.lineBreak? with
    | none => ([], c)
    | some (ch, c) =>
      let (more, c) := blockBreaks indent fuel c
      (ch :: more, c)

/-- Whether a line starts with a space or a tab. -/
def startsIndented (c : Cursor) : Bool := c.sees (fun ch => ch == ' ' || ch == '\t') 0

/-- The lines of a block at the column `indent`, after the empty lines `breaks`. A folded block
joins lines that are not indented further. -/
def blockLines (folded : Bool) (chomping : Chomping) (indent : Nat) :
    (fuel : Nat) → (breaks : List Char) → Cursor → List Char × Cursor
  | 0, _, c => ([], c)
  | fuel + 1, breaks, c =>
    if c.column != indent || c.rest.isEmpty then
      (if chomping = .keep then breaks else [], c)
    else
      let line := c.rest.takeWhile fun ch => !isBreak ch
      let after := c.skip line.length
      let (ending, after) := match after.lineBreak? with
        | some (ch, next) => ([ch], next)
        | none => ([], after)
      let (more, next) := blockBreaks indent (after.rest.length + 1) after
      let start := breaks ++ line
      if next.column == indent && !next.rest.isEmpty then
        -- Lines that are indented further keep their line breaks, and so do those next to them.
        let joins := folded && ending == ['\n'] && !startsIndented c && !startsIndented next
        let between := if joins then (if more.isEmpty then [' '] else []) else ending
        let (rest, c) := blockLines folded chomping indent fuel more next
        (start ++ between ++ rest, c)
      else
        let tail := match chomping with
          | .strip => []
          | .clip => ending
          | .keep => ending ++ more
        (start ++ tail, next)

/-- A block scalar from the character behind its mark on. Its lines are indented at least to the
column `least`. -/
def blockScalar (folded : Bool) (least : Nat) (c : Cursor) : Scanned :=
  let (header, c) := blockHeader c
  if !(c.rest.head?.all fun ch => ch == ' ' || isBreak ch) then refuse
  else
    let c := skipComment (c.skipWhile (· == ' '))
    if !c.atLineEnd then refuse
    else
      let c := match c.lineBreak? with
        | some (_, next) => next
        | none => c
      let fuel := c.rest.length + 1
      match header.indent with
      | none =>
        -- Without a digit in the header the lines themselves show the indentation.
        let (breaks, deepest, c) := blockStart fuel 0 c
        .ok (blockLines folded header.chomping (max least deepest) fuel breaks c)
      | some more =>
        let indent := least + more - 1
        let (breaks, c) := blockBreaks indent fuel c
        .ok (blockLines folded header.chomping indent fuel breaks c)

end Yaml
end PerfFormula
