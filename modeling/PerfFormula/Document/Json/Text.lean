import PerfFormula.Document.Json.Error
import PerfFormula.Text.DecimalDigit
import PerfFormula.Text.Quoted

/-!
# Texts in JSON

A text stands between double quotes. Writing uses ASCII alone: every other character, and every
control character, is written as an escape of its UTF-16 units. Reading takes any character but a
control character as it is.

Main statements:

* `Json.readText_quote` — a text ends at its closing quote.
-/

namespace PerfFormula
namespace Json

open PerfFormula.Text

/-! ## Writing -/

/-- The UTF-16 units of a character: one, or a pair of surrogates. -/
def units (c : Char) : List Nat :=
  let n := c.toNat
  if n < 0x10000 then [n]
  else [0xD800 + (n - 0x10000) / 0x400, 0xDC00 + (n - 0x10000) % 0x400]

/-- A character between the quotes of a text. -/
def escapeChar (c : Char) : List Char :=
  if c = '"' ∨ c = '\\' then ['\\', c]
  else if c = '\n' then ['\\', 'n']
  else if c = '\r' then ['\\', 'r']
  else if c = '\t' then ['\\', 't']
  else if c = '\x08' then ['\\', 'b']
  else if c = '\x0c' then ['\\', 'f']
  else if 0x20 ≤ c.toNat ∧ c.toNat < 0x7F then [c]
  else (units c).flatMap fun u => '\\' :: 'u' :: hex 4 u

/-- A text in quotes. -/
def writeText (cs : List Char) : List Char :=
  '"' :: cs.flatMap escapeChar ++ ['"']

/-! ## Reading -/

/-- The value of a hexadecimal digit. -/
def hexValue? (c : Char) : Option Nat :=
  if isDigit c then some (asciiValue c)
  else if 'a' ≤ c ∧ c ≤ 'f' then some (c.toNat - 'a'.toNat + 10)
  else if 'A' ≤ c ∧ c ≤ 'F' then some (c.toNat - 'A'.toNat + 10)
  else none

/-- The UTF-16 unit of four hexadecimal digits. -/
def unit? (a b c d : Char) : Option Nat := do
  return (((← hexValue? a) * 16 + (← hexValue? b)) * 16 + (← hexValue? c)) * 16 + (← hexValue? d)

/-- The character of an escape by a single letter. -/
def shortEscape? (c : Char) : Option Char :=
  if c = '"' ∨ c = '\\' ∨ c = '/' then some c
  else if c = 'n' then some '\n'
  else if c = 'r' then some '\r'
  else if c = 't' then some '\t'
  else if c = 'b' then some '\x08'
  else if c = 'f' then some '\x0c'
  else none

/-- Whether a unit is the first one of a pair of surrogates. -/
def isHighSurrogate (u : Nat) : Bool := 0xD800 ≤ u && u < 0xDC00

/-- Whether a unit is the second one of a pair of surrogates. -/
def isLowSurrogate (u : Nat) : Bool := 0xDC00 ≤ u && u < 0xE000

/-- The character of a unit by itself; a surrogate alone is none and is replaced. -/
def ofUnit (u : Nat) : Char := if isHighSurrogate u || isLowSurrogate u then '\uFFFD' else .ofNat u

/-- The character of a pair of surrogates. -/
def ofPair (high low : Nat) : Char := .ofNat (0x10000 + (high - 0xD800) * 0x400 + (low - 0xDC00))

/-- What follows a unit escape, from the character behind the `u` on: its character and the rest. A
high surrogate joins with the low surrogate that follows it, unless the text ends right behind
that. -/
def unitEscape? : List Char → Option (Char × List Char)
  | a :: b :: c :: d :: rest => do
    let first ← unit? a b c d
    match rest with
    | '\\' :: 'u' :: e :: f :: g :: h :: next :: more =>
      if isHighSurrogate first then
        let second ← unit? e f g h
        if isLowSurrogate second then some (ofPair first second, next :: more)
        else some (ofUnit first, rest)
      else some (ofUnit first, rest)
    | _ => some (ofUnit first, rest)
  | _ => none

/-- How many characters are left at the `u` of the unit escape that is at fault, given what follows
the first one: the second one if a pair has begun. -/
def faultyUnit (rest : List Char) : Nat :=
  match rest with
  | a :: b :: c :: d :: '\\' :: 'u' :: more =>
    if (unit? a b c d).any isHighSurrogate then more.length + 1 else rest.length + 1
  | _ => rest.length + 1

/-- The characters of a text up to its closing quote, and what follows that. `start` is how many
characters are left at the opening quote, and `fuel` bounds the length of the text. -/
def readText (start : Nat) : (fuel : Nat) → List Char → Except Stop (List Char × List Char)
  | 0, _ => .error (.fault .unterminated start)
  | _ + 1, [] | _ + 1, ['\\'] => .error (.fault .unterminated start)
  | _ + 1, '"' :: rest => .ok ([], rest)
  | fuel + 1, '\\' :: 'u' :: rest =>
    match if rest.length ≤ 4 then none else unitEscape? rest with
    | none => .error (.fault .unitEscape (faultyUnit rest))
    | some (c, rest) => do
      let (cs, rest) ← readText start fuel rest
      return (c :: cs, rest)
  | fuel + 1, '\\' :: letter :: rest =>
    match shortEscape? letter with
    | none => .error (.fault .escape (rest.length + 2))
    | some c => do
      let (cs, rest) ← readText start fuel rest
      return (c :: cs, rest)
  | fuel + 1, c :: rest =>
    if c.toNat < 0x20 then .error (.fault .control (rest.length + 1))
    else do
      let (cs, rest) ← readText start fuel rest
      return (c :: cs, rest)

/-- The text whose opening quote stands before the given characters. -/
def readString (cs : List Char) : Except Stop (List Char × List Char) :=
  readText (cs.length + 1) (cs.length + 1) cs

/-- A text ends at its closing quote. -/
theorem readText_quote (start fuel : Nat) (rest : List Char) :
    readText start (fuel + 1) ('"' :: rest) = .ok ([], rest) := by
  simp [readText]

end Json
end PerfFormula
