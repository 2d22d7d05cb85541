import PerfFormula.Metric.ScaleUnit
import PerfFormula.Text.Pattern

/-!
# Scale units as a pattern

A scale unit is told apart into number and unit by a pattern: blanks, perhaps a number, blanks, the
unit, which stands on one line, and blanks up to the end. The parts of it that matter have the
numbers 1 and 2.
-/

namespace PerfFormula.ScaleUnit

open PerfFormula.Text PerfFormula.Decimal

/-- The letter of a power of ten. -/
def isPowerLetter (c : Char) : Bool := c == 'e' || c == 'E'

def isSign (c : Char) : Bool := c == '-' || c == '+'

/-- At least one digit. -/
def digitsPattern : Pattern := .andThen (.one isDigit) (.many isDigit)

/-- Perhaps a point, and digits. -/
def lastDigitsPattern : Pattern := .andThen (.maybe (.one (· == '.'))) digitsPattern

/-- Digits, with a point before the last of them or without one. -/
def mantissaPattern : Pattern := .andThen (.many isDigit) lastDigitsPattern

/-- The letter of a power of ten, perhaps a sign, and digits. -/
def powerPattern : Pattern :=
  .andThen (.one isPowerLetter) (.andThen (.maybe (.one isSign)) digitsPattern)

/-- Digits with at most one point, and perhaps a power of ten. -/
def numberPattern : Pattern := .andThen mantissaPattern (.maybe powerPattern)

/-- Blanks up to the end. -/
def endPattern : Pattern := .andThen (.many isBlank) .atEnd

/-- A unit on one line, with blanks around it. -/
def unitPattern : Pattern :=
  .andThen (.many isBlank) (.andThen (.group 2 (.few (· != '\n'))) endPattern)

/-- A scale unit: perhaps a number, and the unit. -/
def pattern : Pattern :=
  .andThen (.many isBlank) (.andThen (.maybe (.group 1 numberPattern)) unitPattern)

/-- Read a scale unit by its pattern. Without a number the scale is one. -/
def ofPattern? (s : String) : Option ScaleUnit := do
  let found ← pattern.best? s.toList
  let unit := String.ofList ((found.groups.lookup 2).getD [])
  let number := (found.groups.lookup 1).getD []
  if number.isEmpty then return ⟨1.0, unit⟩
  return ⟨← readReal? (String.ofList number), unit⟩

end PerfFormula.ScaleUnit
