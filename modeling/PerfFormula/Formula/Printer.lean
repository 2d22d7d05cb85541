import PerfFormula.Formula.Basic
import PerfFormula.Decimal.Notation

/-!
# Printing formulas

A formula as text that can be read again: every operator, sign and choice stands in parentheses of
its own, so that no rule of precedence is needed to read it.
-/

namespace PerfFormula
namespace Formula

/-- The characters of a formula. -/
def print : Formula → List Char
  | number x => Decimal.write Decimal.plain x
  | name n => n.toList
  | host l => '#' :: l.name.toList
  | binary op l r => '(' :: l.print ++ ' ' :: op.symbol :: ' ' :: r.print ++ [')']
  | negate x => '(' :: '-' :: x.print ++ [')']
  | choice c t f =>
    '(' :: t.print ++ " if ".toList ++ c.print ++ " else ".toList ++ f.print ++ [')']
  | call g a b => g.name.toList ++ '(' :: a.print ++ ',' :: ' ' :: b.print ++ [')']

/-- The text of a formula. -/
def text (x : Formula) : String := String.ofList x.print

end Formula
end PerfFormula
