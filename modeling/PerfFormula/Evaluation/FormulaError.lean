import PerfFormula.Formula.Arithmetic
import PerfFormula.Formula.SyntaxError
import PerfFormula.Names.IdentifierSet

/-!
# Errors of a formula

Why a formula has no value, from the parameters of the call to the arithmetic.
-/

namespace PerfFormula

/-- Why a formula has no value. -/
inductive FormulaError where
  /-- The runtime parameter is below zero. -/
  | negativeRuntime (given : Int)
  /-- The text of the formula, or of one that it refers to, cannot be read. -/
  | unreadable (source : String) (error : Unreadable SyntaxError)
  /-- A name on the way has no value. -/
  | undefined (name : String)
  | arithmetic (error : ArithmeticError)
  /-- References that lead back to one of them: the names in the order in which they were followed,
  the last of which is one of those before. -/
  | cycle (chain : List String)
  /-- The set of names was freed. -/
  | usedAfterFree

namespace FormulaError

/-- The report of an error. -/
def message : FormulaError → String
  | negativeRuntime given =>
    match Decimal.writeNat? given.natAbs with
    | some _ => "runtime must be >= 0, got " ++ toString given
    | none => Decimal.tooLongText
  | unreadable _ e => e.message
  | undefined name => "Identifier '" ++ name ++ "' has no value"
  | arithmetic e => e.message
  | cycle chain => "Metric reference cycle: " ++ " -> ".intercalate chain
  | usedAfterFree => SetError.usedAfterFree.message

/-- Whether an error is about the runtime parameter itself: that it is negative, or too long to be
written. -/
def isOfRuntime : FormulaError → Bool
  | negativeRuntime _ | unreadable _ .runtimeTooLong => true
  | _ => false

end FormulaError

/-- The runtime parameter of a call: a number that is not negative. -/
def checkRuntime (given : Int) : Except FormulaError Nat :=
  if given < 0 then .error (.negativeRuntime given) else .ok given.toNat

end PerfFormula
