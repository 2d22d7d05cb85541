import PerfFormula.Decimal.Reader
import PerfFormula.Formula.Basic

/-!
# Errors in the text of a formula

What can be wrong with the text of a formula, where, and in which words it is reported. Positions
count characters from zero. A text that is not malformed may still be unreadable: where a name asks
for the runtime parameter, this has to be written, and it can be too long.
-/

namespace PerfFormula

/-- What a formula needs where something else stands. -/
inductive Expectation where
  /-- `else` after a condition. -/
  | elseWord
  /-- The parenthesis that closes a group or a call. -/
  | closing
  /-- The parenthesis that opens the arguments of a function. -/
  | opening (function : Builtin)
  deriving DecidableEq, Repr

namespace Expectation

/-- The words for what is missing. -/
def text : Expectation → String
  | elseWord => "'else'"
  | closing => "')'"
  | opening f => "'(' after " ++ f.name

end Expectation

/-- What is wrong with the text of a formula. -/
inductive SyntaxFault where
  /-- A character that starts no token. -/
  | unexpectedCharacter
  /-- A name with escapes that does not end with `@`. -/
  | unterminatedName
  /-- A backslash before a character that needs no escape. -/
  | invalidEscape
  /-- A token that cannot stand where it stands. -/
  | unexpectedToken
  /-- The end of the text where an operand has to stand. -/
  | missingOperand
  /-- A call of a name that is no function. -/
  | unknownFunction
  /-- A host literal that no machine answers. -/
  | unknownLiteral
  /-- More levels of nesting than are allowed. -/
  | tooDeep (limit : Nat)
  /-- Something else than what has to follow. -/
  | expected (what : Expectation)
  /-- A call with a wrong number of arguments. -/
  | wrongArity (function : Builtin) (given : Nat)
  deriving DecidableEq, Repr

namespace SyntaxFault

/-- The words for what is wrong. -/
def text : SyntaxFault → String
  | unexpectedCharacter => "Unexpected character"
  | unterminatedName => "Unterminated literal identifier"
  | invalidEscape => "Invalid escape in identifier"
  | unexpectedToken => "Unexpected token"
  | missingOperand => "Missing operand"
  | unknownFunction => "Unknown function"
  | unknownLiteral => "Unknown literal"
  | tooDeep limit => "Expression nested deeper than " ++ toString limit ++ " levels"
  | expected what => "Expected " ++ what.text
  | wrongArity f given =>
    f.name ++ " takes " ++ toString Builtin.arity ++ " arguments, got " ++ toString given

end SyntaxFault

/-- A fault in the text of a formula, the position of the token that is to blame and its text, which
is empty at the end of the formula. -/
structure SyntaxError where
  fault : SyntaxFault
  position : Nat
  token : String
  deriving DecidableEq, Repr

namespace SyntaxError

/-- A message with the place it speaks of, if the place is known. -/
def located (text : String) (position : Option Nat) (token : String) : String :=
  match position with
  | none => text
  | some p =>
    let place := if token.isEmpty then "end of input" else "'" ++ token ++ "'"
    text ++ " at position " ++ toString p ++ " (" ++ place ++ ")"

/-- The report of a syntax error. -/
def message (e : SyntaxError) : String := located e.fault.text (some e.position) e.token

end SyntaxError

/-- Why a text, or a part of one, cannot be read: it is malformed in some way, or a name in it asks
for the runtime parameter, which has too many digits to be written. -/
inductive Unreadable (α : Type) where
  | malformed (error : α)
  | runtimeTooLong
  deriving DecidableEq, Repr

namespace Unreadable

/-- What is malformed told in another way. -/
def map {α β : Type} (f : α → β) : Unreadable α → Unreadable β
  | malformed e => .malformed (f e)
  | runtimeTooLong => .runtimeTooLong

/-- The report of a text that cannot be read. -/
def message : Unreadable SyntaxError → String
  | malformed e => e.message
  | runtimeTooLong => Decimal.tooLongText

end Unreadable

end PerfFormula
