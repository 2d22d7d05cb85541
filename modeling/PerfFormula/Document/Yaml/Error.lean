import PerfFormula.Decimal.Reader

/-!
# Errors in YAML

What can be wrong with a YAML text. A text whose marks make no sense is malformed, whatever its
scalars say; only of a text that makes sense are the scalars valued. An escape in a quoted scalar is
looked at as soon as it is reached.
-/

namespace PerfFormula
namespace Yaml

/-- What is wrong with a YAML text. -/
inductive Error where
  | malformed
  /-- A scalar is written like a whole number but is none that can be read. -/
  | number (error : Decimal.NumberError)
  /-- An escape tells the code point of no character. -/
  | noCharacter
  /-- A code point or the weight of a digit is too large to be handled. -/
  | overflow
  deriving DecidableEq, Repr

namespace Error

/-- The report of an error. -/
def message : Error → String
  | malformed => "malformed YAML"
  | number e => e.message
  | noCharacter => "chr() arg not in range(0x110000)"
  | overflow => "number too large"

end Error
end Yaml
end PerfFormula
