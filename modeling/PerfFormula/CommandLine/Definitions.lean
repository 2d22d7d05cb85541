import PerfFormula.Decimal.Reader
import PerfFormula.Names.NameMap

/-!
# Definitions on the command line

Values of names that are given as `NAME=VALUE`. The value is what follows the last equals sign, as
names may hold equals signs themselves. Blanks around either part do not count.

Main statements:

* `Definitions.parts_append` — the value is what follows the last equals sign.
-/

namespace PerfFormula

/-- Why a definition is refused. -/
inductive DefinitionError where
  | noEqualsSign (given : String)
  | emptyPart (given : String)
  | duplicate (name : String)
  | number (error : Decimal.NumberError)
  deriving DecidableEq, Repr

namespace DefinitionError

/-- The report of an error. -/
def message : DefinitionError → String
  | noEqualsSign given => "Invalid -D spec '" ++ given ++ "'. Use NAME=VALUE"
  | emptyPart given => "Invalid -D spec '" ++ given ++ "'. Empty name or value"
  | duplicate name => "Duplicate -D identifier '" ++ name ++ "'"
  | number e => e.message

end DefinitionError

namespace Definitions

/-- What stands before and behind the last equals sign. -/
def parts (cs : List Char) : Option (List Char × List Char) :=
  let value := (cs.reverse.takeWhile (· ≠ '=')).reverse
  if value.length = cs.length then none
  else some (cs.take (cs.length - value.length - 1), value)

/-- The name and the value of a definition. -/
def parseOne (s : String) : Except DefinitionError (String × String) :=
  match parts s.toList with
  | none => .error (.noEqualsSign s)
  | some (name, value) =>
    let name := String.ofList (Text.trim name)
    let value := String.ofList (Text.trim value)
    if name = "" ∨ value = "" then .error (.emptyPart s) else .ok (name, value)

/-- Add a definition to those before it. -/
def add (known : NameMap Float) (s : String) : Except DefinitionError (NameMap Float) := do
  let (name, value) ← parseOne s
  if known.contains name then throw (.duplicate name)
  let x ← (Decimal.readReal value).mapError .number
  return known.set name x

/-- The values of some definitions, in order. -/
def parse (definitions : List String) : Except DefinitionError (NameMap Float) :=
  definitions.foldlM add .empty

/-- The value is what follows the last equals sign. -/
theorem parts_append (name value : List Char) (h : '=' ∉ value) :
    parts (name ++ '=' :: value) = some (name, value) := by
  have found : (name ++ '=' :: value).reverse.takeWhile (· ≠ '=') = value.reverse := by
    have split : (name ++ '=' :: value).reverse = value.reverse ++ '=' :: name.reverse := by simp
    rw [split, List.takeWhile_append_of_pos]
    · simp
    · intro c hc
      simp only [decide_eq_true_eq]
      rintro rfl
      exact h (List.mem_reverse.1 hc)
  simp only [parts, found, List.reverse_reverse, List.length_append, List.length_cons]
  rw [if_neg (by omega), show name.length + (value.length + 1) - value.length - 1 = name.length by
    omega, List.take_left]

end Definitions
end PerfFormula
