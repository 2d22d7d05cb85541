/-!
# Errors of libraries

Some of the work is left to libraries: reading and writing YAML, and frames of values. They are
parameters of what uses them. All that the rest relies on is stated as a law of the library, beside
the library; what a library does where no law speaks of it does not matter.
-/

namespace PerfFormula

/-- An error that a library raises. -/
structure LibraryError where
  /-- The name of the class of the error. -/
  name : String
  /-- Whether the error is about a value that the library was given. Commands report such errors; an
  error of any other kind ends the program. -/
  concernsValue : Bool
  message : String
  deriving DecidableEq, Repr

end PerfFormula
