import PerfFormula.Formula.Arithmetic

/-!
# Answers to host literals

A host answers the host literals of formulas: a host with fixed answers for what-if questions, or a
machine. Here are the fixed answers, and host literals asked for by name.
-/

namespace PerfFormula

/-- Fixed answers: whether multithreading is active, and one count for all processors and for those
online. -/
structure FixedHost where
  smt : Bool
  cpus : Int

/-- The answers of a host with fixed answers. -/
def FixedHost.answers (h : FixedHost) : HostLiteral → Float
  | .smtOn => ofBool h.smt
  | .cpus | .cpusOnline => ofWhole h.cpus

/-- A name that is no host literal. -/
structure UnknownLiteral where
  name : String
  deriving DecidableEq, Repr

/-- The report of a name that is no host literal. -/
def UnknownLiteral.message (e : UnknownLiteral) : String := "Unknown literal: #" ++ e.name

/-- The answer to the host literal of a name. -/
def answerByName (answers : HostLiteral → Float) (name : String) : Except UnknownLiteral Float :=
  match HostLiteral.ofName? name with
  | some l => .ok (answers l)
  | none => .error ⟨name⟩

end PerfFormula
