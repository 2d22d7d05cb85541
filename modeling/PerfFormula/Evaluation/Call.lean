import PerfFormula.Evaluation.Run
import PerfFormula.Evaluation.Needed

/-!
# Calls on a context

Evaluating a text in a context, and adding the names that a text needs to a context. A call may
bring its own runtime parameter. Evaluation stores it in the context once the text parses, so that
references are read with the same one; finding names leaves the context's own parameter alone.
-/

namespace PerfFormula
namespace Context

/-- The runtime parameter of a call: its own, or that of the context. -/
def callRuntime (c : Context) (given : Option Int) : Except FormulaError Nat :=
  match given with
  | none => .ok c.runtime
  | some r => checkRuntime r

/-- Parse the text of a call. -/
def parse (source : String) (runtime : Nat) : Except FormulaError Formula :=
  (Formula.parse source runtime).mapError (.unreadable source)

/-- What evaluating a text does, with the run that it took, or the error that kept it from
starting. -/
def start (c : Context) (source : String) (given : Option Int) :
    Except FormulaError (Context × Formula) := do
  let runtime ← c.callRuntime given
  let f ← parse source runtime
  return ({ c with runtime }, f)

/-- Evaluate a text: its value, and the context afterwards. -/
def evaluateText (c : Context) (source : String) (given : Option Int) :
    Except FormulaError Float × Context :=
  match c.start source given with
  | .error e => (.error e, c)
  | .ok (c, f) => c.evaluate f

/-- The host literals that evaluating a text asks. -/
def askedByText (c : Context) (source : String) (given : Option Int) : List HostLiteral :=
  match c.start source given with
  | .error _ => []
  | .ok (c, f) => (c.runFormula f).2.asked

/-- Evaluate a text and answer a value in any case: with status 0, or, where there is none, with
status -1 and what is not a number. Only a freed set is still an error. -/
def tryText (c : Context) (source : String) (given : Option Int) :
    Except FormulaError (Float × Int) × Context :=
  let (outcome, c) := c.evaluateText source given
  match outcome with
  | .ok x => (.ok (x, 0), c)
  | .error .usedAfterFree => (.error .usedAfterFree, c)
  | .error _ => (.ok (0.0 / 0.0, -1), c)

/-- The names that a text needs, without the excluded ones. -/
def neededByText (c : Context) (source : String) (excluded : List String) (given : Option Int) :
    Except FormulaError (List String) := do
  let runtime ← c.callRuntime given
  let f ← parse source runtime
  return (f.needed c.answers).list.filter (· ∉ excluded)

/-- Add the names that a text needs to the context, as pending, where it does not have them. -/
def findNames (c : Context) (source : String) (excluded : List String) (given : Option Int) :
    Except FormulaError Context := do
  let found ← c.neededByText source excluded given
  match c.ids with
  | .freed => .error .usedAfterFree
  | .live m => return c.withIds (.live (m.merge (.ofList (found.map (·, .pending)))))

/-- Find the names of a text in a context: whether there was an error, and the context afterwards.
It has the names if there was none, and is the same as before if there was one. -/
def findText (c : Context) (source : String) (excluded : List String) (given : Option Int) :
    Except FormulaError Unit × Context :=
  match c.findNames source excluded given with
  | .ok found => (.ok (), found)
  | .error e => (.error e, c)

end Context
end PerfFormula
