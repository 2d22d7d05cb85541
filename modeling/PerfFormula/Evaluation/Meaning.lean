import PerfFormula.Evaluation.Context
import PerfFormula.Formula.Parser

/-!
# The meaning of formulas

The value of a formula, said without a memory: a reference is parsed and evaluated again wherever it
is used. This is what the value of a formula is by definition; the evaluator that remembers the
references it has resolved is another way to compute it.

Operands are evaluated from left to right, of a choice only the branch that the condition selects,
and the first error ends the evaluation.

Main statements:

* `Context.meaning_name_of_value` — a name that has a value means that value.
-/

namespace PerfFormula

/-- The value of a formula, given the answers to host literals and the meaning of names. -/
def Formula.meaning (answers : HostLiteral → Float) (lookup : String → Except FormulaError Float) :
    Formula → Except FormulaError Float
  | number x => .ok x
  | name n => lookup n
  | host l => .ok (answers l)
  | binary op l r => do
    let x ← l.meaning answers lookup
    let y ← r.meaning answers lookup
    (op.apply x y).mapError .arithmetic
  | negate f => do
    let x ← f.meaning answers lookup
    return -x
  | choice c t f => do
    let x ← c.meaning answers lookup
    if isTrue x then t.meaning answers lookup else f.meaning answers lookup
  | call g a b => do
    let x ← a.meaning answers lookup
    let y ← b.meaning answers lookup
    return g.apply x y

namespace Context

/-- The value of a name in a context, where `chain` are the references that are being followed. -/
def nameMeaning (c : Context) (chain : List String) (name : String) : Except FormulaError Float :=
  match _h : c.datum name with
  | .error _ => .error .usedAfterFree
  | .ok .pending => .error (.undefined name)
  | .ok (.value x) => .ok x
  | .ok (.reference source) =>
    if _fresh : name ∈ chain then .error (.cycle (chain ++ [name]))
    else
      match Formula.parse source c.runtime with
      | .error e => .error (.unreadable source e)
      | .ok f => f.meaning c.answers fun n => c.nameMeaning (chain ++ [name]) n
termination_by (c.unresolved chain).length
decreasing_by exact unresolved_append_lt _h _fresh

/-- The value of a formula in a context. -/
def meaning (c : Context) (f : Formula) : Except FormulaError Float :=
  f.meaning c.answers (c.nameMeaning [])

theorem meaning_name_of_value {c : Context} {name : String} {x : Float}
    (h : c.datum name = .ok (.value x)) : c.meaning (.name name) = .ok x := by
  rw [meaning, Formula.meaning, nameMeaning]
  split <;> simp_all

end Context
end PerfFormula
