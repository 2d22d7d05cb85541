import PerfFormula.Evaluation.Needed
import PerfFormula.Evaluation.Context
import PerfFormula.Names.Registry

/-!
# Gathering names in place

The names that a formula needs, gathered in sets that are changed while the formula is walked: each
name starts as a set of its own, the sets of two subformulas are united into that of the first one,
and the second one is empty from then on. A constant has no set, and where a set is missing the
other one is handed on as it is. At last the excluded names are removed from the set that was found,
and what is left is moved into the set of a context.

`Formula.needed` says the same without sets that change.
-/

namespace PerfFormula

/-- A step on identifier sets in cells: what it gives and what it leaves, unless it is refused. -/
abbrev GatherM := StateT (Registry Datum) (Except RegistryError)

namespace GatherM

/-- A new set, which no name holds. -/
def create (s : IdentifierSet Datum) : GatherM Nat := fun r =>
  .ok (r.cells.length, { r with cells := r.cells ++ [s] })

/-- The set in a cell. -/
def read (cell : Nat) : GatherM (IdentifierSet Datum) := fun r =>
  match r.cells[cell]? with
  | some s => .ok (s, r)
  | none => .error .notHeld

/-- Move the entries of the set in one cell into the set in another one. -/
def unite (cell other : Nat) : GatherM Unit := do
  let s ← read cell
  let o ← read other
  set (← (← get).unite cell other s o)

/-- Drop an identifier from the set in a cell. -/
def remove (cell : Nat) (key : String) : GatherM Unit := do
  let s ← read cell
  let rest ← liftM (Registry.lift (s.remove key))
  modify (·.write cell rest)

/-- The union of two sets, either of which may be missing. A set that is there is handed on. -/
def join : Option Nat → Option Nat → GatherM Nat
  | none, none => create .empty
  | none, some other => return other
  | some cell, none => return cell
  | some cell, some other => do
    unite cell other
    return cell

end GatherM

/-- What is known of a subformula: its value, if it has no set; else the cell of its set, and a
value that is not a number. -/
structure Finding where
  value : Float
  set? : Option Nat

namespace Finding

/-- The value is known. -/
def isConstant (found : Finding) : Bool := found.set?.isNone

/-- The value is not known, and these names are needed for it. -/
def unknown (cell : Nat) : Finding := ⟨0.0 / 0.0, some cell⟩

/-- The names of all parts. -/
def uniteAll (parts : List Finding) : GatherM Finding := do
  let all ← parts.foldlM (fun all part => some <$> GatherM.join all part.set?) none
  match all with
  | some cell => return unknown cell
  | none => return unknown (← GatherM.create .empty)

/-- What was folded, if all parts are constants; else the names of all parts. -/
def fold (folded : Except ArithmeticError Float) (parts : List Finding) : GatherM Finding :=
  if parts.all isConstant then
    match folded with
    | .ok x => return ⟨x, none⟩
    -- Nothing is known of the value, and no name would help.
    | .error _ => return unknown (← GatherM.create .empty)
  else uniteAll parts

/-- The set that was found. One without names counts as missing, and a new one takes its place. -/
def setOrNew (found : Finding) : GatherM Nat := do
  match found.set? with
  | none => GatherM.create .empty
  | some cell =>
    let size ← liftM (Registry.lift (← GatherM.read cell).size)
    if size = 0 then GatherM.create .empty else return cell

end Finding

namespace Formula

/-- Find out what is known of a formula, given the answers to host literals. -/
def gather (answers : HostLiteral → Float) : Formula → GatherM Finding
  | number x => return ⟨x, none⟩
  | name n => do
    let s ← liftM (Registry.lift (IdentifierSet.ofKeys [n] .pending))
    return .unknown (← GatherM.create s)
  | host l => return ⟨answers l, none⟩
  | binary op l r => do
    let x ← l.gather answers
    let y ← r.gather answers
    Finding.fold (op.apply x.value y.value) [x, y]
  | negate f => do
    let x ← f.gather answers
    Finding.fold (.ok (-x.value)) [x]
  | choice c t f => do
    let x ← c.gather answers
    if x.isConstant then
      -- The branch that is not selected is not walked at all.
      if isTrue x.value then t.gather answers else f.gather answers
    else
      let y ← t.gather answers
      let z ← f.gather answers
      if y.isConstant && z.isConstant && y.value == z.value then return ⟨y.value, none⟩
      else Finding.uniteAll [x, y, z]
  | call g a b => do
    let x ← a.gather answers
    let y ← b.gather answers
    Finding.fold (.ok (g.apply x.value y.value)) [x, y]

/-- Move the names that a formula needs, without the excluded ones, into the set in a cell. -/
def gatherInto (answers : HostLiteral → Float) (f : Formula) (excluded : List String)
    (own : Nat) : GatherM Unit := do
  let found ← f.gather answers
  let cell ← found.setOrNew
  excluded.forM (GatherM.remove cell)
  GatherM.unite own cell

end Formula
end PerfFormula
