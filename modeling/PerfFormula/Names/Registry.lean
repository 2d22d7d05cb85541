import PerfFormula.Names.IdentifierSet

/-!
# Identifier sets held under names

Several names may hold the same identifier set, and what is done to it through one of them is seen
through all. A registry keeps the sets in numbered cells and knows which cell a name holds.

Main statements:

* `Registry.step_error` — an operation that is refused leaves the registry as it was.
-/

namespace PerfFormula

/-- Identifier sets in cells, and names that hold them. -/
structure Registry (δ : Type) where
  cells : List (IdentifierSet δ)
  holders : NameMap Nat

/-- What a set may be compared with. -/
inductive Comparand where
  /-- The set that another name holds. -/
  | set (holder : String)
  /-- Plain names. -/
  | names (names : List String)
  /-- Anything that is no set. -/
  | unrelated

/-- Operations on the sets of a registry, each named by a holder. -/
inductive SetOperation (δ : Type) where
  /-- Let `set` hold a new set of some identifiers. -/
  | create (set : String) (keys : List String) (datum : δ)
  | insert (set key : String) (datum : δ)
  | put (set key : String) (datum : δ)
  | find (set key : String)
  | get (set key : String) (default : δ)
  | remove (set key : String)
  | size (set : String)
  | keys (set : String)
  | contains (set key : String)
  | isSubsetOf (set other : String)
  /-- Move the entries of `other` into `set`. -/
  | union (set other : String)
  /-- Let `target` hold the union of two sets, either of which may be missing. -/
  | join (set other target : String)
  | clear (set : String)
  | free (set : String)
  | equals (set : String) (other : Comparand)
  | text (set : String)

/-- What an operation answers. -/
inductive SetAnswer (δ : Type) where
  | done
  | datum (datum : δ)
  | count (n : Nat)
  | names (names : List String)
  | truth (b : Bool)
  | text (s : String)
  /-- Whether the union is the first set, and whether it is the second one. -/
  | joined (isFirst isSecond : Bool)

/-- Why an operation of a registry is refused. -/
inductive RegistryError where
  /-- The name holds no set. -/
  | notHeld
  | set (error : SetError)
  deriving DecidableEq, Repr

namespace Registry

variable {δ : Type}

/-- The registry without sets. -/
def empty : Registry δ := ⟨[], .empty⟩

/-- The cell and the set that a name holds. -/
def held? (r : Registry δ) (name : String) : Option (Nat × IdentifierSet δ) := do
  let cell ← r.holders.find? name
  return (cell, ← r.cells[cell]?)

/-- The cell and the set that a name has to hold. -/
def held (r : Registry δ) (name : String) : Except RegistryError (Nat × IdentifierSet δ) :=
  match r.held? name with
  | some found => .ok found
  | none => .error .notHeld

/-- Replace the set of a cell. -/
def write (r : Registry δ) (cell : Nat) (s : IdentifierSet δ) : Registry δ :=
  { r with cells := r.cells.set cell s }

/-- Let a name hold a cell. -/
def hold (r : Registry δ) (name : String) (cell : Nat) : Registry δ :=
  { r with holders := r.holders.set name cell }

/-- Let a name hold a new cell. -/
def add (r : Registry δ) (name : String) (s : IdentifierSet δ) : Registry δ :=
  { cells := r.cells ++ [s], holders := r.holders.set name r.cells.length }

/-- The outcome of an operation on a set as the outcome of an operation on the registry. -/
def lift {α : Type} : Except SetError α → Except RegistryError α :=
  Except.mapError .set

/-- Change the set that a name holds. -/
def change (r : Registry δ) (name : String)
    (f : IdentifierSet δ → Except SetError (IdentifierSet δ)) :
    Except RegistryError (SetAnswer δ × Registry δ) := do
  let (cell, s) ← r.held name
  return (.done, r.write cell (← lift (f s)))

/-- Ask the set that a name holds. -/
def ask (r : Registry δ) (name : String) (f : IdentifierSet δ → Except SetError (SetAnswer δ)) :
    Except RegistryError (SetAnswer δ × Registry δ) := do
  let (_, s) ← r.held name
  return (← lift (f s), r)

/-- Move the entries of the set in one cell into the set in another one. Within one cell nothing
moves. -/
def unite (r : Registry δ) (cell other : Nat) (s o : IdentifierSet δ) :
    Except RegistryError (Registry δ) := do
  if cell = other then
    let _ ← lift s.use
    return r
  else
    -- The operand hands over what it holds and goes on as an empty set.
    let united ← lift (s.union o)
    return (r.write cell united).write other .empty

/-- What an operation answers and what it leaves, if it is not refused. -/
def perform (r : Registry δ) : SetOperation δ → Except RegistryError (SetAnswer δ × Registry δ)
  | .create name keys datum => do
    return (.done, r.add name (← lift (IdentifierSet.ofKeys keys datum)))
  | .insert name key datum => r.change name (·.insert key datum)
  | .put name key datum => r.change name (·.set key datum)
  | .find name key => r.ask name fun s => (s.find key).map .datum
  | .get name key fallback => r.ask name fun s => (s.get? key).map fun d => .datum (d.getD fallback)
  | .remove name key => r.change name (·.remove key)
  | .size name => r.ask name fun s => s.size.map .count
  | .keys name => r.ask name fun s => s.keys.map .names
  | .contains name key => r.ask name fun s => (s.contains key).map .truth
  | .isSubsetOf name other => do
    let (_, o) ← r.held other
    r.ask name fun s => (s.isSubsetOf o).map .truth
  | .union name other => do
    let (cell, s) ← r.held name
    let (otherCell, o) ← r.held other
    return (.done, ← r.unite cell otherCell s o)
  | .join name other target =>
    match r.held? name, r.held? other with
    | none, none => return (.joined false false, r.add target .empty)
    | none, some (cell, _) => return (.joined false true, r.hold target cell)
    | some (cell, _), none => return (.joined true false, r.hold target cell)
    | some (cell, s), some (otherCell, o) => do
      let united ← r.unite cell otherCell s o
      return (.joined true (decide (cell = otherCell)), united.hold target cell)
  | .clear name => r.change name (·.clear)
  | .free name => r.change name fun _ => .ok .freed
  | .equals name other => do
    let (_, s) ← r.held name
    match other with
    | .set holder =>
      match r.held? holder with
      | some (_, o) => return (.truth (s.sameKeys o.contents.keys), r)
      | none => return (.truth false, r)
    | .names names => return (.truth (s.sameKeys names), r)
    | .unrelated => return (.truth false, r)
  | .text name => r.ask name fun s => .ok (.text s.text)

/-- Do an operation: its answer, and the registry afterwards. -/
def step (r : Registry δ) (operation : SetOperation δ) :
    Except RegistryError (SetAnswer δ) × Registry δ :=
  match r.perform operation with
  | .ok (answer, after) => (.ok answer, after)
  | .error e => (.error e, r)

/-- An operation that is refused leaves the registry as it was. -/
theorem step_error {r : Registry δ} {operation : SetOperation δ} {e : RegistryError}
    (h : (r.step operation).1 = .error e) : (r.step operation).2 = r := by
  unfold step at h ⊢
  split at h <;> simp_all

end Registry
end PerfFormula
