import PerfFormula.Names.NameMap
import PerfFormula.Text.Quoted

/-!
# Identifier sets

A set of identifiers, each with a datum, that its owner may free. A freed set holds nothing, and
almost every further use of it is an error. Three uses do not look at whether a set was freed: its
equality, its text, and freeing it again.

Main definitions:

* `IdentifierSet` — a set that is live or freed.
* `SetError` — why an operation is refused.
-/

namespace PerfFormula

/-- Why an operation on an identifier set is refused. -/
inductive SetError where
  | usedAfterFree
  | duplicate (key : String)
  | missing (key : String)
  deriving DecidableEq, Repr

namespace SetError

/-- The report of a refused operation. -/
def message : SetError → String
  | usedAfterFree => "IdsSet used after free()"
  | duplicate key => "Key '" ++ key ++ "' already present"
  | missing key => Text.quote key

end SetError

/-- Identifiers with a datum each, or the rest of a set that was freed. -/
inductive IdentifierSet (δ : Type) where
  | live (entries : NameMap δ)
  | freed

namespace IdentifierSet

variable {δ : Type}

/-- The set without identifiers. -/
def empty : IdentifierSet δ := live .empty

instance : Inhabited (IdentifierSet δ) := ⟨empty⟩

/-- The entries of a set that may be used. -/
def use : IdentifierSet δ → Except SetError (NameMap δ)
  | live m => .ok m
  | freed => .error .usedAfterFree

/-- The entries of a set, none if it was freed. -/
def contents : IdentifierSet δ → NameMap δ
  | live m => m
  | freed => .empty

/-- Add a new identifier. -/
def insert (s : IdentifierSet δ) (key : String) (datum : δ) :
    Except SetError (IdentifierSet δ) := do
  let m ← s.use
  if m.contains key then .error (.duplicate key) else .ok (live (m.set key datum))

/-- The set of some identifiers, which have to differ, with one datum for all. -/
def ofKeys (keys : List String) (datum : δ) : Except SetError (IdentifierSet δ) :=
  keys.foldlM (fun s key => s.insert key datum) empty

/-- Add an identifier or replace its datum. -/
def set (s : IdentifierSet δ) (key : String) (datum : δ) : Except SetError (IdentifierSet δ) := do
  let m ← s.use
  return live (m.set key datum)

/-- The datum of an identifier that is present. -/
def find (s : IdentifierSet δ) (key : String) : Except SetError δ := do
  let m ← s.use
  match m.find? key with
  | some datum => .ok datum
  | none => .error (.missing key)

/-- The datum of an identifier, if it is present. -/
def get? (s : IdentifierSet δ) (key : String) : Except SetError (Option δ) := do
  let m ← s.use
  return m.find? key

/-- Whether an identifier is present. -/
def contains (s : IdentifierSet δ) (key : String) : Except SetError Bool := do
  let m ← s.use
  return m.contains key

/-- Drop an identifier, if it is present. -/
def remove (s : IdentifierSet δ) (key : String) : Except SetError (IdentifierSet δ) := do
  let m ← s.use
  return live (m.erase key)

/-- How many identifiers there are. -/
def size (s : IdentifierSet δ) : Except SetError Nat := do
  let m ← s.use
  return m.size

/-- The identifiers, in order. -/
def keys (s : IdentifierSet δ) : Except SetError (List String) := do
  let m ← s.use
  return m.keys

/-- Whether every identifier is one of another set. The other set is looked at only if there is an
identifier to look for. -/
def isSubsetOf (s other : IdentifierSet δ) : Except SetError Bool := do
  let m ← s.use
  if m.size = 0 then return true
  else
    let o ← other.use
    return m.keys.all o.contains

/-- The entries of a set, then those of another one under new identifiers. -/
def union (s other : IdentifierSet δ) : Except SetError (IdentifierSet δ) := do
  let m ← s.use
  let o ← other.use
  return live (m.merge o)

/-- Drop every identifier. -/
def clear (s : IdentifierSet δ) : Except SetError (IdentifierSet δ) := do
  let _ ← s.use
  return empty

/-- Whether two sets have the same identifiers, whatever their data and whether or not they were
freed. -/
def sameKeys (s : IdentifierSet δ) (names : List String) : Bool :=
  s.contents.keys.all (· ∈ names) && names.all (· ∈ s.contents.keys)

/-- The text of a set: its identifiers in increasing order. -/
def text : IdentifierSet δ → String
  | live m =>
    let sorted := m.keys.mergeSort (· ≤ ·)
    "IdsSet([" ++ ", ".intercalate (sorted.map Text.quote) ++ "])"
  | freed => "IdsSet(<freed>)"

end IdentifierSet
end PerfFormula
