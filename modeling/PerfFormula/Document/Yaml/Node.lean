import PerfFormula.Document.Yaml.Implicit

/-!
# Nodes of YAML

The parts of a document before its scalars are valued. A mapping takes in the entries of the
mappings that stand under the mark of merging, in front of its own. A node has a value if all its
scalars have one and no key is a list or a mapping; otherwise the fault that is reported is the one
at the least depth, and the first of several at one depth.

Main statements:

* `Yaml.Node.value_eq_ok` — a node without a fault has the value of its parts.
-/

namespace PerfFormula
namespace Yaml

/-- A part of a document. -/
inductive Node where
  /-- A scalar, plain or not. -/
  | scalar (text : List Char) (plain : Bool)
  | list (items : List Node)
  | mapping (entries : List (Node × Node))
  /-- A mapping that should take in what is no mapping. -/
  | unmergeable

namespace Node

/-- What stands where nothing is written. -/
def empty : Node := .scalar [] true

/-! ## Mappings -/

/-- Whether a key is the mark of merging. -/
def isMerge : Node → Bool
  | .scalar text plain => plain && text == mergeMark
  | _ => false

/-- A node as a key. The mark of a default value is a text there. -/
def asKey : Node → Node
  | .scalar text plain => .scalar text (plain && text != defaultMark)
  | n => n

/-- The entries of a mapping. -/
def entries? : Node → Option (List (Node × Node))
  | .mapping entries => some entries
  | _ => none

/-- The entries that a mapping takes in from what stands under the mark of merging: a mapping, or a
list of them, of which the last comes first. -/
def merged? : Node → Option (List (Node × Node))
  | .list items => (items.mapM entries?).map fun parts => parts.reverse.flatten
  | n => n.entries?

/-- The mapping of some entries, those under the mark of merging included. -/
def ofEntries (entries : List (Node × Node)) : Node :=
  let (merges, own) := entries.partition fun entry => entry.1.isMerge
  match merges.mapM fun entry => entry.2.merged? with
  | some taken => .mapping (taken.flatten ++ own.map fun entry => (entry.1.asKey, entry.2))
  | none => .unmergeable

/-! ## Faults -/

/-- The value of a scalar. -/
def scalarValue (text : List Char) (plain : Bool) : Except Error Document :=
  if plain then plainValue text else .ok (.text (.ofList text))

/-- What is wrong with a scalar. -/
def scalarFault? : Node → Option Error
  | .scalar text plain =>
    match scalarValue text plain with
    | .ok _ => none
    | .error e => some e
  | _ => none

/-- What is wrong with a key: it has to be a scalar. -/
def keyFault? : Node → Option Error
  | .scalar text plain => scalarFault? (.scalar text plain)
  | _ => some .malformed

/-- Two lists of layers, one beside the other. -/
def beside {α : Type} : List (List α) → List (List α) → List (List α)
  | [], right => right
  | left, [] => left
  | a :: left, b :: right => (a ++ b) :: beside left right

mutual

/-- The faults inside a node by their depth. -/
def faults : Node → List (List Error)
  | .scalar _ _ => []
  | .list items => items.filterMap scalarFault? :: itemFaults items
  | .mapping entries =>
    (entries.flatMap fun entry => entry.1.keyFault?.toList ++ entry.2.scalarFault?.toList)
      :: entryFaults entries
  | .unmergeable => [[.malformed]]

/-- The faults inside some items by their depth. -/
def itemFaults : List Node → List (List Error)
  | [] => []
  | item :: rest => beside (faults item) (itemFaults rest)

/-- The faults inside the values of some entries by their depth. -/
def entryFaults : List (Node × Node) → List (List Error)
  | [] => []
  | (_, value) :: rest => beside (faults value) (entryFaults rest)

end

/-- What is wrong with a node. -/
def fault? (n : Node) : Option Error := n.scalarFault?.or n.faults.flatten.head?

/-! ## Values -/

mutual

/-- The document of a node without a fault. -/
def document : Node → Document
  | .scalar text plain => (scalarValue text plain).toOption.getD .null
  | .list items => .list (documents items)
  | .mapping entries => .ofEntries (entryDocuments entries)
  | .unmergeable => .null

/-- The documents of some items. -/
def documents : List Node → List Document
  | [] => []
  | item :: rest => document item :: documents rest

/-- The documents of some entries. -/
def entryDocuments : List (Node × Node) → List (Document × Document)
  | [] => []
  | (key, value) :: rest => (document key, document value) :: entryDocuments rest

end

/-- The value of a node. -/
def value (n : Node) : Except Error Document :=
  match n.fault? with
  | some e => .error e
  | none => .ok n.document

/-- A node without a fault has the value of its parts. -/
theorem value_eq_ok {n : Node} (h : n.fault? = none) : n.value = .ok n.document := by
  rw [value, h]

end Node
end Yaml
end PerfFormula
