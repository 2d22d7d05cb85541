import PerfFormula.Decimal.Notation
import PerfFormula.Decimal.Reader

/-!
# Documents

The values that a metric file holds, whichever format it is written in: nothing, a truth value, a
whole or a real number, a text, a list, or a mapping. A mapping keeps its entries in the order in
which their keys were first written; a key that is written again replaces the value and keeps its
place.

A document is shown in messages and where a text is asked for, unless a whole number in it is too
long to be written.

Main statements:

* `Document.find?_put_self`, `Document.find?_put_of_ne` — writing an entry of a mapping changes what
  is found under its key and nothing else.
-/

namespace PerfFormula

/-- A value of a metric file. -/
inductive Document where
  | null
  | bool (value : Bool)
  | whole (value : Int)
  | real (value : Float)
  | text (value : String)
  | list (items : List Document)
  | mapping (entries : List (Document × Document))
  deriving BEq

namespace Document

/-! ## Mappings -/

/-- Whether two documents are the same key of a mapping. Numbers are compared by value, and the
truth values count as zero and one. -/
def sameKey : Document → Document → Bool
  | null, null => true
  | text a, text b => a == b
  | real a, real b => a == b
  | a, b =>
    match number? a, number? b with
    | some x, some y => x == y
    | _, _ => false
where
  /-- The value of a number, if it is a whole one. -/
  number? : Document → Option Int
    | bool b => some (if b then 1 else 0)
    | whole n => some n
    | real x => (whole? x)
    | _ => none
  /-- The whole number that a double is. -/
  whole? (x : Float) : Option Int :=
    match x.toModel.unpack with
    | .zero _ => some 0
    | .finite s m e _ =>
      if 0 ≤ e then some (s.apply (m <<< e.toNat))
      else if m % (1 <<< (-e).toNat) = 0 then some (s.apply (m >>> (-e).toNat))
      else none
    | _ => none

/-- The entries of a mapping after a value was written under a key. -/
def put (entries : List (Document × Document)) (key value : Document) :
    List (Document × Document) :=
  match entries with
  | [] => [(key, value)]
  | (k, v) :: rest => if sameKey k key then (k, value) :: rest else (k, v) :: put rest key value

/-- A mapping of entries in the order in which they are written. -/
def ofEntries (entries : List (Document × Document)) : Document :=
  mapping (entries.foldl (fun done entry => put done entry.1 entry.2) [])

/-- The value that stands under a name. -/
def find? (entries : List (Document × Document)) (name : String) : Option Document :=
  (entries.find? fun entry => sameKey entry.1 (text name)).map (·.2)

theorem sameKey_text (k : Document) (name : String) :
    sameKey k (text name) = true ↔ k = text name := by
  cases k <;> simp [sameKey, sameKey.number?]

theorem find?_put_self (entries : List (Document × Document)) (name : String) (value : Document) :
    find? (put entries (text name) value) name = some value := by
  induction entries with
  | nil => simp [put, find?, sameKey]
  | cons entry rest ih =>
    obtain ⟨k, v⟩ := entry
    by_cases h : sameKey k (text name) = true
    · simp [put, find?, h]
    · simp only [put, h, Bool.false_eq_true, if_false]
      simpa [find?, h] using ih

theorem find?_put_of_ne (entries : List (Document × Document)) {name other : String}
    (value : Document) (ne : name ≠ other) :
    find? (put entries (text name) value) other = find? entries other := by
  induction entries with
  | nil => simp [put, find?, sameKey, ne]
  | cons entry rest ih =>
    obtain ⟨k, v⟩ := entry
    by_cases h : sameKey k (text name) = true
    · have hk := (sameKey_text k name).1 h
      subst hk
      simp [put, find?, sameKey, ne]
    · simp only [put, h, Bool.false_eq_true, if_false]
      by_cases ho : sameKey k (text other) = true
      · simp [find?, ho]
      · simpa [find?, ho] using ih

/-! ## Documents in messages -/

mutual

/-- A document as it is shown inside another one: texts in quotes, lists in brackets, mappings in
braces. -/
def literal : Document → List Char
  | null => "None".toList
  | bool b => (if b then "True" else "False").toList
  | whole n => (toString n).toList
  | real x => Decimal.write Decimal.plain x
  | text s => Text.quoteChars s.toList
  | list items => '[' :: literalItems items ++ [']']
  | mapping entries => '\x7b' :: literalEntries entries ++ ['\x7d']

/-- The items of a list, separated by commas. -/
def literalItems : List Document → List Char
  | [] => []
  | [item] => literal item
  | item :: rest => literal item ++ ',' :: ' ' :: literalItems rest

/-- The entries of a mapping, separated by commas. -/
def literalEntries : List (Document × Document) → List Char
  | [] => []
  | [(key, value)] => literal key ++ ':' :: ' ' :: literal value
  | (key, value) :: rest =>
    literal key ++ ':' :: ' ' :: literal value ++ ',' :: ' ' :: literalEntries rest

end

mutual

/-- Whether all whole numbers in a document are short enough to be written. -/
def isShort : Document → Bool
  | whole n => (Decimal.writeNat? n.natAbs).isSome
  | list items => areShort items
  | mapping entries => entriesAreShort entries
  | _ => true

/-- Whether all items of a list can be written. -/
def areShort : List Document → Bool
  | [] => true
  | item :: rest => isShort item && areShort rest

/-- Whether all entries of a mapping can be written. -/
def entriesAreShort : List (Document × Document) → Bool
  | [] => true
  | (key, value) :: rest => isShort key && isShort value && entriesAreShort rest

end

/-- A document as it is shown by itself, if it can be written: a text stands for itself. -/
def display? : Document → Option String
  | text s => some s
  | d => if d.isShort then some (String.ofList d.literal) else none

/-- Whether a document counts as left out: nothing, false, zero, or empty. -/
def isBlank : Document → Bool
  | null => true
  | bool b => !b
  | whole n => n == 0
  | real x => x == 0.0
  | text s => s.isEmpty
  | list items => items.isEmpty
  | mapping entries => entries.isEmpty

/-- The word for the kind of a document in messages. -/
def kind : Document → String
  | null => "NoneType"
  | bool _ => "bool"
  | whole _ => "int"
  | real _ => "float"
  | text _ => "str"
  | list _ => "list"
  | mapping _ => "dict"

end Document
end PerfFormula
