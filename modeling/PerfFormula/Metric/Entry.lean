import PerfFormula.Document.Basic
import PerfFormula.Metric.Table

/-!
# Entries of metrics

A metric in a document is a mapping with one entry for each of its fields. The keys are those of one
of two spellings: the library's own, or the one of the event lists that processor vendors publish.
Both may be mixed; where both are there, the library's own counts. Writing leaves out fields that
are empty.

Main statements:

* `Metric.find?_toEntries_name`, `Metric.find?_toEntries_source` — a written entry has the name and
  the formula under the keys of its spelling.
-/

namespace PerfFormula

/-- The keys of the fields of a metric, and whether its groups are written as one text. -/
structure Spelling where
  name : String
  source : String
  groups : String
  description : String
  scaleUnit : String
  joined : Bool
  deriving DecidableEq, Repr

namespace Spelling

/-- The library's own spelling, in which groups are a list. -/
def plain : Spelling := ⟨"name", "expr", "groups", "description", "scale_unit", false⟩

/-- The spelling of event lists, in which groups are one text. -/
def eventList : Spelling :=
  ⟨"MetricName", "MetricExpr", "MetricGroup", "BriefDescription", "ScaleUnit", true⟩

end Spelling

/-- Why a mapping is no metric. -/
inductive EntryError where
  | missingName
  | missingFormula (name : String)
  /-- The groups are of a kind that holds no texts. -/
  | groups (kind : String)
  /-- A field holds a whole number that is too long to be written. -/
  | tooLong
  | metric (error : MetricError)
  deriving DecidableEq, Repr

namespace EntryError

/-- The report of an error. -/
def message : EntryError → String
  | missingName => "Metric dict must include 'name'"
  | missingFormula name => "Metric '" ++ name ++ "' must include 'expr'"
  | groups kind => "'" ++ kind ++ "' object is not iterable"
  | tooLong => Decimal.tooLongText
  | metric e => e.message

end EntryError

namespace Metric

open PerfFormula.Text

/-! ## Reading -/

/-- The value under the first of some keys that is there; a key whose value is nothing is there. -/
def field (entries : List (Document × Document)) (keys : List String) : Document :=
  (keys.findSome? (Document.find? entries)).getD .null

/-- A field as a text. -/
def textOf (d : Document) : Except EntryError String :=
  match d.display? with
  | some s => .ok s
  | none => .error .tooLong

/-- The groups that a document names. -/
def groupsOf : Document → Except EntryError (List String)
  | .null => .ok []
  | .text s => .ok (splitGroups s)
  | .list items => (items.mapM textOf).map trimGroups
  | .mapping entries => (entries.mapM fun entry => textOf entry.1).map trimGroups
  | d => .error (.groups d.kind)

/-- A text that may be left out. -/
def optionalText (d : Document) : Except EntryError String :=
  if d.isBlank then .ok "" else textOf d

/-- The metric of a mapping. -/
def ofEntries (entries : List (Document × Document)) : Except EntryError Metric := do
  let own := Spelling.plain
  let other := Spelling.eventList
  let name := field entries [own.name, other.name]
  let source := field entries [own.source, other.source, "formula"]
  if name matches .null then throw .missingName
  if source matches .null then throw (.missingFormula (← textOf name))
  let nameText ← textOf name
  let sourceText ← textOf source
  let groups ← groupsOf (field entries [own.groups, other.groups])
  let description ← optionalText (field entries [own.description, other.description])
  let scaleText ← optionalText (field entries [own.scaleUnit, other.scaleUnit])
  (make nameText sourceText groups description scaleText).mapError .metric

/-! ## Writing -/

/-- The entry of a field, unless the field is empty. -/
def entryUnless (empty : Bool) (key : String) (value : Document) : List (Document × Document) :=
  if empty then [] else [(.text key, value)]

/-- The groups of a metric as a document. -/
def groupsDocument (spelling : Spelling) (groups : List String) : Document :=
  if spelling.joined then .text (";".intercalate groups) else .list (groups.map .text)

/-- The mapping of a metric. -/
def toEntries (spelling : Spelling) (m : Metric) : List (Document × Document) :=
  (.text spelling.name, .text m.name) :: (.text spelling.source, .text m.source) ::
    entryUnless m.groups.isEmpty spelling.groups (groupsDocument spelling m.groups) ++
    entryUnless m.description.isEmpty spelling.description (.text m.description) ++
    entryUnless m.scaleText.isEmpty spelling.scaleUnit (.text m.scaleText)

/-- The names of the fields of a metric. -/
def fieldNames (spelling : Spelling) : List String :=
  [spelling.name, spelling.source, spelling.groups, spelling.description, spelling.scaleUnit]

/-- The document of a metric. -/
def toDocument (spelling : Spelling) (m : Metric) : Document := .mapping (m.toEntries spelling)

theorem find?_toEntries_name (spelling : Spelling) (m : Metric) :
    Document.find? (m.toEntries spelling) spelling.name = some (.text m.name) := by
  simp [toEntries, Document.find?, Document.sameKey]

theorem find?_toEntries_source {spelling : Spelling} (h : spelling.name ≠ spelling.source)
    (m : Metric) :
    Document.find? (m.toEntries spelling) spelling.source = some (.text m.source) := by
  simp [toEntries, Document.find?, Document.sameKey, h]

end Metric

namespace MetricTable

/-- The documents of the metrics of a table, in order. -/
def toDocument (spelling : Spelling) (t : MetricTable) : Document :=
  .list (t.metrics.map (·.toDocument spelling))

/-! ## Lists of entries -/

/-- Why a list of entries makes no table. -/
inductive ListError where
  | entry (error : EntryError)
  | table (error : TableError)

/-- The report of an error. -/
def ListError.message : ListError → String
  | entry e => e.message
  | table e => e.message

/-- The entries of the metrics of a table, in order. -/
def toList (t : MetricTable) : List (List (Document × Document)) :=
  t.metrics.map (·.toEntries .plain)

/-- The table of the metrics of some entries, each of which is read and added before the next. -/
def ofList (list : List (List (Document × Document))) : Except ListError MetricTable :=
  list.foldlM (fun t entries => do
    let m ← (Metric.ofEntries entries).mapError .entry
    (t.add m).mapError .table) empty

/-- The entries of a table as a document. -/
theorem list_toList (t : MetricTable) :
    Document.list (t.toList.map .mapping) = t.toDocument .plain := by
  rw [toList, List.map_map]
  rfl

end MetricTable
end PerfFormula
