import PerfFormula.Metric.Entry

/-!
# Tables from documents

A table of metrics is read from a list of entries, or from a mapping that holds such a list under
`metrics`. An empty document is the empty table. The first entry that is no metric, or whose name is
taken, is reported.
-/

namespace PerfFormula

/-- Why a document is no table of metrics. -/
inductive ContentError where
  /-- The document is neither a list nor a mapping but something of another kind. -/
  | notMetrics (kind : String)
  /-- What stands under `metrics` is no list. -/
  | notList
  /-- An item is no mapping. -/
  | notEntry (shown : String)
  /-- An item is no mapping, and too long to be shown. -/
  | tooLong
  | entry (error : EntryError)
  /-- Two metrics have the same name. -/
  | duplicate (name : String)
  deriving DecidableEq, Repr

namespace ContentError

/-- The report of an error. -/
def message : ContentError → String
  | notMetrics kind => "Invalid metric document: expected list or mapping, got " ++ kind
  | notList => "'metrics' must be a list"
  | notEntry shown => "Invalid metric specification: " ++ shown
  | tooLong => Decimal.tooLongText
  | entry e => e.message
  | duplicate name => "Duplicate metric '" ++ name ++ "'"

end ContentError

namespace MetricTable

/-- The items of a document that should be a table of metrics. -/
def itemsOf : Document → Except ContentError (List Document)
  | .null => .ok []
  | .list items => .ok items
  | .mapping entries =>
    match Document.find? entries "metrics" with
    | none => .ok []
    | some (.list items) => .ok items
    | some _ => .error .notList
  | d => .error (.notMetrics d.kind)

/-- Add the metric of an item. -/
def addItem (t : MetricTable) : Document → Except ContentError MetricTable
  | .mapping entries => do
    let m ← (Metric.ofEntries entries).mapError .entry
    (t.add m).mapError fun _ => .duplicate m.name
  | d =>
    match d.display? with
    | some shown => .error (.notEntry shown)
    | none => .error .tooLong

/-- The table of some items, added one after the other. -/
def ofItems (items : List Document) : Except ContentError MetricTable := items.foldlM addItem empty

/-- The table of a document. -/
def ofDocument (d : Document) : Except ContentError MetricTable := do ofItems (← itemsOf d)

end MetricTable
end PerfFormula
