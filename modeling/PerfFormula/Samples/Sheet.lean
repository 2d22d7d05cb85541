import PerfFormula.Libraries.Frames
import PerfFormula.Samples.Csv

/-!
# A library for plain frames

Frames as lists of rows. They are read from comma-separated values and written as such. A column
without a name is called after its place, and a name that was used before gets a number behind it.
The cells of a column are read alike: as truth values, as whole or real numbers, or as texts. Rows
that are longer than the header are refused.

Main definitions:

* `Sheet.readCsv`, `Sheet.toCsv` — frames are read and written.
* `FrameLibrary.plain` — plain frames as a library.
-/

namespace PerfFormula

/-- The label of a row or a column. -/
inductive Sheet.Label where
  | whole (n : Int)
  | real (x : Float)
  | text (s : String)
  deriving BEq

/-- Rows of cells under columns, each row with a label. -/
structure Sheet where
  /-- The name of the index, if it has one. -/
  indexName : Option String
  columns : List Sheet.Label
  rows : List (Sheet.Label × List Cell)

/-- Numbers, and their arrangement. -/
structure Grid where
  shape : List Nat
  values : List Float

namespace Sheet

open PerfFormula.Text

/-- The text of a label. -/
def Label.show : Label → String
  | .whole n => toString n
  | .real x => Decimal.text x
  | .text s => s

/-- The labels of rows that have none of their own: their numbers from zero. -/
def numbered (columns : List Label) (rows : List (List Cell)) : Sheet :=
  ⟨none, columns, rows.mapIdx fun i cells => (.whole i, cells)⟩

/-! ## Fields -/

/-- The words for a count that is missing. -/
def missingWords : List String := [
  "", "#N/A", "#N/A N/A", "#NA", "-1.#IND", "-1.#QNAN", "-NaN", "-nan", "1.#IND", "1.#QNAN", "<NA>",
  "N/A", "NA", "NULL", "NaN", "None", "n/a", "nan", "null"]

/-- The truth value that a field is. -/
def truthCell? (field : String) : Option Cell :=
  if field ∈ ["True", "TRUE", "true"] then some (.truth true)
  else if field ∈ ["False", "FALSE", "false"] then some (.truth false)
  else none

/-- A field without the spaces around it. -/
def trimField (field : String) : List Char := trimBy (fun c => c == ' ' || c == '\t') field.toList

/-- The whole number that a field is. -/
def wholeCell? (field : String) : Option Cell :=
  let (negative, digits) := Decimal.Numeral.sign (trimField field)
  if digits.isEmpty || !digits.all isDigit then none
  else
    let n : Int := if negative then -(natOfDigits digits : Int) else natOfDigits digits
    if fits : n.natAbs < UInt64.size then some (.whole n fits) else none

/-- The real number that a field is. -/
def realCell? (field : String) : Option Cell :=
  let (negative, unsigned) := Decimal.Numeral.sign (trimField field)
  let word := Decimal.lower unsigned
  let magnitude :=
    if word = "inf".toList ∨ word = "infinity".toList then some (1.0 / 0.0)
    else
      match Decimal.Numeral.scan unsigned with
      | (numeral, []) => if numeral.hasDigit then some numeral.toFloat else none
      | _ => none
  magnitude.map fun x => .real (if negative then -x else x)

/-- The cells of some fields, if each field is missing or is read in some way. -/
def cellsBy? (read? : String → Option Cell) (fields : List String) : Option (List Cell) :=
  fields.mapM fun field => if field ∈ missingWords then some .missing else read? field

/-- The cells of the fields of a column, all of which are read in the same way. -/
def cellsOf (fields : List String) : List Cell :=
  match fields.mapM wholeCell?, cellsBy? realCell? fields, cellsBy? truthCell? fields with
  | some cells, _, _ => cells
  | none, some cells, _ => cells
  | none, none, some cells => cells
  | none, none, none => fields.map fun field =>
    if field ∈ missingWords then .missing else .text field

/-- The label that a cell is. -/
def labelOf : Cell → Label
  | .missing => .real (0.0 / 0.0)
  | .truth b => .text (if b then "True" else "False")
  | .whole n _ => .whole n
  | .real x => .real x
  | .text s => .text s

/-! ## Reading -/

/-- A name with a number behind it that is not taken. The numbers below `tried` are given up. -/
def numberedName (taken : List String) (name : String) : (fuel tried : Nat) → String
  | 0, tried => name ++ "." ++ toString tried
  | fuel + 1, tried =>
    -- The number may have been used up by a name that already looked like this.
    let candidate := name ++ "." ++ toString tried
    if candidate ∈ taken then numberedName taken name fuel (tried + 1) else candidate

/-- The names of the columns of a header: one that was used before gets a number that makes it
differ from all names of the header and all names that were given. `used` are the names before, and
`given` what they became. -/
def distinctNames (header : List String) : (used given : List String) → List String → List String
  | _, _, [] => []
  | used, given, name :: rest =>
    let times := used.count name
    let taken := header ++ given
    let shown := if times = 0 then name else numberedName taken name taken.length times
    shown :: distinctNames header (name :: used) (shown :: given) rest

/-- The names of the columns that a header gives. -/
def columnNames (header : Csv.Record) : List String :=
  let named := header.mapIdx fun i name => if name = "" then "Unnamed: " ++ toString i else name
  distinctNames named [] [] named

/-- An error about a value that was given. -/
def refuse {α : Type} (name message : String) : Except LibraryError α :=
  .error ⟨name, true, message⟩

/-- A row with as many fields as there are columns: those that are left out are empty. -/
def fill (width : Nat) (r : Csv.Record) : Except LibraryError Csv.Record :=
  if width < r.length then
    refuse "ParserError" ("Error tokenizing data. C error: Expected " ++ toString width
      ++ " fields, saw " ++ toString r.length ++ "\n")
  else .ok (r ++ List.replicate (width - r.length) "")

/-- The rows of some columns. -/
def rowsOfColumns (count : Nat) (columns : List (List Cell)) : List (List Cell) :=
  (List.range count).map fun i => columns.map fun cells => (cells[i]?).getD .missing

/-- The frame of comma-separated values. -/
def readCsv (text : String) : Except LibraryError Sheet := do
  match Csv.read (String.ofList (FileTree.unifyLines text.toList)) with
  | [] => refuse "EmptyDataError" "No columns to parse from file"
  | header :: records =>
    let names := columnNames header
    let records ← records.mapM (fill names.length)
    -- The cells of a column are read together.
    let columns := (List.range names.length).map fun j =>
      cellsOf (records.map fun r => (r[j]?).getD "")
    return numbered (names.map .text) (rowsOfColumns records.length columns)

/-- A list without the element at a place. -/
def dropAt {α : Type} (place : Nat) (xs : List α) : List α := xs.take place ++ xs.drop (place + 1)

/-- The frame with a column as its index. -/
def setIndex (f : Sheet) (name : String) : Except LibraryError Sheet :=
  let place := f.columns.findIdx (· == .text name)
  if place < f.columns.length then
    .ok {
      indexName := some name
      columns := dropAt place f.columns
      rows := f.rows.map fun row =>
        (labelOf ((row.2[place]?).getD .missing), dropAt place row.2) }
  else .error ⟨"KeyError", false, Text.quote name⟩

/-! ## Arrays -/

/-- The array of some rows of numbers, which are of the same length. Without rows there is only one
dimension. -/
def array : List (List Float) → Except LibraryError Grid
  | [] => .ok ⟨[0], []⟩
  | row :: rest =>
    if rest.all fun r => r.length == row.length then
      .ok ⟨[rest.length + 1, row.length], (row :: rest).flatten⟩
    else refuse "ValueError" "setting an array element with a sequence."

/-- The array with the same numbers in so many rows and columns. -/
def reshape (a : Grid) (rows columns : Nat) : Except LibraryError Grid :=
  if a.values.length = rows * columns then .ok ⟨[rows, columns], a.values⟩
  else refuse "ValueError" "cannot reshape array"

/-- The frame of an array. -/
def ofArray (a : Grid) (index : Option String × List Label) (columns : List Label) :
    Except LibraryError Sheet :=
  if a.shape = [index.2.length, columns.length] then
    let rows := FrameLibrary.rowMajor columns.length index.2.length a.values
    .ok ⟨index.1, columns, index.2.zip (rows.map (·.map .real))⟩
  else refuse "ValueError" "Shape of passed values does not fit"

/-! ## Columns -/

/-- What a frame has under the label of a column. -/
def select (f : Sheet) (label : Label) : Except LibraryError (Selection (List Cell) Sheet) :=
  match f.columns.countP (· == label) with
  | 0 => .error ⟨"KeyError", false, label.show⟩
  | 1 =>
    let place := f.columns.findIdx (· == label)
    .ok (.series (f.rows.filterMap fun row => row.2[place]?))
  | _ =>
    -- Of each row the cells under the label are left.
    let rows := f.rows.map fun row =>
      (row.1, ((f.columns.zip row.2).filter (·.1 == label)).map (·.2))
    .ok (.frame ⟨f.indexName, f.columns.filter (· == label), rows⟩)

/-- Whether a cell is there. -/
def notMissing : Cell → Bool
  | .missing => false
  | .real x => !x.isNaN
  | _ => true

/-- Whether all of some cells are missing. -/
def allMissing (cells : List Cell) : Bool := cells.all fun cell => !notMissing cell

/-- For each column of a frame, whether all of its cells are missing. -/
def columnsMissing (f : Sheet) : List Cell :=
  f.columns.mapIdx fun j _ => .truth (allMissing (f.rows.filterMap fun row => row.2[j]?))

/-! ## Writing -/

/-- A value as a field: nothing if it is not a number. -/
def writeValue (x : Float) : String := if x.isNaN then "" else Decimal.text x

/-- A label as a field. -/
def writeLabel : Label → String
  | .whole n => toString n
  | .real x => writeValue x
  | .text s => s

/-- A cell as a field. -/
def writeCell (cell : Cell) : String := writeLabel (labelOf cell)

/-- A frame as rows of fields: the names first. -/
def records (f : Sheet) : List Csv.Record :=
  (f.indexName.getD "" :: f.columns.map writeLabel) ::
    f.rows.map fun row => writeLabel row.1 :: row.2.map writeCell

/-- A frame as comma-separated values, to be written at a path. The directory is checked before the
file. -/
def toCsv (files : FileTree) (f : Sheet) (path : String) : Except LibraryError String :=
  let p := Path.ofString path
  if !files.has p.parent then
    .error ⟨"OSError", false,
      "Cannot save file into a non-existent directory: '" ++ p.parent.text ++ "'"⟩
  else if files.hasDirectory p then
    .error ⟨"IsADirectoryError", false, "[Errno 21] Is a directory: " ++ Text.quote path⟩
  else .ok (Csv.write (records f))

end Sheet

/-- Plain frames as a library. -/
def FrameLibrary.plain : FrameLibrary where
  Frame := Sheet
  Series := List Cell
  Index := Option String × List Sheet.Label
  Label := Sheet.Label
  Array := Grid
  text := Sheet.Label.show
  label := .text
  readCsv := Sheet.readCsv
  columns := Sheet.columns
  hasColumn f name := f.columns.contains (.text name)
  setIndex := Sheet.setIndex
  index f := (f.indexName, f.rows.map (·.1))
  size index := index.2.length
  rows f := f.rows.map fun row => f.columns.zip row.2
  length f := f.rows.length
  notMissing := Sheet.notMissing
  array := Sheet.array
  reshape := Sheet.reshape
  shape := Grid.shape
  values := Grid.values
  frame := Sheet.ofArray
  select := Sheet.select
  allMissing := Sheet.allMissing
  columnsMissing := Sheet.columnsMissing
  truth _ := Sheet.refuse "ValueError"
    "The truth value of a Series is ambiguous. Use a.empty, a.bool(), a.item(), a.any() or a.all()."
  toCsv := Sheet.toCsv
  toText f := Csv.write (Sheet.records f)

end PerfFormula
