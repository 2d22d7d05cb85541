import PerfFormula.Decimal.Reader
import PerfFormula.Files.Tree
import PerfFormula.Formula.Arithmetic
import PerfFormula.Libraries.Basic

/-!
# Libraries for frames of values

A frame has rows of cells under columns, and an index that labels the rows. Frames, and the arrays
of numbers that they are made of, are left to a library. A cell is known by its value, the rest by
what the library tells of it.

Main definitions:

* `FrameLibrary` — what a library does.
* `FrameLibrary.Laws` — what is relied on.
-/

namespace PerfFormula

/-! ## Cells -/

/-- The value of a cell. A whole number has at most 64 bits. -/
inductive Cell where
  | missing
  | truth (value : Bool)
  | whole (value : Int) (fits : value.natAbs < UInt64.size)
  | real (value : Float)
  | text (value : String)

/-- The number that a cell stands for, or why it stands for none: a text is read as one. -/
def Cell.number : Cell → Except Decimal.NumberError Float
  | missing => .ok (0.0 / 0.0)
  | truth b => .ok (ofBool b)
  | whole n _ => .ok (ofWhole n)
  | real x => .ok x
  | text s => Decimal.readReal s

/-! ## Libraries -/

/-- What is selected of a frame by the label of a column: the column, or, if there are several, the
frame of them. -/
inductive Selection (Series Frame : Type) where
  | series (column : Series)
  | frame (columns : Frame)

/-- A library for frames and arrays. -/
structure FrameLibrary where
  Frame : Type
  /-- Columns, and rows of what is said of columns. -/
  Series : Type
  /-- What labels the rows of a frame. -/
  Index : Type
  /-- What labels a column. -/
  Label : Type
  /-- Numbers, arranged in one dimension or more. -/
  Array : Type
  /-- The text of a label. -/
  text : Label → String
  /-- The label that a text is. -/
  label : String → Label
  /-- The frame of comma-separated values. -/
  readCsv : String → Except LibraryError Frame
  /-- The labels of the columns, in order. -/
  columns : Frame → List Label
  /-- Whether there is a column of a name. -/
  hasColumn : Frame → String → Bool
  /-- The frame with a column as its index. -/
  setIndex : Frame → String → Except LibraryError Frame
  index : Frame → Index
  /-- The number of labels of an index. -/
  size : Index → Nat
  /-- The rows, one after the other: the cells with the labels of their columns. -/
  rows : Frame → List (List (Label × Cell))
  /-- The number of rows. -/
  length : Frame → Nat
  /-- Whether a cell is there. -/
  notMissing : Cell → Bool
  /-- The array of some rows of numbers. -/
  array : List (List Float) → Except LibraryError Array
  /-- The array with the same numbers in so many rows and columns. -/
  reshape : Array → (rows columns : Nat) → Except LibraryError Array
  /-- The lengths of an array in its dimensions. -/
  shape : Array → List Nat
  /-- The numbers of an array, row by row. -/
  values : Array → List Float
  /-- The frame of an array, with an index and columns. -/
  frame : Array → Index → List Label → Except LibraryError Frame
  /-- What a frame has under the label of a column. -/
  select : Frame → Label → Except LibraryError (Selection Series Frame)
  /-- Whether all cells of a column are missing. -/
  allMissing : Series → Bool
  /-- For each column of a frame, whether all of its cells are missing. -/
  columnsMissing : Frame → Series
  /-- The truth value of what is said of several columns. -/
  truth : Series → Except LibraryError Bool
  /-- A frame as comma-separated values to be written at a path, among the files that there are. -/
  toCsv : FileTree → Frame → (path : String) → Except LibraryError String
  /-- A frame as a text to be printed. -/
  toText : Frame → String

namespace FrameLibrary

/-- The first rows of a width, of numbers that stand row by row. -/
def rowMajor {α : Type} (width : Nat) : (rows : Nat) → List α → List (List α)
  | 0, _ => []
  | rows + 1, xs => xs.take width :: rowMajor width rows (xs.drop width)

theorem length_rowMajor {α : Type} (width rows : Nat) (xs : List α) :
    (rowMajor width rows xs).length = rows := by
  induction rows generalizing xs with
  | zero => rfl
  | succ rows ih => rw [rowMajor, List.length_cons, ih]

/-- Rows that are put one behind the other are restored. -/
theorem rowMajor_flatten {α : Type} {width : Nat} {rows : List (List α)}
    (even : ∀ row ∈ rows, row.length = width) :
    rowMajor width rows.length rows.flatten = rows := by
  induction rows with
  | nil => rfl
  | cons row rest ih =>
    have first : row.length = width := even row List.mem_cons_self
    rw [List.length_cons, rowMajor, List.flatten_cons, List.take_left' first,
      List.drop_left' first, ih fun r mem => even r (List.mem_cons_of_mem row mem)]

/-- What is relied on of a library. -/
structure Laws (lib : FrameLibrary) : Prop where
  /-- A label that is a text has it as its text. -/
  text_label : ∀ s, lib.text (lib.label s) = s
  /-- A number is there if it is a number. -/
  notMissing_real : ∀ x, lib.notMissing (.real x) = !x.isNaN
  notMissing_missing : lib.notMissing .missing = false
  /-- There is a label for each row. -/
  size_index : ∀ f, lib.size (lib.index f) = (lib.rows f).length
  length_eq : ∀ f, lib.length f = (lib.rows f).length
  /-- Rows of the same length make an array. -/
  array_of_even : ∀ rows width, (∀ row ∈ rows, row.length = width) →
    ∃ a, lib.array rows = .ok a ∧ lib.values a = rows.flatten
  /-- An array can be arranged anew in as many places as it has numbers; these keep their order. -/
  reshape_of_length : ∀ a rows columns, (lib.values a).length = rows * columns →
    ∃ b, lib.reshape a rows columns = .ok b ∧ lib.shape b = [rows, columns] ∧
      lib.values b = lib.values a
  /-- An array of two dimensions makes a frame if the index and the columns are as long. -/
  frame_of_shape : ∀ a index columns, lib.shape a = [lib.size index, columns.length] →
    ∃ f, lib.frame a index columns = .ok f ∧ lib.index f = index ∧ lib.columns f = columns ∧
      lib.rows f = (rowMajor columns.length (lib.size index) (lib.values a)).map fun row =>
        columns.zip (row.map .real)
  /-- A column that is the only one of its name is selected as such. -/
  select_once : ∀ f (names : List String), lib.columns f = names.map lib.label → ∀ name,
    names.count name = 1 → ∃ column, lib.select f (lib.label name) = .ok (.series column)
  /-- Columns that share a name are selected together. -/
  select_several : ∀ f (names : List String), lib.columns f = names.map lib.label → ∀ name,
    1 < names.count name → ∃ columns, lib.select f (lib.label name) = .ok (.frame columns)
  /-- What is said of several columns is neither true nor false. -/
  truth_error : ∀ s, ∃ e, lib.truth s = .error e
  /-- A frame can be written where there is a directory for it and not one in its place. -/
  toCsv_of_free : ∀ (files : FileTree) f path, files.has (Path.ofString path).parent = true →
    files.hasDirectory (.ofString path) = false → ∃ text, lib.toCsv files f path = .ok text

end FrameLibrary
end PerfFormula
