import PerfFormula.Libraries.Frames

/-!
# Counts

Counts are read from a file of comma-separated values with one row per sample and one column per
event. A column called `interval`, `time` or `period`, in this order of preference, labels the rows.

Main statements:

* `Counts.ofFile_absent` — a file that is not there is reported as such.
-/

namespace PerfFormula

/-- Why there are no counts. -/
inductive CountsError where
  | absent (path : Path)
  /-- The path leads to a directory. -/
  | directory (path : Path)
  | library (error : LibraryError)

namespace CountsError

/-- The report of an error. -/
def message : CountsError → String
  | absent p => "Counts file not found: " ++ p.text
  | directory p => "[Errno 21] Is a directory: " ++ Text.quote p.text
  | library e => e.message

end CountsError

namespace Counts

/-- The names of the columns that can label the rows, the preferred one first. -/
def indexNames : List String := ["interval", "time", "period"]

/-- The counts of a text. -/
def ofText (lib : FrameLibrary) (text : String) : Except LibraryError lib.Frame := do
  let f ← lib.readCsv text
  match indexNames.find? (lib.hasColumn f) with
  | some name => lib.setIndex f name
  | none => return f

/-- The counts of a file. -/
def ofFile (lib : FrameLibrary) (files : FileTree) (path : Path) : Except CountsError lib.Frame :=
  if files.has path then
    match files.readRaw path with
    | .ok text => (ofText lib text).mapError .library
    | .error _ => .error (.directory path)
  else .error (.absent path)

/-- A file that is not there is reported as such. -/
theorem ofFile_absent {files : FileTree} {path : Path} (h : files.has path = false)
    (lib : FrameLibrary) : ofFile lib files path = .error (.absent path) := by
  simp [ofFile, h]

end Counts
end PerfFormula
