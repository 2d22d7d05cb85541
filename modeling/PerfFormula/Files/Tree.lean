import PerfFormula.Files.Path
import PerfFormula.Names.NameMap

/-!
# File trees

The text files that can be read, by path. A directory exists as soon as there is a file below it;
the current directory always exists.

Main statements:

* `FileTree.readRaw_write` — a file that was written is read back.
-/

namespace PerfFormula

/-- Text files by path. -/
structure FileTree where
  files : NameMap String

/-- Why a file cannot be read. -/
inductive FileError where
  /-- There is nothing at the path. -/
  | absent
  /-- There is a directory at the path. -/
  | directory
  deriving DecidableEq, Repr

namespace FileTree

/-- The tree without files. -/
def empty : FileTree := ⟨.empty⟩

/-- The names that lead from the root of a path to what it points at: `..` leads back out of the
directory before it. -/
def resolve (p : Path) : List String :=
  (p.parts.foldl (fun done name =>
    -- Names that lead out of the starting directory are kept.
    match name, done with
    | "..", _ :: outer => if done.head? = some ".." then ".." :: done else outer
    | _, _ => name :: done) []).reverse

/-- The key under which a tree keeps the file of a path. -/
def key (p : Path) : String := p.root ++ "/".intercalate (resolve p)

/-- Whether there are files below a directory. -/
def hasDirectory (t : FileTree) (p : Path) : Bool :=
  let inside := key p ++ "/"
  (resolve p).isEmpty || t.files.keys.any fun k => inside.isPrefixOf k

/-- Whether there is anything at a path. -/
def has (t : FileTree) (p : Path) : Bool := t.files.contains (key p) || t.hasDirectory p

/-- Write a file. -/
def write (t : FileTree) (p : Path) (text : String) : FileTree := ⟨t.files.set (key p) text⟩

/-- Remove a file. -/
def remove (t : FileTree) (p : Path) : FileTree := ⟨t.files.erase (key p)⟩

/-- Every line break as a line feed: a carriage return alone or before a line feed is one, too. -/
def unifyLines : List Char → List Char
  | '\r' :: '\n' :: cs => '\n' :: unifyLines cs
  | '\r' :: cs => '\n' :: unifyLines cs
  | c :: cs => c :: unifyLines cs
  | [] => []

/-- The characters of a file as they are. -/
def readRaw (t : FileTree) (p : Path) : Except FileError String :=
  match t.files.find? (key p) with
  | some text => .ok text
  | none => .error (if t.hasDirectory p then .directory else .absent)

/-- The lines of a file as one text. -/
def read (t : FileTree) (p : Path) : Except FileError String :=
  (t.readRaw p).map fun text => String.ofList (unifyLines text.toList)

/-- A file that was written is read back. -/
theorem readRaw_write (t : FileTree) (p : Path) (text : String) :
    (t.write p text).readRaw p = .ok text := by
  simp [readRaw, write, NameMap.find?_set]

end FileTree
end PerfFormula
