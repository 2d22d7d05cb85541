/-!
# Paths

A path as a root and the names on the way. Repeated separators and the name `.` do not matter and
are dropped; the name `..` is kept.
-/

namespace PerfFormula

/-- Where a path starts, and the names on the way. -/
structure Path where
  /-- Empty for a relative path, `/` for an absolute one; exactly two slashes stay two. -/
  root : String
  parts : List String
  deriving DecidableEq, Repr

namespace Path

/-- Read a path. -/
def ofString (s : String) : Path :=
  let cs := s.toList
  let slashes := (cs.takeWhile (· == '/')).length
  let root := if slashes = 0 then "" else if slashes = 2 then "//" else "/"
  let names := (cs.splitOnP (· == '/')).map String.ofList
  ⟨root, names.filter fun name => name ≠ "" ∧ name ≠ "."⟩

/-- The text of a path; the path without names is the current directory. -/
def text (p : Path) : String :=
  if p.root.isEmpty && p.parts.isEmpty then "." else p.root ++ "/".intercalate p.parts

/-- The last name of a path. -/
def name (p : Path) : String := p.parts.getLastD ""

/-- The path without its last name. -/
def parent (p : Path) : Path := { p with parts := p.parts.dropLast }

/-- The last point of the name and what follows it, if there is something before and behind that
point. -/
def suffix (p : Path) : String :=
  let cs := p.name.toList
  let tail := (cs.reverse.takeWhile (· ≠ '.')).reverse
  let stem := cs.take (cs.length - tail.length - 1)
  if '.' ∈ cs ∧ tail ≠ [] ∧ stem ≠ [] then String.ofList ('.' :: tail) else ""

end Path
end PerfFormula
