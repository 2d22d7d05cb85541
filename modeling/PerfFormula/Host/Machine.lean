import PerfFormula.Host.Basic
import PerfFormula.Host.CpuList
import PerfFormula.Files.Tree

/-!
# Machines

A machine answers host literals from the tree of files that its kernel shows about the processors.
Whether multithreading is active is read from `smt/active`; where that file is missing or malformed,
it is active if some processor has more than one thread sibling. That answer is found once and kept;
the processors online are counted anew for every question, and where their list is missing or
malformed, all processors count.

Main definitions:

* `Machine.answers` — what a machine answers to host literals.
* `Machine.afterAsking` — the machine after some host literals were asked for.
-/

namespace PerfFormula

/-- A machine: how many processors it reports, if it reports any, and the answer to `#smt_on` once
it is known. -/
structure Machine where
  reported : Option Int
  smt : Option Bool

namespace Machine

/-- A machine that was not asked yet. -/
def new (reported : Option Int) : Machine := ⟨reported, none⟩

/-- The file that says whether multithreading is active. -/
def activeFile : Path := .ofString "smt/active"

/-- The list of the processors online. -/
def onlineFile : Path := .ofString "online"

/-- Whether a path is the list of the thread siblings of a processor. -/
def isSiblingsFile (key : String) : Bool :=
  match (key.toList.splitOnP (· == '/')).map String.ofList with
  | [cpu, "topology", "thread_siblings_list"] =>
    match cpu.toList with
    | 'c' :: 'p' :: 'u' :: d :: _ => Text.isDigit d
    | _ => false
  | _ => false

/-- The content of `smt/active`: active unless zero; `none` if it is missing or malformed. -/
def readActive (tree : FileTree) : Option Bool :=
  match tree.read activeFile with
  | .error _ => none
  | .ok text => (Decimal.readWhole? (Text.strip text)).map (· ≠ 0)

/-- Whether some processor has more than one thread sibling. Malformed lists do not count. -/
def hasSiblings (tree : FileTree) : Bool :=
  tree.files.entries.any fun entry =>
    isSiblingsFile entry.1 &&
      match CpuList.count entry.2 with
      | .ok n => n > 1
      | .error _ => false

/-- Whether multithreading is active, read from the files. -/
def readSmt (tree : FileTree) : Bool := (readActive tree).getD (hasSiblings tree)

/-- Whether multithreading is active: as it was found before, else as the files say. -/
def smtOn (m : Machine) (tree : FileTree) : Bool := m.smt.getD (readSmt tree)

/-- The machine after it was asked whether multithreading is active. -/
def afterSmtOn (m : Machine) (tree : FileTree) : Machine := { m with smt := some (m.smtOn tree) }

/-- How many processors there are: as many as reported, else one. -/
def cpus (m : Machine) : Int :=
  match m.reported with
  | none => 1
  | some n => if n = 0 then 1 else n

/-- How many processors are online. -/
def cpusOnline (m : Machine) (tree : FileTree) : Int :=
  match tree.read onlineFile with
  | .error _ => m.cpus
  | .ok text =>
    match CpuList.count text with
    | .ok n => n
    | .error _ => m.cpus

/-- The answers of a machine while its files stay as they are. -/
def answers (m : Machine) (tree : FileTree) : HostLiteral → Float
  | .smtOn => ofBool (m.smtOn tree)
  | .cpus => ofWhole m.cpus
  | .cpusOnline => ofWhole (m.cpusOnline tree)

/-- The machine after some host literals were asked. -/
def afterAsking (m : Machine) (tree : FileTree) (asked : List HostLiteral) : Machine :=
  if .smtOn ∈ asked then m.afterSmtOn tree else m

end Machine
end PerfFormula
