import PerfFormula.CommandLine.Run
import PerfFormula.Document.Yaml.Library
import PerfFormula.Samples.Sheet

/-!
# The program

Reads the files that a command names and what the machine shows about its processors, does the
command, and prints and writes what it leaves behind.
-/

namespace PerfFormula

/-- The text of a file, if it can be read. -/
def fileText? (path : String) : IO (Option String) := do
  try
    return some (← IO.FS.readFile path)
  catch _ => return none

/-- The paths that a command reads. -/
def Command.paths : Command → List String
  | .eval _ _ _ | .ids _ _ _ => []
  | .events metrics _ _ => [metrics]
  | .compute metrics counts _ _ _ => [metrics, counts]
  | .info metrics => [metrics]

/-- A tree of the files that can be read among those of some paths below a directory. -/
def readTree (directory : String) (paths : List String) : IO FileTree := do
  let mut tree := FileTree.empty
  for path in paths do
    match ← fileText? (directory ++ path) with
    | some text => tree := tree.write (.ofString path) text
    | none => pure ()
  return tree

/-- Where the machine shows its processors. -/
def processorDirectory : String := "/sys/devices/system/cpu/"

/-- How many processors a list names. -/
def listed (tree : FileTree) (path : String) : Option Int :=
  match tree.read (.ofString path) with
  | .ok text => (CpuList.count text).toOption
  | .error _ => none

/-- The machine that the program runs on, and what it shows. -/
def readMachine : IO (Machine × FileTree) := do
  let lists ← readTree processorDirectory ["present", "online"]
  let present := (listed lists "present").getD 0
  let siblings := (List.range present.toNat).map fun i =>
    "cpu" ++ toString i ++ "/topology/thread_siblings_list"
  let tree ← readTree processorDirectory ("online" :: "smt/active" :: siblings)
  return (.new (listed lists "online"), tree)

/-- What the arguments of a command line find around them. -/
def readSurroundings (arguments : List String) : IO Surroundings := do
  let paths := match Arguments.parse arguments with
    | .run _ (some command) => command.paths
    | _ => []
  let (machine, processors) ← readMachine
  return ⟨← readTree "" paths, machine, processors⟩

end PerfFormula

open PerfFormula

def main (arguments : List String) : IO UInt32 := do
  match CommandLine.run ⟨.plain, .plain⟩ (← readSurroundings arguments) arguments with
  | .exit code text =>
    IO.print text
    return code.toUInt32
  | .done code text messages written =>
    IO.eprint messages
    for file in written do
      IO.FS.writeFile file.1.text file.2
    IO.print text
    return code.toUInt32
  | .failed e =>
    IO.eprintln e.message
    return 1
