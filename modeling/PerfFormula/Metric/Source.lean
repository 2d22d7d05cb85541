import PerfFormula.Document.Json.Reader
import PerfFormula.Document.Json.Writer
import PerfFormula.Files.Tree
import PerfFormula.Libraries.Yaml
import PerfFormula.Metric.Load
import PerfFormula.Text.LowerCase

/-!
# Sources of metrics

Tables of metrics are read from texts and files in one of two formats, and written to texts. The
format of a file is asked for by name, or follows from the extension of its path. YAML is left to a
library.

Main statements:

* `MetricTable.ofFile_absent` — a file that is not there is reported before anything else.
-/

namespace PerfFormula

/-- The formats of metric files. -/
inductive Format where
  | yaml
  | json
  deriving DecidableEq, Repr

namespace Format

/-- The name of a format. -/
def name : Format → String
  | yaml => "yaml"
  | json => "json"

/-- The format of a name. -/
def ofName? (s : String) : Option Format :=
  if s = "yaml" then some yaml else if s = "json" then some json else none

/-- The format of an extension in lower case. -/
def ofSuffix? (s : String) : Option Format :=
  if s = ".yaml" ∨ s = ".yml" then some yaml else if s = ".json" then some json else none

theorem ofName?_name (f : Format) : ofName? f.name = some f := by
  cases f <;> simp [ofName?, name]

end Format

/-- Why there is no table of metrics. -/
inductive LoadError where
  | absent (path : Path)
  /-- The path leads to a directory. -/
  | directory (path : Path)
  /-- The extension of a path tells no format. -/
  | unknownExtension (suffix : String)
  /-- There is no format of the name. -/
  | unknownFormat (name : String)
  /-- A format was named for something that is no text. -/
  | formatOfValue (name : String)
  | yaml (error : LibraryError)
  /-- A text, of a file if a path is given, is no JSON. -/
  | malformedJson (path : Option Path) (mistake : Json.Mistake)
  /-- A text has a whole number that cannot be read. -/
  | number (error : Decimal.NumberError)
  | content (error : ContentError)

namespace LoadError

/-- The report of an error. -/
def message : LoadError → String
  | absent p => "Metric file not found: " ++ p.text
  | directory p => "[Errno 21] Is a directory: " ++ Text.quote p.text
  | unknownExtension suffix =>
    "Cannot determine format from extension '" ++ suffix
      ++ "'. Use format='yaml' or format='json' explicitly."
  | unknownFormat name => "Unknown format: '" ++ name ++ "'. Supported: 'yaml', 'json'"
  | formatOfValue name => "Dict input but format='" ++ name ++ "' specified"
  | yaml e => e.message
  | malformedJson none m => m.message
  | malformedJson (some p) m => p.text ++ ": " ++ m.message
  | number e => e.message
  | content e => e.message

end LoadError

namespace MetricTable

/-! ## Reading -/

/-- The document of a text, which is that of a file if a path is given. -/
def readText (yaml : YamlLibrary) (path : Option Path) (format : Format) (text : String) :
    Except LoadError Document :=
  match format with
  | .json => (Json.read text).mapError fun e =>
    match e with
    | .mistake m => .malformedJson path m
    | .number e => .number e
  | .yaml => (yaml.load text).mapError .yaml

/-- The table of a text, which is that of a file if a path is given. -/
def ofText (yaml : YamlLibrary) (path : Option Path) (format : Format) (text : String) :
    Except LoadError MetricTable := do
  (ofDocument (← readText yaml path format text)).mapError .content

/-- The table of a value, for which a format may be named only as `dict`. -/
def ofValue (d : Document) (format : Option String) : Except LoadError MetricTable :=
  match format with
  | none | some "" | some "dict" => (ofDocument d).mapError .content
  | some name => .error (.formatOfValue name)

/-- The format of a file: as it was asked for, or as the extension of the path tells. -/
def formatOf (path : Path) (format : Option String) : Except LoadError Format :=
  match format with
  | some name =>
    match Format.ofName? name with
    | some f => .ok f
    | none => .error (.unknownFormat name)
  | none =>
    let suffix := Text.lowerCase path.suffix
    match Format.ofSuffix? suffix with
    | some f => .ok f
    | none => .error (.unknownExtension suffix)

/-- The table of a file. -/
def ofFile (yaml : YamlLibrary) (files : FileTree) (path : Path) (format : Option String) :
    Except LoadError MetricTable :=
  if files.has path then do
    let format ← formatOf path format
    match files.read path with
    | .ok text => ofText yaml (some path) format text
    | .error _ => throw (.directory path)
  else .error (.absent path)

/-- A file that is not there is reported before anything else. -/
theorem ofFile_absent {files : FileTree} {path : Path} (h : files.has path = false)
    (yaml : YamlLibrary) (format : Option String) :
    ofFile yaml files path format = .error (.absent path) := by
  simp [ofFile, h]

/-! ## Writing -/

/-- A table as JSON, in the spelling of event lists. -/
def toJson (t : MetricTable) : String := Json.write (.indented 4) (t.toDocument .eventList)

/-- The document of a table under a name, which may be empty. -/
def toNamedDocument (t : MetricTable) (name : String) : Document :=
  .mapping (Metric.entryUnless name.isEmpty "name" (.text name) ++
    [(.text "metrics", .list (t.toList.map .mapping))])

/-- The keys of such a document. -/
def documentKeys : List String := "metrics" :: Metric.fieldNames .plain

/-- A table as YAML, under a name if one is given. -/
def toYaml (yaml : YamlLibrary) (t : MetricTable) (name : Option String) : String :=
  yaml.dump (t.toNamedDocument (name.getD ""))

end MetricTable
end PerfFormula
