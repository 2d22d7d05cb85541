import PerfFormula.Document.Yaml.Reader
import PerfFormula.Document.Yaml.Writer
import PerfFormula.Libraries.Yaml

/-!
# A library for plain YAML

The reader and the writer for YAML as a library. Anchors, tags and times are not read.
-/

namespace PerfFormula

/-- An error of the reader as one of a library. -/
def Yaml.Error.raised (e : Yaml.Error) : LibraryError :=
  match e with
  | .malformed => ⟨"YAMLError", false, e.message⟩
  | .number _ | .noCharacter => ⟨"ValueError", true, e.message⟩
  | .overflow => ⟨"OverflowError", false, e.message⟩

/-- The reader and the writer as a library. -/
def YamlLibrary.plain : YamlLibrary where
  load text := (Yaml.read text).mapError Yaml.Error.raised
  dump := Yaml.write

end PerfFormula
