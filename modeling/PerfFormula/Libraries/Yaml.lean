import PerfFormula.Document.Basic
import PerfFormula.Libraries.Basic

/-!
# Libraries for YAML

Loading a text and dumping a document are left to a library. The law says what is relied on: a
mapping that holds nothing but texts, under some keys and not too deep, is loaded from what is
dumped of it.
-/

namespace PerfFormula

/-- Documents that hold nothing but texts, with at most `n` lists and mappings one inside the other,
with keys of some kind, and no key twice. -/
inductive Document.Textual (isKey : String → Prop) : Nat → Document → Prop
  | text (n : Nat) (s : String) : Textual isKey n (.text s)
  | list {n : Nat} {items : List Document} (parts : ∀ d ∈ items, Textual isKey n d) :
    Textual isKey (n + 1) (.list items)
  | mapping {n : Nat} {entries : List (Document × Document)}
      (named : ∀ e ∈ entries, ∃ s, e.1 = .text s ∧ isKey s)
      (distinct : (entries.map (·.1)).Nodup) (values : ∀ e ∈ entries, Textual isKey n e.2) :
    Textual isKey (n + 1) (.mapping entries)

namespace Document

/-- More kinds of keys are no hindrance. -/
theorem Textual.mono {isKey isKey' : String → Prop} (more : ∀ s, isKey s → isKey' s) {n : Nat}
    {d : Document} (h : Textual isKey n d) : Textual isKey' n d := by
  induction h with
  | text n s => exact .text n s
  | list _ ih => exact .list ih
  | mapping named distinct _ ih =>
    refine .mapping (fun e he => ?_) distinct ih
    obtain ⟨s, isText, key⟩ := named e he
    exact ⟨s, isText, more s key⟩

end Document

/-- A library that reads and writes YAML. -/
structure YamlLibrary where
  /-- The document of a text. -/
  load : String → Except LibraryError Document
  /-- The text of a document, one entry per line and the entries in order. -/
  dump : Document → String

/-- A mapping of texts under some keys, with at most `depth` lists and mappings one inside the
other, is loaded from what is dumped of it. -/
def YamlLibrary.Restores (yaml : YamlLibrary) (keys : List String) (depth : Nat) : Prop :=
  ∀ entries, entries ≠ [] → (Document.mapping entries).Textual (· ∈ keys) depth →
    yaml.load (yaml.dump (.mapping entries)) = .ok (.mapping entries)

end PerfFormula
