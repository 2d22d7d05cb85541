import PerfFormula.Document.Yaml.Library
import PerfFormula.Proofs.Entries
import PerfFormula.Proofs.WrittenCharacters
import PerfFormula.Proofs.WrittenNodes

/-!
# Tables that are written as YAML

Whichever library dumps and loads YAML, a table that is written four levels deep, under the names of
its fields, is read back with the same metrics if the library restores such mappings of texts.

The reader and the writer for plain YAML do so. A mapping of texts is written in characters that may
stand there, scanned as its tokens, and those are read as a node that has it as its value. The width
of a line limits how far the parts of a mapping can be indented.

Main statements:

* `Yaml.read_write` — a mapping of texts is read back.
* `YamlLibrary.restores_plain` — the reader and the writer are a library that restores them.
* `MetricTable.ofList_ofText_toYaml` — nothing of a table is lost in its entries or in YAML.
-/

namespace PerfFormula

namespace Yaml

/-- A mapping of texts with plain keys is read back from what is written of it. -/
theorem read_write {n : Nat} {entries : List (Document × Document)} (some : entries ≠ [])
    (writable : Writable (n + 1) (.mapping entries)) (narrow : 2 * n + 2 < lineWidth) :
    read (write (.mapping entries)) = .ok (.mapping entries) := by
  obtain ⟨node, stands, parsed⟩ := nodeOf_tokensOf writable
  cases writable with
  | mapping named distinct values =>
    have texts : ∀ e ∈ entries, ∃ s, e.1 = .text s := fun e he => (named e he).imp fun s h => h.1
    have shown : (write (.mapping entries)).toList = writeEntries 0 entries ++ ['\n'] := by
      obtain ⟨entry, others, rfl⟩ := List.exists_cons_of_ne_nil some
      rw [write, String.toList_ofList]
      exact some
    have allowed : (writeEntries 0 entries ++ ['\n']).all isAllowed = true := by
      have printed := all_writeEntries texts (fun e he => shown_of_textual (values e he)) 0
      have feed : isAllowed '\n' = true := by decide
      rw [List.all_append, List.all_eq_true.2 fun c hc =>
        isAllowed_of_isShown (List.all_eq_true.1 printed c hc)]
      simpa using feed
    have scanned : tokens (write (.mapping entries)).toList =
        .ok (tokensOf false (.mapping entries)) := by
      rw [shown, tokens, if_pos allowed, readAll_writeEntries some named values narrow]
    rw [read, scanned]
    simp only [parsed, stands.value]

end Yaml

/-! ## The reader and the writer as a library -/

/-- The reader and the writer restore mappings of texts with plain keys. -/
theorem YamlLibrary.restores_plain {keys : List String}
    (plain : ∀ key ∈ keys, Yaml.IsKey key.toList) {n : Nat}
    (narrow : 2 * n + 2 < Yaml.lineWidth) : YamlLibrary.plain.Restores keys (n + 1) := by
  intro entries some textual
  have writable : Yaml.Writable (n + 1) (.mapping entries) := textual.mono plain
  exact mapError_eq_ok_iff.2 (Yaml.read_write some writable narrow)

/-! ## Tables -/

namespace MetricTable

/-- A table comes back from the entries of its metrics, and from what a library dumps of its
document, under any name or none, if the library restores mappings of texts. -/
theorem ofList_ofText_toYaml {yaml : YamlLibrary} (restores : yaml.Restores documentKeys 4)
    (t : MetricTable) (name : Option String) :
    ofList t.toList = .ok t ∧ ofText yaml none .yaml (t.toYaml yaml name) = .ok t := by
  refine ⟨t.ofList_toList_eq, ?_⟩
  have textual : (t.toNamedDocument (name.getD "")).Textual (· ∈ documentKeys) 4 :=
    t.textual_toNamedDocument (fun key mem => List.mem_cons_of_mem _ mem) List.mem_cons_self _
  have back : yaml.load (t.toYaml yaml name) = .ok (t.toNamedDocument (name.getD "")) :=
    restores _ (by simp) textual
  rw [ofText, readText, back]
  exact mapError_eq_ok_iff.2 (ofDocument_toNamedDocument t _)

/-- The reader and the writer lose nothing of a table with a group and a description. -/
theorem ofList_ofText_toYaml_plain :
    YamlLibrary.plain.Restores documentKeys 4 ∧
      ∃ t : MetricTable, t.names = ["IPC"] ∧ ofList t.toList = .ok t ∧
        ofText .plain none .yaml (t.toYaml .plain (some "skylake")) = .ok t := by
  have restores : YamlLibrary.plain.Restores documentKeys 4 :=
    YamlLibrary.restores_plain (by decide +kernel) (by decide)
  have made : ∃ m, Metric.make "IPC" "instructions / cycles" ["TopdownL1"] "per cycle" "" = .ok m ∧
      m.name = "IPC" := ⟨_, rfl, by decide +kernel⟩
  obtain ⟨m, -, named⟩ := made
  let t : MetricTable := ⟨[m], by simp⟩
  obtain ⟨list, text⟩ := ofList_ofText_toYaml restores t (some "skylake")
  exact ⟨restores, t, congrArg (fun n => [n]) named, list, text⟩

end MetricTable
end PerfFormula
