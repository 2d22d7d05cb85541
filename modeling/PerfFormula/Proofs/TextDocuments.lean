import PerfFormula.Metric.Source

/-!
# Documents of texts

A table is written as a document that holds nothing but texts: texts themselves, lists, and mappings
whose keys are texts, each of them once. For such mappings it makes no difference that writing a key
again replaces its value. What the keys are, and how many lists and mappings are one inside the
other, matters where there is a limit to what can be read back.

Main statements:

* `Document.ofEntries_of_distinct` — entries under distinct texts are a mapping as they stand.
* `MetricTable.textual_toDocument`, `MetricTable.textual_toNamedDocument` — a table is written as a
  document of texts.
-/

namespace PerfFormula

namespace Document

/-! ## Mappings -/

theorem put_of_notMem {entries : List (Document × Document)} {name : String}
    (fresh : .text name ∉ entries.map (·.1)) (value : Document) :
    put entries (.text name) value = entries ++ [(.text name, value)] := by
  induction entries with
  | nil => rfl
  | cons e rest ih =>
    rw [List.map_cons, List.mem_cons, not_or] at fresh
    have other : ¬sameKey e.1 (.text name) := fun same =>
      fresh.1 ((sameKey_text e.1 name).1 same).symm
    rw [put, if_neg other, ih fresh.2, List.cons_append]

theorem foldl_put_of_distinct {entries : List (Document × Document)} :
    ∀ done : List (Document × Document), (∀ e ∈ entries, ∃ s, e.1 = .text s) →
      ((done ++ entries).map (·.1)).Nodup →
      entries.foldl (fun done e => put done e.1 e.2) done = done ++ entries := by
  induction entries with
  | nil => simp
  | cons e rest ih =>
    obtain ⟨key, value⟩ := e
    intro done named distinct
    obtain ⟨name, hname⟩ := named _ List.mem_cons_self
    obtain rfl : key = .text name := hname
    have fresh : .text name ∉ done.map (·.1) := by
      rw [List.map_append, List.nodup_append] at distinct
      intro there
      exact distinct.2.2 _ there (.text name) (by simp) rfl
    have later := ih (done ++ [(.text name, value)])
      (fun e he => named e (List.mem_cons_of_mem _ he)) (by simpa using distinct)
    rw [List.foldl_cons, put_of_notMem fresh, later, List.append_assoc, List.singleton_append]

/-- Entries under distinct texts are a mapping as they stand. -/
theorem ofEntries_of_distinct {entries : List (Document × Document)}
    (named : ∀ e ∈ entries, ∃ s, e.1 = .text s) (distinct : (entries.map (·.1)).Nodup) :
    ofEntries entries = .mapping entries := by
  rw [ofEntries, foldl_put_of_distinct [] named distinct, List.nil_append]

end Document

/-! ## Tables -/

namespace Metric

open Document

/-- An entry that may be left out has the given key and value. -/
theorem eq_of_mem_entryUnless {empty : Bool} {key : String} {value : Document}
    {e : Document × Document} (h : e ∈ entryUnless empty key value) : e = (.text key, value) := by
  cases empty with
  | true => cases h
  | false => exact List.mem_singleton.1 h

theorem textual_groupsDocument (isKey : String → Prop) (spelling : Spelling)
    (groups : List String) : (groupsDocument spelling groups).Textual isKey 1 := by
  unfold groupsDocument
  split
  · exact .text 1 _
  · refine .list fun d hd => ?_
    obtain ⟨g, -, rfl⟩ := List.mem_map.1 hd
    exact .text 0 g

theorem keys_toEntries_sublist (spelling : Spelling) (m : Metric) :
    ((m.toEntries spelling).map (·.1)).Sublist
      ((fieldNames spelling).map .text) := by
  -- each field gives its key or nothing, in the order of the names
  have key (empty : Bool) (key : String) (value : Document) :
      ((entryUnless empty key value).map (·.1)).Sublist [.text key] := by
    cases empty with
    | true => exact List.nil_sublist _
    | false => exact List.Sublist.refl _
  simp only [toEntries, List.cons_append, List.map_cons, List.map_append]
  exact .cons_cons _ (.cons_cons _ (((key _ _ _).append (key _ _ _)).append (key _ _ _)))

/-- A metric is written as a document of texts under the names of its fields. -/
theorem textual_toDocument {isKey : String → Prop} {spelling : Spelling}
    (known : spelling = .plain ∨ spelling = .eventList)
    (keys : ∀ name ∈ fieldNames spelling, isKey name) (m : Metric) :
    (m.toDocument spelling).Textual isKey 2 := by
  simp only [fieldNames, List.forall_mem_cons] at keys
  obtain ⟨name, source, groups, description, scaleUnit, -⟩ := keys
  have parts : ∀ e ∈ m.toEntries spelling, (∃ s, e.1 = .text s ∧ isKey s) ∧
      e.2.Textual isKey 1 := by
    intro e he
    simp only [toEntries, List.cons_append, List.mem_cons, List.mem_append] at he
    rcases he with rfl | rfl | (he | he) | he
    · exact ⟨⟨_, rfl, name⟩, .text 1 _⟩
    · exact ⟨⟨_, rfl, source⟩, .text 1 _⟩
    · rw [eq_of_mem_entryUnless he]
      exact ⟨⟨_, rfl, groups⟩, textual_groupsDocument isKey spelling m.groups⟩
    · rw [eq_of_mem_entryUnless he]
      exact ⟨⟨_, rfl, description⟩, .text 1 _⟩
    · rw [eq_of_mem_entryUnless he]
      exact ⟨⟨_, rfl, scaleUnit⟩, .text 1 _⟩
  have distinct : ((fieldNames spelling).map Document.text).Nodup := by
    rcases known with rfl | rfl <;> simp [fieldNames, Spelling.plain, Spelling.eventList]
  exact .mapping (fun e he => (parts e he).1)
    (distinct.sublist (keys_toEntries_sublist spelling m)) fun e he => (parts e he).2

end Metric

namespace MetricTable

theorem textual_toDocument {isKey : String → Prop} {spelling : Spelling}
    (known : spelling = .plain ∨ spelling = .eventList)
    (keys : ∀ name ∈ Metric.fieldNames spelling, isKey name) (t : MetricTable) :
    (t.toDocument spelling).Textual isKey 3 := by
  refine .list fun d hd => ?_
  obtain ⟨m, -, rfl⟩ := List.mem_map.1 hd
  exact m.textual_toDocument known keys

theorem textual_toNamedDocument {isKey : String → Prop}
    (keys : ∀ name ∈ Metric.fieldNames .plain, isKey name) (metrics : isKey "metrics")
    (t : MetricTable) (name : String) : (t.toNamedDocument name).Textual isKey 4 := by
  have own : isKey "name" := keys "name" (by simp [Metric.fieldNames, Spelling.plain])
  have table : (Document.list (t.toList.map .mapping)).Textual isKey 3 :=
    t.list_toList ▸ t.textual_toDocument (.inl rfl) keys
  unfold toNamedDocument Metric.entryUnless
  split
  · exact .mapping (by simpa using metrics) (by simp) (by simpa using table)
  · refine .mapping (by simpa using ⟨own, metrics⟩) (by simp) ?_
    intro e he
    simp only [List.singleton_append, List.mem_cons, List.not_mem_nil, or_false] at he
    rcases he with rfl | rfl
    · exact .text 3 name
    · exact table

end MetricTable
end PerfFormula
