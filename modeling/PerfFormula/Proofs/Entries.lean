import PerfFormula.Metric.Source
import PerfFormula.Proofs.Outcome

/-!
# Entries that are read back

A metric is written as a mapping with an entry for each field, but for those that are empty, and is
read back from it. Reading trims the name, the formula and the groups, which are trimmed already,
and an entry that was left out is read as an empty field. So all of a metric comes back, except that
the groups may not where they are written as one text: that is split at every comma and semicolon.

Main statements:

* `Metric.splitGroups_join_iff` — groups come back from one text exactly when none of them holds a
  comma or a semicolon.
* `Metric.ofEntries_toEntries` — what is read of a metric in either spelling.
* `MetricTable.ofItems_documents` — what is read of the metrics of a table.
* `MetricTable.ofList_toList_eq` — a table comes back from the entries of its metrics.
-/

namespace PerfFormula

namespace Document

theorem find?_append (first second : List (Document × Document)) (name : String) :
    find? (first ++ second) name = (find? first name).or (find? second name) := by
  rw [find?, find?, find?, List.find?_append, Option.map_or]

theorem find?_cons_text (key name : String) (value : Document)
    (rest : List (Document × Document)) :
    find? ((text key, value) :: rest) name =
      if key = name then some value else find? rest name := by
  by_cases h : key = name
  · simp [find?, sameKey, h]
  · simp [find?, sameKey, h]

end Document

namespace Metric

open PerfFormula.Text

/-! ## Groups -/

/-- What is left of a text when both ends are trimmed is a part of it. -/
theorem mem_of_mem_strip {s : String} {c : Char} (h : c ∈ (strip s).toList) : c ∈ s.toList := by
  rw [toList_strip, trim, trimBy, List.mem_reverse] at h
  have mem := (List.dropWhile_sublist isBlank).subset h
  exact (List.dropWhile_sublist isBlank).subset (List.mem_reverse.1 mem)

/-- The parts of a text that is split hold no separators. -/
theorem forall_mem_splitOnP {p : Char → Bool} {cs part : List Char} (h : part ∈ cs.splitOnP p) :
    ∀ c ∈ part, p c = false := by
  induction cs generalizing part with
  | nil =>
    rw [List.splitOnP_nil, List.mem_singleton] at h
    simp [h]
  | cons first rest ih =>
    rw [List.splitOnP_cons_eq_if_modifyHead] at h
    split at h
    · rcases List.mem_cons.1 h with rfl | h
      · simp
      · exact ih h
    · next kept =>
      cases hrest : rest.splitOnP p with
      | nil => simp [hrest] at h
      | cons head tail =>
        rw [hrest] at h
        have heads : part = first :: head ∨ part ∈ tail := by simpa using h
        rcases heads with rfl | h
        · intro c hc
          rcases List.mem_cons.1 hc with rfl | hc
          · simpa using kept
          · exact ih (hrest ▸ List.mem_cons_self) c hc
        · exact ih (hrest ▸ List.mem_cons_of_mem head h)

/-- Groups that are split off one text hold no separators. -/
theorem forall_mem_splitGroups {s g : String} (h : g ∈ splitGroups s) :
    ∀ c ∈ g.toList, isGroupSeparator c = false := by
  obtain ⟨part, memPart, rfl⟩ := List.mem_map.1 (List.mem_filter.1 h).1
  obtain ⟨cs, memChars, rfl⟩ := List.mem_map.1 memPart
  intro c hc
  have inside : c ∈ cs := by simpa using mem_of_mem_strip hc
  exact forall_mem_splitOnP memChars c inside

theorem splitOnP_join {groups : List String} (nonempty : groups ≠ [])
    (free : ∀ g ∈ groups, ∀ c ∈ g.toList, isGroupSeparator c = false) :
    (";".intercalate groups).toList.splitOnP isGroupSeparator = groups.map String.toList := by
  induction groups with
  | nil => exact absurd rfl nonempty
  | cons g rest ih =>
    have first := free g List.mem_cons_self
    cases rest with
    | nil => simp [List.splitOnP_eq_singleton first]
    | cons g' rest =>
      have back := ih (List.cons_ne_nil _ _) fun g hg => free g (List.mem_cons_of_mem _ hg)
      have joined : (";".intercalate (g :: g' :: rest)).toList =
          g.toList ++ ';' :: (";".intercalate (g' :: rest)).toList := by
        rw [String.intercalate_cons_cons, String.toList_append, String.toList_append,
          List.append_assoc]
        rfl
      rw [joined, List.splitOnP_append_cons_of_forall_mem first ';' (by decide), back]
      rfl

/-- Groups that are kept come back from one text exactly when none of them holds a separator. -/
theorem splitGroups_join_iff {groups : List String} (kept : ∀ g ∈ groups, Trimmed g ∧ g ≠ "") :
    splitGroups (";".intercalate groups) = groups ↔
      ∀ g ∈ groups, ∀ c ∈ g.toList, isGroupSeparator c = false := by
  constructor
  · intro same g hg
    exact forall_mem_splitGroups (same.symm ▸ hg)
  · intro free
    cases groups with
    | nil => rfl
    | cons g rest =>
      rw [splitGroups, splitOnP_join (List.cons_ne_nil g rest) free, List.map_map]
      have texts : String.ofList ∘ String.toList = id := by
        funext s
        exact String.ofList_toList
      rw [texts, List.map_id, trimGroups_eq_self kept]

/-! ## Metrics -/

/-- The metric with other groups. -/
def regrouped (m : Metric) (groups : List String) : Metric :=
  { m with groups := trimGroups groups, groups_trimmed := trimGroups_trimmed groups }

theorem regrouped_groups (m : Metric) : m.regrouped m.groups = m := by
  have same : trimGroups m.groups = m.groups := trimGroups_eq_self m.groups_trimmed
  cases m
  simp_all [regrouped]

theorem make_regrouped (m : Metric) (groups : List String) :
    make m.name m.source groups m.description m.scaleText = .ok (m.regrouped groups) := by
  have hn : strip m.name = m.name := m.name_trimmed
  have hs : strip m.source = m.source := m.source_trimmed
  unfold make
  rw [dif_neg (by rw [hn]; exact m.name_ne), dif_neg (by rw [hs]; exact m.source_ne),
    dif_pos m.scale_readable]
  simp only [hn, hs]
  rfl

/-- What is read of a metric that was written in a spelling. -/
def readBack (spelling : Spelling) (m : Metric) : Metric :=
  m.regrouped (if spelling.joined then splitGroups (";".intercalate m.groups) else m.groups)

theorem readBack_plain (m : Metric) : m.readBack .plain = m := m.regrouped_groups

theorem readBack_eventList_eq_iff (m : Metric) :
    m.readBack .eventList = m ↔ ∀ g ∈ m.groups, ∀ c ∈ g.toList, isGroupSeparator c = false := by
  have kept : trimGroups (splitGroups (";".intercalate m.groups)) =
      splitGroups (";".intercalate m.groups) := trimGroups_eq_self (trimGroups_trimmed _)
  rw [← splitGroups_join_iff m.groups_trimmed]
  constructor
  · intro same
    calc splitGroups (";".intercalate m.groups)
        = (m.readBack .eventList).groups := kept.symm
      _ = m.groups := congrArg groups same
  · intro same
    calc m.readBack .eventList
        = m.regrouped (splitGroups (";".intercalate m.groups)) := rfl
      _ = m := by rw [same, regrouped_groups]

/-! ## Entries -/

theorem find?_entryUnless (empty : Bool) (key name : String) (value : Document) :
    Document.find? (entryUnless empty key value) name =
      if key = name ∧ empty = false then some value else none := by
  cases empty with
  | true => simp [entryUnless, Document.find?]
  | false => rw [entryUnless, if_neg (by decide), Document.find?_cons_text]; simp [Document.find?]

/-- The value of an entry that is left out where the field is empty. -/
def valueUnless (empty : Bool) (value : Document) : Document := if empty then .null else value

theorem optionalText_valueUnless (s : String) :
    optionalText (valueUnless s.isEmpty (.text s)) = .ok s := by
  by_cases h : s.isEmpty
  · rw [valueUnless, if_pos h, String.isEmpty_iff.1 h]
    rfl
  · rw [valueUnless, if_neg h, optionalText, if_neg (by simpa [Document.isBlank] using h)]
    rfl

theorem mapM_textOf (texts : List String) : (texts.map Document.text).mapM textOf = .ok texts := by
  induction texts with
  | nil => rfl
  | cons s rest ih =>
    rw [List.map_cons, List.mapM_cons, ih]
    rfl

theorem groupsOf_valueUnless (spelling : Spelling) (m : Metric) :
    groupsOf (valueUnless m.groups.isEmpty (groupsDocument spelling m.groups)) =
      .ok (if spelling.joined then splitGroups (";".intercalate m.groups) else m.groups) := by
  by_cases none : m.groups = []
  · rw [none]
    cases spelling.joined <;> rfl
  · rw [valueUnless, if_neg (by simpa using none), groupsDocument]
    cases spelling.joined with
    | true => rfl
    | false =>
      calc ((m.groups.map Document.text).mapM textOf).map trimGroups
          = (Except.ok m.groups : Except EntryError _).map trimGroups := by rw [mapM_textOf]
        _ = .ok m.groups := congrArg Except.ok (trimGroups_eq_self m.groups_trimmed)

/-- The fields of a metric are found under the keys of both spellings. -/
theorem field_toEntries {spelling : Spelling}
    (known : spelling = .plain ∨ spelling = .eventList) (m : Metric) :
    field (m.toEntries spelling) ["name", "MetricName"] = .text m.name ∧
    field (m.toEntries spelling) ["expr", "MetricExpr", "formula"] = .text m.source ∧
    field (m.toEntries spelling) ["groups", "MetricGroup"] =
      valueUnless m.groups.isEmpty (groupsDocument spelling m.groups) ∧
    field (m.toEntries spelling) ["description", "BriefDescription"] =
      valueUnless m.description.isEmpty (.text m.description) ∧
    field (m.toEntries spelling) ["scale_unit", "ScaleUnit"] =
      valueUnless m.scaleText.isEmpty (.text m.scaleText) := by
  unfold field toEntries
  -- an entry that was left out is found as nothing under each of its keys
  generalize m.groups.isEmpty = noGroups
  generalize m.description.isEmpty = noDescription
  generalize m.scaleText.isEmpty = noScale
  rcases known with rfl | rfl <;> cases noGroups <;> cases noDescription <;> cases noScale <;>
    simp [Spelling.plain, Spelling.eventList, Document.find?_append, Document.find?_cons_text,
      find?_entryUnless, valueUnless]

/-- A metric that was written in a spelling is read, with the groups that this spelling gives. -/
theorem ofEntries_toEntries {spelling : Spelling}
    (known : spelling = .plain ∨ spelling = .eventList) (m : Metric) :
    ofEntries (m.toEntries spelling) = .ok (m.readBack spelling) := by
  obtain ⟨name, source, groups, description, scaleText⟩ := field_toEntries known m
  unfold ofEntries
  simp only [Spelling.plain, Spelling.eventList, name, source, groups, description, scaleText]
  rw [groupsOf_valueUnless, optionalText_valueUnless, optionalText_valueUnless]
  change Except.mapError _ (make m.name m.source _ m.description m.scaleText) = _
  rw [make_regrouped]
  rfl

end Metric

namespace MetricTable

/-! ## Tables -/

theorem eq_of_metrics_eq {t t' : MetricTable} (h : t.metrics = t'.metrics) : t = t' := by
  cases t
  cases t'
  simp_all

/-- A metric can be added where the table with it is a table. -/
theorem add_eq_ok {t t' : MetricTable} {m : Metric} (h : t'.metrics = t.metrics ++ [m]) :
    t.add m = .ok t' := by
  have fresh : m.name ∉ t.names := by
    have distinct := t'.distinct
    rw [h, List.map_append, List.nodup_append] at distinct
    intro taken
    exact distinct.2.2 m.name taken m.name (by simp) rfl
  rw [add, dif_neg fresh]
  exact congrArg Except.ok (eq_of_metrics_eq h.symm)

/-- What is read of a table that was written in a spelling. -/
def readBack (spelling : Spelling) (t : MetricTable) : MetricTable where
  metrics := t.metrics.map (·.readBack spelling)
  distinct := by
    have names : (t.metrics.map (·.readBack spelling)).map (·.name) = t.metrics.map (·.name) := by
      rw [List.map_map]
      rfl
    rw [names]
    exact t.distinct

theorem readBack_plain (t : MetricTable) : t.readBack .plain = t := by
  apply eq_of_metrics_eq
  change t.metrics.map (·.readBack .plain) = t.metrics
  rw [funext Metric.readBack_plain, List.map_id']

theorem foldlM_addItem {spelling : Spelling} (known : spelling = .plain ∨ spelling = .eventList)
    {metrics : List Metric} {t done : MetricTable}
    (parts : t.metrics = done.metrics ++ metrics.map (·.readBack spelling)) :
    (metrics.map (·.toDocument spelling)).foldlM addItem done = .ok t := by
  induction metrics generalizing done with
  | nil =>
    have same : done = t := eq_of_metrics_eq (by simpa using parts.symm)
    rw [same]
    rfl
  | cons m rest ih =>
    have parts' : t.metrics = done.metrics ++ [m.readBack spelling] ++
        rest.map (·.readBack spelling) := by
      rw [parts, List.map_cons, List.append_assoc, List.singleton_append]
    -- the tables on the way are parts of the whole table, so that no name in them is taken twice
    let next : MetricTable := ⟨done.metrics ++ [m.readBack spelling], by
      have distinct := t.distinct
      rw [parts', List.map_append, List.nodup_append] at distinct
      exact distinct.1⟩
    have step : addItem done (m.toDocument spelling) = .ok next := by
      change (do
        let read ← (Metric.ofEntries (m.toEntries spelling)).mapError ContentError.entry
        (done.add read).mapError fun _ => ContentError.duplicate read.name) = _
      rw [Metric.ofEntries_toEntries known]
      exact mapError_eq_ok_iff.2 (add_eq_ok rfl)
    rw [List.map_cons, List.foldlM_cons, step]
    exact ih parts'

/-- The metrics of a table that was written in a spelling are read in order. -/
theorem ofItems_documents {spelling : Spelling}
    (known : spelling = .plain ∨ spelling = .eventList) (t : MetricTable) :
    ofItems (t.metrics.map (·.toDocument spelling)) = .ok (t.readBack spelling) :=
  foldlM_addItem known (by rfl)

theorem ofDocument_toDocument {spelling : Spelling}
    (known : spelling = .plain ∨ spelling = .eventList) (t : MetricTable) :
    ofDocument (t.toDocument spelling) = .ok (t.readBack spelling) :=
  ofItems_documents known t

theorem ofDocument_toNamedDocument (t : MetricTable) (name : String) :
    ofDocument (t.toNamedDocument name) = .ok t := by
  have found : Document.find? (Metric.entryUnless name.isEmpty "name" (.text name) ++
      [(.text "metrics", .list (t.toList.map .mapping))]) "metrics" =
        some (t.toDocument .plain) := by
    rw [Document.find?_append, Metric.find?_entryUnless, Document.find?_cons_text, list_toList]
    simp
  have items : itemsOf (t.toNamedDocument name) =
      .ok (t.metrics.map (·.toDocument .plain)) := by
    rw [toNamedDocument, itemsOf, found]
    rfl
  calc ofDocument (t.toNamedDocument name)
      = ofItems (t.metrics.map (·.toDocument .plain)) := by rw [ofDocument, items]; rfl
    _ = .ok t := by rw [ofItems_documents (.inl rfl), readBack_plain]

/-! ## Lists of entries -/

/-- The error of a list of entries as that of a document of them. -/
def ListError.inDocument : ListError → ContentError
  | entry e => .entry e
  | table (.duplicate name) | table (.unknown name) => .duplicate name

/-- The metrics of a list of entries are those of the document of the entries. -/
theorem ofItems_map_mapping (list : List (List (Document × Document))) :
    ofItems (list.map .mapping) = (ofList list).mapError ListError.inDocument := by
  rw [ofItems, ofList, foldlM_mapError, List.foldlM_map]
  congr 1
  funext t entries
  rw [mapError_bind]
  show (Metric.ofEntries entries).mapError ContentError.entry >>= _ = _
  cases Metric.ofEntries entries with
  | error e => rfl
  | ok m =>
    show (t.add m).mapError (fun _ => ContentError.duplicate m.name) =
      ((t.add m).mapError ListError.table).mapError ListError.inDocument
    unfold add
    split <;> rfl

/-- A table comes back from the entries of its metrics. -/
theorem ofList_toList_eq (t : MetricTable) : ofList t.toList = .ok t := by
  have items : t.toList.map .mapping = t.metrics.map (·.toDocument .plain) :=
    Document.list.inj t.list_toList
  have read : ofItems (t.toList.map .mapping) = .ok t := by
    rw [items, ofItems_documents (.inl rfl), readBack_plain]
  rw [ofItems_map_mapping] at read
  exact mapError_eq_ok_iff.1 read

end MetricTable
end PerfFormula
