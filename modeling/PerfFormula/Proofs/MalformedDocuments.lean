import PerfFormula.Metric.Load
import PerfFormula.Proofs.Outcome

/-!
# Malformed documents

Any document whatever is a table of metrics or is refused. What is wrong with it is reported as a
fault of the document, with two exceptions, which escape the report: groups that are a number or a
truth value and so cannot be gone through, and an item that is no mapping and too long to be shown
in the report. Both are told by the item alone, at which reading stops: the items in front of it are
a table.

Main statements:

* `Metric.ofEntries_eq_groups_iff` — when the groups of an entry cannot be gone through.
* `MetricTable.escapes_of_addItem`, `MetricTable.addItem_of_escapes` — which items are refused
  without a report.
* `MetricTable.ofDocument_reported_iff` — a document is a table or is reported, unless reading it
  stops at one of these.
-/

namespace PerfFormula

/-! ## Groups that cannot be gone through -/

/-- Numbers and truth values, which hold no items. -/
def Document.isNumeric : Document → Bool
  | bool _ | whole _ | real _ => true
  | _ => false

/-- A document is there and can be written. -/
def Document.IsShown (d : Document) : Prop := d ≠ .null ∧ ∃ s, d.display? = some s

namespace Metric

theorem textOf_eq_ok_iff {d : Document} {s : String} :
    textOf d = .ok s ↔ d.display? = some s := by
  unfold textOf
  cases d.display? with
  | none => simp
  | some shown => simp

theorem textOf_ne_groups (d : Document) (kind : String) : textOf d ≠ .error (.groups kind) := by
  unfold textOf
  intro failed
  split at failed <;> cases failed

theorem mapM_textOf_ne_groups {α : Type} (f : α → Document) (xs : List α) (kind : String) :
    xs.mapM (fun x => textOf (f x)) ≠ .error (.groups kind) := by
  intro failed
  obtain ⟨x, -, failed⟩ := error_of_mapM failed
  exact textOf_ne_groups _ _ failed

/-- Numbers and truth values are refused as groups. -/
theorem groupsOf_eq_groups_iff {d : Document} {kind : String} :
    groupsOf d = .error (.groups kind) ↔ d.isNumeric = true ∧ kind = d.kind := by
  constructor
  · intro failed
    cases d with
    | null | text => cases failed
    | bool | whole | real =>
      cases failed
      exact ⟨rfl, rfl⟩
    -- The items of a list and the keys of a mapping fail for their length alone.
    | list items =>
      exact absurd (map_eq_error_iff.1 failed) (mapM_textOf_ne_groups id items kind)
    | mapping entries =>
      exact absurd (map_eq_error_iff.1 failed) (mapM_textOf_ne_groups Prod.fst entries kind)
  · rintro ⟨numeric, rfl⟩
    cases d with
    | bool | whole | real => rfl
    | null | text | list | mapping => cases numeric

theorem optionalText_ne_groups (d : Document) (kind : String) :
    optionalText d ≠ .error (.groups kind) := by
  unfold optionalText
  split
  · intro failed
    cases failed
  · exact textOf_ne_groups d kind

/-- The name of an entry, as it stands there. -/
def nameField (entries : List (Document × Document)) : Document :=
  field entries [Spelling.plain.name, Spelling.eventList.name]

/-- The formula of an entry, as it stands there. -/
def sourceField (entries : List (Document × Document)) : Document :=
  field entries [Spelling.plain.source, Spelling.eventList.source, "formula"]

/-- The groups of an entry, as they stand there. -/
def groupsField (entries : List (Document × Document)) : Document :=
  field entries [Spelling.plain.groups, Spelling.eventList.groups]

/-- An entry with a name and a formula is read field by field. -/
theorem ofEntries_of_present {entries : List (Document × Document)}
    (named : nameField entries ≠ .null) (sourced : sourceField entries ≠ .null) :
    ofEntries entries = (do
      let name ← textOf (nameField entries)
      let source ← textOf (sourceField entries)
      let groups ← groupsOf (groupsField entries)
      let description ← optionalText
        (field entries [Spelling.plain.description, Spelling.eventList.description])
      let scaleText ← optionalText
        (field entries [Spelling.plain.scaleUnit, Spelling.eventList.scaleUnit])
      (make name source groups description scaleText).mapError .metric) := by
  unfold nameField sourceField at *
  unfold ofEntries
  dsimp only
  generalize field entries [Spelling.plain.name, Spelling.eventList.name] = name at *
  generalize field entries [Spelling.plain.source, Spelling.eventList.source, "formula"] = source
    at *
  cases name with
  | null => exact absurd rfl named
  | _ =>
    cases source with
    | null => exact absurd rfl sourced
    | _ => rfl

/-- An entry without a name or a formula is refused before its groups are looked at. -/
theorem present_of_ofEntries {entries : List (Document × Document)} {kind : String}
    (failed : ofEntries entries = .error (.groups kind)) :
    nameField entries ≠ .null ∧ sourceField entries ≠ .null := by
  unfold nameField sourceField
  unfold ofEntries at failed
  dsimp only at failed
  generalize field entries [Spelling.plain.name, Spelling.eventList.name] = name at *
  generalize field entries [Spelling.plain.source, Spelling.eventList.source, "formula"] = source
    at *
  have named : name ≠ .null := by
    rintro rfl
    cases failed
  refine ⟨named, ?_⟩
  rintro rfl
  cases name with
  | null => exact named rfl
  | _ =>
    -- The report of a missing formula shows the name.
    rcases error_of_bind failed with failed | ⟨shown, -, failed⟩
    · exact textOf_ne_groups _ _ failed
    · cases failed

/-- The groups of an entry are refused if they are a number or a truth value, and the name and the
formula in front of them are there and can be written. -/
theorem ofEntries_eq_groups_iff {entries : List (Document × Document)} {kind : String} :
    ofEntries entries = .error (.groups kind) ↔
      ((nameField entries).IsShown ∧ (sourceField entries).IsShown) ∧
        (groupsField entries).isNumeric = true ∧ kind = (groupsField entries).kind := by
  constructor
  · intro failed
    obtain ⟨named, sourced⟩ := present_of_ofEntries failed
    rw [ofEntries_of_present named sourced] at failed
    rcases error_of_bind failed with failed | ⟨name, nameText, failed⟩
    · exact absurd failed (textOf_ne_groups _ kind)
    rcases error_of_bind failed with failed | ⟨source, sourceText, failed⟩
    · exact absurd failed (textOf_ne_groups _ kind)
    refine ⟨⟨⟨named, name, textOf_eq_ok_iff.1 nameText⟩, sourced, source,
      textOf_eq_ok_iff.1 sourceText⟩, ?_⟩
    rcases error_of_bind failed with failed | ⟨groups, -, failed⟩
    · exact groupsOf_eq_groups_iff.1 failed
    -- Behind the groups no field is gone through.
    exfalso
    rcases error_of_bind failed with failed | ⟨description, -, failed⟩
    · exact optionalText_ne_groups _ kind failed
    rcases error_of_bind failed with failed | ⟨scaleText, -, failed⟩
    · exact optionalText_ne_groups _ kind failed
    obtain ⟨e, -, same⟩ := mapError_eq_error_iff.1 failed
    cases same
  · rintro ⟨⟨⟨named, name, nameShown⟩, sourced, source, sourceShown⟩, refused⟩
    rw [ofEntries_of_present named sourced, textOf_eq_ok_iff.2 nameShown,
      textOf_eq_ok_iff.2 sourceShown]
    show (groupsOf (groupsField entries)).bind _ = _
    rw [groupsOf_eq_groups_iff.2 refused]
    rfl

end Metric

/-! ## What is not reported -/

/-- Whether an error is reported as a fault of the document. -/
def ContentError.blamesDocument : ContentError → Bool
  | .entry (.groups _) | .tooLong => false
  | .notMetrics _ | .notList | .notEntry _ | .entry _ | .duplicate _ => true

/-- The items whose fault is not reported. -/
inductive Document.Escapes : Document → Prop where
  /-- The groups of an entry that was read so far cannot be gone through. -/
  | groups {entries : List (Document × Document)} : (Metric.nameField entries).IsShown →
      (Metric.sourceField entries).IsShown → (Metric.groupsField entries).isNumeric = true →
      Escapes (.mapping entries)
  /-- An item that is no mapping is too long to be shown. -/
  | tooLong {item : Document} : (∀ entries, item ≠ .mapping entries) → item.display? = none →
      Escapes item

namespace MetricTable

theorem escapes_of_addItem {t : MetricTable} {item : Document} {e : ContentError}
    (failed : t.addItem item = .error e) (hidden : e.blamesDocument = false) : item.Escapes := by
  cases item with
  | mapping entries =>
    unfold addItem at failed
    rcases error_of_bind failed with failed | ⟨m, -, failed⟩
    · obtain ⟨e', refused, rfl⟩ := mapError_eq_error_iff.1 failed
      cases e' with
      | groups kind =>
        obtain ⟨⟨named, sourced⟩, numeric, -⟩ := Metric.ofEntries_eq_groups_iff.1 refused
        exact .groups named sourced numeric
      | missingName | missingFormula | tooLong | metric => cases hidden
    · obtain ⟨e', -, rfl⟩ := mapError_eq_error_iff.1 failed
      cases hidden
  | _ =>
    refine .tooLong (fun entries same => by cases same) ?_
    unfold addItem at failed
    dsimp only at failed
    split at failed
    · cases failed
      cases hidden
    · next none => exact none

theorem addItem_of_escapes (t : MetricTable) {item : Document} (h : item.Escapes) :
    ∃ e, t.addItem item = .error e ∧ e.blamesDocument = false := by
  cases h with
  | @groups entries named sourced numeric =>
    have refused := Metric.ofEntries_eq_groups_iff.2 ⟨⟨named, sourced⟩, numeric, rfl⟩
    refine ⟨.entry (.groups (Metric.groupsField entries).kind), ?_, rfl⟩
    show (Except.mapError ContentError.entry (Metric.ofEntries entries)).bind _ = _
    rw [refused]
    rfl
  | tooLong unmapped unshown =>
    refine ⟨.tooLong, ?_, rfl⟩
    unfold addItem
    split
    · next entries => exact absurd rfl (unmapped entries)
    · rw [unshown]

/-- The items of a document are found, or it is reported that there are none. -/
theorem blamesDocument_of_itemsOf {d : Document} {e : ContentError}
    (failed : itemsOf d = .error e) : e.blamesDocument = true := by
  unfold itemsOf at failed
  split at failed
  · cases failed
  · cases failed
  · split at failed <;> cases failed
    rfl
  · cases failed
    rfl

/-- A document fails as its items do. -/
theorem ofDocument_eq_error_iff {d : Document} {e : ContentError} :
    ofDocument d = .error e ↔
      itemsOf d = .error e ∨ ∃ before item behind t, itemsOf d = .ok (before ++ item :: behind) ∧
        ofItems before = .ok t ∧ t.addItem item = .error e := by
  constructor
  · intro failed
    rcases error_of_bind failed with failed | ⟨items, found, failed⟩
    · exact .inl failed
    · obtain ⟨before, item, behind, t, rfl, read, refused⟩ := foldlM_eq_error_iff.1 failed
      exact .inr ⟨before, item, behind, t, found, read, refused⟩
  · rintro (failed | ⟨before, item, behind, t, found, read, refused⟩)
    · rw [ofDocument, failed]
      rfl
    · rw [ofDocument, found]
      exact foldlM_eq_error_iff.2 ⟨before, item, behind, t, rfl, read, refused⟩

/-- A document is a table, or what is wrong with it is reported, unless reading it stops at an item
whose fault escapes the report: the items in front of it are a table. -/
theorem ofDocument_reported_iff (d : Document) :
    ((∃ t, ofDocument d = .ok t) ∨ ∃ e, ofDocument d = .error e ∧ e.blamesDocument = true) ↔
      ¬∃ before item behind t, itemsOf d = .ok (before ++ item :: behind) ∧
        ofItems before = .ok t ∧ item.Escapes := by
  constructor
  · rintro ended ⟨before, item, behind, t, found, read, escapes⟩
    obtain ⟨e, refused, hidden⟩ := t.addItem_of_escapes escapes
    have failed := ofDocument_eq_error_iff.2
      (.inr ⟨before, item, behind, t, found, read, refused⟩)
    rcases ended with ⟨t', done⟩ | ⟨e', failed', reported⟩
    · rw [failed] at done
      cases done
    · rw [failed] at failed'
      cases failed'
      rw [hidden] at reported
      cases reported
  · intro readable
    cases outcome : ofDocument d with
    | ok t => exact .inl ⟨t, rfl⟩
    | error e =>
      refine .inr ⟨e, rfl, ?_⟩
      rcases ofDocument_eq_error_iff.1 outcome with
        failed | ⟨before, item, behind, t, found, read, refused⟩
      · exact blamesDocument_of_itemsOf failed
      · cases blames : e.blamesDocument with
        | true => rfl
        | false =>
          -- The item at which reading stops would be one that escapes.
          exact absurd ⟨before, item, behind, t, found, read, escapes_of_addItem refused blames⟩
            readable

/-- A metric whose groups are the number five. -/
def numberedGroups : Document :=
  .list [.mapping
    [(.text "name", .text "A"), (.text "expr", .text "b"), (.text "groups", .whole 5)]]

/-- Not every document is a table or reported: groups that are a number escape the report. -/
theorem ofDocument_numberedGroups :
    ¬∀ d : Document, (∃ t, ofDocument d = .ok t) ∨
      ∃ e, ofDocument d = .error e ∧ e.blamesDocument = true := by
  intro always
  have failed : ofDocument numberedGroups = .error (.entry (.groups "int")) := rfl
  rcases always numberedGroups with ⟨t, done⟩ | ⟨e, failed', reported⟩
  · rw [failed] at done
    cases done
  · rw [failed] at failed'
    cases failed'
    cases reported

end MetricTable
end PerfFormula
