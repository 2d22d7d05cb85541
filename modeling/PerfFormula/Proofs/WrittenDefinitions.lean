import PerfFormula.CommandLine.Definitions
import PerfFormula.Proofs.FoundNames
import PerfFormula.Proofs.Outcome
import PerfFormula.Proofs.PrintedDoubles
import PerfFormula.Text.Longest

/-!
# Written definitions

A definition is written as a name, an equals sign and the text of a double, with any blanks around
the name and around the text. The text of a double holds no equals sign, so the last one in a
definition is the one behind the name, even if the name holds some itself. Reading gives back what
was written: no name and no value is lost, changed or taken for another one.

Main statements:

* `Definition.parseOne_given` — a definition is taken apart into what it was written from.
* `exists_first_repeat` — where names repeat, some name is the first that was there before.
* `Definitions.parse_given` — different names are defined in the order in which they are given, and
  a name that is given twice is refused.
-/

namespace PerfFormula

open PerfFormula.Text PerfFormula.Decimal

/-! ## What is written -/

/-- A run of blanks. -/
abbrev Blanks := { cs : List Char // RunOf isBlank cs }

/-- No blanks. -/
def Blanks.none : Blanks := ⟨[], by simp [RunOf]⟩

/-- A name and the double that it is defined as, with the blanks that surround either of them. -/
structure Definition where
  name : String
  value : Float
  nonempty : name ≠ ""
  trimmed : Trimmed name
  beforeName : Blanks := .none
  behindName : Blanks := .none
  beforeValue : Blanks := .none
  behindValue : Blanks := .none

theorem trim_text (x : Float) : trim (text x).toList = (text x).toList :=
  trimBy_eq_self fun _ hc => isBlank_of_isTyped (isPlain_of_mem_text hc).1

namespace Definition

variable (d : Definition)

/-- The text of a definition. -/
def given : String :=
  .ofList ((d.beforeName.1 ++ d.name.toList ++ d.behindName.1) ++ '=' ::
    (d.beforeValue.1 ++ (text d.value).toList ++ d.behindValue.1))

/-- What a definition adds to those before it. -/
def entry : String × Float := (d.name, d.value)

theorem equalsSign_not_mem_value :
    '=' ∉ d.beforeValue.1 ++ (text d.value).toList ++ d.behindValue.1 := by
  have noBlank : ∀ bs : Blanks, '=' ∉ bs.1 := fun bs mem => absurd (bs.2 '=' mem) (by decide)
  simp only [List.mem_append, not_or]
  exact ⟨⟨noBlank _, fun mem => (isPlain_of_mem_text mem).2 rfl⟩, noBlank _⟩

/-- A definition is taken apart into the name and the text of the value. -/
theorem parseOne_given : Definitions.parseOne d.given = .ok (d.name, text d.value) := by
  have split := Definitions.parts_append (d.beforeName.1 ++ d.name.toList ++ d.behindName.1) _
    d.equalsSign_not_mem_value
  have name : String.ofList (trim (d.beforeName.1 ++ d.name.toList ++ d.behindName.1)) =
      d.name := by
    rw [trim_append d.beforeName.2 d.behindName.2]
    exact d.trimmed
  have value : String.ofList (trim (d.beforeValue.1 ++ (text d.value).toList ++ d.behindValue.1)) =
      text d.value := by
    rw [trim_append d.beforeValue.2 d.behindValue.2, trim_text, String.ofList_toList]
  have some : text d.value ≠ "" := by
    intro empty
    exact toList_text_ne_nil d.value (by rw [empty]; rfl)
  rw [Definitions.parseOne, given, String.toList_ofList, split]
  simp only [name, value]
  rw [if_neg (not_or.2 ⟨d.nonempty, some⟩)]

variable {d} {known : NameMap Float}

theorem add_of_new (new : d.name ∉ known.keys) :
    Definitions.add known d.given = .ok (known.set d.name d.value) := by
  have absent : known.contains d.name = false := by simpa [NameMap.contains] using new
  have read : readReal (text d.value) = .ok d.value := readReal_eq_ok.2 (readReal?_text d.value)
  simp [Definitions.add, d.parseOne_given, absent, read, bind, Except.bind, pure, Except.pure,
    Except.mapError]

theorem add_of_known (old : d.name ∈ known.keys) :
    Definitions.add known d.given = .error (.duplicate d.name) := by
  have present : known.contains d.name = true := NameMap.contains_iff.2 old
  simp [Definitions.add, d.parseOne_given, present, bind, Except.bind, throw, throwThe,
    MonadExceptOf.throw]

end Definition

/-! ## One after another -/

/-- Where the keys of a list repeat, there is a first element whose key was there before. -/
theorem exists_first_repeat {α κ : Type} (key : α → κ) {xs : List α} (h : ¬(xs.map key).Nodup) :
    ∃ before x behind, xs = before ++ x :: behind ∧ (before.map key).Nodup ∧
      key x ∈ before.map key := by
  -- The list is taken apart from its end: the last element repeats a key, or one before it does.
  induction xs using List.reverseRecOn with
  | nil => exact absurd List.nodup_nil h
  | append_singleton xs x ih =>
    by_cases distinct : (xs.map key).Nodup
    · refine ⟨xs, x, [], rfl, distinct, ?_⟩
      by_contra new
      apply h
      rw [List.map_append, List.nodup_append]
      refine ⟨distinct, List.nodup_singleton _, ?_⟩
      rintro a ha b hb rfl
      exact new (List.mem_singleton.1 hb ▸ ha)
    · obtain ⟨before, y, behind, rfl, rest⟩ := ih distinct
      exact ⟨before, y, behind ++ [x], by simp, rest⟩

namespace Definitions

/-- Definitions of new names are added in their order. -/
theorem foldlM_given (ds : List Definition) (known : NameMap Float)
    (distinct : (known.keys ++ ds.map Definition.name).Nodup) :
    ∃ after, (ds.map Definition.given).foldlM add known = .ok after ∧
      after.entries = known.entries ++ ds.map Definition.entry := by
  induction ds generalizing known with
  | nil => exact ⟨known, rfl, by simp⟩
  | cons d ds ih =>
    have new : d.name ∉ known.keys := by
      intro old
      exact (List.nodup_append.1 distinct).2.2 _ old _ (by simp) rfl
    have keys : (known.set d.name d.value).keys = known.keys ++ [d.name] := by
      rw [NameMap.keys_set, if_neg new]
    have entries : (known.set d.name d.value).entries = known.entries ++ [d.entry] :=
      NameMap.setEntry_of_fresh new d.value
    obtain ⟨after, read, left⟩ := ih (known.set d.name d.value) (by simpa [keys] using distinct)
    refine ⟨after, ?_, ?_⟩
    · rw [List.map_cons, List.foldlM_cons, Definition.add_of_new new]
      exact read
    · rw [left, entries]
      simp

/-- Definitions with different names give these names their values, in the order in which they are
given. Where a name is given twice, the first definition of a name that was there before is refused.
-/
theorem parse_given (ds : List Definition) :
    ((ds.map Definition.name).Nodup →
      ∃ values, parse (ds.map Definition.given) = .ok values ∧
        values.entries = ds.map Definition.entry) ∧
    (¬(ds.map Definition.name).Nodup →
      ∃ before d behind, ds = before ++ d :: behind ∧ (before.map Definition.name).Nodup ∧
        d.name ∈ before.map Definition.name ∧
        parse (ds.map Definition.given) = .error (.duplicate d.name)) := by
  constructor
  · intro distinct
    obtain ⟨values, read, entries⟩ := foldlM_given ds .empty (by simpa using distinct)
    exact ⟨values, read, entries⟩
  · intro repeated
    obtain ⟨before, d, behind, rfl, distinct, old⟩ := exists_first_repeat Definition.name repeated
    refine ⟨before, d, behind, rfl, distinct, old, ?_⟩
    -- What stands before the repeated name is read, so its name is known by then.
    obtain ⟨values, read, entries⟩ := foldlM_given before .empty (by simpa using distinct)
    have keys : values.keys = before.map Definition.name := by
      rw [NameMap.keys, entries]
      simp [NameMap.empty, Definition.entry]
    refine foldlM_eq_error_iff.2 ⟨before.map Definition.given, d.given,
      behind.map Definition.given, values, by simp, read, ?_⟩
    exact Definition.add_of_known (keys ▸ old)

/-- Names that hold equals signs, with blanks and a value that is not a number. -/
def eventDefinitions : List Definition :=
  [{ name := "cpu/event=0x3c/", value := -1.5, nonempty := by decide, trimmed := by decide +kernel
     beforeName := ⟨['\u2003'], by decide⟩, behindName := ⟨['\t'], by decide⟩ },
   { name := "b=", value := 0.0 / 0.0, nonempty := by decide, trimmed := by decide +kernel
     behindValue := ⟨['\n'], by decide⟩ }]

/-- A second definition of one of these names. -/
def secondDefinition : Definition :=
  { name := "b=", value := 1.0, nonempty := by decide, trimmed := by decide +kernel
    behindName := ⟨[' '], by decide⟩ }

theorem parse_given_events :
    (∃ values, parse ["\u2003cpu/event=0x3c/\t=-1.5", "b==nan\n"] = .ok values ∧
      values.entries = [("cpu/event=0x3c/", -1.5), ("b=", 0.0 / 0.0)]) ∧
    ∃ name, parse ["\u2003cpu/event=0x3c/\t=-1.5", "b==nan\n", "b= =1.0"] =
      .error (.duplicate name) := by
  have texts : eventDefinitions.map Definition.given =
      ["\u2003cpu/event=0x3c/\t=-1.5", "b==nan\n"] := by decide +kernel
  have allTexts : (eventDefinitions ++ [secondDefinition]).map Definition.given =
      ["\u2003cpu/event=0x3c/\t=-1.5", "b==nan\n", "b= =1.0"] := by decide +kernel
  rw [← texts, ← allTexts]
  constructor
  · exact (parse_given eventDefinitions).1 (by decide +kernel)
  · obtain ⟨-, d, -, -, -, -, refused⟩ :=
      (parse_given (eventDefinitions ++ [secondDefinition])).2 (by decide +kernel)
    exact ⟨d.name, refused⟩

end Definitions
end PerfFormula
