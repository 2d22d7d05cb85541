/-!
# Longest prefixes

What it means that a cut takes the longest prefix of a class: the prefix is in the class and no
prefix of the class is longer. A class is a predicate on runs of characters.

Main statements:

* `IsLongest.eq` — there is only one.
* `isLongest_takeWhile` — the longest run of characters that pass a test is what `takeWhile` takes.
* `takeWhile_run_append` — such a run ends in front of a character that does not pass.
* `IsLongest.append` — a longest prefix and the longest tail behind it form a longest prefix, if no
  tail could start earlier.
* `IsLongest.restrict` — a property that longer texts keep may be asked in addition.
* `IsLongest.stop` — behind a longest prefix stands nothing that would make it longer.
* `IsLongest.of_prefixes` — what is longest in one text is longest in another that offers no more.
* `isLongest_of_stop` — texts of characters that pass a test end in front of one that does not.
-/

namespace PerfFormula.Text

/-- A prefix of a text that is in a class and at least as long as every other. -/
structure IsLongest (C : List Char → Prop) (taken cs : List Char) : Prop where
  isPrefix : taken <+: cs
  mem : C taken
  length_le : ∀ other, other <+: cs → C other → other.length ≤ taken.length

/-- The empty text, and the texts of a class. -/
def OrEmpty (C : List Char → Prop) (cs : List Char) : Prop := cs = [] ∨ C cs

/-- A text of one class and a text of another behind it. -/
def Followed (C D : List Char → Prop) (cs : List Char) : Prop :=
  ∃ front back, cs = front ++ back ∧ C front ∧ D back

/-- Texts of characters that pass a test. -/
def RunOf (p : Char → Bool) (cs : List Char) : Prop := ∀ c ∈ cs, p c = true

instance (p : Char → Bool) (cs : List Char) : Decidable (RunOf p cs) :=
  decidable_of_iff (cs.all p = true) List.all_eq_true

variable {C D : List Char → Prop} {p : Char → Bool} {taken cs : List Char}

namespace IsLongest

theorem eq {other : List Char} (h : IsLongest C taken cs) (h' : IsLongest C other cs) :
    taken = other :=
  (List.prefix_of_prefix_length_le h.isPrefix h'.isPrefix
    (h'.length_le _ h.isPrefix h.mem)).eq_of_length
      (Nat.le_antisymm (h'.length_le _ h.isPrefix h.mem) (h.length_le _ h'.isPrefix h'.mem))

/-- What is taken of an optional class is of the class, unless nothing is taken. -/
theorem of_ne_nil (h : IsLongest (OrEmpty C) taken cs) (ne : taken ≠ []) : IsLongest C taken cs :=
  ⟨h.isPrefix, h.mem.resolve_left ne, fun other pre mem => h.length_le other pre (.inr mem)⟩

/-- Nothing is taken exactly when no prefix is of the class. -/
theorem eq_nil_iff (h : IsLongest (OrEmpty C) taken cs) (proper : ¬C []) :
    taken = [] ↔ ∀ other, other <+: cs → ¬C other := by
  constructor
  · rintro rfl other pre mem
    have := h.length_le other pre (.inr mem)
    exact proper (List.length_eq_zero_iff.1 (Nat.le_zero.1 this) ▸ mem)
  · exact fun none => h.mem.resolve_right (none taken h.isPrefix)

/-- A longest prefix, and the longest tail behind it, are the longest prefix of texts with a tail,
when no tail starts with a character of the first. -/
theorem append {back rest : List Char} (h : IsLongest C taken (taken ++ rest))
    (h' : IsLongest D back rest) (start : ∀ tail, D tail → ∀ c ∈ tail.head?, c ∉ taken) :
    IsLongest (Followed C D) (taken ++ back) (taken ++ rest) := by
  refine ⟨(List.prefix_append_right_inj taken).2 h'.isPrefix, ⟨taken, back, rfl, h.mem, h'.mem⟩, ?_⟩
  rintro _ pre ⟨front, tail, rfl, inC, inD⟩
  have frontPre : front <+: taken ++ rest := (List.prefix_append front tail).trans pre
  have shorter := h.length_le front frontPre inC
  obtain ⟨gap, rfl⟩ :=
    List.prefix_of_prefix_length_le frontPre (List.prefix_append taken rest) shorter
  rw [List.append_assoc, List.prefix_append_right_inj] at pre
  simp only [List.length_append]
  -- Without a gap the tails can be compared; a gap would be where the other tail starts.
  cases gap with
  | nil =>
    have := h'.length_le tail pre inD
    simp only [List.length_nil]
    omega
  | cons g gap =>
    cases tail with
    | nil => simp only [List.length_nil]; omega
    | cons c tail =>
      obtain ⟨rfl, -⟩ := List.cons_prefix_cons.1 pre
      exact absurd (by simp) (start _ inD c (by simp))

/-- A property that longer texts keep may be asked in addition: where the longest prefix lacks it,
every prefix does. -/
theorem restrict {P : List Char → Prop} [DecidablePred P] (h : IsLongest C taken cs)
    (keep : ∀ a b, a <+: b → P a → P b) :
    IsLongest (OrEmpty fun cs => C cs ∧ P cs) (if P taken then taken else []) cs := by
  by_cases has : P taken
  · rw [if_pos has]
    refine ⟨h.isPrefix, .inr ⟨h.mem, has⟩, ?_⟩
    rintro other pre (rfl | ⟨mem, -⟩)
    · exact Nat.zero_le _
    · exact h.length_le other pre mem
  · rw [if_neg has]
    refine ⟨List.nil_prefix, .inl rfl, ?_⟩
    rintro other pre (rfl | ⟨mem, other_has⟩)
    · exact Nat.le_refl _
    · -- The other prefix is a prefix of what was taken, which would keep the property.
      have inside := List.prefix_of_prefix_length_le pre h.isPrefix (h.length_le other pre mem)
      exact absurd (keep other taken inside other_has) has

/-- Behind what is taken stands no character that could be taken, too. -/
theorem stop {rest : List Char} (h : IsLongest C taken (taken ++ rest))
    (grows : ∀ c, p c = true → C (taken ++ [c])) : ∀ c ∈ rest.head?, p c = false := by
  intro c hc
  obtain ⟨behind, rfl⟩ := List.head?_eq_some_iff.1 hc
  cases passes : p c with
  | false => rfl
  | true =>
    have longer := h.length_le (taken ++ [c]) ⟨behind, by simp⟩ (grows c passes)
    simp only [List.length_append, List.length_singleton] at longer
    omega

/-- What is longest in one text is longest in another that offers nothing more. -/
theorem of_prefixes {ds : List Char} (h : IsLongest C taken cs) (isPrefix : taken <+: ds)
    (fewer : ∀ other, other <+: ds → C other → other <+: cs) : IsLongest C taken ds :=
  ⟨isPrefix, h.mem, fun other pre mem => h.length_le other (fewer other pre mem) mem⟩

end IsLongest

theorem prefix_takeWhile {other : List Char} (pre : other <+: cs) (run : RunOf p other) :
    other <+: cs.takeWhile p := by
  obtain ⟨rest, rfl⟩ := pre
  rw [List.takeWhile_append_of_pos run]
  exact List.prefix_append other _

theorem run_takeWhile (p : Char → Bool) (cs : List Char) : RunOf p (cs.takeWhile p) :=
  List.all_eq_true.1 List.all_takeWhile

theorem RunOf.append {front back : List Char} (h : RunOf p front) (h' : RunOf p back) :
    RunOf p (front ++ back) := fun c hc => (List.mem_append.1 hc).elim (h c) (h' c)

theorem runOf_singleton {c : Char} (h : p c = true) : RunOf p [c] := by
  intro d hd
  exact List.mem_singleton.1 hd ▸ h

/-- A run of characters that pass a test ends in front of one that does not. -/
theorem takeWhile_run_append {run rest : List Char} (h : RunOf p run)
    (stop : ∀ c ∈ rest.head?, p c = false) :
    (run ++ rest).takeWhile p = run ∧ (run ++ rest).dropWhile p = rest := by
  rw [List.takeWhile_append_of_pos h, List.dropWhile_append_of_pos h]
  cases rest with
  | nil => simp
  | cons c rest => simp [stop c rfl]

/-- A run of characters that pass a test does not go past one that does not. -/
theorem isPrefix_of_stop {run other rest : List Char} (h : RunOf p run)
    (stop : ∀ c ∈ rest.head?, p c = false) (pre : other <+: run ++ rest) (within : RunOf p other) :
    other <+: run :=
  (takeWhile_run_append h stop).1 ▸ prefix_takeWhile pre within

theorem isLongest_of_stop {run rest : List Char} (mem : C run)
    (runs : ∀ other, C other → RunOf p other) (stop : ∀ c ∈ rest.head?, p c = false) :
    IsLongest C run (run ++ rest) :=
  ⟨List.prefix_append run rest, mem, fun other pre inC =>
    (isPrefix_of_stop (runs run mem) stop pre (runs other inC)).length_le⟩

/-- The longest run of characters that pass a test. -/
theorem isLongest_takeWhile (p : Char → Bool) (cs : List Char) :
    IsLongest (RunOf p) (cs.takeWhile p) cs :=
  ⟨List.takeWhile_prefix p, run_takeWhile p cs,
    fun _ pre run => (prefix_takeWhile pre run).length_le⟩

end PerfFormula.Text
