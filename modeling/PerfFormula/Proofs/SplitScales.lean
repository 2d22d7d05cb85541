import PerfFormula.Proofs.MatchedNumbers

/-!
# Splitting scale units

The pattern of a scale unit could be read in many ways: a number may be cut short, blanks may be
given back, the unit may end early. None of these ways comes before the one that takes the longest
number and the whole of what follows as the unit, and none of them accepts a text that this one
refuses: a number that is cut short leaves only more to the unit, which has to stand on one line in
any case.

Main statements:

* `best?_unit`, `line_of_mem_unit` — a unit is read exactly if it stands on one line, and as a
  whole.
* `best?_pattern`, `line_of_mem_pattern` — the same of a scale unit with its longest number.
* `ofText?_splits` — a scale unit is the longest number and the unit behind it.
-/

namespace PerfFormula.ScaleUnit

open PerfFormula.Text PerfFormula.Decimal

variable {cs : List Char} {r : Reading}

/-! ## Units -/

theorem best?_end (blank : ∀ c ∈ cs, isBlank c = true) :
    endPattern.best? cs = some ⟨cs, [], []⟩ := by
  have all : (Pattern.many isBlank).best? cs = some ⟨cs, [], []⟩ := by
    have run := Pattern.best?_many blank (by simp : ∀ c ∈ [].head?, isBlank c = false)
    rwa [List.append_nil] at run
  have read := Pattern.best?_andThen (q := .atEnd) all rfl
  simpa [endPattern, Reading.followedBy, Reading.nothing] using read

/-- Nothing but blanks can be read as the end. -/
theorem blank_of_mem_end (h : r ∈ endPattern.readings cs) : ∀ c ∈ cs, isBlank c = true := by
  obtain ⟨blanks, mem, last, mem', -⟩ := Pattern.mem_andThen_iff.1 h
  obtain ⟨split, run⟩ := Pattern.mem_many mem
  obtain ⟨-, ends⟩ := Pattern.mem_atEnd mem'
  intro c hc
  rw [split] at hc
  rcases List.mem_append.1 hc with hc | hc
  · exact run c hc
  · rcases ends with none | lineFeed
    · rw [none] at hc
      cases hc
    · rw [lineFeed] at hc
      rw [List.mem_singleton.1 hc]
      rfl

theorem readings_end_of_visible {c : Char} (mem : c ∈ cs) (visible : isBlank c = false) :
    endPattern.readings cs = [] := by
  rw [List.eq_nil_iff_forall_not_mem]
  intro r mem'
  have blank := blank_of_mem_end mem' c mem
  rw [visible] at blank
  cases blank

/-- A unit on one line is read as a whole. To end earlier would leave its last character, which is
no blank. -/
theorem best?_unit (line : '\n' ∉ trim cs) :
    unitPattern.best? cs = some ⟨cs, [(2, trim cs)], []⟩ := by
  obtain ⟨back, kept, blank⟩ := exists_dropWhile_eq isBlank cs
  have front := Pattern.best?_many_takeWhile isBlank cs
  have split := List.takeWhile_append_dropWhile (p := isBlank) (l := cs)
  have last := getLast?_trimBy_kept isBlank cs
  rw [kept] at front split
  have run : RunOf (· != '\n') (trimBy isBlank cs) := by
    intro c hc
    rw [bne_iff_ne]
    rintro rfl
    exact line hc
  obtain ⟨shorter, longer, tried, behind⟩ := Pattern.readings_group_few 2 run back
  have fails : ∀ f ∈ shorter, endPattern.readings f.rest = [] := by
    intro f mem
    obtain ⟨given, ne, taken, left⟩ := behind f mem
    obtain ⟨init, c, rfl⟩ := (List.eq_nil_or_concat given).resolve_left ne
    have visible : isBlank c = false := last c (by simp [taken])
    exact readings_end_of_visible (by simp [left]) visible
  have read := Pattern.best?_andThen front
    (Pattern.best?_andThen_of_failing tried fails (best?_end blank))
  simp only [Reading.followedBy, List.nil_append, List.append_nil, split] at read
  exact read

/-- A unit stands on one line. -/
theorem line_of_mem_unit (h : r ∈ unitPattern.readings cs) : '\n' ∉ trim cs := by
  obtain ⟨blanks, mem, behind, mem', -⟩ := Pattern.mem_andThen_iff.1 h
  obtain ⟨unit, unitMem, last, lastMem, -⟩ := Pattern.mem_andThen_iff.1 mem'
  obtain ⟨inner, innerMem, rfl⟩ := Pattern.mem_group_iff.1 unitMem
  obtain ⟨split, front⟩ := Pattern.mem_many mem
  obtain ⟨split', run⟩ := Pattern.mem_runs innerMem
  have back := blank_of_mem_end lastMem
  rw [split, split', ← List.append_assoc, trim_append front back]
  intro lineFeed
  have within : '\n' ∈ inner.taken := by
    obtain ⟨behind, kept, -⟩ := exists_dropWhile_eq isBlank inner.taken
    apply (List.dropWhile_suffix isBlank).subset
    rw [kept]
    exact List.mem_append_left behind lineFeed
  have other := run '\n' within
  cases other

/-! ## Scale units -/

variable {back : List Char}

/-- Blanks behind a text are no part of its number. -/
theorem numberPrefix_append (blank : ∀ c ∈ back, isBlank c = true) :
    numberPrefix (cs ++ back) = numberPrefix cs := by
  have longest := isLongest_numberPrefix cs
  refine (isLongest_numberPrefix (cs ++ back)).eq (longest.of_prefixes ?_ ?_)
  · exact longest.isPrefix.trans (List.prefix_append cs back)
  · rintro other pre (rfl | isNumber)
    · exact List.nil_prefix
    · have both := List.prefix_or_prefix_of_prefix pre (List.prefix_append cs back)
      rcases both with within | ⟨more, rfl⟩
      · exact within
      · cases more with
        | nil => simp
        | cons c more =>
          -- The first character behind the text would be a blank in a number.
          have typed := isNumber.isTyped c (by simp)
          have within : c ∈ back := by
            have := ((List.prefix_append_right_inj cs).1 pre).subset
            exact this List.mem_cons_self
          have visible := blank c within
          rw [isBlank_of_isTyped typed] at visible
          cases visible

theorem unitOf_append (blank : ∀ c ∈ back, isBlank c = true) : unitOf (cs ++ back) = unitOf cs := by
  have within := (isLongest_numberPrefix cs).isPrefix.length_le
  rw [unitOf, numberPrefix_append blank, List.drop_append_of_le_length within]
  exact trim_append_right blank _

/-- The blanks behind a text need not be trimmed to find its number and its unit. -/
theorem parts_trim (cs : List Char) :
    numberPrefix (cs.dropWhile isBlank) = numberPrefix (trim cs) ∧
      unitOf (cs.dropWhile isBlank) = unitOf (trim cs) := by
  obtain ⟨back, kept, blank⟩ := exists_dropWhile_eq isBlank cs
  rw [kept]
  exact ⟨numberPrefix_append blank, unitOf_append blank⟩

/-- The best way to read a scale unit: the longest number, and everything behind it. -/
theorem best?_pattern (line : '\n' ∉ unitOf (trim cs)) :
    pattern.best? cs =
      some ⟨cs, numberGroups (numberPrefix (trim cs)) ++ [(2, unitOf (trim cs))], []⟩ := by
  obtain ⟨sameNumber, sameUnit⟩ := parts_trim cs
  rw [← sameUnit] at line ⊢
  rw [← sameNumber]
  have front := Pattern.best?_many_takeWhile isBlank cs
  have split := List.takeWhile_append_dropWhile (p := isBlank) (l := cs)
  generalize cs.dropWhile isBlank = tail at *
  have number := List.prefix_iff_eq_append.1 (isLongest_numberPrefix tail).isPrefix
  have read := Pattern.best?_andThen front
    (Pattern.best?_andThen (best?_maybe_number tail) (best?_unit line))
  simp only [Reading.followedBy, List.nil_append, number, split] at read
  exact read

-- No digit follows the sign, so the letter in front of it begins the unit.
example : (pattern.best? " 1.5e+ s\n".toList).map Reading.groups =
    some [(1, "1.5".toList), (2, "e+ s".toList)] := by decide +kernel

/-- However a scale unit is read, its unit stands on one line: a number that is cut short leaves
more to the unit. -/
theorem line_of_mem_pattern (h : r ∈ pattern.readings cs) : '\n' ∉ unitOf (trim cs) := by
  obtain ⟨blanks, mem, behind, mem', -⟩ := Pattern.mem_andThen_iff.1 h
  obtain ⟨number, numberMem, unit, unitMem, -⟩ := Pattern.mem_andThen_iff.1 mem'
  obtain ⟨split, run⟩ := Pattern.mem_many mem
  have line := line_of_mem_unit unitMem
  rw [← (parts_trim cs).2]
  suffices within : unitOf (cs.dropWhile isBlank) <:+ trim number.rest from
    fun lineFeed => line (within.subset lineFeed)
  rcases Pattern.mem_maybe_iff.1 numberMem with numberMem | rfl
  · obtain ⟨inner, innerMem, rfl⟩ := Pattern.mem_group_iff.1 numberMem
    have isNumber := mem_number innerMem
    have tail := Pattern.eq_append_of_mem innerMem
    obtain ⟨c, more, taken⟩ := List.exists_cons_of_ne_nil
      (fun none => not_isNumber_nil (none ▸ isNumber) : inner.taken ≠ [])
    -- The blanks in front end at the number.
    have stop : ∀ c ∈ blanks.rest.head?, isBlank c = false := by
      rw [tail, taken]
      rintro c ⟨⟩
      exact isBlank_of_isTyped (isNumber.isTyped c (by simp [taken]))
    have same : cs.dropWhile isBlank = blanks.rest := split ▸ (takeWhile_run_append run stop).2
    have longer := (isLongest_numberPrefix blanks.rest).length_le inner.taken
      ⟨inner.rest, tail.symm⟩ (.inr isNumber)
    rw [same]
    apply trimBy_isSuffix
    have left : blanks.rest.drop inner.taken.length = inner.rest := by
      rw [tail, List.drop_left]
    exact left ▸ List.drop_suffix_drop_left blanks.rest longer
  · -- Without a number, all of the text is left to the unit.
    show _ <:+ trim blanks.rest
    rw [← trim_append_left run blanks.rest, ← split]
    apply trimBy_isSuffix
    exact (List.drop_suffix _ _).trans (List.dropWhile_suffix isBlank)

theorem ofText?_of_line {s : String} (line : '\n' ∉ unitOf (trim s.toList)) :
    ofText? s = some ⟨if (numberPrefix (trim s.toList)).isEmpty then 1.0
      else value (numberPrefix (trim s.toList)), .ofList (unitOf (trim s.toList))⟩ := by
  simp only [ofText?, if_neg line]

/-- Reading a scale unit by its pattern gives the longest number and the unit behind it. -/
theorem ofPattern?_eq_ofText? (s : String) : ofPattern? s = ofText? s := by
  by_cases line : '\n' ∈ unitOf (trim s.toList)
  · have none : pattern.readings s.toList = [] := by
      rw [List.eq_nil_iff_forall_not_mem]
      exact fun r mem => line_of_mem_pattern mem line
    rw [(ofText?_eq_none_iff s).2 line, ofPattern?, Pattern.best?, none]
    rfl
  · have read := best?_pattern line
    have longest := isLongest_numberPrefix (trim s.toList)
    obtain ⟨one, two⟩ := lookup_numberGroups (numberPrefix (trim s.toList)) (unitOf (trim s.toList))
    rw [ofPattern?, read, ofText?_of_line line]
    simp only [Option.bind_eq_bind, Option.bind_some, one, two]
    rcases longest.mem with none | isNumber
    · simp [none]
    · have some : numberPrefix (trim s.toList) ≠ [] :=
        fun none => not_isNumber_nil (none ▸ isNumber)
      simp [some, readReal?_of_isNumber isNumber]

/-- A scale unit is split into the longest number that the text starts with, blanks apart, and the
unit behind it. It is refused only if there is a line feed within the unit. -/
theorem ofText?_splits (s : String) :
    ∃ number rest, trim s.toList = number ++ rest ∧
      IsLongest (OrEmpty numberPattern.Accepts) number (trim s.toList) ∧
      (ofText? s = none ↔ '\n' ∈ trim rest) ∧
      ('\n' ∉ trim rest → ∃ scale, ofText? s = some ⟨scale, .ofList (trim rest)⟩ ∧
        (number = [] → scale = 1.0) ∧ (number ≠ [] → readReal (.ofList number) = .ok scale)) ∧
      ofPattern? s = ofText? s := by
  have accepts : numberPattern.Accepts = IsNumber :=
    funext fun cs => propext accepts_numberPattern_iff
  have longest := isLongest_numberPrefix (trim s.toList)
  rw [accepts]
  refine ⟨numberPrefix (trim s.toList), (trim s.toList).drop (numberPrefix (trim s.toList)).length,
    ?_, longest, ofText?_eq_none_iff s, ?_, ofPattern?_eq_ofText? s⟩
  · exact (List.prefix_iff_eq_append.1 longest.isPrefix).symm
  · intro line
    refine ⟨_, ofText?_of_line line, ?_, ?_⟩
    · intro none
      exact if_pos (List.isEmpty_iff.2 none)
    · intro some
      rw [if_neg (by simpa using some)]
      exact readReal_eq_ok.2 (readReal?_of_isNumber (longest.of_ne_nil some).mem)

end PerfFormula.ScaleUnit
