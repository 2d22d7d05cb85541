import PerfFormula.Formula.Token
import PerfFormula.Text.Longest

/-!
# Classes of lexemes

Which texts each class of lexemes holds, as predicates, and that cutting a formula takes the longest
prefix of the class that opens it.

Main statements:

* `Token.front?_isLongest` — no longer prefix of the text is in the class of its lexeme.
-/

namespace PerfFormula.Token

open PerfFormula.Text

/-! ## The classes -/

/-- A point, and perhaps digits behind it. -/
def IsFraction (cs : List Char) : Prop := ∃ digits, cs = '.' :: digits ∧ RunOf isDigit digits

/-- Digits with at most one point in front of, among or behind them. -/
def IsMantissa (cs : List Char) : Prop :=
  Followed (RunOf isDigit) (OrEmpty IsFraction) cs ∧ ∃ c ∈ cs, isDigit c = true

/-- The letter of a power of ten, perhaps a minus, and digits. -/
def IsPower (cs : List Char) : Prop :=
  ∃ sign digits, cs = 'e' :: (sign ++ digits) ∧ (sign = [] ∨ sign = ['-']) ∧
    RunOf isDigit digits ∧ digits ≠ []

/-- A number. -/
def IsNumber : List Char → Prop := Followed IsMantissa (OrEmpty IsPower)

/-- Name characters and escapes. -/
inductive NameRun : List Char → Prop
  | nil : NameRun []
  | char {c cs} : isNameChar c = true → NameRun cs → NameRun (c :: cs)
  | escape {c cs} : isEscapable c = true → NameRun cs → NameRun ('\\' :: c :: cs)

/-- What the lexemes of a class may be written as. -/
def Kind.Class : Kind → List Char → Prop
  | .blank => fun cs => RunOf isBlank cs ∧ cs ≠ []
  | .number => IsNumber
  | .name => fun cs => NameRun cs ∧ cs ≠ []
  | .escape => fun cs => ∃ rest, cs = '\\' :: rest ∧ RunOf (· ≠ '\n') rest ∧ rest.length ≤ 1
  | .literal => fun cs => ∃ word, cs = '#' :: word ∧ RunOf isWordChar word ∧ word ≠ []
  | .symbol lexeme => fun cs => ∃ c, cs = [c] ∧ symbol? c = some lexeme

/-! ## Longest numbers -/

theorem IsMantissa.digit_or_point {cs : List Char} (h : IsMantissa cs) :
    ∀ c ∈ cs, isDigit c = true ∨ c = '.' := by
  obtain ⟨⟨whole, fraction, rfl, run, mem⟩, -⟩ := h
  intro c hc
  rcases List.mem_append.1 hc with hc | hc
  · exact .inl (run c hc)
  · rcases mem with rfl | ⟨digits, rfl, run⟩
    · simp at hc
    · rcases List.mem_cons.1 hc with rfl | hc
      · exact .inr rfl
      · exact .inl (run c hc)

/-- The point behind whole digits, with its digits. -/
def fractionPrefix : List Char → List Char
  | '.' :: rest => '.' :: rest.takeWhile isDigit
  | _ => []

theorem isLongest_fractionPrefix (cs : List Char) :
    IsLongest (OrEmpty IsFraction) (fractionPrefix cs) cs := by
  unfold fractionPrefix
  split
  · next rest =>
    have longest := isLongest_takeWhile isDigit rest
    refine ⟨(List.prefix_cons_inj _).2 longest.isPrefix, .inr ⟨_, rfl, longest.mem⟩, ?_⟩
    rintro _ pre (rfl | ⟨digits, rfl, run⟩)
    · exact Nat.zero_le _
    · exact Nat.succ_le_succ (longest.length_le digits (List.cons_prefix_cons.1 pre).2 run)
  · next other =>
    refine ⟨List.nil_prefix, .inl rfl, ?_⟩
    rintro _ pre (rfl | ⟨digits, rfl, -⟩)
    · exact Nat.le_refl _
    · obtain ⟨rest, rfl⟩ := pre
      exact absurd rfl (other (digits ++ rest))

theorem exists_digit_iff {run : List Char} (h : RunOf isDigit run) :
    (∃ c ∈ run, isDigit c = true) ↔ run ≠ [] := by
  constructor
  · rintro ⟨c, hc, -⟩ rfl
    simp at hc
  · intro ne
    obtain ⟨c, cs, rfl⟩ := List.exists_cons_of_ne_nil ne
    exact ⟨c, by simp, h c (by simp)⟩

/-- The longest mantissa is whole digits and a point with its digits, unless there is no digit. -/
theorem mantissaPrefix_eq (cs : List Char) :
    mantissaPrefix cs =
      let taken := cs.takeWhile isDigit ++ fractionPrefix (cs.dropWhile isDigit)
      if taken.any isDigit then taken else [] := by
  have whole := exists_digit_iff (run_takeWhile isDigit cs)
  unfold mantissaPrefix fractionPrefix
  generalize cs.dropWhile isDigit = tail
  simp only
  split
  · next rest =>
    have fraction := exists_digit_iff (run_takeWhile isDigit rest)
    have point : isDigit '.' = false := by decide
    simp only [List.any_eq_true, List.mem_append, List.mem_cons, or_and_right, exists_or,
      exists_eq_left, whole, fraction, point]
    by_cases w : cs.takeWhile isDigit = [] <;> by_cases f : rest.takeWhile isDigit = [] <;>
      simp [w, f]
  · simp only [List.append_nil, List.any_eq_true, whole]
    by_cases w : cs.takeWhile isDigit = [] <;> simp [w]

theorem isLongest_mantissaPrefix (cs : List Char) :
    IsLongest (OrEmpty IsMantissa) (mantissaPrefix cs) cs := by
  have whole := isLongest_takeWhile isDigit cs
  have split := List.takeWhile_append_dropWhile (p := isDigit) (l := cs)
  have both : IsLongest (Followed (RunOf isDigit) (OrEmpty IsFraction))
      (cs.takeWhile isDigit ++ fractionPrefix (cs.dropWhile isDigit))
      (cs.takeWhile isDigit ++ cs.dropWhile isDigit) := by
    refine IsLongest.append (split.symm ▸ whole) (isLongest_fractionPrefix _) ?_
    rintro _ (rfl | ⟨digits, rfl, -⟩) c hc
    · simp at hc
    · obtain rfl : '.' = c := by simpa using hc
      exact fun h => absurd (run_takeWhile _ _ _ h) (by decide)
  rw [split] at both
  have longest := both.restrict (P := fun cs => ∃ c ∈ cs, isDigit c = true)
    fun a b pre ⟨c, hc, digit⟩ => ⟨c, pre.mem hc, digit⟩
  rw [mantissaPrefix_eq]
  simp only [List.any_eq_true]
  exact longest

theorem powerPrefix_append {sign digits : List Char} (rest : List Char)
    (hs : sign = [] ∨ sign = ['-']) (run : RunOf isDigit digits) (ne : digits ≠ []) :
    powerPrefix ('e' :: (sign ++ (digits ++ rest))) =
      'e' :: (sign ++ (digits ++ rest.takeWhile isDigit)) := by
  have some : (digits ++ rest.takeWhile isDigit).isEmpty = false := by simp [ne]
  rcases hs with rfl | rfl
  · obtain ⟨d, ds, rfl⟩ := List.exists_cons_of_ne_nil ne
    -- Without a sign the digits come first, and no digit is a minus.
    have plain : d ≠ '-' := by rintro rfl; exact absurd (run '-' (by simp)) (by decide)
    have taken : (d :: ds ++ rest).takeWhile isDigit = d :: ds ++ rest.takeWhile isDigit :=
      List.takeWhile_append_of_pos run
    simp only [List.cons_append, List.nil_append] at some taken ⊢
    rw [powerPrefix.eq_2 _ (by simp [plain]), taken]
    simp
  · simp [powerPrefix, List.takeWhile_append_of_pos run, some]

theorem isLongest_powerPrefix (cs : List Char) :
    IsLongest (OrEmpty IsPower) (powerPrefix cs) cs := by
  refine ⟨powerPrefix_isPrefix cs, ?_, ?_⟩
  · unfold powerPrefix
    split
    · next rest =>
      by_cases ne : rest.takeWhile isDigit = []
      · simp [OrEmpty, ne]
      · exact .inr ⟨['-'], rest.takeWhile isDigit, by simp [ne], .inr rfl, run_takeWhile _ _, ne⟩
    · next rest _ =>
      by_cases ne : rest.takeWhile isDigit = []
      · simp [OrEmpty, ne]
      · exact .inr ⟨[], rest.takeWhile isDigit, by simp [ne], .inl rfl, run_takeWhile _ _, ne⟩
    · exact .inl rfl
  · rintro _ pre (rfl | ⟨sign, digits, rfl, hs, run, ne⟩)
    · exact Nat.zero_le _
    · obtain ⟨rest, rfl⟩ := pre
      have read := powerPrefix_append rest hs run ne
      simp only [List.cons_append, List.append_assoc, read, List.length_cons, List.length_append]
      omega

/-- The longest number in front of a text. -/
theorem isLongest_numberPrefix (cs : List Char) :
    IsLongest (OrEmpty IsNumber) (numberPrefix cs) cs := by
  have mantissa := isLongest_mantissaPrefix cs
  unfold numberPrefix
  simp only
  split
  · next none =>
    have none := List.isEmpty_iff.1 none
    refine ⟨List.nil_prefix, .inl rfl, ?_⟩
    rintro _ pre (rfl | ⟨front, back, rfl, inM, -⟩)
    · exact Nat.le_refl _
    · refine absurd inM ((mantissa.eq_nil_iff fun h => ?_).1 none front ?_)
      · obtain ⟨-, c, hc, -⟩ := h
        simp at hc
      · exact (List.prefix_append front back).trans pre
  · next some =>
    generalize mantissaPrefix cs = m at *
    obtain ⟨rest, rfl⟩ := mantissa.isPrefix
    have ne : m ≠ [] := by simpa using some
    have both := (mantissa.of_ne_nil ne).append (isLongest_powerPrefix rest) ?_
    · rw [List.drop_left]
      refine ⟨both.isPrefix, .inr both.mem, ?_⟩
      rintro other pre (rfl | mem)
      · exact Nat.zero_le _
      · exact both.length_le other pre mem
    · rintro _ (rfl | ⟨sign, digits, rfl, -⟩) c hc
      · simp at hc
      · obtain rfl : 'e' = c := by simpa using hc
        exact fun h => absurd ((mantissa.of_ne_nil ne).mem.digit_or_point _ h) (by decide)

/-! ## Longest names -/

theorem NameRun.prefix_namePrefix {taken : List Char} (run : NameRun taken) (rest : List Char) :
    taken <+: namePrefix (taken ++ rest) := by
  induction run with
  | nil => exact List.nil_prefix
  | @char c cs hc _ ih =>
    -- A name character is no backslash, so the reader takes it as it is.
    have plain : c ≠ '\\' := by rintro rfl; exact absurd hc (by decide)
    rw [List.cons_append, namePrefix.eq_2 _ _ (by simp [plain]), if_pos hc]
    exact (List.prefix_cons_inj c).2 ih
  | @escape c cs hc _ ih =>
    rw [List.cons_append, List.cons_append, namePrefix, if_pos hc]
    exact (List.prefix_cons_inj _).2 ((List.prefix_cons_inj c).2 ih)

theorem nameRun_namePrefix (cs : List Char) : NameRun (namePrefix cs) := by
  fun_induction namePrefix cs with
  | case1 c cs hc ih => exact .escape hc ih
  | case2 => exact .nil
  | case3 c cs _ hc ih => exact .char hc ih
  | case4 => exact .nil
  | case5 => exact .nil

theorem isLongest_namePrefix (cs : List Char) : IsLongest NameRun (namePrefix cs) cs := by
  refine ⟨namePrefix_isPrefix cs, nameRun_namePrefix cs, ?_⟩
  rintro other ⟨rest, rfl⟩ run
  exact (run.prefix_namePrefix rest).length_le

/-! ## Lexemes -/

/-- A lexeme that opens with a certain character is the longest of its class if what follows the
character is. -/
theorem isLongest_cons {C : List Char → Prop} {taken cs : List Char} (c : Char)
    (h : IsLongest C taken cs) : IsLongest (fun cs => ∃ rest, cs = c :: rest ∧ C rest)
      (c :: taken) (c :: cs) := by
  refine ⟨(List.prefix_cons_inj c).2 h.isPrefix, ⟨taken, rfl, h.mem⟩, ?_⟩
  rintro _ pre ⟨rest, rfl, mem⟩
  exact Nat.succ_le_succ (h.length_le rest (List.cons_prefix_cons.1 pre).2 mem)

theorem isLongest_escape (cs : List Char) :
    IsLongest (fun cs => RunOf (· ≠ '\n') cs ∧ cs.length ≤ 1)
      ((cs.take 1).filter (· ≠ '\n')) cs := by
  cases cs with
  | nil =>
    refine ⟨List.nil_prefix, ⟨fun c hc => by simp at hc, by simp⟩, ?_⟩
    rintro other pre -
    simp [List.prefix_nil.1 pre]
  | cons c rest =>
    by_cases line : c = '\n'
    · subst line
      refine ⟨List.nil_prefix, ⟨fun c hc => by simp at hc, by simp⟩, ?_⟩
      rintro other pre ⟨run, -⟩
      cases other with
      | nil => simp
      | cons d ds =>
        obtain ⟨rfl, -⟩ := List.cons_prefix_cons.1 pre
        exact absurd (run '\n' (by simp)) (by decide)
    · have taken : ((c :: rest).take 1).filter (· ≠ '\n') = [c] := by simp [line]
      rw [taken]
      exact ⟨⟨rest, rfl⟩, ⟨by simpa [RunOf] using line, Nat.le_refl _⟩, fun _ _ mem => mem.2⟩

/-- No longer prefix of the text is in the class of its lexeme. -/
theorem front?_isLongest {cs raw : List Char} {kind : Kind} (h : front? cs = some (kind, raw)) :
    IsLongest kind.Class raw cs := by
  cases cs with
  | nil => simp [front?] at h
  | cons c rest =>
    simp only [front?] at h
    split at h
    · next blank =>
      obtain ⟨rfl, rfl⟩ := Prod.mk.inj (Option.some.inj h)
      -- A blank run goes on as long as it can.
      have longest := isLongest_takeWhile isBlank (c :: rest)
      rw [List.takeWhile_cons_of_pos blank] at longest
      exact ⟨longest.isPrefix, ⟨longest.mem, by simp⟩,
        fun other pre mem => longest.length_le other pre mem.1⟩
    split at h
    · next ne =>
      obtain ⟨rfl, rfl⟩ := Prod.mk.inj (Option.some.inj h)
      exact (isLongest_numberPrefix _).of_ne_nil (by simpa using ne)
    split at h
    · next ne =>
      obtain ⟨rfl, rfl⟩ := Prod.mk.inj (Option.some.inj h)
      have longest := isLongest_namePrefix (c :: rest)
      exact ⟨longest.isPrefix, ⟨longest.mem, by simpa using ne⟩,
        fun other pre mem => longest.length_le other pre mem.1⟩
    split at h
    · next escape =>
      obtain ⟨rfl, rfl⟩ := Prod.mk.inj (Option.some.inj h)
      exact escape ▸ isLongest_cons c (isLongest_escape rest)
    split at h
    · next hash =>
      split at h
      · simp at h
      · next ne =>
        obtain ⟨rfl, rfl⟩ := Prod.mk.inj (Option.some.inj h)
        have longest := isLongest_takeWhile isWordChar rest
        have word : IsLongest (fun cs => RunOf isWordChar cs ∧ cs ≠ [])
            (rest.takeWhile isWordChar) rest :=
          ⟨longest.isPrefix, ⟨longest.mem, by simpa using ne⟩,
            fun other pre mem => longest.length_le other pre mem.1⟩
        exact hash ▸ isLongest_cons c word
    · obtain ⟨lexeme, symbol, pair⟩ := Option.map_eq_some_iff.1 h
      obtain ⟨rfl, rfl⟩ := Prod.mk.inj pair
      refine ⟨⟨rest, rfl⟩, ⟨c, rfl, symbol⟩, ?_⟩
      rintro _ - ⟨d, rfl, -⟩
      exact Nat.le_refl _

end PerfFormula.Token
