import PerfFormula.Decimal.Typed
import PerfFormula.Metric.ScaleUnit

/-!
# Numbers in front of units

Which texts are the number of a scale unit: digits, perhaps with a point before some of them, and
perhaps a power of ten with a sign.

Main statements:

* `ScaleUnit.isLongest_numberPrefix` — a scale unit starts with the longest such number.
-/

namespace PerfFormula.ScaleUnit

open PerfFormula.Text PerfFormula.Decimal

/-! ## The texts -/

/-- A point and digits. -/
def IsFraction (cs : List Char) : Prop :=
  ∃ digits, cs = '.' :: digits ∧ RunOf isDigit digits ∧ digits ≠ []

/-- Digits, the last of which may stand behind a point. -/
def IsMantissa (cs : List Char) : Prop :=
  Followed (RunOf isDigit) (OrEmpty IsFraction) cs ∧ cs ≠ []

/-- The letter of a power of ten, perhaps a sign, and digits. -/
def IsPower (cs : List Char) : Prop :=
  ∃ letter sign digits, cs = letter :: (sign ++ digits) ∧ (letter = 'e' ∨ letter = 'E') ∧
    (sign = [] ∨ sign = ['-'] ∨ sign = ['+']) ∧ RunOf isDigit digits ∧ digits ≠ []

/-- The number of a scale unit. -/
def IsNumber : List Char → Prop := Followed IsMantissa (OrEmpty IsPower)

theorem IsMantissa.digit_or_point {cs : List Char} (h : IsMantissa cs) :
    ∀ c ∈ cs, isDigit c = true ∨ c = '.' := by
  obtain ⟨⟨whole, fraction, rfl, run, mem⟩, -⟩ := h
  intro c hc
  rcases List.mem_append.1 hc with hc | hc
  · exact .inl (run c hc)
  · rcases mem with rfl | ⟨digits, rfl, run, -⟩
    · simp at hc
    · rcases List.mem_cons.1 hc with rfl | hc
      · exact .inr rfl
      · exact .inl (run c hc)

theorem IsMantissa.letter_not_mem {cs : List Char} (h : IsMantissa cs) {c : Char}
    (hc : c = 'e' ∨ c = 'E') : c ∉ cs := by
  intro mem
  have := h.digit_or_point c mem
  rcases hc with rfl | rfl <;> exact absurd this (by decide)

/-! ## The longest of them -/

theorem isLongest_fractionPrefix (cs : List Char) :
    IsLongest (OrEmpty IsFraction) (Numeral.fractionPrefix cs) cs := by
  unfold Numeral.fractionPrefix
  split
  · next rest =>
    have longest := isLongest_takeWhile isDigit rest
    have le : ∀ other, other <+: '.' :: rest → IsFraction other →
        ∃ digits, other = '.' :: digits ∧ digits ≠ [] ∧
          digits.length ≤ (rest.takeWhile isDigit).length := by
      rintro _ pre ⟨digits, rfl, run, ne⟩
      exact ⟨digits, rfl, ne, longest.length_le digits (List.cons_prefix_cons.1 pre).2 run⟩
    split
    · next none =>
      refine ⟨List.nil_prefix, .inl rfl, ?_⟩
      rintro other pre (rfl | mem)
      · exact Nat.le_refl _
      · obtain ⟨digits, -, ne, short⟩ := le other pre mem
        rw [List.isEmpty_iff.1 none, List.length_nil, Nat.le_zero, List.length_eq_zero_iff] at short
        exact absurd short ne
    · next some =>
      refine ⟨(List.prefix_cons_inj _).2 longest.isPrefix,
        .inr ⟨_, rfl, longest.mem, by simpa using some⟩, ?_⟩
      rintro other pre (rfl | mem)
      · exact Nat.zero_le _
      · obtain ⟨digits, rfl, -, short⟩ := le other pre mem
        exact Nat.succ_le_succ short
  · next other =>
    refine ⟨List.nil_prefix, .inl rfl, ?_⟩
    rintro _ pre (rfl | ⟨digits, rfl, -⟩)
    · exact Nat.le_refl _
    · obtain ⟨rest, rfl⟩ := pre
      exact absurd rfl (other (digits ++ rest))

theorem isLongest_mantissa (cs : List Char) :
    IsLongest (OrEmpty IsMantissa)
      (cs.takeWhile isDigit ++ Numeral.fractionPrefix (cs.dropWhile isDigit)) cs := by
  have whole := isLongest_takeWhile isDigit cs
  have split := List.takeWhile_append_dropWhile (p := isDigit) (l := cs)
  have both : IsLongest (Followed (RunOf isDigit) (OrEmpty IsFraction))
      (cs.takeWhile isDigit ++ Numeral.fractionPrefix (cs.dropWhile isDigit))
      (cs.takeWhile isDigit ++ cs.dropWhile isDigit) := by
    refine IsLongest.append (split.symm ▸ whole) (isLongest_fractionPrefix _) ?_
    rintro _ (rfl | ⟨digits, rfl, -⟩) c hc
    · simp at hc
    · obtain rfl : '.' = c := by simpa using hc
      exact fun h => absurd (run_takeWhile _ _ _ h) (by decide)
  rw [split] at both
  have longest := both.restrict (P := (· ≠ [])) fun a b pre ne => by
    rintro rfl
    exact ne (List.prefix_nil.1 pre)
  have kept : ∀ taken : List Char, (if taken ≠ [] then taken else []) = taken := by
    intro taken
    by_cases h : taken = [] <;> simp [h]
  rw [kept] at longest
  exact longest

theorem powerPrefix_eq {letter : Char} {sign digits : List Char} (rest : List Char)
    (hl : letter = 'e' ∨ letter = 'E') (hs : sign = [] ∨ sign = ['-'] ∨ sign = ['+'])
    (run : RunOf isDigit digits) (ne : digits ≠ []) :
    Numeral.powerPrefix (letter :: (sign ++ (digits ++ rest))) =
      letter :: (sign ++ (digits ++ rest.takeWhile isDigit)) := by
  -- What scanning leaves tells how much was taken.
  have left := scanExponent_power rest hl hs run ne
  have split := List.takeWhile_append_dropWhile (p := isDigit) (l := rest)
  have whole : letter :: (sign ++ (digits ++ rest)) =
      (letter :: (sign ++ (digits ++ rest.takeWhile isDigit))) ++ rest.dropWhile isDigit := by
    simp [split]
  unfold Numeral.powerPrefix
  rw [left, whole, List.length_append, Nat.add_sub_cancel, List.take_left]

theorem sign_split (cs : List Char) :
    ∃ sign, (sign = [] ∨ sign = ['-'] ∨ sign = ['+']) ∧ cs = sign ++ (Numeral.sign cs).2 := by
  unfold Numeral.sign
  split
  · exact ⟨['-'], by simp, rfl⟩
  · exact ⟨['+'], by simp, rfl⟩
  · exact ⟨[], by simp, rfl⟩

theorem powerPrefix_mem (cs : List Char) : OrEmpty IsPower (Numeral.powerPrefix cs) := by
  cases cs with
  | nil => exact .inl rfl
  | cons letter rest =>
    by_cases hl : letter = 'e' ∨ letter = 'E'
    · obtain ⟨sign, hs, split⟩ := sign_split rest
      by_cases ne : (Numeral.sign rest).2.takeWhile isDigit = []
      · left
        simp [Numeral.powerPrefix, Numeral.scanExponent, hl, ne]
      · right
        have tail := List.takeWhile_append_dropWhile (p := isDigit) (l := (Numeral.sign rest).2)
        have longest := isLongest_takeWhile isDigit (Numeral.sign rest).2
        have read := powerPrefix_eq ((Numeral.sign rest).2.dropWhile isDigit) hl hs longest.mem ne
        rw [tail, ← split] at read
        rw [read]
        refine ⟨letter, sign, _, rfl, hl, hs, ?_, by simp [ne]⟩
        intro c hc
        rcases List.mem_append.1 hc with h | h
        · exact longest.mem c h
        · exact run_takeWhile _ _ c h
    · left
      simp [Numeral.powerPrefix, Numeral.scanExponent, hl]

theorem isLongest_powerPrefix (cs : List Char) :
    IsLongest (OrEmpty IsPower) (Numeral.powerPrefix cs) cs := by
  refine ⟨List.take_prefix _ _, powerPrefix_mem cs, ?_⟩
  rintro _ pre (rfl | ⟨letter, sign, digits, rfl, hl, hs, run, ne⟩)
  · exact Nat.zero_le _
  · obtain ⟨rest, rfl⟩ := pre
    have read := powerPrefix_eq rest hl hs run ne
    simp only [List.cons_append, List.append_assoc, read, List.length_cons, List.length_append]
    omega

/-- A scale unit starts with the longest number that it can. -/
theorem isLongest_numberPrefix (cs : List Char) :
    IsLongest (OrEmpty IsNumber) (numberPrefix cs) cs := by
  have mantissa := isLongest_mantissa cs
  unfold numberPrefix
  simp only
  split
  · next none =>
    have none := List.isEmpty_iff.1 none
    refine ⟨List.nil_prefix, .inl rfl, ?_⟩
    rintro _ pre (rfl | ⟨front, back, rfl, inM, -⟩)
    · exact Nat.le_refl _
    · refine absurd inM ((mantissa.eq_nil_iff fun h => h.2 rfl).1 none front ?_)
      exact (List.prefix_append front back).trans pre
  · next some =>
    generalize cs.takeWhile isDigit ++ Numeral.fractionPrefix (cs.dropWhile isDigit) = m at *
    obtain ⟨rest, rfl⟩ := mantissa.isPrefix
    have ne : m ≠ [] := by simpa using some
    have both := (mantissa.of_ne_nil ne).append (isLongest_powerPrefix rest) ?_
    · rw [List.drop_left]
      refine ⟨both.isPrefix, .inr both.mem, ?_⟩
      rintro other pre (rfl | mem)
      · exact Nat.zero_le _
      · exact both.length_le other pre mem
    · rintro _ (rfl | ⟨letter, sign, digits, rfl, hl, -⟩) c hc
      · simp at hc
      · obtain rfl : letter = c := by simpa using hc
        exact (mantissa.of_ne_nil ne).mem.letter_not_mem hl

end PerfFormula.ScaleUnit
