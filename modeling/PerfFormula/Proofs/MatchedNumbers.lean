import PerfFormula.Decimal.Typed
import PerfFormula.Metric.ScaleNumber
import PerfFormula.Metric.ScalePattern

/-!
# Matching the number of a scale unit

What the pattern of a number takes first is the longest number of all, whatever it tries later on: a
run of digits gives its last digit back only where no fraction follows, and a power of ten is left
out only where there is none.

Main statements:

* `mem_number` — every way through the pattern takes a number.
* `best?_maybe_number` — the best one takes the longest, as the part with number one.
* `accepts_numberPattern_iff` — the pattern accepts the numbers.
* `readReal?_of_isNumber` — a number is read as its value.
-/

namespace PerfFormula.ScaleUnit

open PerfFormula.Text PerfFormula.Decimal

variable {cs : List Char} {r : Reading}

/-! ## Digits and powers -/

theorem mem_digits (h : r ∈ digitsPattern.readings cs) :
    RunOf isDigit r.taken ∧ r.taken ≠ [] := by
  obtain ⟨first, mem, second, mem', rfl⟩ := Pattern.mem_andThen_iff.1 h
  obtain ⟨d, -, taken, digit⟩ := Pattern.mem_one mem
  obtain ⟨-, run⟩ := Pattern.mem_many mem'
  simp only [Reading.followedBy, taken]
  exact ⟨(runOf_singleton digit).append run, by simp⟩

theorem best?_digits {digits rest : List Char} (run : RunOf isDigit digits) (ne : digits ≠ [])
    (stop : ∀ c ∈ rest.head?, isDigit c = false) :
    digitsPattern.best? (digits ++ rest) = some ⟨digits, [], rest⟩ := by
  obtain ⟨d, digits, rfl⟩ := List.exists_cons_of_ne_nil ne
  have first := Pattern.best?_one (run d List.mem_cons_self) (digits ++ rest)
  have others := Pattern.best?_many (fun c hc => run c (List.mem_cons_of_mem d hc)) stop
  exact Pattern.best?_andThen first others

theorem mem_power (h : r ∈ powerPattern.readings cs) : IsPower r.taken := by
  obtain ⟨first, mem, second, mem', rfl⟩ := Pattern.mem_andThen_iff.1 h
  obtain ⟨signed, signedMem, digits, digitsMem, rfl⟩ := Pattern.mem_andThen_iff.1 mem'
  obtain ⟨letter, -, taken, isLetter⟩ := Pattern.mem_one mem
  obtain ⟨run, ne⟩ := mem_digits digitsMem
  have letters : letter = 'e' ∨ letter = 'E' := by simpa [isPowerLetter] using isLetter
  have signs : signed.taken = [] ∨ signed.taken = ['-'] ∨ signed.taken = ['+'] := by
    rcases Pattern.mem_maybe_iff.1 signedMem with signedMem | rfl
    · obtain ⟨sign, -, taken', isSigned⟩ := Pattern.mem_one signedMem
      have two : sign = '-' ∨ sign = '+' := by simpa [isSign] using isSigned
      rw [taken']
      rcases two with rfl | rfl
      · exact .inr (.inl rfl)
      · exact .inr (.inr rfl)
    · exact .inl rfl
  simp only [Reading.followedBy, taken]
  exact ⟨letter, signed.taken, digits.taken, rfl, letters, signs, run, ne⟩

theorem IsPower.append_digit (h : IsPower cs) {d : Char} (digit : isDigit d = true) :
    IsPower (cs ++ [d]) := by
  obtain ⟨letter, sign, digits, rfl, letters, signs, run, ne⟩ := h
  exact ⟨letter, sign, digits ++ [d], by simp, letters, signs, run.append (runOf_singleton digit),
    by simp⟩

theorem IsFraction.append_digit (h : IsFraction cs) {d : Char} (digit : isDigit d = true) :
    IsFraction (cs ++ [d]) := by
  obtain ⟨digits, rfl, run, ne⟩ := h
  exact ⟨digits ++ [d], rfl, run.append (runOf_singleton digit), by simp⟩

theorem isSign_eq_false {d : Char} (digit : isDigit d = true) : isSign d = false := by
  cases same : isSign d with
  | false => rfl
  | true =>
    have signs : d = '-' ∨ d = '+' := by simpa [isSign] using same
    rcases signs with rfl | rfl
    · cases digit
    · cases digit

/-- A power that is followed by no digit is read as a whole. -/
theorem best?_power {power rest : List Char} (h : IsPower power)
    (stop : ∀ c ∈ rest.head?, isDigit c = false) :
    powerPattern.best? (power ++ rest) = some ⟨power, [], rest⟩ := by
  obtain ⟨letter, sign, digits, rfl, letters, signs, run, ne⟩ := h
  have isLetter : isPowerLetter letter = true := by simpa [isPowerLetter] using letters
  have first := Pattern.best?_one isLetter (sign ++ (digits ++ rest))
  have signed : (Pattern.maybe (.one isSign)).best? (sign ++ (digits ++ rest)) =
      some ⟨sign, [], digits ++ rest⟩ := by
    rcases signs with rfl | rfl | rfl
    · -- The first digit is no sign.
      apply Pattern.best?_maybe_of_nil
      apply Pattern.readings_one_of_stop
      obtain ⟨d, digits, rfl⟩ := List.exists_cons_of_ne_nil ne
      rintro c ⟨⟩
      exact isSign_eq_false (run d List.mem_cons_self)
    · exact Pattern.best?_maybe (Pattern.best?_one rfl _)
    · exact Pattern.best?_maybe (Pattern.best?_one rfl _)
  have read := Pattern.best?_andThen first
    (Pattern.best?_andThen signed (best?_digits run ne stop))
  simpa [powerPattern, Reading.followedBy] using read

theorem not_isPower_nil : ¬IsPower [] := by
  rintro ⟨letter, sign, digits, same, -⟩
  cases same

/-- The pattern takes the longest power that there is. -/
theorem best?_maybe_power (cs : List Char) :
    (Pattern.maybe powerPattern).best? cs =
      some ⟨Numeral.powerPrefix cs, [], cs.drop (Numeral.powerPrefix cs).length⟩ := by
  have longest := isLongest_powerPrefix cs
  rcases powerPrefix_mem cs with none | isPower
  · rw [none]
    apply Pattern.best?_maybe_of_nil
    exact Pattern.readings_eq_nil (fun r mem => mem_power mem)
      ((longest.eq_nil_iff not_isPower_nil).1 none)
  · obtain ⟨rest, split⟩ := longest.isPrefix
    generalize Numeral.powerPrefix cs = power at *
    subst split
    have stop := (longest.of_ne_nil fun none => not_isPower_nil (none ▸ isPower)).stop
      fun d digit => isPower.append_digit digit
    rw [List.drop_left]
    exact Pattern.best?_maybe (best?_power isPower stop)

/-! ## Numbers -/

/-- What a mantissa ends with: digits, with a point in front of them or without one. -/
def IsLastDigits (cs : List Char) : Prop := (RunOf isDigit cs ∧ cs ≠ []) ∨ IsFraction cs

theorem mem_lastDigits (h : r ∈ lastDigitsPattern.readings cs) : IsLastDigits r.taken := by
  obtain ⟨point, mem, digits, mem', rfl⟩ := Pattern.mem_andThen_iff.1 h
  obtain ⟨run, ne⟩ := mem_digits mem'
  rcases Pattern.mem_maybe_iff.1 mem with mem | rfl
  · obtain ⟨c, -, taken, isPoint⟩ := Pattern.mem_one mem
    obtain rfl : c = '.' := by simpa using isPoint
    simp only [Reading.followedBy, taken]
    exact .inr ⟨digits.taken, rfl, run, ne⟩
  · exact .inl ⟨run, ne⟩

theorem mem_mantissa (h : r ∈ mantissaPattern.readings cs) : IsMantissa r.taken := by
  obtain ⟨whole, mem, last, mem', rfl⟩ := Pattern.mem_andThen_iff.1 h
  obtain ⟨-, run⟩ := Pattern.mem_many mem
  simp only [Reading.followedBy]
  rcases mem_lastDigits mem' with ⟨run', ne⟩ | fraction
  · exact ⟨⟨_, [], (List.append_nil _).symm, run.append run', .inl rfl⟩, by simp [ne]⟩
  · refine ⟨⟨_, _, rfl, run, .inr fraction⟩, ?_⟩
    obtain ⟨digits, taken, -⟩ := fraction
    simp [taken]

theorem mem_number (h : r ∈ numberPattern.readings cs) : IsNumber r.taken := by
  obtain ⟨mantissa, mem, power, mem', rfl⟩ := Pattern.mem_andThen_iff.1 h
  rcases Pattern.mem_maybe_iff.1 mem' with mem' | rfl
  · exact ⟨_, _, rfl, mem_mantissa mem, .inr (mem_power mem')⟩
  · exact ⟨_, _, rfl, mem_mantissa mem, .inl rfl⟩

/-- Digits with a fraction behind them are read up to the end of the fraction. -/
theorem best?_mantissa_of_fraction {whole fraction rest : List Char} (run : RunOf isDigit whole)
    (h : IsFraction fraction) (stop : ∀ c ∈ rest.head?, isDigit c = false) :
    mantissaPattern.best? (whole ++ (fraction ++ rest)) = some ⟨whole ++ fraction, [], rest⟩ := by
  obtain ⟨digits, rfl, runF, ne⟩ := h
  have undigit : ∀ c ∈ ('.' :: digits ++ rest).head?, isDigit c = false := by
    rintro c ⟨⟩
    rfl
  have point : (Pattern.maybe (.one (· == '.'))).best? ('.' :: digits ++ rest) =
      some ⟨['.'], [], digits ++ rest⟩ := Pattern.best?_maybe (Pattern.best?_one rfl _)
  exact Pattern.best?_andThen (Pattern.best?_many run undigit)
    (Pattern.best?_andThen point (best?_digits runF ne stop))

/-- Without a fraction behind them, the last digit is given back by the run of digits, and read by
what asks for digits behind it. -/
theorem best?_mantissa_of_digits {whole rest : List Char} (run : RunOf isDigit whole)
    (ne : whole ≠ []) (stop : ∀ c ∈ rest.head?, isDigit c = false)
    (none : ∀ other, other <+: rest → ¬IsFraction other) :
    mantissaPattern.best? (whole ++ rest) = some ⟨whole, [], rest⟩ := by
  obtain ⟨front, d, rfl⟩ := (List.eq_nil_or_concat whole).resolve_left ne
  rw [List.concat_eq_append] at *
  have runFront : RunOf isDigit front := fun c hc => run c (List.mem_append_left [d] hc)
  have digit : isDigit d = true := run d (by simp)
  -- With all digits taken there are none left to read.
  have fails : lastDigitsPattern.readings rest = [] := by
    apply Pattern.readings_eq_nil fun r mem => mem_lastDigits mem
    rintro other ⟨behind, rfl⟩ (⟨digits, some⟩ | fraction)
    · obtain ⟨c, more, rfl⟩ := List.exists_cons_of_ne_nil some
      have undigit : isDigit c = false := stop c rfl
      rw [digits c List.mem_cons_self] at undigit
      cases undigit
    · exact none other (List.prefix_append other behind) fraction
  have unpoint : (Pattern.maybe (.one (· == '.'))).best? (d :: rest) =
      some (.nothing (d :: rest)) := by
    apply Pattern.best?_maybe_of_nil
    apply Pattern.readings_one_of_stop
    rintro c ⟨⟩
    cases same : d == '.' with
    | false => rfl
    | true =>
      rw [beq_iff_eq.1 same] at digit
      cases digit
  have last := Pattern.best?_andThen unpoint
    (best?_digits (runOf_singleton digit) (List.cons_ne_nil d []) stop)
  obtain ⟨shorter, tried⟩ := Pattern.readings_many_last runFront digit stop
  have tried : (Pattern.many isDigit).readings (front ++ [d] ++ rest) =
      [⟨front ++ [d], [], rest⟩] ++ ⟨front, [], d :: rest⟩ :: shorter := by
    rw [List.append_assoc]
    exact tried
  refine Pattern.best?_andThen_of_failing tried ?_ last
  intro f mem
  rw [List.mem_singleton.1 mem]
  exact fails

/-- The pattern takes the longest mantissa. -/
theorem best?_mantissa {mantissa : List Char}
    (same : cs.takeWhile isDigit ++ Numeral.fractionPrefix (cs.dropWhile isDigit) = mantissa)
    (some : mantissa ≠ []) :
    mantissaPattern.best? cs = .some ⟨mantissa, [], cs.drop mantissa.length⟩ := by
  have split := List.takeWhile_append_dropWhile (p := isDigit) (l := cs)
  have run := run_takeWhile isDigit cs
  have stop := head?_dropWhile_kept isDigit cs
  have longest := isLongest_fractionPrefix (cs.dropWhile isDigit)
  generalize cs.takeWhile isDigit = whole at *
  generalize cs.dropWhile isDigit = tail at *
  subst split same
  have proper : ¬IsFraction [] := by
    rintro ⟨digits, same, -⟩
    cases same
  rcases longest.mem with none | fraction
  · rw [none, List.append_nil] at some ⊢
    rw [List.drop_left]
    exact best?_mantissa_of_digits run some stop ((longest.eq_nil_iff proper).1 none)
  · obtain ⟨rest, behind⟩ := longest.isPrefix
    have longer := longest.of_ne_nil fun none => proper (none ▸ fraction)
    generalize Numeral.fractionPrefix tail = taken at *
    subst behind
    have stop' := longer.stop fun c digit => fraction.append_digit digit
    have read := best?_mantissa_of_fraction run fraction stop'
    rw [← List.append_assoc] at read ⊢
    rwa [List.drop_left]

/-- The pattern takes the longest number. -/
theorem best?_number (some : numberPrefix cs ≠ []) :
    numberPattern.best? cs = .some ⟨numberPrefix cs, [], cs.drop (numberPrefix cs).length⟩ := by
  unfold numberPrefix at some ⊢
  dsimp only at some ⊢
  generalize same : cs.takeWhile isDigit ++ Numeral.fractionPrefix (cs.dropWhile isDigit) =
    mantissa at *
  by_cases none : mantissa = []
  · simp [none] at some
  · rw [if_neg (by simpa using none)]
    have read := Pattern.best?_andThen (best?_mantissa same none)
      (best?_maybe_power (cs.drop mantissa.length))
    rw [List.length_append, ← List.drop_drop]
    exact read

theorem not_isNumber_nil : ¬IsNumber [] := by
  rintro ⟨mantissa, power, same, isMantissa, -⟩
  exact isMantissa.2 (List.append_eq_nil_iff.1 same.symm).1

theorem readings_number_of_nil (none : numberPrefix cs = []) : numberPattern.readings cs = [] :=
  Pattern.readings_eq_nil (fun _ mem => mem_number mem)
    (((isLongest_numberPrefix cs).eq_nil_iff not_isNumber_nil).1 none)

/-- The number is a part of its own, if there is one. -/
def numberGroups (number : List Char) : List (Nat × List Char) :=
  if number = [] then [] else [(1, number)]

theorem lookup_numberGroups (number unit : List Char) :
    ((numberGroups number ++ [(2, unit)]).lookup 1).getD [] = number ∧
      ((numberGroups number ++ [(2, unit)]).lookup 2).getD [] = unit := by
  unfold numberGroups
  by_cases none : number = []
  · rw [if_pos none, none]
    exact ⟨rfl, rfl⟩
  · rw [if_neg none]
    exact ⟨rfl, rfl⟩

/-- The pattern takes the longest number that there is, and none only if there is none. -/
theorem best?_maybe_number (cs : List Char) :
    (Pattern.maybe (.group 1 numberPattern)).best? cs =
      some ⟨numberPrefix cs, numberGroups (numberPrefix cs), cs.drop (numberPrefix cs).length⟩ := by
  unfold numberGroups
  by_cases none : numberPrefix cs = []
  · rw [none, if_pos rfl]
    exact Pattern.best?_maybe_of_nil (Pattern.readings_group_of_nil (readings_number_of_nil none))
  · rw [if_neg none]
    exact Pattern.best?_maybe (Pattern.best?_group (best?_number none))

/-- The pattern of a number accepts the numbers. -/
theorem accepts_numberPattern_iff : numberPattern.Accepts cs ↔ IsNumber cs := by
  constructor
  · rintro ⟨r, mem, none⟩
    have split := Pattern.eq_append_of_mem mem
    rw [none, List.append_nil] at split
    exact split ▸ mem_number mem
  · intro isNumber
    have whole : IsLongest (OrEmpty IsNumber) cs cs :=
      ⟨List.prefix_rfl, .inr isNumber, fun other pre _ => pre.length_le⟩
    have same := (isLongest_numberPrefix cs).eq whole
    have some : numberPrefix cs ≠ [] := by
      rw [same]
      rintro rfl
      exact not_isNumber_nil isNumber
    have read := best?_number some
    rw [same, List.drop_length] at read
    exact ⟨_, List.mem_of_head? read, rfl⟩

theorem IsNumber.isTyped (h : IsNumber cs) : ∀ c ∈ cs, isTyped c = true := by
  have ofDigit : ∀ {c : Char}, isDigit c = true → Decimal.isTyped c = true :=
    fun digit => isTyped_of_isNumeralChar (isNumeralChar_of_isDigit digit)
  obtain ⟨mantissa, power, rfl, isMantissa, isPower⟩ := h
  intro c hc
  rcases List.mem_append.1 hc with hc | hc
  · rcases isMantissa.digit_or_point c hc with digit | rfl
    · exact ofDigit digit
    · rfl
  · rcases isPower with rfl | ⟨letter, sign, digits, rfl, letters, signs, run, -⟩
    · cases hc
    · rcases List.mem_cons.1 hc with rfl | hc
      · rcases letters with rfl | rfl <;> rfl
      · rcases List.mem_append.1 hc with hc | hc
        · rcases signs with rfl | rfl | rfl
          · cases hc
          · rw [List.mem_singleton.1 hc]
            rfl
          · rw [List.mem_singleton.1 hc]
            rfl
        · exact ofDigit (run c hc)

/-- Nothing of a number is left when it is scanned. -/
theorem scan_of_isNumber (h : IsNumber cs) :
    ∃ n, Numeral.scan cs = (n, []) ∧ n.hasDigit = true := by
  obtain ⟨mantissa, power, rfl, ⟨⟨whole, fraction, rfl, runW, inF⟩, ne⟩, inP⟩ := h
  have inF' : OrEmpty (fun cs => ∃ digits, cs = '.' :: digits ∧ RunOf isDigit digits) fraction :=
    inF.imp_right fun ⟨digits, same, run, _⟩ => ⟨digits, same, run⟩
  obtain ⟨letters, left⟩ : (∀ c ∈ power.head?, c = 'e' ∨ c = 'E') ∧
      (Numeral.scanExponent power).2 = [] := by
    rcases inP with rfl | ⟨letter, sign, digits, rfl, letters, signs, run, ne⟩
    · exact ⟨by simp, rfl⟩
    · have scanned := scanExponent_power [] letters signs run ne
      rw [List.append_nil] at scanned
      exact ⟨by simpa using letters, scanned⟩
  have some : whole ≠ [] ∨ fraction.drop 1 ≠ [] := by
    rcases inF with rfl | ⟨digits, rfl, -, digit⟩
    · exact .inl (by simpa using ne)
    · exact .inr digit
  exact scan_to_end runW inF' letters left some

theorem readReal?_of_isNumber (h : IsNumber cs) : readReal? (.ofList cs) = some (value cs) := by
  obtain ⟨n, scanned, digit⟩ := scan_of_isNumber h
  have typed := h.isTyped
  obtain ⟨mantissa, power, rfl, isMantissa, -⟩ := h
  obtain ⟨c, rest, rfl⟩ := List.exists_cons_of_ne_nil isMantissa.2
  exact readReal?_of_scan typed (isMantissa.digit_or_point c List.mem_cons_self) scanned digit

end PerfFormula.ScaleUnit
