import PerfFormula.Decimal.Digits
import PerfFormula.Text.Longest

/-!
# Typed real numbers

A text of visible characters that is scanned as a numeral to its end is read as the value of that
numeral, with the sign in front of it. The words for what is not finite are not in the way, as a
numeral starts with a digit or with a point.

Main statements:

* `scan_of_parts` — a numeral is scanned as the parts that it is put together from.
* `readReal?_of_scan` — a numeral is read as its value.
* `readReal?_minus_of_scan` — behind a minus it is read as the negated value.
-/

namespace PerfFormula.Decimal

open PerfFormula.Text

theorem toLower_of_isDigit {c : Char} (h : isDigit c = true) : c.toLower = c := by
  have upper := (toNat_of_isDigit h).2
  unfold Char.toLower
  rw [dif_neg]
  rintro ⟨lower, -⟩
  have : 65 ≤ c.toNat := UInt32.le_iff_toNat_le.1 lower
  omega

/-- A text that starts with a digit or a point is none of the words of letters. -/
theorem lower_ne_word {c : Char} (first : isDigit c = true ∨ c = '.') {d : Char}
    (undigit : isDigit d = false) (unpoint : d ≠ '.') (rest word : List Char) :
    lower (c :: rest) ≠ d :: word := by
  intro same
  have head : c.toLower = d := (List.cons.inj same).1
  rcases first with digit | rfl
  · rw [toLower_of_isDigit digit] at head
    rw [head, undigit] at digit
    cases digit
  · exact unpoint (head.symm.trans (by decide))

theorem sign_of_first {c : Char} (first : isDigit c = true ∨ c = '.') (rest : List Char) :
    Numeral.sign (c :: rest) = (false, c :: rest) := by
  unfold Numeral.sign
  rcases first with digit | rfl
  · split
    · next same =>
      cases same
      exact absurd digit (by decide)
    · next same =>
      cases same
      exact absurd digit (by decide)
    · rfl
  · rfl

/-! ## The parts of a numeral -/

/-- A sign in front of digits is dropped, and nothing but it. -/
theorem sign_append {sign digits : List Char} (rest : List Char)
    (signs : sign = [] ∨ sign = ['-'] ∨ sign = ['+']) (run : RunOf isDigit digits)
    (ne : digits ≠ []) : (Numeral.sign (sign ++ (digits ++ rest))).2 = digits ++ rest := by
  rcases signs with rfl | rfl | rfl
  · obtain ⟨d, digits, rfl⟩ := List.exists_cons_of_ne_nil ne
    exact congrArg Prod.snd (sign_of_first (.inl (run d List.mem_cons_self)) (digits ++ rest))
  · rfl
  · rfl

/-- A power of ten is scanned up to where its digits end. -/
theorem scanExponent_power {letter : Char} {sign digits : List Char} (rest : List Char)
    (letters : letter = 'e' ∨ letter = 'E') (signs : sign = [] ∨ sign = ['-'] ∨ sign = ['+'])
    (run : RunOf isDigit digits) (ne : digits ≠ []) :
    (Numeral.scanExponent (letter :: (sign ++ (digits ++ rest)))).2 = rest.dropWhile isDigit := by
  simp only [Numeral.scanExponent, if_pos letters, sign_append rest signs run ne,
    List.takeWhile_append_of_pos run, List.dropWhile_append_of_pos run]
  split <;> simp_all

/-- The whole digits of a numeral and the digits behind its point are scanned up to its power. -/
theorem scan_of_parts {whole fraction power : List Char} (runW : RunOf isDigit whole)
    (inF : OrEmpty (fun cs => ∃ digits, cs = '.' :: digits ∧ RunOf isDigit digits) fraction)
    (letters : ∀ c ∈ power.head?, c = 'e' ∨ c = 'E') :
    Numeral.scan (whole ++ (fraction ++ power)) =
      (⟨whole, fraction.drop 1, (Numeral.scanExponent power).1⟩,
        (Numeral.scanExponent power).2) := by
  have digitless : ∀ c ∈ power.head?, isDigit c = false := by
    intro c hc
    rcases letters c hc with rfl | rfl
    · rfl
    · rfl
  obtain ⟨runF, scanned⟩ : (∀ c ∈ (fraction ++ power).head?, isDigit c = false) ∧
      Numeral.scanFraction (fraction ++ power) = (fraction.drop 1, power) := by
    rcases inF with rfl | ⟨digits, rfl, run⟩
    · -- Without a point the power follows the whole digits.
      refine ⟨digitless, ?_⟩
      cases power with
      | nil => rfl
      | cons c power =>
        rcases letters c rfl with rfl | rfl
        · rfl
        · rfl
    · obtain ⟨taken, dropped⟩ := takeWhile_run_append run digitless
      refine ⟨fun c hc => ?_, ?_⟩
      · obtain rfl : '.' = c := by simpa using hc
        decide
      · rw [List.cons_append, Numeral.scanFraction, taken, dropped]
        rfl
  obtain ⟨taken, dropped⟩ := takeWhile_run_append runW runF
  rw [Numeral.scan, taken, dropped, scanned]

/-- Nothing of a numeral is left if nothing of its power is. -/
theorem scan_to_end {whole fraction power : List Char} (runW : RunOf isDigit whole)
    (inF : OrEmpty (fun cs => ∃ digits, cs = '.' :: digits ∧ RunOf isDigit digits) fraction)
    (letters : ∀ c ∈ power.head?, c = 'e' ∨ c = 'E') (left : (Numeral.scanExponent power).2 = [])
    (some : whole ≠ [] ∨ fraction.drop 1 ≠ []) :
    ∃ n, Numeral.scan (whole ++ fraction ++ power) = (n, []) ∧ n.hasDigit = true := by
  refine ⟨⟨whole, fraction.drop 1, (Numeral.scanExponent power).1⟩, ?_, ?_⟩
  · rw [List.append_assoc, scan_of_parts runW inF letters, left]
  · simpa [Numeral.hasDigit] using some

/-! ## Reading a numeral -/

variable {c : Char} {rest : List Char} {n : Numeral}

theorem readReal?_of_signed {s : String} {signed : List Char} {negative : Bool}
    (typed : typed? s = some signed) (split : Numeral.sign signed = (negative, c :: rest))
    (first : isDigit c = true ∨ c = '.') (scanned : Numeral.scan (c :: rest) = (n, []))
    (digit : n.hasDigit = true) :
    readReal? s = some (if negative then -value (c :: rest) else value (c :: rest)) := by
  have infinite : ¬(lower (c :: rest) = "inf".toList ∨ lower (c :: rest) = "infinity".toList) := by
    rintro (same | same)
    · exact lower_ne_word first (by decide) (by decide) rest ['n', 'f'] same
    · exact lower_ne_word first (by decide) (by decide) rest
        ['n', 'f', 'i', 'n', 'i', 't', 'y'] same
  have undefined : lower (c :: rest) ≠ "nan".toList :=
    lower_ne_word first (by decide) (by decide) rest ['a', 'n']
  rw [readReal?, typed]
  simp only [Option.bind_eq_bind, Option.bind_some, split, if_neg infinite, if_neg undefined,
    scanned, digit, if_true, value]
  rfl

/-- A numeral is read as its value. -/
theorem readReal?_of_scan (typed : ∀ d ∈ c :: rest, isTyped d = true)
    (first : isDigit c = true ∨ c = '.') (scanned : Numeral.scan (c :: rest) = (n, []))
    (digit : n.hasDigit = true) :
    readReal? (.ofList (c :: rest)) = some (value (c :: rest)) :=
  readReal?_of_signed (typed?_eq_some typed) (sign_of_first first rest) first scanned digit

/-- Behind a minus a numeral is read as the negated value. -/
theorem readReal?_minus_of_scan (typed : ∀ d ∈ c :: rest, isTyped d = true)
    (first : isDigit c = true ∨ c = '.') (scanned : Numeral.scan (c :: rest) = (n, []))
    (digit : n.hasDigit = true) :
    readReal? (.ofList ('-' :: c :: rest)) = some (-value (c :: rest)) := by
  have all : ∀ d ∈ '-' :: c :: rest, isTyped d = true := by
    intro d hd
    rcases List.mem_cons.1 hd with rfl | hd
    · decide
    · exact typed d hd
  exact readReal?_of_signed (typed?_eq_some all) rfl first scanned digit

end PerfFormula.Decimal
