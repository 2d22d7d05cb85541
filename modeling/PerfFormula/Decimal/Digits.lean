import PerfFormula.Decimal.Reader

/-!
# Whole numbers in digits

A run of ASCII digits is read as the number that it denotes, and the digits of a number denote it.
Text that consists of visible characters is read as it stands: there is nothing to trim, to
translate or to drop.

Main statements:

* `typed?_eq_some` — visible characters are typed as they stand.
* `readWhole_toDigits` — a number written in decimal is read back, if it is not too long.
-/

namespace PerfFormula.Decimal

open PerfFormula.Text

theorem isDigit_of_mem_toDigits {n : Nat} {c : Char} (h : c ∈ Nat.toDigits 10 n) :
    isDigit c = true := by
  have := Nat.isDigit_of_mem_toDigits (by decide) (by decide) h
  simpa [isDigit, Char.isDigit, Char.le_def] using this

theorem natOfDigits_toDigits (n : Nat) : natOfDigits (Nat.toDigits 10 n) = n :=
  Nat.ofDigitChars_toDigits (by decide) (by decide)

theorem toNat_of_isDigit {c : Char} (h : isDigit c = true) : 48 ≤ c.toNat ∧ c.toNat ≤ 57 := by
  simp only [isDigit, Bool.and_eq_true, decide_eq_true_eq, Char.le_def,
    UInt32.le_iff_toNat_le] at h
  exact h

/-! ## The characters of a numeral -/

/-- The characters of a numeral in ASCII, without blanks and separators. -/
def isNumeralChar (c : Char) : Bool := isDigit c || ['.', 'e', '-', '+'].contains c

theorem isNumeralChar_of_isDigit {c : Char} (h : isDigit c = true) : isNumeralChar c = true := by
  rw [isNumeralChar, h]
  rfl

theorem isNumeralChar_cases {c : Char} (h : isNumeralChar c = true) :
    isDigit c = true ∨ c = '.' ∨ c = 'e' ∨ c = '-' ∨ c = '+' := by
  simpa [isNumeralChar] using h

/-! ## Characters that are typed as they stand -/

/-- The visible characters of ASCII, the separator of digits apart. -/
def isTyped (c : Char) : Bool := 0x21 ≤ c.toNat && c.toNat ≤ 0x7E && c != '_'

theorem isTyped_of_isNumeralChar {c : Char} (h : isNumeralChar c = true) : isTyped c = true := by
  rcases isNumeralChar_cases h with digit | rfl | rfl | rfl | rfl
  · obtain ⟨lower, upper⟩ := toNat_of_isDigit digit
    have other : c ≠ '_' := by
      rintro rfl
      exact absurd digit (by decide)
    simp only [isTyped, Bool.and_eq_true, decide_eq_true_eq, bne_iff_ne]
    exact ⟨⟨by omega, by omega⟩, other⟩
  all_goals decide

theorem bounds_of_isTyped {c : Char} (h : isTyped c = true) :
    (0x21 ≤ c.toNat ∧ c.toNat ≤ 0x7E) ∧ c ≠ '_' := by
  simpa only [isTyped, Bool.and_eq_true, decide_eq_true_eq, bne_iff_ne] using h

theorem isBlank_of_isTyped {c : Char} (h : isTyped c = true) : isBlank c = false := by
  obtain ⟨⟨lower, upper⟩, -⟩ := bounds_of_isTyped h
  simp only [isBlank, Bool.and_eq_false_iff, Bool.or_eq_false_iff, decide_eq_false_iff_not,
    beq_eq_false_iff_ne]
  omega

theorem isNumberBlank_of_isTyped {c : Char} (h : isTyped c = true) : isNumberBlank c = false := by
  rw [isNumberBlank, isBlank_of_isTyped h, Bool.false_and]

/-- No digit of another script is as near to the ASCII digits as the visible characters. -/
theorem digitValue?_eq_none {c : Char} (h : isTyped c = true) (undigit : isDigit c = false) :
    digitValue? c = none := by
  obtain ⟨⟨lower, upper⟩, -⟩ := bounds_of_isTyped h
  have far : ∀ start ∈ digitZeros, start = 0x30 ∨ 0x660 ≤ start := by decide
  have outside : ¬(0x30 ≤ c.toNat ∧ c.toNat ≤ 0x39) := by
    rintro ⟨low, high⟩
    have digit : isDigit c = true := by
      simp only [isDigit, Bool.and_eq_true, decide_eq_true_eq, Char.le_def, UInt32.le_iff_toNat_le]
      exact ⟨low, high⟩
    rw [undigit] at digit
    cases digit
  rw [digitValue?, Option.map_eq_none_iff, List.find?_eq_none]
  intro start mem
  simp only [Bool.and_eq_true, decide_eq_true_eq]
  rcases far start mem with rfl | beyond
  · omega
  · omega

theorem asciiDigits_eq_self {cs : List Char} (h : ∀ c ∈ cs, isTyped c = true) :
    asciiDigits cs = cs := by
  refine (List.map_congr_left fun c hc => ?_).trans (List.map_id cs)
  by_cases digit : isDigit c = true
  · rw [digitValue?_ascii digit]
    have := (toNat_of_isDigit digit).1
    have back : '0'.toNat + asciiValue c = c.toNat := Nat.add_sub_cancel' this
    exact (congrArg Char.ofNat back).trans (Char.ofNat_toNat c)
  · rw [digitValue?_eq_none (h c hc) (Bool.eq_false_iff.2 digit)]
    rfl

theorem dropSeparators_eq_some {cs : List Char} (h : ∀ c ∈ cs, isTyped c = true)
    (afterDigit : Bool) : dropSeparators afterDigit cs = some cs := by
  induction cs generalizing afterDigit with
  | nil => rfl
  | cons c cs ih =>
    have hc : c ≠ '_' := (bounds_of_isTyped (h c List.mem_cons_self)).2
    rw [dropSeparators, ih fun c hc => h c (List.mem_cons_of_mem _ hc)]
    · rfl
    · exact hc

/-- Visible characters are typed as they stand. -/
theorem typed?_eq_some {cs : List Char} (h : ∀ c ∈ cs, isTyped c = true) :
    typed? (.ofList cs) = some cs := by
  have kept := trimBy_eq_self fun c hc => isNumberBlank_of_isTyped (h c hc)
  rw [typed?, String.toList_ofList, kept, asciiDigits_eq_self h, dropSeparators_eq_some h]

/-! ## Digits -/

theorem sign_of_digits {cs : List Char} (h : ∀ c ∈ cs, isDigit c = true) :
    Numeral.sign cs = (false, cs) := by
  unfold Numeral.sign
  split
  · exact absurd (h '-' (by simp)) (by decide)
  · exact absurd (h '+' (by simp)) (by decide)
  · rfl

/-- A run of digits is read as the number that it denotes, unless it is too long. -/
theorem readWhole_run {cs : List Char} (ne : cs ≠ []) (h : ∀ c ∈ cs, isDigit c = true) :
    readWhole (.ofList cs) = (ofDigits cs).map Int.ofNat := by
  have typed : ∀ c ∈ cs, isTyped c = true :=
    fun c hc => isTyped_of_isNumeralChar (isNumeralChar_of_isDigit (h c hc))
  have kept := trimBy_eq_self fun c hc => isNumberBlank_of_isTyped (typed c hc)
  have run : cs.takeWhile (fun c => isDigit c || c == '_') = cs := by
    have all := @List.takeWhile_append_of_pos _ (fun c => isDigit c || c == '_') cs []
      fun c hc => by simp [h c hc]
    simpa using all
  simp only [readWhole, String.toList_ofList, kept, asciiDigits_eq_self typed, sign_of_digits h,
    run, dropSeparators_eq_some typed]
  cases ofDigits cs with
  | error e => rfl
  | ok n => simp [ne, bind, Except.bind, pure, Except.pure, Except.map]

/-- A number written in decimal is read back, if it is not too long. -/
theorem readWhole_toDigits {n : Nat} (short : (Nat.toDigits 10 n).length ≤ digitLimit) :
    readWhole (.ofList (Nat.toDigits 10 n)) = .ok (n : Int) := by
  rw [readWhole_run Nat.toDigits_ne_nil fun _ => isDigit_of_mem_toDigits,
    ofDigits_of_length_le short, natOfDigits_toDigits]
  rfl

/-- A number that is too long is refused, with the count of its digits. -/
theorem readWhole_toDigits_of_long {n : Nat} (long : digitLimit < (Nat.toDigits 10 n).length) :
    readWhole (.ofList (Nat.toDigits 10 n)) = .error (.tooLong (Nat.toDigits 10 n).length) := by
  rw [readWhole_run Nat.toDigits_ne_nil fun _ => isDigit_of_mem_toDigits, ofDigits,
    if_neg (Nat.not_le.2 long)]
  rfl

end PerfFormula.Decimal
