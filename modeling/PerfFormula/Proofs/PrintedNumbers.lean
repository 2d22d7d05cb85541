import PerfFormula.Decimal.Notation
import PerfFormula.Proofs.Tokens
import PerfFormula.Proofs.WholeNumbers

/-!
# Printed numbers

The text of a decimal consists of whole digits, perhaps a point with digits behind it, and perhaps a
power of ten. The reader of numbers finds the same decimal in it, perhaps with zeros behind its
digits. The tokens of a formula are a little narrower: a number there has no plus sign in its power.

Main statements:

* `Spells.scan` — a spelled numeral is scanned as it was spelled.
* `spells_write` — the text of a decimal spells a numeral of the same amount.
* `isNumber_write` — the text of a double without signs is a number of a formula.
-/

namespace PerfFormula.Decimal

open PerfFormula.Text PerfFormula.Token
open Float.Model (UnpackedFloat Format)

/-! ## Spelled numerals -/

/-- A power of ten behind the digits of a numeral. -/
inductive IsExponent : List Char → Int → Prop
  | none : IsExponent [] 0
  | minus {digits} : RunOf isDigit digits → digits ≠ [] →
      IsExponent ('e' :: '-' :: digits) (-natOfDigits digits)
  | plus {digits} : RunOf isDigit digits → digits ≠ [] →
      IsExponent ('e' :: '+' :: digits) (natOfDigits digits)

/-- The texts of a numeral with a digit in front of the point. -/
inductive Spells : List Char → Numeral → Prop
  | intro {whole fraction power e} : RunOf isDigit whole → whole ≠ [] →
      OrEmpty IsFraction fraction → IsExponent power e →
      Spells (whole ++ (fraction ++ power)) ⟨whole, fraction.drop 1, e⟩

theorem IsExponent.scan {power : List Char} {e : Int} (h : IsExponent power e) :
    Numeral.scanExponent power = (e, []) := by
  cases h with
  | none => rfl
  | minus run ne | plus run ne =>
    obtain ⟨taken, dropped⟩ := @takeWhile_run_append _ _ [] run (by simp)
    rw [List.append_nil] at taken dropped
    rw [Numeral.scanExponent, if_pos (.inl rfl)]
    simp [Numeral.sign, taken, dropped, ne]

theorem IsExponent.letter {power : List Char} {e : Int} (h : IsExponent power e) :
    ∀ c ∈ power.head?, c = 'e' ∨ c = 'E' := by
  cases h with
  | none => simp
  | minus | plus => exact fun c hc => .inl (Option.some.inj hc).symm

/-- A spelled numeral is scanned as it was spelled. -/
theorem Spells.scan {cs : List Char} {n : Numeral} (h : Spells cs n) :
    Numeral.scan cs = (n, []) := by
  obtain ⟨runW, ne, inF, power⟩ := h
  rw [scan_of_parts runW inF power.letter, power.scan]

/-- A spelled numeral without a plus sign is a number of a formula. -/
theorem Spells.isNumber {cs : List Char} {n : Numeral} (h : Spells cs n) (unsigned : '+' ∉ cs) :
    IsNumber cs := by
  obtain @⟨whole, fraction, power, e, runW, ne, inF, inP⟩ := h
  have digit : ∃ c ∈ whole ++ fraction, isDigit c = true := by
    obtain ⟨c, rest, rfl⟩ := List.exists_cons_of_ne_nil ne
    exact ⟨c, by simp, runW c List.mem_cons_self⟩
  refine ⟨whole ++ fraction, power, (List.append_assoc _ _ _).symm,
    ⟨⟨whole, fraction, rfl, runW, inF⟩, digit⟩, ?_⟩
  cases inP with
  | none => exact .inl rfl
  | minus run ne => exact .inr ⟨['-'], _, rfl, .inr rfl, run, ne⟩
  | plus => exact absurd (by simp) unsigned

/-! ## The text of a decimal -/

theorem natOfDigits_zeros_append (k : Nat) (cs : List Char) :
    natOfDigits (List.replicate k '0' ++ cs) = natOfDigits cs := by
  show Nat.ofDigitChars 10 _ 0 = Nat.ofDigitChars 10 _ 0
  rw [Nat.ofDigitChars_append, Nat.ofDigitChars_replicate_zero, Nat.mul_zero]

theorem natOfDigits_append_zeros (cs : List Char) (k : Nat) :
    natOfDigits (cs ++ List.replicate k '0') = natOfDigits cs * 10 ^ k := by
  show Nat.ofDigitChars 10 _ 0 = Nat.ofDigitChars 10 _ 0 * _
  rw [Nat.ofDigitChars_append, Nat.ofDigitChars_replicate_zero, Nat.mul_comm]

/-- A numeral denotes a decimal, perhaps with zeros behind its digits. -/
def Numeral.Denotes (n : Numeral) (d : Scaled) : Prop :=
  ∃ k : Nat, natOfDigits (n.whole ++ n.fraction) = d.digits * 10 ^ k ∧
    d.exponent = n.exponent - n.fraction.length + k

theorem spells_point {whole digits : List Char} (runW : RunOf isDigit whole) (ne : whole ≠ [])
    (run : RunOf isDigit digits) : Spells (whole ++ '.' :: digits) ⟨whole, digits, 0⟩ := by
  have spelled := Spells.intro runW ne (.inr ⟨digits, rfl, run⟩) .none
  rwa [List.append_nil] at spelled

theorem run_zeros (k : Nat) : RunOf isDigit (List.replicate k '0') := by
  intro c hc
  obtain ⟨-, rfl⟩ := List.mem_replicate.1 hc
  rfl

theorem spells_positional {digits : List Char} {e : Int} (run : RunOf isDigit digits)
    (ne : digits ≠ []) : ∃ n, Spells (positional plain digits e) n ∧
      n.Denotes ⟨natOfDigits digits, e - digits.length + 1⟩ := by
  unfold positional
  split
  · next negative =>
    -- The digits stand behind zeros, of which one is in front of the point.
    refine ⟨_, spells_point (run_zeros 1) (by simp) ((run_zeros (-e - 1).toNat).append run), 0,
      ?_, ?_⟩
    · exact (natOfDigits_zeros_append ((-e - 1).toNat + 1) digits).trans (Nat.mul_one _).symm
    · simp
      omega
  dsimp only
  split
  · next nonneg short =>
    -- The number is whole; the zeros behind it, the one of its mark included, are new.
    let zeros := e.toNat + 1 - digits.length
    have text : digits ++ List.replicate zeros '0' ++ plain.wholeMark =
        digits ++ List.replicate zeros '0' ++ '.' :: List.replicate 1 '0' := rfl
    rw [text]
    refine ⟨_, spells_point (run.append (run_zeros _)) (by simp [ne]) (run_zeros 1), zeros + 1,
      ?_, ?_⟩
    · show natOfDigits (digits ++ List.replicate zeros '0' ++ List.replicate 1 '0') = _
      rw [List.append_assoc, List.replicate_append_replicate, natOfDigits_append_zeros]
    · simp
      omega
  · next nonneg long =>
    have split := List.take_append_drop (e.toNat + 1) digits
    have runs : RunOf isDigit (digits.take (e.toNat + 1) ++ digits.drop (e.toNat + 1)) :=
      split.symm ▸ run
    refine ⟨_, spells_point (fun c hc => runs c (List.mem_append_left _ hc)) (by simp [ne])
      (fun c hc => runs c (List.mem_append_right _ hc)), 0, ?_, ?_⟩
    · rw [split, Nat.pow_zero, Nat.mul_one]
    · simp
      omega

theorem spells_scientific {digits : List Char} {e : Int} (run : RunOf isDigit digits)
    (ne : digits ≠ []) : ∃ n, Spells (scientific plain digits e) n ∧
      n.Denotes ⟨natOfDigits digits, e - digits.length + 1⟩ := by
  unfold scientific
  extract_lets power padded
  have power : IsExponent ('e' :: (if e < 0 then '-' else '+') :: padded) e := by
    have runP : RunOf isDigit padded :=
      (run_zeros _).append fun c hc => isDigit_of_mem_toDigits hc
    have some : padded ≠ [] := by simp [padded, power]
    have value : natOfDigits padded = e.natAbs := by
      rw [natOfDigits_zeros_append, natOfDigits_toDigits]
    split
    · have spelled := IsExponent.minus runP some
      rwa [value, show -(e.natAbs : Int) = e by omega] at spelled
    · have spelled := IsExponent.plus runP some
      rwa [value, show (e.natAbs : Int) = e by omega] at spelled
  obtain ⟨d, rest, rfl⟩ := List.exists_cons_of_ne_nil ne
  have first : RunOf isDigit [d] := by
    rintro c hc
    obtain rfl := List.mem_singleton.1 hc
    exact run c List.mem_cons_self
  cases rest with
  | nil =>
    refine ⟨_, .intro first (by simp) (.inl rfl) power, 0, ?_, ?_⟩
    · simp
    · simp
  | cons d' rest =>
    have behind : RunOf isDigit (d' :: rest) := fun c hc => run c (List.mem_cons_of_mem d hc)
    refine ⟨_, .intro first (by simp) (.inr ⟨d' :: rest, rfl, behind⟩) power, 0, ?_, ?_⟩
    · simp
    · simp
      omega

/-- The text of a decimal spells a numeral of the same amount. -/
theorem spells_write (d : Scaled) : ∃ n, Spells (d.write plain) n ∧ n.Denotes d := by
  have run : RunOf isDigit (Nat.toDigits 10 d.digits) := fun c hc => isDigit_of_mem_toDigits hc
  have ne : Nat.toDigits 10 d.digits ≠ [] := Nat.toDigits_ne_nil
  unfold Scaled.write
  extract_lets digits e
  have same : (⟨natOfDigits digits, e - digits.length + 1⟩ : Scaled) = d := by
    obtain ⟨n, exponent⟩ := d
    simp only [Scaled.mk.injEq, digits, e, natOfDigits_toDigits, true_and]
    omega
  split
  · exact same ▸ spells_positional run ne
  · exact same ▸ spells_scientific run ne

/-! ## Printed doubles -/

theorem unpackSign_of_lt {b : BitVec Format.binary64.numBits} (h : b.toNat < 2 ^ 63) :
    UnpackedFloat.unpackSign b = 0#1 := by
  apply BitVec.eq_of_toNat_eq
  have clear : b.toNat >>> 63 = 0 := by
    rw [Nat.shiftRight_eq_div_pow]
    exact Nat.div_eq_of_lt h
  simp [UnpackedFloat.unpackSign, clear]

/-- A finite double whose sign bit is clear is zero or positive. -/
theorem unpack_of_unsigned {x : Float} (finite : x.isFinite = true)
    (unsigned : x.toBits < 0x8000000000000000) :
    x.toModel.unpack = .zero .positive ∨
      ∃ m e positive, x.toModel.unpack = .finite .positive m e positive := by
  have clear := unpackSign_of_lt (b := x.toModel.toBits.toBitVec) unsigned
  have finite : x.toModel.unpack.isFinite = true := finite
  revert finite
  simp only [Float.Model.unpack, UnpackedFloat.unpack, clear]
  split
  · split <;> intro h <;> cases h
  split
  · split
    · exact fun _ => .inl rfl
    · next some =>
      exact fun _ => .inr ⟨_, _, (BitVec.toNat_pos _).2 ((BitVec.pos_iff_ne_zero _).2 some), rfl⟩
  · refine fun _ => .inr ⟨_, _, ?_, rfl⟩
    rw [toNat_one_append]
    exact Nat.add_pos_left (Nat.two_pow_pos 52) _

/-- A finite number without a sign is printed as a number of a formula, if it is small enough to be
printed without a plus sign. -/
theorem isNumber_write {x : Float} (finite : x.isFinite = true)
    (unsigned : x.toBits < 0x8000000000000000) (small : '+' ∉ write plain x) :
    IsNumber (write plain x) := by
  obtain ⟨n, spelled⟩ : ∃ n, Spells (write plain x) n := by
    unfold write
    rcases unpack_of_unsigned finite unsigned with unpacked | ⟨m, e, positive, unpacked⟩
    · rw [unpacked]
      exact ⟨_, spells_point (run_zeros 1) (by simp) (run_zeros 1)⟩
    · rw [unpacked]
      obtain ⟨n, spelled, -⟩ := spells_write (shortest m e)
      exact ⟨n, spelled⟩
  exact spelled.isNumber small

end PerfFormula.Decimal
