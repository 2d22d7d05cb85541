import PerfFormula.Decimal.Typed
import PerfFormula.Proofs.ShortestDecimal

/-!
# Reading printed doubles

The bits of a double are the parts that it is unpacked into, and there is just one double that is
not a number. So every double is read back from its text: a finite one from its shortest decimal,
the others from their words, each with the minus in front of it.

Main statements:

* `pack_unpack` — packing a double again gives the double.
* `readReal?_text` — every double is read back from its text.
* `isPlain_of_mem_text` — a text of a double is visible and holds no equals sign.
-/

namespace PerfFormula

open Float.Model (UnpackedFloat Format)
open Float.Model.UnpackedFloat (Sign)

/-! ## Packing what was unpacked -/

theorem pack_of_unpack_infinity {b : BitVec Format.binary64.numBits} {s : Sign}
    (h : UnpackedFloat.unpack .binary64 b = .infinity s) :
    UnpackedFloat.pack .binary64 (.infinity s) = b := by
  have fields := packComponents_unpack b
  simp only [UnpackedFloat.unpack] at h
  split at h
  · next exponent =>
    split at h
    · next mantissa =>
      cases h
      rwa [exponent, mantissa] at fields
    · cases h
  split at h
  · split at h <;> cases h
  · cases h

/-- What is not a number has the same bits in every valid double. -/
theorem pack_of_unpack_notANumber {b : BitVec Format.binary64.numBits}
    (valid : Format.binary64.Valid b) (h : UnpackedFloat.unpack .binary64 b = .notANumber) :
    UnpackedFloat.pack .binary64 .notANumber = b := by
  simp only [UnpackedFloat.unpack] at h
  split at h
  · next exponent =>
    split at h
    · cases h
    · next mantissa => exact (valid.eq_packedNaN exponent mantissa).symm
  split at h
  · split at h <;> cases h
  · cases h

/-- Packing a double again gives the double. -/
theorem pack_unpack (x : Float) : Float.ofModel (.pack x.toModel.unpack) = x := by
  have bits : UnpackedFloat.pack .binary64 x.toModel.unpack = x.toModel.toBits.toBitVec := by
    cases unpacked : x.toModel.unpack with
    | notANumber => exact pack_of_unpack_notANumber x.toModel.valid unpacked
    | infinity s => exact pack_of_unpack_infinity unpacked
    | zero s => exact pack_of_unpack_zero unpacked
    | finite s m e positive => exact pack_of_unpack unpacked
  obtain ⟨⟨⟨b⟩, valid⟩⟩ := x
  simp only [Float.Model.pack, bits]

namespace Decimal

open PerfFormula.Text

/-! ## Spelled numerals -/

theorem IsExponent.isNumeralChar {power : List Char} {e : Int} (h : IsExponent power e) :
    ∀ c ∈ power, isNumeralChar c = true := by
  intro c hc
  cases h with
  | none => cases hc
  | minus run _ | plus run _ =>
    -- The letter, the sign, or one of the digits.
    rcases List.mem_cons.1 hc with rfl | hc
    · decide
    rcases List.mem_cons.1 hc with rfl | hc
    · decide
    · exact isNumeralChar_of_isDigit (run c hc)

theorem Spells.isNumeralChar {cs : List Char} {n : Numeral} (h : Spells cs n) :
    ∀ c ∈ cs, isNumeralChar c = true := by
  obtain ⟨runW, -, inF, inP⟩ := h
  intro c hc
  rcases List.mem_append.1 hc with hc | hc
  · exact isNumeralChar_of_isDigit (runW c hc)
  rcases List.mem_append.1 hc with hc | hc
  · rcases inF with rfl | ⟨digits, rfl, run⟩
    · cases hc
    rcases List.mem_cons.1 hc with rfl | hc
    · decide
    · exact isNumeralChar_of_isDigit (run c hc)
  · exact inP.isNumeralChar c hc

/-- A spelled numeral is read as its value, and behind a minus as the negated value. -/
theorem Spells.readReal? {cs : List Char} {n : Numeral} (h : Spells cs n) :
    readReal? (.ofList cs) = some (value cs) ∧
      readReal? (.ofList ('-' :: cs)) = some (-value cs) := by
  have scanned := h.scan
  have typed : ∀ c ∈ cs, isTyped c = true :=
    fun c hc => isTyped_of_isNumeralChar (h.isNumeralChar c hc)
  obtain ⟨runW, ne, -, -⟩ := h
  obtain ⟨c, rest, rfl⟩ := List.exists_cons_of_ne_nil ne
  have first : isDigit c = true ∨ c = '.' := .inl (runW c List.mem_cons_self)
  exact ⟨readReal?_of_scan typed first scanned rfl, readReal?_minus_of_scan typed first scanned rfl⟩

/-! ## The text of a double -/

theorem spells_zero : Spells ['0', '.', '0'] ⟨['0'], ['0'], 0⟩ :=
  spells_point (run_zeros 1) (by simp) (run_zeros 1)

/-- The words for what is not finite. -/
def infiniteWords : List (List Char) := [['n', 'a', 'n'], ['i', 'n', 'f'], ['-', 'i', 'n', 'f']]

/-- The text of a double is a word for what is not finite, or a spelled numeral with its sign. -/
inductive IsWritten : List Char → Prop
  | word {cs} : cs ∈ infiniteWords → IsWritten cs
  | unsigned {cs n} : Spells cs n → IsWritten cs
  | signed {cs n} : Spells cs n → IsWritten ('-' :: cs)

theorem isWritten_write (x : Float) : IsWritten (write plain x) := by
  unfold write
  split
  · exact .word (by decide)
  · next s _ =>
    cases s with
    | positive => exact .word (by decide)
    | negative => exact .word (by decide)
  · next s _ =>
    cases s with
    | positive => exact .unsigned spells_zero
    | negative => exact .signed spells_zero
  · next s m q positive _ =>
    obtain ⟨n, spelled, -⟩ := spells_write (shortest m q)
    cases s with
    | positive => exact .unsigned spelled
    | negative => exact .signed spelled

theorem IsWritten.isPlain {cs : List Char} (h : IsWritten cs) :
    ∀ c ∈ cs, isTyped c = true ∧ c ≠ '=' := by
  have numeral : ∀ {d : Char}, isNumeralChar d = true → isTyped d = true ∧ d ≠ '=' := by
    intro d hd
    refine ⟨isTyped_of_isNumeralChar hd, ?_⟩
    rintro rfl
    exact absurd hd (by decide)
  intro c hc
  cases h with
  | word mem =>
    have all : (infiniteWords.flatten.all fun d => isTyped d && d != '=') = true := by decide
    have plain := List.all_eq_true.1 all c (List.mem_flatten.2 ⟨cs, mem, hc⟩)
    simpa using plain
  | unsigned spelled => exact numeral (spelled.isNumeralChar c hc)
  | signed spelled =>
    rcases List.mem_cons.1 hc with rfl | hc
    · decide
    · exact numeral (spelled.isNumeralChar c hc)

theorem IsWritten.ne_nil {cs : List Char} (h : IsWritten cs) : cs ≠ [] := by
  cases h with
  | word mem =>
    rintro rfl
    exact absurd mem (by decide)
  | unsigned spelled =>
    obtain ⟨-, ne, -, -⟩ := spelled
    exact List.append_ne_nil_of_left_ne_nil ne _
  | signed => exact List.cons_ne_nil _ _

/-- A text of a double is visible and holds no equals sign. -/
theorem isPlain_of_mem_text {x : Float} {c : Char} (h : c ∈ (text x).toList) :
    isTyped c = true ∧ c ≠ '=' := by
  rw [text, String.toList_ofList] at h
  exact (isWritten_write x).isPlain c h

theorem toList_text_ne_nil (x : Float) : (text x).toList ≠ [] := by
  rw [text, String.toList_ofList]
  exact (isWritten_write x).ne_nil

/-! ## Reading it back -/

theorem neg_value_shortest {m : ℕ} {q : ℤ} (canonical : IsCanonical m q) :
    -value ((shortest m q).write plain) =
      .ofModel (.pack (.finite .negative m q canonical.positive)) := by
  rw [value_shortest canonical]
  show Float.ofModel (.pack (Float.Model.unpack (.pack _)).neg) = _
  rw [unpack_pack_of_isCanonical canonical]
  rfl

/-- Every double is read back from its text. -/
theorem readReal?_text (x : Float) : readReal? (text x) = some x := by
  have packed := pack_unpack x
  unfold text write
  split
  · next unpacked =>
    rw [← packed, unpacked]
    decide +kernel
  · next s unpacked =>
    rw [← packed, unpacked]
    cases s with
    | positive => decide +kernel
    | negative => decide +kernel
  · next s unpacked =>
    rw [← packed, unpacked]
    cases s with
    | positive => decide +kernel
    | negative => decide +kernel
  · next s m q positive unpacked =>
    obtain ⟨n, spelled, -⟩ := spells_write (shortest m q)
    obtain ⟨plus, minus⟩ := spelled.readReal?
    have canonical := canonical_of_unpack unpacked
    rw [← packed, unpacked]
    cases s with
    | positive => exact plus.trans (congrArg some (value_shortest canonical))
    | negative => exact minus.trans (congrArg some (neg_value_shortest canonical))

end Decimal
end PerfFormula
