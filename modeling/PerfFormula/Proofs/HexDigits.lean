import PerfFormula.Document.Json.Text

/-!
# Hexadecimal digits

A number that is written with a fixed count of hexadecimal digits is made up of its nibbles, and
each digit is read as the nibble that it was written for, in lower and in upper case. Eight digits
are enough for every code point.

Main statements:

* `Text.hex_eq_nibbles` — the digits of a number that fits into them.
* `Text.foldl_nibbles` — the nibbles make up the number.
* `Json.mapM_hexValue?` — the digits are read as the nibbles.
-/

namespace PerfFormula

namespace Text

/-! ## Nibbles -/

/-- The last `width` digits of a number in base sixteen, the most significant one first. -/
def nibbles : (width n : Nat) → List Nat
  | 0, _ => []
  | width + 1, n => nibbles width (n / 16) ++ [n % 16]

theorem nibbles_succ (width n : Nat) :
    nibbles (width + 1) n = nibbles width (n / 16) ++ [n % 16] := rfl

theorem length_nibbles (width n : Nat) : (nibbles width n).length = width := by
  induction width generalizing n with
  | zero => rfl
  | succ width ih => rw [nibbles_succ, List.length_append, ih, List.length_singleton]

theorem lt_of_mem_nibbles {width n d : Nat} (h : d ∈ nibbles width n) : d < 16 := by
  induction width generalizing n with
  | zero => cases h
  | succ width ih =>
    rcases List.mem_append.1 h with h | h
    · exact ih h
    · rw [List.mem_singleton.1 h]
      exact Nat.mod_lt n (by decide)

/-- The nibbles of a number that fits into them make up the number. -/
theorem foldl_nibbles {width n : Nat} (fits : n < Nat.pow 16 width) :
    (nibbles width n).foldl (fun v d => 16 * v + d) 0 = n := by
  induction width generalizing n with
  | zero =>
    have zero : n = 0 := Nat.lt_one_iff.1 fits
    rw [zero]
    rfl
  | succ width ih =>
    have front : n / 16 < Nat.pow 16 width := Nat.div_lt_of_lt_mul (by
      rw [Nat.mul_comm]
      exact fits)
    rw [nibbles_succ, List.foldl_append, ih front]
    exact Nat.div_add_mod n 16

theorem le_length_hex (width n : Nat) : width ≤ (hex width n).length := by
  rw [hex, List.length_append, List.length_replicate]
  omega

theorem hex_succ (width n : Nat) :
    hex (width + 2) n = hex (width + 1) (n / 16) ++ [(n % 16).digitChar] := by
  by_cases small : n < 16
  · have zero : n / 16 = 0 := Nat.div_eq_of_lt small
    rw [hex, hex, zero, Nat.toDigits_of_lt_base small, Nat.toDigits_of_lt_base (by decide),
      Nat.mod_eq_of_lt small]
    simp [List.replicate_succ']
  · rw [hex, hex, Nat.toDigits_of_base_le (by decide) (by omega)]
    simp

/-- The digits of a number that fits into them. -/
theorem hex_eq_nibbles {width n : Nat} (fits : n < Nat.pow 16 (width + 1)) :
    hex (width + 1) n = (nibbles (width + 1) n).map Nat.digitChar := by
  induction width generalizing n with
  | zero =>
    have small : n < 16 := fits
    rw [hex, Nat.toDigits_of_lt_base small, nibbles, Nat.mod_eq_of_lt small]
    rfl
  | succ width ih =>
    have front : n / 16 < Nat.pow 16 (width + 1) := Nat.div_lt_of_lt_mul (by
      rw [Nat.mul_comm]
      exact fits)
    rw [hex_succ, ih front, nibbles_succ (width + 1), List.map_append, List.map_singleton]

/-! ## Code points -/

/-- The code point of a character is that of no half of a pair. -/
theorem toNat_bounds (c : Char) :
    c.toNat < 0xD800 ∨ 0xDFFF < c.toNat ∧ c.toNat < 0x110000 := c.valid

/-- Eight digits are enough for every code point. -/
theorem toNat_lt_pow (c : Char) : c.toNat < Nat.pow 16 8 := by
  have bounds := toNat_bounds c
  exact Nat.lt_trans (by omega : c.toNat < 0x110000) (by decide)

end Text

/-! ## Digits and their values -/

namespace Json

open PerfFormula.Text

theorem hexValue?_digitChar : ∀ d < 16,
    hexValue? d.digitChar = some d ∧ hexValue? d.digitChar.toUpper = some d := by decide

/-- Digits are read as the nibbles for which they were written. -/
theorem mapM_hexValue? {nibbles : List Nat} (small : ∀ d ∈ nibbles, d < 16) :
    (nibbles.map Nat.digitChar).mapM hexValue? = some nibbles ∧
      ((nibbles.map Nat.digitChar).map Char.toUpper).mapM hexValue? = some nibbles := by
  induction nibbles with
  | nil => exact ⟨rfl, rfl⟩
  | cons d rest ih =>
    obtain ⟨lower, upper⟩ := hexValue?_digitChar d (small d List.mem_cons_self)
    obtain ⟨lowers, uppers⟩ := ih fun e he => small e (List.mem_cons_of_mem _ he)
    simp only [List.map_cons, List.mapM_cons, lower, upper, lowers, uppers]
    exact ⟨rfl, rfl⟩

end Json
end PerfFormula
