import PerfFormula.Text.Printable

/-!
# Quoted text

How a text is shown inside a message: between quotes, with a backslash before a backslash and before
the quote itself, the short escapes for line feed, carriage return and tab, and the code point in
hexadecimal for every other character that is not printable. Single quotes are used unless the text
holds a single quote and no double quote, so that as little as possible is escaped.

Main statements:

* `encodeChar_printable` — a printable character other than the quote and the backslash stands for
  itself.
* `quote_of_printable` — a text of such characters is written between single quotes unchanged.
-/

namespace PerfFormula.Text

/-- The lower-case hexadecimal digits of `n`, padded with zeros to at least `width` digits. -/
def hex (width n : Nat) : List Char :=
  let digits := Nat.toDigits 16 n
  List.replicate (width - digits.length) '0' ++ digits

/-- The escape of a character by its code point: two, four or eight hexadecimal digits. -/
def codePointEscape (c : Char) : List Char :=
  let n := c.toNat
  if n < 0x100 then '\\' :: 'x' :: hex 2 n
  else if n < 0x10000 then '\\' :: 'u' :: hex 4 n
  else '\\' :: 'U' :: hex 8 n

/-- One character of a text that stands between the quotes `mark`. -/
def encodeChar (mark c : Char) : List Char :=
  if c = mark ∨ c = '\\' then ['\\', c]
  else if c = '\n' then ['\\', 'n']
  else if c = '\r' then ['\\', 'r']
  else if c = '\t' then ['\\', 't']
  else if isPrintable c then [c]
  else codePointEscape c

/-- The quote that surrounds a text: the single one, unless it would have to be escaped and the
double one would not. -/
def quoteMark (cs : List Char) : Char :=
  if '\'' ∈ cs ∧ '"' ∉ cs then '"' else '\''

/-- The text between quotes, on one line and without unprintable characters. -/
def quoteChars (cs : List Char) : List Char :=
  let mark := quoteMark cs
  mark :: cs.flatMap (encodeChar mark) ++ [mark]

/-- `quoteChars` on strings. -/
def quote (s : String) : String := String.ofList (quoteChars s.toList)

theorem encodeChar_printable {mark c : Char} (plain : isPrintable c = true) (notMark : c ≠ mark)
    (notBackslash : c ≠ '\\') : encodeChar mark c = [c] := by
  have low : isPrintable '\n' = false ∧ isPrintable '\r' = false ∧ isPrintable '\t' = false := by
    decide
  have hn : c ≠ '\n' := fun h => by simp [h, low.1] at plain
  have hr : c ≠ '\r' := fun h => by simp [h, low.2.1] at plain
  have ht : c ≠ '\t' := fun h => by simp [h, low.2.2] at plain
  simp [encodeChar, notMark, notBackslash, hn, hr, ht, plain]

/-- A text of printable characters without quotes and backslashes is written unchanged. -/
theorem quote_of_printable {cs : List Char}
    (plain : ∀ c ∈ cs, isPrintable c = true ∧ c ≠ '\'' ∧ c ≠ '\\') :
    quoteChars cs = '\'' :: cs ++ ['\''] := by
  have mark : quoteMark cs = '\'' := by
    have : '\'' ∉ cs := fun h => (plain _ h).2.1 rfl
    simp [quoteMark, this]
  have body : ∀ ds : List Char, (∀ c ∈ ds, isPrintable c = true ∧ c ≠ '\'' ∧ c ≠ '\\') →
      ds.flatMap (encodeChar '\'') = ds := by
    intro ds
    induction ds with
    | nil => simp
    | cons c ds ih =>
      intro h
      have hc := h c (by simp)
      simp [encodeChar_printable hc.1 hc.2.1 hc.2.2, ih fun d hd => h d (by simp [hd])]
  simp [quoteChars, mark, body cs plain]

end PerfFormula.Text
