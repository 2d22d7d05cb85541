import PerfFormula.Decimal.Digits
import PerfFormula.Host.CpuList

/-!
# Written CPU lists

How a list of processors is written: every entry is a processor or a span of them, and the entries
are separated by commas. The count of such a text is the number of processors that its entries name.

Main statements:

* `CpuSpan.entryCount_write` — an entry counts the processors that it names.
* `CpuSpan.entryCount_write_of_long` — a span whose ends have too many digits is refused.
* `CpuList.count_eq_length` — the count of a written list is how many processors it names.
-/

namespace PerfFormula

open PerfFormula.Decimal PerfFormula.Text

/-- An entry of a CPU list: one processor, or all from a lowest to a highest one. -/
inductive CpuSpan where
  | one (n : Nat)
  | span (low high : Nat)
  deriving DecidableEq, Repr

namespace CpuSpan

/-- The processors that an entry names. -/
def numbers : CpuSpan → List Nat
  | one n => [n]
  | span low high => List.range' low (high + 1 - low)

/-- The characters of an entry. -/
def write : CpuSpan → List Char
  | one n => Nat.toDigits 10 n
  | span low high => Nat.toDigits 10 low ++ '-' :: Nat.toDigits 10 high

/-- A span does not end before it starts. -/
def IsOrdered : CpuSpan → Prop
  | one _ => True
  | span low high => low ≤ high

/-- The ends of a span have not too many digits to be read. -/
def IsShort : CpuSpan → Prop
  | one _ => True
  | span low high =>
    (Nat.toDigits 10 low).length ≤ digitLimit ∧ (Nat.toDigits 10 high).length ≤ digitLimit

instance : DecidablePred IsShort
  | one _ => .isTrue trivial
  | span _ _ => inferInstanceAs (Decidable (_ ∧ _))

theorem dash_not_mem_toDigits (n : Nat) : '-' ∉ Nat.toDigits 10 n :=
  fun h => absurd (isDigit_of_mem_toDigits h) (by decide)

theorem comma_not_mem_write (s : CpuSpan) : ',' ∉ s.write := by
  have digits : ∀ n, ',' ∉ Nat.toDigits 10 n :=
    fun n h => absurd (isDigit_of_mem_toDigits h) (by decide)
  cases s <;> simp [write, digits]

theorem isTyped_of_mem_write {s : CpuSpan} {c : Char} (h : c ∈ s.write) : isTyped c = true := by
  have digit : ∀ n, c ∈ Nat.toDigits 10 n → isTyped c = true := fun n mem =>
    isTyped_of_isNumeralChar (isNumeralChar_of_isDigit (isDigit_of_mem_toDigits mem))
  cases s with
  | one n => exact digit n h
  | span low high =>
    rcases List.mem_append.1 h with h | h
    · exact digit low h
    rcases List.mem_cons.1 h with rfl | h
    · decide
    · exact digit high h

theorem splitRange_digits (n : Nat) : CpuList.splitRange (Nat.toDigits 10 n) = none := by
  have dash : (Nat.toDigits 10 n).dropWhile (· ≠ '-') = [] := by
    rw [dropWhile_eq_nil_iff]
    intro c hc
    simp only [ne_eq, decide_eq_true_eq]
    rintro rfl
    exact dash_not_mem_toDigits n hc
  unfold CpuList.splitRange
  rw [dash]

theorem splitRange_span (low high : Nat) :
    CpuList.splitRange (Nat.toDigits 10 low ++ '-' :: Nat.toDigits 10 high) =
      some (Nat.toDigits 10 low, Nat.toDigits 10 high) := by
  have keep : ∀ c ∈ Nat.toDigits 10 low, decide (c ≠ '-') = true := by
    intro c hc
    simp only [ne_eq, decide_eq_true_eq]
    rintro rfl
    exact dash_not_mem_toDigits low hc
  unfold CpuList.splitRange
  rw [List.dropWhile_append_of_pos keep, List.takeWhile_append_of_pos keep]
  simp

/-- An entry counts the processors that it names. -/
theorem entryCount_write {s : CpuSpan} (h : s.IsOrdered) (short : s.IsShort) :
    CpuList.entryCount s.write = .ok (s.numbers.length : Int) := by
  cases s with
  | one n => simp [CpuList.entryCount, write, splitRange_digits, numbers]
  | span low high =>
    have ordered : low ≤ high := h
    simp only [CpuList.entryCount, write, splitRange_span, readWhole_toDigits short.1,
      readWhole_toDigits short.2, numbers, List.length_range', bind, Except.bind, pure,
      Except.pure]
    simp
    omega

theorem length_toDigits_mono {m n : Nat} (le : m ≤ n) :
    (Nat.toDigits 10 m).length ≤ (Nat.toDigits 10 n).length := by
  have some : 0 < (Nat.toDigits 10 n).length := Nat.length_toDigits_pos
  rw [Nat.length_toDigits_le_iff (by decide) some]
  exact Nat.lt_of_le_of_lt le ((Nat.length_toDigits_le_iff (by decide) some).1 (Nat.le_refl _))

/-- A span that is too long to be read is refused. Its upper end is read first, and it is the one
with more digits. -/
theorem entryCount_write_of_long {s : CpuSpan} (h : s.IsOrdered) (long : ¬s.IsShort) :
    ∃ k, digitLimit < k ∧ CpuList.entryCount s.write = .error (.tooLong k) := by
  cases s with
  | one n => exact absurd trivial long
  | span low high =>
    have ordered : low ≤ high := h
    have shorter := length_toDigits_mono ordered
    have tooLong : digitLimit < (Nat.toDigits 10 high).length := by
      apply Nat.lt_of_not_le
      intro short
      exact long ⟨Nat.le_trans shorter short, short⟩
    refine ⟨_, tooLong, ?_⟩
    simp [CpuList.entryCount, write, splitRange_span, readWhole_toDigits_of_long tooLong, bind,
      Except.bind]

end CpuSpan

namespace CpuList

/-- The characters of a list. -/
def write (spans : List CpuSpan) : List Char := [','].intercalate (spans.map CpuSpan.write)

theorem write_cons_cons (s t : CpuSpan) (rest : List CpuSpan) :
    write (s :: t :: rest) = s.write ++ ',' :: write (t :: rest) := by
  simp [write]

/-- A written list is visible. -/
theorem isTyped_of_mem_write {spans : List CpuSpan} {c : Char} (h : c ∈ write spans) :
    isTyped c = true := by
  induction spans with
  | nil => simp [write] at h
  | cons s rest ih =>
    cases rest with
    | nil => exact CpuSpan.isTyped_of_mem_write (by simpa [write] using h)
    | cons t rest =>
      rw [write_cons_cons] at h
      rcases List.mem_append.1 h with h | h
      · exact CpuSpan.isTyped_of_mem_write h
      rcases List.mem_cons.1 h with rfl | h
      · decide
      · exact ih h

/-- A written list that names any span has an entry for each. -/
theorem splitOnP_write {spans : List CpuSpan} (h : spans ≠ []) :
    (write spans).splitOnP (· == ',') = spans.map CpuSpan.write := by
  have free : ∀ entry ∈ spans.map CpuSpan.write, ',' ∉ entry := by
    simpa using fun s _ => CpuSpan.comma_not_mem_write s
  have back := List.splitOn_intercalate ',' free (by simpa using h)
  simpa [List.splitOn, write] using back

/-- The count of a written list is how many processors it names, whatever blanks surround it. -/
theorem count_eq_length {text : String} {spans : List CpuSpan} (h : trim text.toList = write spans)
    (ordered : ∀ s ∈ spans, s.IsOrdered) (short : ∀ s ∈ spans, s.IsShort) :
    count text = .ok ((spans.flatMap CpuSpan.numbers).length : Int) := by
  cases spans with
  | nil =>
    -- No entry is written, but splitting a text at commas always gives one: it is empty.
    have empty : entries text = [[]] := by
      simp [entries, h, write, List.splitOnP_nil]
    have zero : (entries text).map entryCount = [(0 : Int)].map .ok := by
      simp [empty, entryCount]
    exact count_eq_sum zero
  | cons s rest =>
    have written : entries text = (s :: rest).map CpuSpan.write := by
      rw [entries, h, splitOnP_write (List.cons_ne_nil s rest)]
    have counts : (entries text).map entryCount =
        ((s :: rest).map fun s => (s.numbers.length : Int)).map .ok := by
      rw [written, List.map_map, List.map_map]
      exact List.map_congr_left fun s hs => CpuSpan.entryCount_write (ordered s hs) (short s hs)
    rw [count_eq_sum counts, List.length_flatMap]
    congr 1
    induction s :: rest with
    | nil => rfl
    | cons s rest ih => simp [ih]

end CpuList
end PerfFormula
