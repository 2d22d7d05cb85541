import PerfFormula.Decimal.Reader

/-!
# CPU lists

How many processors a list such as `0-3,8` names. The list is a text of entries separated by commas,
with blanks around the whole; an entry is a single processor or a range of numbers. Nothing is asked
of a single entry, which counts as one, nor of the order of a range: the range `3-1` counts as -1.

Main statements:

* `CpuList.count_eq_sum` — the count of a list is the sum over its entries.
-/

namespace PerfFormula
namespace CpuList

open PerfFormula.Text PerfFormula.Decimal

/-- How many processors a list names. -/
abbrev Count := Except NumberError Int

/-- What stands before and after the first dash of an entry. -/
def splitRange (entry : List Char) : Option (List Char × List Char) :=
  match entry.dropWhile (· ≠ '-') with
  | [] => none
  | _ :: high => some (entry.takeWhile (· ≠ '-'), high)

/-- How many processors an entry names: none if it is empty, one if it is no range. The upper end of
a range is read first. -/
def entryCount (entry : List Char) : Count :=
  if entry.isEmpty then .ok 0
  else
    match splitRange entry with
    | none => .ok 1
    | some (low, high) => do
      let high ← readWhole (String.ofList high)
      let low ← readWhole (String.ofList low)
      return high - low + 1

/-- The entries of a list. -/
def entries (text : String) : List (List Char) := (trim text.toList).splitOnP (· == ',')

/-- The sum of the counts of some entries, unless one of them is malformed. -/
def total : List (List Char) → Count
  | [] => .ok 0
  | entry :: rest => do
    let n ← entryCount entry
    return n + (← total rest)

/-- How many processors a list names. -/
def count (text : String) : Count := total (entries text)

theorem total_cons_ok {entry : List Char} {rest : List (List Char)} {n m : Int}
    (h : entryCount entry = .ok n) (h' : total rest = .ok m) :
    total (entry :: rest) = .ok (n + m) := by
  simp [total, h, h', bind, Except.bind, pure, Except.pure]

/-- The count of a list of well-formed entries is the sum over its entries. -/
theorem count_eq_sum {text : String} {counts : List Int}
    (h : (entries text).map entryCount = counts.map .ok) :
    count text = .ok (counts.foldr (· + ·) 0) := by
  have all : ∀ (es : List (List Char)) (cs : List Int), es.map entryCount = cs.map .ok →
      total es = .ok (cs.foldr (· + ·) 0) := by
    intro es
    induction es with
    | nil => intro cs h; cases cs <;> simp_all [total]
    | cons e es ih =>
      intro cs h
      cases cs with
      | nil => simp at h
      | cons c cs =>
        simp only [List.map_cons, List.cons.injEq] at h
        rw [total_cons_ok h.1 (ih cs h.2), List.foldr_cons]
  exact all _ _ h

end CpuList
end PerfFormula
