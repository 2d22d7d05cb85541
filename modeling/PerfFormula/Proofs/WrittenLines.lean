import Mathlib.Tactic.SplitIfs
import PerfFormula.Document.Yaml.Reader
import PerfFormula.Document.Yaml.Writer

/-!
# Lines of written YAML

What the writer and the reader of YAML make of lines. A text is divided into words, runs of spaces
and runs of line feeds; words and most runs of spaces are written as they are, a single space may
become the end of a line, and line feeds are written once more than they are there. What is written
lies in printable ASCII, so that reading goes on by one column for each character.

Main statements:

* `Yaml.divided_runs` — the runs of a text make it up, and no two of a kind are next to each other.
* `Yaml.writeRuns_word`, `Yaml.writeRuns_spaces`, `Yaml.writeRuns_lineFeeds` — what is written of
  each kind of run.
-/

namespace PerfFormula
namespace Yaml

/-! ## Characters -/

/-- What holds of the first element holds of what stands at the head. -/
theorem forall_head {α : Type} {p : α → Prop} {a : α} {as : List α} (h : p a) :
    ∀ b ∈ (a :: as).head?, p b := by
  intro b hb
  rwa [← Option.some.inj hb]

theorem bounds_of_isPlainAscii {c : Char} (h : isPlainAscii c = true) :
    0x20 ≤ c.toNat ∧ c.toNat ≤ 0x7E := by
  rw [isPlainAscii, Bool.and_eq_true, decide_eq_true_eq, decide_eq_true_eq] at h
  exact h

theorem isBreak_of_isPlainAscii {c : Char} (h : isPlainAscii c = true) : isBreak c = false := by
  rw [Bool.eq_false_iff]
  intro broken
  have cases : c = '\n' ∨ c = '\r' ∨ c = '\u0085' ∨ c = '\u2028' ∨ c = '\u2029' := by
    simpa [isBreak, or_assoc] using broken
  rcases cases with rfl | rfl | rfl | rfl | rfl <;> exact absurd h (by decide)

theorem isGap_of_isPlainAscii {c : Char} (h : isPlainAscii c = true) : isGap c = (c == ' ') := by
  have noTab : c ≠ '\t' := by
    rintro rfl
    exact absurd h (by decide)
  simp [isGap, isBreak_of_isPlainAscii h, noTab]

/-! ## Places -/

namespace Cursor

theorem next_plainAscii {c : Char} (h : isPlainAscii c = true) (rest : List Char)
    (l k i : Nat) : next ⟨c :: rest, l, k, i⟩ = ⟨rest, l, k + 1, i + 1⟩ := by
  have noMark : c ≠ '\uFEFF' := by
    rintro rfl
    exact absurd h (by decide)
  simp [next, isBreak_of_isPlainAscii h, noMark]

theorem skip_plainAscii {cs : List Char} (h : ∀ c ∈ cs, isPlainAscii c = true) (rest : List Char)
    (l k i : Nat) :
    skip cs.length ⟨cs ++ rest, l, k, i⟩ = ⟨rest, l, k + cs.length, i + cs.length⟩ := by
  induction cs generalizing k i with
  | nil => rfl
  | cons c cs ih =>
    rw [List.length_cons, List.cons_append, skip, next_plainAscii (h c List.mem_cons_self),
      ih fun d hd => h d (List.mem_cons_of_mem _ hd)]
    simp only [mk.injEq, true_and]
    omega

theorem lineBreak?_of_head {rest : List Char} (h : ∀ c ∈ rest.head?, isBreak c = false)
    (l k i : Nat) : lineBreak? ⟨rest, l, k, i⟩ = none := by
  cases rest with
  | nil => rfl
  | cons c rest =>
    have kept : isBreak c = false := h c rfl
    have noReturn : c ≠ '\r' := by
      rintro rfl
      exact absurd kept (by decide)
    have noSeparator : (c == '\u2028' || c == '\u2029') = false := by
      rw [Bool.eq_false_iff]
      intro separator
      have cases : c = '\u2028' ∨ c = '\u2029' := by simpa using separator
      rcases cases with rfl | rfl <;> exact absurd kept (by decide)
    unfold lineBreak?
    split
    · next heq => exact absurd (List.cons.inj heq).1 noReturn
    · next heq =>
      obtain ⟨rfl, -⟩ := List.cons.inj heq
      rw [noSeparator, kept]
      rfl
    · rfl

theorem lineBreak?_lineFeed (rest : List Char) (l k i : Nat) :
    lineBreak? ⟨'\n' :: rest, l, k, i⟩ = some ('\n', ⟨rest, l + 1, 0, i + 1⟩) := rfl

end Cursor

/-! ## Between the lines -/

/-- The rest of a text from the next token on: it starts with neither a gap nor a comment, and no
document starts or ends there. -/
structure Margin (rest : List Char) : Prop where
  head : ∀ c ∈ rest.head?, isGap c = false ∧ c ≠ '#'
  noStart : rest.take 3 ≠ ['-', '-', '-']
  noEnd : rest.take 3 ≠ ['.', '.', '.']

theorem isBreak_of_isGap {c : Char} (h : isGap c = false) : isBreak c = false := by
  rw [isGap, Bool.or_eq_false_iff] at h
  exact h.2

theorem ne_space_of_isGap {c : Char} (h : isGap c = false) : c ≠ ' ' := by
  rintro rfl
  exact absurd h (by decide)

theorem atSeparator_of_take {rest : List Char} (noStart : rest.take 3 ≠ ['-', '-', '-'])
    (noEnd : rest.take 3 ≠ ['.', '.', '.']) (l k i : Nat) :
    Cursor.atSeparator ⟨rest, l, k, i⟩ = false := by
  simp [Cursor.atSeparator, Cursor.atMarker, noStart, noEnd]

theorem atSeparator_of_isGap {c : Char} (h : isGap c = true) (rest : List Char) (l k i : Nat) :
    Cursor.atSeparator ⟨c :: rest, l, k, i⟩ = false := by
  apply atSeparator_of_take
  · intro start
    rw [List.take_succ_cons, List.cons.injEq] at start
    rw [start.1] at h
    exact absurd h (by decide)
  · intro start
    rw [List.take_succ_cons, List.cons.injEq] at start
    rw [start.1] at h
    exact absurd h (by decide)

theorem atSeparator_of_indented {indent : Nat} (deep : 0 < indent) (rest : List Char)
    (l k i : Nat) : Cursor.atSeparator ⟨List.replicate indent ' ' ++ rest, l, k, i⟩ = false := by
  obtain ⟨indent, rfl⟩ := Nat.exists_eq_succ_of_ne_zero (by omega : indent ≠ 0)
  exact atSeparator_of_isGap (by decide) _ l k i

/-- No document starts or ends in front of the next token, however far that is indented. -/
theorem Margin.atSeparator {rest : List Char} (h : Margin rest) (n l k i : Nat) :
    Cursor.atSeparator ⟨List.replicate n ' ' ++ rest, l, k, i⟩ = false := by
  cases n with
  | zero => exact atSeparator_of_take h.noStart h.noEnd l k i
  | succ n => exact atSeparator_of_isGap (by decide) _ l k i

theorem takeWhile_spaces {p : Char → Bool} (space : p ' ' = true) (n : Nat) {rest : List Char}
    (h : ∀ c ∈ rest.head?, p c = false) :
    (List.replicate n ' ' ++ rest).takeWhile p = List.replicate n ' ' := by
  have none : rest.takeWhile p = [] := by
    cases rest with
    | nil => rfl
    | cons c rest => rw [List.takeWhile_cons_of_neg (by simpa using h c rfl)]
  rw [List.takeWhile_append_of_pos (by simp [space]), none, List.append_nil]

theorem skip_spaces (n : Nat) (rest : List Char) (l k i : Nat) :
    Cursor.skip n ⟨List.replicate n ' ' ++ rest, l, k, i⟩ = ⟨rest, l, k + n, i + n⟩ := by
  have spaces : ∀ c ∈ List.replicate n ' ', isPlainAscii c = true := by
    intro c hc
    rw [List.eq_of_mem_replicate hc]
    decide
  simpa using Cursor.skip_plainAscii spaces rest l k i

theorem sees_head {rest : List Char} {p : Char → Bool} (h : ∀ c ∈ rest.head?, p c = false)
    (l k i : Nat) : Cursor.sees ⟨rest, l, k, i⟩ p 0 = false := by
  cases rest with
  | nil => rfl
  | cons c rest => simpa [Cursor.sees] using h c rfl

/-! ## Runs -/

/-- What a run of a text consists of. -/
inductive RunKind where
  | spaces
  | lineFeeds
  | word
  deriving DecidableEq

/-- The kind of run that a character belongs to. -/
def RunKind.of (c : Char) : RunKind :=
  if c = ' ' then .spaces else if c = '\n' then .lineFeeds else .word

/-- A run of a kind. -/
structure IsRun (kind : RunKind) (run : List Char) : Prop where
  ne : run ≠ []
  all : ∀ c ∈ run, RunKind.of c = kind

/-- A division into runs, of which no two of a kind are next to each other; the kind of the run in
front of them, if there is one, counts as well. -/
inductive Divided : Option RunKind → List (List Char) → Prop
  | nil (before : Option RunKind) : Divided before []
  | cons {before : Option RunKind} {kind : RunKind} {run : List Char} {more : List (List Char)}
      (isRun : IsRun kind run) (other : before ≠ some kind) (later : Divided (some kind) more) :
      Divided before (run :: more)

theorem RunKind.of_eq_iff (c d : Char) :
    ((c == ' ') == (d == ' ') && (c == '\n') == (d == '\n')) = true ↔ of c = of d := by
  have beq (a b : Char) : (a == b) = decide (a = b) := rfl
  simp only [beq, of]
  by_cases hc : c = ' ' <;> by_cases hc' : c = '\n' <;> by_cases hd : d = ' ' <;>
    by_cases hd' : d = '\n' <;> simp [hc, hc', hd, hd']

theorem divided_runs (cs : List Char) : Divided none (runs cs) ∧ (runs cs).flatten = cs := by
  have single (c : Char) : IsRun (.of c) [c] := ⟨by simp, by simp⟩
  induction cs with
  | nil => exact ⟨.nil none, rfl⟩
  | cons c rest ih =>
    obtain ⟨divided, whole⟩ := ih
    rw [runs]
    split
    · next d run more heq =>
      rw [heq] at divided whole
      cases divided with
      | @cons _ kind _ _ isRun _ later =>
        have first : RunKind.of d = kind := isRun.all d List.mem_cons_self
        split
        -- the first character belongs to the run behind it exactly when the kinds are the same
        · next same =>
          have joined : IsRun kind (c :: d :: run) := by
            refine ⟨by simp, fun e he => ?_⟩
            rcases List.mem_cons.1 he with rfl | he
            · rw [(RunKind.of_eq_iff e d).1 same, first]
            · exact isRun.all e he
          exact ⟨.cons joined (by simp) later, by rw [← whole]; rfl⟩
        · next other =>
          have apart : some (RunKind.of c) ≠ some kind := fun same =>
            other ((RunKind.of_eq_iff c d).2 ((Option.some.inj same).trans first.symm))
          exact ⟨.cons (single c) (by simp) (.cons isRun apart later), by rw [← whole]; rfl⟩
    · next noRun =>
      cases hrest : runs rest with
      | nil =>
        rw [hrest] at whole
        exact ⟨.cons (single c) (by simp) (.nil _), by rw [← whole]; rfl⟩
      | cons run more =>
        rw [hrest] at divided
        cases divided with
        | cons isRun =>
          obtain ⟨d, run', rfl⟩ := List.exists_cons_of_ne_nil isRun.ne
          exact absurd hrest (noRun d run' more)

namespace IsRun

/-- A run of a kind to which only one character belongs. -/
theorem eq_replicate {kind : RunKind} {d : Char} (only : ∀ c, RunKind.of c = kind → c = d)
    {run : List Char} (h : IsRun kind run) : ∃ n, run = List.replicate (n + 1) d := by
  have same : ∀ c ∈ run, c = d := fun c hc => only c (h.all c hc)
  obtain ⟨n, hn⟩ := Nat.exists_eq_succ_of_ne_zero fun zero => h.ne (List.length_eq_zero_iff.1 zero)
  exact ⟨n, by rw [← Nat.succ_eq_add_one, ← hn]; exact List.eq_replicate_of_mem same⟩

theorem eq_spaces {run : List Char} (h : IsRun .spaces run) :
    ∃ n, run = List.replicate (n + 1) ' ' := by
  refine h.eq_replicate fun c kind => ?_
  unfold RunKind.of at kind
  split_ifs at kind with space
  exact space

theorem eq_lineFeeds {run : List Char} (h : IsRun .lineFeeds run) :
    ∃ n, run = List.replicate (n + 1) '\n' := by
  refine h.eq_replicate fun c kind => ?_
  unfold RunKind.of at kind
  split_ifs at kind with space lineFeed
  exact lineFeed

theorem of_word {run : List Char} (h : IsRun .word run) {c : Char} (hc : c ∈ run) :
    c ≠ ' ' ∧ c ≠ '\n' := by
  have kind := h.all c hc
  unfold RunKind.of at kind
  split_ifs at kind with space lineFeed
  exact ⟨space, lineFeed⟩

end IsRun

/-! ## Writing runs -/

theorem writeRuns_word {run : List Char} (h : IsRun .word run) (indent column : Nat)
    (first quoted : Bool) (more : List (List Char)) :
    ∃ column', writeRuns indent first quoted column (run :: more) =
      (if quoted then doubleQuotes run else run) ++
        writeRuns indent false quoted column' more := by
  obtain ⟨c, run, rfl⟩ := List.exists_cons_of_ne_nil h.ne
  obtain ⟨noSpace, noBreak⟩ := h.of_word List.mem_cons_self
  rw [writeRuns, if_neg (by simp [noSpace]), if_neg (by simpa using noBreak)]
  exact ⟨_, rfl⟩

theorem doubleQuotes_spaces (n : Nat) :
    doubleQuotes (List.replicate n ' ') = List.replicate n ' ' := by
  induction n with
  | zero => rfl
  | succ n ih =>
    rw [List.replicate_succ]
    exact congrArg (' ' :: ·) ih

/-- A run of spaces stands for itself, or breaks the line if it is a single one. -/
theorem writeRuns_spaces (n indent column : Nat) (first quoted : Bool) (more : List (List Char)) :
    ∃ gap column', writeRuns indent first quoted column (List.replicate (n + 1) ' ' :: more) =
        gap ++ writeRuns indent false quoted column' more ∧
      (gap = List.replicate (n + 1) ' ' ∨
        gap = newLine indent ∧ n = 0 ∧ (quoted = true → more ≠ [])) := by
  rw [writeRuns]
  split_ifs with breaks lineFeed
  · simp only [Bool.and_eq_true, beq_iff_eq, decide_eq_true_eq, Bool.not_eq_true'] at breaks
    obtain ⟨⟨single, -⟩, inside⟩ := breaks
    refine ⟨newLine indent, _, rfl, .inr ⟨rfl, ?_, ?_⟩⟩
    · simpa using congrArg List.length single
    · rintro rfl rfl
      simp at inside
  · rw [List.replicate_succ, List.head?_cons, beq_iff_eq] at lineFeed
    cases lineFeed
  · exact ⟨_, _, by rw [doubleQuotes_spaces], .inl rfl⟩
  · exact ⟨_, _, rfl, .inl rfl⟩

theorem writeRuns_lineFeeds (n indent column : Nat) (first quoted : Bool)
    (more : List (List Char)) :
    writeRuns indent first quoted column (List.replicate (n + 1) '\n' :: more) =
      '\n' :: (List.replicate (n + 1) '\n' ++
        (List.replicate indent ' ' ++ writeRuns indent false quoted indent more)) := by
  rw [writeRuns, if_neg (by simp [List.replicate_succ]), if_pos (by simp [List.replicate_succ])]
  simp

end Yaml
end PerfFormula
