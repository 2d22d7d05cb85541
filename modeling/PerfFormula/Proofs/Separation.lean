import PerfFormula.Formula.Derivation
import PerfFormula.Proofs.LongestMatch

/-!
# Lexemes that are written next to each other

A lexeme takes as many characters as it can, so what is written behind it matters: behind a name may
stand a blank, a parenthesis or a comma, but not a letter. Here the writer's side of this is stated.
Characters are cut into some lexemes if they are so wherever they stand, whatever allowed text
follows; such texts can be put next to each other.

Main statements:

* `Token.front?_of_word`, `Token.front?_of_number`, `Token.front?_of_literal` — what a delimiter
  follows is cut as it was written.
* `Token.Cuts.append` — texts that are cut into lexemes can be joined.
* `Token.Cuts.tokenize` — a whole text of this kind has these lexemes.
-/

namespace PerfFormula
namespace Token

open PerfFormula.Text PerfFormula.Decimal Parsing

variable {cs ds rest raw : List Char} {c : Char} {ls ms : List Lexeme} {P Q : List Char → Prop}

/-! ## What ends a lexeme -/

/-- The characters that end a number, a name or a host literal. -/
def isDelimiter (c : Char) : Bool := [' ', ')', ',', '('].contains c

/-- A text with a delimiter in front, if there is anything. -/
def Delimited (rest : List Char) : Prop := ∀ c ∈ rest.head?, isDelimiter c = true

theorem delimited_nil : Delimited [] := by
  intro c hc
  cases hc

theorem delimited_cons (h : isDelimiter c = true) (rest : List Char) : Delimited (c :: rest) := by
  rintro d ⟨⟩
  exact h

/-- No delimiter passes a test that none of the four passes. -/
theorem Delimited.stop {p : Char → Bool} (h : Delimited rest)
    (none : [' ', ')', ',', '('].all fun c => !p c) : ∀ c ∈ rest.head?, p c = false := by
  intro c hc
  have := List.all_eq_true.1 none c (List.contains_iff_mem.1 (h c hc))
  simpa using this

/-! ## Prefixes -/

/-- A point that no digit follows starts no number. -/
theorem numberPrefix_of_point (h : ∀ d ∈ cs.head?, isDigit d = false) :
    numberPrefix ('.' :: cs) = [] := by
  have none : cs.takeWhile isDigit = [] := by
    cases cs with
    | nil => rfl
    | cons d cs => rw [List.takeWhile_cons_of_neg (by simp [h d rfl])]
  unfold numberPrefix mantissaPrefix
  rw [List.takeWhile_cons_of_neg (by decide), List.dropWhile_cons_of_neg (by decide)]
  simp [none]

/-- A run of name characters ends in front of a delimiter. -/
theorem namePrefix_append (run : RunOf isNameChar raw) (stop : Delimited rest) :
    namePrefix (raw ++ rest) = raw := by
  induction raw with
  | nil =>
    cases rest with
    | nil => rfl
    | cons c rest =>
      refine namePrefix_of_head (stop.stop (by decide) c rfl) ?_
      rintro rfl
      exact absurd (stop '\\' rfl) (by decide)
  | cons c cs ih =>
    have char := run c List.mem_cons_self
    have plain : c ≠ '\\' := by
      rintro rfl
      exact absurd char (by decide)
    rw [List.cons_append, namePrefix.eq_2 _ _ (by simp [plain]), if_pos char,
      ih fun d hd => run d (List.mem_cons_of_mem c hd)]

/-! ## Lexemes in front of a delimiter -/

theorem front?_of_word (run : RunOf isNameChar raw) (ne : raw ≠ [])
    (start : numberPrefix (raw ++ rest) = []) (stop : Delimited rest) :
    front? (raw ++ rest) = some (.name, raw) := by
  have longest := isLongest_namePrefix (raw ++ rest)
  rw [namePrefix_append run stop] at longest
  exact front?_eq_some_iff.2 ⟨⟨longest.isPrefix, ⟨longest.mem, ne⟩,
    fun other pre mem => longest.length_le other pre mem.1⟩, fun _ => start, nofun⟩

/-- A number ends in front of a delimiter, since none is a character of numbers. -/
theorem front?_of_number (h : IsNumber raw) (stop : Delimited rest) :
    front? (raw ++ rest) = some (.number, raw) := by
  have longest : IsLongest IsNumber raw (raw ++ rest) :=
    isLongest_of_stop h (fun _ => IsNumber.isNumeralChar) (stop.stop (by decide))
  exact front?_eq_some_iff.2 ⟨longest, nofun, nofun⟩

theorem front?_of_literal (run : RunOf isWordChar raw) (ne : raw ≠ []) (stop : Delimited rest) :
    front? ('#' :: raw ++ rest) = some (.literal, '#' :: raw) := by
  have longest : IsLongest (fun cs => RunOf isWordChar cs ∧ cs ≠ []) raw (raw ++ rest) :=
    isLongest_of_stop ⟨run, ne⟩ (fun _ word => word.1) (stop.stop (by decide))
  exact front?_eq_some_iff.2 ⟨isLongest_cons '#' longest, nofun, nofun⟩

/-! ## Texts that are cut into lexemes -/

/-- Characters that are cut into these lexemes wherever they stand, if what follows is allowed. -/
def Cuts (allowed : List Char → Prop) (cs : List Char) (ls : List Lexeme) : Prop :=
  ∀ position rest, allowed rest → ∃ ts, lexemes ts = ls ∧
    scan 0 position (cs ++ rest) = (scan 0 (position + cs.length) rest).map (ts ++ ·)

namespace Cuts

theorem of_read {kind : Kind} {lexeme : Lexeme}
    (front : ∀ rest, P rest → front? (raw ++ rest) = some (kind, raw))
    (meant : read 0 kind raw = .ok (some lexeme)) : Cuts P raw [lexeme] := by
  intro position rest allowed
  refine ⟨[⟨lexeme, position, String.ofList raw⟩], rfl, ?_⟩
  rw [scan_append (front rest allowed) meant]
  rfl

/-- Texts that are cut into lexemes can be joined. -/
theorem append (first : Cuts P cs ls) (second : Cuts Q ds ms)
    (fits : ∀ rest, Q rest → P (ds ++ rest)) : Cuts Q (cs ++ ds) (ls ++ ms) := by
  intro position rest allowed
  obtain ⟨ts, rfl, cut⟩ := first position (ds ++ rest) (fits rest allowed)
  obtain ⟨us, rfl, cut'⟩ := second (position + cs.length) rest allowed
  refine ⟨ts ++ us, lexemes_append ts us, ?_⟩
  rw [List.append_assoc, cut, cut', List.length_append, Nat.add_assoc]
  cases scan 0 (position + (cs.length + ds.length)) rest with
  | error e => rfl
  | ok tokens => exact congrArg Except.ok (List.append_assoc ts us tokens).symm

theorem blank (h : Cuts P cs ls) : Cuts P (' ' :: cs) ls := by
  intro position rest allowed
  obtain ⟨ts, same, cut⟩ := h (position + 1) rest allowed
  refine ⟨ts, same, ?_⟩
  rw [List.cons_append, scan_blank rfl, cut, List.length_cons, Nat.add_right_comm, Nat.add_assoc]

theorem symbol {lexeme : Lexeme} (found : symbol? c = some lexeme) (h : Cuts P cs ls) :
    Cuts P (c :: cs) (lexeme :: ls) := by
  have alone : Cuts (fun _ => True) [c] [lexeme] :=
    of_read (fun _ _ => front?_of_symbol found) rfl
  exact alone.append h fun _ _ => trivial

/-- A whole text of this kind has these lexemes. -/
theorem tokenize (h : Cuts P cs ls) (ended : P []) :
    ∃ ts ending, PerfFormula.tokenize (.ofList cs) 0 = .ok (ts ++ [ending]) ∧ lexemes ts = ls := by
  obtain ⟨ts, same, cut⟩ := h 0 [] ended
  refine ⟨ts, _, tokenize_append_iff.2 ⟨?_, rfl⟩, same⟩
  rw [String.toList_ofList, ← List.append_nil cs, cut, scan_nil]
  show Except.ok (ts ++ []) = Except.ok ts
  rw [List.append_nil]

end Cuts

end Token
end PerfFormula
