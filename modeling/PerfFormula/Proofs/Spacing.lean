import Mathlib
import PerfFormula.Proofs.Lockstep
import PerfFormula.Proofs.LongestMatch

/-!
# Spacing

Blanks between the tokens of a formula mean nothing but that one token ends and another starts. Two
tokens that stand next to each other are told apart by their characters, and each was cut with the
other one in view; with a blank between them each is cut alone, and nothing else becomes of it. So a
formula that is written with other blanks has the same tokens, and its tree or the fault that is
found in it is the same.

Main statements:

* `Token.scan_of_isCut` — a token that a blank follows is cut and read as it was.
* `Token.Spaced.scansAs` — tokens that are written with blanks between them are cut again.
* `Formula.parse_spaced` — a formula that is written with other blanks is read in the same way.
-/

namespace PerfFormula
namespace Token

open PerfFormula.Text Parsing

variable {runtime : Nat} {cs rest gap : List Char} {t : Token} {ts : List Token}

/-! ## Texts with other blanks -/

/-- The texts of tokens, each behind at least one blank, and perhaps blanks at the end. -/
inductive SpacedBehind : List Token → List Char → Prop
  | ending {gap : List Char} : RunOf isBlank gap → SpacedBehind [] gap
  | next {gap rest : List Char} {t : Token} {ts : List Token} : RunOf isBlank gap → gap ≠ [] →
      SpacedBehind ts rest → SpacedBehind (t :: ts) (gap ++ (t.raw.toList ++ rest))

/-- The texts of tokens with at least one blank between any two neighbours, and perhaps blanks at
both ends. -/
inductive Spaced : List Token → List Char → Prop
  | none {gap : List Char} : RunOf isBlank gap → Spaced [] gap
  | first {gap rest : List Char} {t : Token} {ts : List Token} : RunOf isBlank gap →
      SpacedBehind ts rest → Spaced (t :: ts) (gap ++ (t.raw.toList ++ rest))

/-- Behind a token comes a blank, or nothing. -/
theorem SpacedBehind.blank (h : SpacedBehind ts cs) : ∀ c ∈ cs.head?, isBlank c = true := by
  intro c hc
  cases h with
  | ending blank => exact blank c (List.mem_of_mem_head? hc)
  | @next gap rest t ts blank ne _ =>
    obtain ⟨d, gap, rfl⟩ := List.exists_cons_of_ne_nil ne
    obtain rfl : d = c := Option.some.inj hc
    exact blank d List.mem_cons_self

/-! ## Cutting them -/

theorem scan_gap (blank : RunOf isBlank gap) (runtime position : Nat) (cs : List Char) :
    scan runtime position (gap ++ cs) = scan runtime (position + gap.length) cs := by
  induction gap generalizing position with
  | nil => rfl
  | cons c gap ih =>
    rw [List.cons_append, scan_blank (blank c List.mem_cons_self),
      ih fun d hd => blank d (List.mem_cons_of_mem c hd), List.length_cons, Nat.add_right_comm,
      Nat.add_assoc]

/-- A token that is cut from some text, and what it is read as. -/
def IsCut (runtime : Nat) (t : Token) : Prop :=
  ∃ kind behind, front? (t.raw.toList ++ behind) = some (kind, t.raw.toList) ∧
    read runtime kind t.raw.toList = .ok (some t.lexeme)

theorem isCut_of_scan {position : Nat} (scanned : scan runtime position cs = .ok ts) :
    ∀ t ∈ ts, IsCut runtime t := by
  intro t mem
  obtain ⟨before, raw, behind, kind, -, front, meant, -, written⟩ := token_of_scan scanned mem
  have same : t.raw.toList = raw := by rw [written, String.toList_ofList]
  exact ⟨kind, behind, by rw [same]; exact front, by rw [same]; exact meant⟩

/-- A token that a blank follows is cut and read as it was. -/
theorem scan_of_isCut (cut : IsCut runtime t) (blank : ∀ c ∈ rest.head?, isBlank c = true)
    (position : Nat) : scan runtime position (t.raw.toList ++ rest) =
      (scan runtime (position + t.raw.length) rest).map (⟨t.lexeme, position, t.raw⟩ :: ·) := by
  obtain ⟨kind, behind, front, meant⟩ := cut
  -- Of blanks and of wrong escapes no token is made.
  have notBlank : kind ≠ .blank := by
    rintro rfl
    cases meant
  have notEscape : kind ≠ .escape := by
    rintro rfl
    cases meant
  rw [scan_append (front?_of_spaced front notBlank notEscape blank) meant, String.length_toList,
    ofLexeme?, String.ofList_toList]
  rfl

/-- A text that is cut into tokens with these texts, and read as they are, wherever they stand. -/
def ScansAs (runtime position : Nat) (cs : List Char) (ts : List Token) : Prop :=
  ∃ us, scan runtime position cs = .ok us ∧ unplaced us = unplaced ts

theorem scansAs_ending (blank : RunOf isBlank gap) (position : Nat) :
    ScansAs runtime position gap [] := by
  refine ⟨[], ?_, rfl⟩
  rw [← List.append_nil gap, scan_gap blank, scan_nil]

theorem scansAs_next {position : Nat} (blank : RunOf isBlank gap) (cut : IsCut runtime t)
    (apart : ∀ c ∈ rest.head?, isBlank c = true)
    (behind : ScansAs runtime (position + gap.length + t.raw.length) rest ts) :
    ScansAs runtime position (gap ++ (t.raw.toList ++ rest)) (t :: ts) := by
  obtain ⟨us, scanned, same⟩ := behind
  refine ⟨⟨t.lexeme, position + gap.length, t.raw⟩ :: us, ?_, ?_⟩
  · rw [scan_gap blank, scan_of_isCut cut apart, scanned]
    rfl
  · rw [unplaced_cons, unplaced_cons, same]

theorem SpacedBehind.scansAs (spaced : SpacedBehind ts cs) (cuts : ∀ t ∈ ts, IsCut runtime t)
    (position : Nat) : ScansAs runtime position cs ts := by
  induction spaced generalizing position with
  | ending blank => exact scansAs_ending blank position
  | next blank _ behind ih =>
    obtain ⟨cut, cuts⟩ := List.forall_mem_cons.1 cuts
    exact scansAs_next blank cut behind.blank (ih cuts _)

/-- Tokens that are written with blanks between them are cut again. -/
theorem Spaced.scansAs (spaced : Spaced ts cs) (cuts : ∀ t ∈ ts, IsCut runtime t)
    (position : Nat) : ScansAs runtime position cs ts := by
  cases spaced with
  | none blank => exact scansAs_ending blank position
  | first blank behind =>
    obtain ⟨cut, cuts⟩ := List.forall_mem_cons.1 cuts
    exact scansAs_next blank cut behind.blank (behind.scansAs cuts _)

end Token

/-! ## Whole formulas -/

open Token

/-- A formula that is written with other blanks has the same tokens, and it has the same tree or the
same fault, for which the same token is to blame. -/
theorem Formula.parse_spaced {source other : String} {runtime : Nat} {ts : List Token}
    {ending : Token} (lexed : tokenize source runtime = .ok (ts ++ [ending]))
    (spaced : Spaced ts other.toList) :
    (∃ us, tokenize other runtime = .ok us ∧
      us.map (·.lexeme) = (ts ++ [ending]).map (·.lexeme) ∧
      us.map (·.text) = (ts ++ [ending]).map (·.text) ∧
      us.map (·.raw) = (ts ++ [ending]).map (·.raw)) ∧
    ((∃ x, Formula.parse source runtime = .ok x ∧ Formula.parse other runtime = .ok x) ∨
      ∃ e e', Formula.parse source runtime = .error (.malformed e) ∧
        Formula.parse other runtime = .error (.malformed e') ∧
        e'.fault = e.fault ∧ e'.token = e.token) := by
  obtain ⟨scanned, rfl⟩ := tokenize_append_iff.1 lexed
  obtain ⟨us, scanned', same⟩ := spaced.scansAs (isCut_of_scan scanned) 0
  have lexed' : tokenize other runtime = .ok (us ++ [atEnd other]) :=
    tokenize_append_iff.2 ⟨scanned', rfl⟩
  -- The two end tokens differ in their positions alone.
  have all : Parsing.unplaced (us ++ [atEnd other]) = Parsing.unplaced (ts ++ [atEnd source]) := by
    rw [Parsing.unplaced_append, Parsing.unplaced_append, same]
    rfl
  refine ⟨⟨_, lexed', Parsing.map_of_unplaced (fun _ _ _ => rfl) all,
    Parsing.map_of_unplaced (fun _ _ _ => rfl) all,
    Parsing.map_of_unplaced (fun _ _ _ => rfl) all⟩, ?_⟩
  rw [parse_of_tokenize lexed, parse_of_tokenize lexed']
  rcases Parsing.formula_of_unplaced same with ⟨x, hx, hx'⟩ | ⟨f, g, hf, hg, fault, rest⟩
  · rw [hx, hx']
    exact .inl ⟨x, rfl, rfl⟩
  · rw [hf, hg]
    exact .inr ⟨_, _, rfl, rfl, fault, Parsing.locate_of_unplaced rest rfl⟩

/-- A call of a name is one however far the parenthesis stands from it. -/
theorem Formula.parse_spaced_call :
    ∃ ts ending, tokenize "f(b)" 0 = .ok (ts ++ [ending]) ∧ Spaced ts "f\t\n( b )".toList ∧
      ∃ e, Formula.parse "f\t\n( b )" 0 = .error (.malformed e) ∧ e.fault = .unknownFunction ∧
        e.token = "f" := by
  have failed : Formula.parse "f(b)" 0 = .error (.malformed ⟨.unknownFunction, 0, "f"⟩) := by cbv
  have lexed : tokenize "f(b)" 0 = .ok ([⟨.name "f", 0, "f"⟩, ⟨.opening, 1, "("⟩,
      ⟨.name "b", 2, "b"⟩, ⟨.closing, 3, ")"⟩] ++ [⟨.ending, 4, ""⟩]) := by cbv
  have spaced : Spaced [⟨.name "f", 0, "f"⟩, ⟨.opening, 1, "("⟩, ⟨.name "b", 2, "b"⟩,
      ⟨.closing, 3, ")"⟩] "f\t\n( b )".toList := by
    refine @Spaced.first [] _ _ _ (by decide) ?_
    refine @SpacedBehind.next ['\t', '\n'] _ _ _ (by decide) (by decide) ?_
    refine @SpacedBehind.next [' '] _ _ _ (by decide) (by decide) ?_
    refine @SpacedBehind.next [' '] _ _ _ (by decide) (by decide) ?_
    exact @SpacedBehind.ending [] (by decide)
  refine ⟨_, _, lexed, spaced, ?_⟩
  rcases (Formula.parse_spaced lexed spaced).2 with ⟨x, parses, -⟩ | ⟨e, e', fails, fails', same⟩
  · cases failed.symm.trans parses
  · cases failed.symm.trans fails
    exact ⟨e', fails', same⟩

end PerfFormula
