import PerfFormula.Formula.Recognition
import PerfFormula.Proofs.Outcome

/-!
# What the parser accepts

The parser climbs over ranks of operators and counts down how deep expressions may still be nested;
the grammar has a level for each rank, and each of its rules says how many levels of nesting are
left. They agree: the tokens of a formula are read as its tree, and all others are refused, whether
they come from a text or not.

Main statements:

* `Parsing.formula_eq_error_iff` — the tokens that are refused are those of no formula.
* `Parsing.formula_accepts_grammar` — the parser accepts exactly the grammar.
-/

namespace PerfFormula

namespace Parsing

/-- The tokens that are refused are those of no formula. -/
theorem formula_eq_error_iff {ts : List Token} :
    (∃ f, formula ts = .error f) ↔ ∀ x, ¬IsFormula (lexemes ts) x := by
  constructor
  · rintro ⟨f, hf⟩ x derived
    rw [formula_eq_ok_iff.2 derived] at hf
    cases hf
  · intro none
    cases h : formula ts with
    | error f => exact ⟨f, rfl⟩
    | ok x => exact absurd (formula_eq_ok_iff.1 h) (none x)

end Parsing

namespace Formula

open Parsing

variable {source : String} {runtime : Nat} {ts : List Token} {ending : Token}

/-- A text is parsed as its tokens are; an error is located in the text. -/
theorem parse_of_tokenize (lexed : tokenize source runtime = .ok (ts ++ [ending])) :
    Formula.parse source runtime =
      (formula ts).mapError fun f => .malformed (f.locate ending) := by
  rw [Formula.parse, lexed]
  simp only [List.dropLast_concat, List.getLastD_concat]
  cases formula ts with
  | error f => rfl
  | ok x => rfl

/-- A text that cannot be cut cannot be parsed. -/
theorem parse_of_tokenize_error {e : Unreadable SyntaxError}
    (failed : tokenize source runtime = .error e) : Formula.parse source runtime = .error e := by
  rw [Formula.parse, failed]

theorem parse_eq_ok_iff (lexed : tokenize source runtime = .ok (ts ++ [ending])) {x : Formula} :
    Formula.parse source runtime = .ok x ↔ IsFormula (lexemes ts) x := by
  rw [parse_of_tokenize lexed, mapError_eq_ok_iff]
  exact formula_eq_ok_iff

theorem parse_eq_error_iff (lexed : tokenize source runtime = .ok (ts ++ [ending])) :
    (∃ e, Formula.parse source runtime = .error e) ↔ ∀ x, ¬IsFormula (lexemes ts) x := by
  rw [← formula_eq_error_iff, parse_of_tokenize lexed]
  constructor
  · rintro ⟨e, h⟩
    obtain ⟨f, hf, -⟩ := mapError_eq_error_iff.1 h
    exact ⟨f, hf⟩
  · rintro ⟨f, hf⟩
    exact ⟨_, mapError_eq_error_iff.2 ⟨f, hf, rfl⟩⟩

end Formula

/-- The parser accepts exactly the grammar: tokens are read as a tree if and only if they derive it,
and refused if they derive none; so are the texts that the tokens come from. -/
theorem Parsing.formula_accepts_grammar (ts : List Token) :
    (∀ x, formula ts = .ok x ↔ IsFormula (lexemes ts) x) ∧
      ((∃ f, formula ts = .error f) ↔ ∀ x, ¬IsFormula (lexemes ts) x) ∧
      ∀ source runtime ending, tokenize source runtime = .ok (ts ++ [ending]) →
        (∀ x, Formula.parse source runtime = .ok x ↔ IsFormula (lexemes ts) x) ∧
          ((∃ e, Formula.parse source runtime = .error e) ↔ ∀ x, ¬IsFormula (lexemes ts) x) := by
  refine ⟨fun x => formula_eq_ok_iff, formula_eq_error_iff, ?_⟩
  intro source runtime ending lexed
  exact ⟨fun x => Formula.parse_eq_ok_iff lexed, Formula.parse_eq_error_iff lexed⟩

end PerfFormula
