import Mathlib
import PerfFormula.Proofs.Acceptance
import PerfFormula.Proofs.Lossless
import PerfFormula.Proofs.Places

/-!
# Where errors point

A formula fails to be read in two phases: it may be impossible to cut it into tokens, or to make a
tree of them. In both the error has a position and a text, and the text stands in the formula at
that position; only an error at the end of the formula has no text.

Main statements:

* `Formula.parse_pointsInto` — so it is for every formula that cannot be read.
-/

namespace PerfFormula

/-- An error that points into a formula: its text stands there at its position, or it has none and
is placed at the end. -/
def SyntaxError.PointsInto (source : String) (e : SyntaxError) : Prop :=
  (e.token ≠ "" ∧ e.position + e.token.length ≤ source.length ∧
      (source.toList.drop e.position).take e.token.length = e.token.toList) ∨
    (e.token = "" ∧ e.position = source.length)

namespace SyntaxError

/-- An error points into a text that can be split around its characters. -/
theorem pointsInto_of_split {source : String} {e : SyntaxError} {before raw behind : List Char}
    (split : source.toList = before ++ (raw ++ behind)) (place : e.position = before.length)
    (written : e.token = .ofList raw) (ne : raw ≠ []) : e.PointsInto source := by
  refine .inl ⟨by simpa [written] using ne, ?_, ?_⟩
  · rw [written, place, ← String.length_toList (s := source), split, String.length_ofList]
    simp only [List.length_append]
    omega
  · rw [written, place, split, List.drop_left, String.length_ofList, List.take_left,
      String.toList_ofList]

end SyntaxError

namespace Token

/-- What is refused is blamed in front. -/
theorem Refused.split {runtime : Nat} {rest : List Char} {fault : SyntaxFault} {token : String}
    (h : Refused runtime rest fault token) :
    ∃ raw behind, rest = raw ++ behind ∧ token = .ofList raw ∧ raw ≠ [] := by
  cases h with
  | @character c cs _ => exact ⟨[c], cs, rfl, rfl, List.cons_ne_nil c []⟩
  | @lexeme raw behind _ _ front _ => exact ⟨raw, behind, rfl, rfl, front?_ne_nil front⟩

theorem tokenize_pointsInto {source : String} {runtime : Nat} {e : SyntaxError}
    (failed : tokenize source runtime = .error (.malformed e)) : e.PointsInto source := by
  obtain ⟨ts, rest, recognized, refused⟩ := refused_of_scan (tokenize_eq_error_iff.1 failed)
  obtain ⟨before, split, place, -⟩ := recognized.scan_before
  obtain ⟨raw, behind, rfl, written, ne⟩ := refused.split
  exact SyntaxError.pointsInto_of_split split (by rw [place, Nat.zero_add]) written ne

/-- What the parser blames is a token of the text or its end. -/
theorem locate_pointsInto {source : String} {runtime : Nat} {ts : List Token} {ending : Token}
    {f : Parsing.Failure} (lexed : tokenize source runtime = .ok (ts ++ [ending]))
    (rest : f.rest <:+ ts) : (f.locate ending).PointsInto source := by
  obtain ⟨scanned, rfl⟩ := tokenize_append_iff.1 lexed
  obtain ⟨fault, blamed⟩ := f
  cases blamed with
  | nil =>
    -- Nothing is left to blame but the end.
    exact .inr ⟨rfl, rfl⟩
  | cons t more =>
    have mem : t ∈ ts := rest.mem List.mem_cons_self
    obtain ⟨before, raw, behind, kind, split, front, -, place, written⟩ := token_of_scan scanned mem
    rw [Nat.zero_add] at place
    exact SyntaxError.pointsInto_of_split split place written (front?_ne_nil front)

end Token

/-- Every error in the text of a formula points to characters of this text, or to its end. -/
theorem Formula.parse_pointsInto {source : String} {runtime : Nat} {e : SyntaxError}
    (failed : Formula.parse source runtime = .error (.malformed e)) : e.PointsInto source := by
  cases lexed : tokenize source runtime with
  | error e' =>
    obtain rfl := Except.error.inj ((parse_of_tokenize_error lexed).symm.trans failed)
    exact Token.tokenize_pointsInto lexed
  | ok all =>
    obtain ⟨ts, -, rfl⟩ := tokenize_eq_ok_iff.1 lexed
    rw [parse_of_tokenize lexed] at failed
    obtain ⟨f, unread, same⟩ := mapError_eq_error_iff.1 failed
    cases same
    exact Token.locate_pointsInto lexed (Parsing.suffix_of_formula_error unread)

/-- A call with one argument, behind a name that is written with an escape. -/
theorem Formula.parse_pointsInto_call :
    Formula.parse "a\\,b@ + min(c)" 7 = .error (.malformed ⟨.wrongArity .min 1, 8, "min"⟩) ∧
      SyntaxError.PointsInto "a\\,b@ + min(c)" ⟨.wrongArity .min 1, 8, "min"⟩ := by
  have failed : Formula.parse "a\\,b@ + min(c)" 7 =
      .error (.malformed ⟨.wrongArity .min 1, 8, "min"⟩) := by cbv
  exact ⟨failed, Formula.parse_pointsInto failed⟩

end PerfFormula
