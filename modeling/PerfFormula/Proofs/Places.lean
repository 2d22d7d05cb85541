import PerfFormula.Formula.Derivation
import PerfFormula.Proofs.Outcome

/-!
# Where parsing stops

A parser goes through the tokens from left to right and never past their end: what it leaves when it
has read something, and what it blames when it fails, is the rest of the tokens from some place on.
This holds for every parser of the formula, whatever tokens it is given.

Main statements:

* `Parsing.keeps_expression` — an expression stops at a place of the tokens.
* `Parsing.suffix_of_formula_error` — and so does a whole formula that cannot be read.
* `Parsing.operand_literal` — a host literal is the one of the name that stands there.
* `Parsing.call_arity` — a call is built of two arguments and nothing else.
-/

namespace PerfFormula
namespace Parsing

variable {α β : Type} {ts us vs : List Token}

/-- What is left behind a reading, or what a failure blames, is a rest of some tokens. -/
def Keeps (whole : List Token) : Except Failure (Reading α ts) → Prop
  | .ok r => r.rest <:+ whole
  | .error f => f.rest <:+ whole

/-- A parser that stops at a place of the tokens that it is given. -/
def Parser.Keeps (p : Parser α) : Prop := ∀ ts, Parsing.Keeps ts (p ts)

theorem Keeps.mono {e : Except Failure (Reading α us)} (h : Keeps ts e) (rest : ts <:+ vs) :
    Keeps vs e := by
  cases e with
  | error f => exact List.IsSuffix.trans h rest
  | ok r => exact List.IsSuffix.trans h rest

theorem Keeps.bind {whole : List Token} {e : Except Failure (Reading α us)}
    {next : Reading α us → Except Failure (Reading β vs)} (h : Keeps whole e)
    (behind : ∀ r, e = .ok r → r.rest <:+ whole → Keeps whole (next r)) :
    Keeps whole (e >>= next) := by
  cases e with
  | error f => exact h
  | ok r => exact behind r rfl h

/-! ## Chains and signs -/

theorem keeps_chain {operand : Parser Formula} (keeps : operand.Keeps) (rank : Nat)
    (left : Reading Formula ts) : Keeps left.rest (chain operand rank ts left) := by
  induction hn : left.rest.length using Nat.strongRecOn generalizing left with
  | ind n ih =>
    subst hn
    cases found : operator? rank left.rest with
    | none =>
      rw [chain_stops found]
      exact List.suffix_refl _
    | some hit =>
      obtain ⟨op, afterOp⟩ := hit
      have shorter := operator?_shorter found
      obtain ⟨t, behind, -⟩ := operator?_eq_some found
      have rest : afterOp <:+ left.rest := behind ▸ List.suffix_cons t afterOp
      rw [chain_step found]
      refine ((keeps afterOp).mono rest).bind fun right _ inside => ?_
      exact (ih _ (Nat.lt_trans right.shorter shorter) (left.join op right shorter) rfl).mono inside

theorem keeps_level {operand : Parser Formula} (keeps : operand.Keeps) (rank : Nat) :
    (level operand rank).Keeps := by
  induction rank with
  | zero => exact keeps
  | succ rank ih =>
    intro ts
    rw [level_succ]
    exact (ih ts).bind fun first _ rest => (keeps_chain ih (rank + 1) first).mono rest

theorem keeps_signed {operand : Parser Formula} (keeps : operand.Keeps) :
    (signed operand).Keeps := by
  intro ts
  fun_induction signed operand ts with
  | case1 position raw ts f failed ih =>
    rw [failed] at ih
    exact List.IsSuffix.trans ih (List.suffix_cons _ ts)
  | case2 position raw ts r read ih =>
    rw [read] at ih
    exact List.IsSuffix.trans ih (List.suffix_cons _ ts)
  | case3 ts _ => exact keeps ts

/-! ## Operands -/

theorem keeps_closed (r : Reading α ts) : Keeps r.rest (closed r) := by
  unfold closed
  split
  · next rest behind =>
    show rest <:+ r.rest
    rw [behind]
    exact List.suffix_cons _ rest
  · exact List.suffix_refl _

theorem keeps_arguments {argument : Parser Formula} (keeps : argument.Keeps)
    (earlier : List Formula) (ts : List Token) : Keeps ts (arguments argument earlier ts) := by
  fun_induction arguments argument earlier ts with
  | case1 earlier ts f failed =>
    have first := keeps ts
    rw [failed] at first
    exact first
  | case2 earlier ts r read position raw more behind fewer f failed ih =>
    have first := keeps ts
    rw [read] at first
    rw [failed] at ih
    have rest : more <:+ r.rest := behind ▸ List.suffix_cons _ more
    exact List.IsSuffix.trans ih (rest.trans first)
  | case3 earlier ts r read position raw more behind fewer all listed ih =>
    have first := keeps ts
    rw [read] at first
    rw [listed] at ih
    have rest : more <:+ r.rest := behind ▸ List.suffix_cons _ more
    exact List.IsSuffix.trans ih (rest.trans first)
  | case4 earlier ts r read last =>
    have first := keeps ts
    rw [read] at first
    exact first

/-- A call may blame the name of the function, which stands in front of what it reads. -/
theorem keeps_call {argument : Parser Formula} (keeps : argument.Keeps) (g : Builtin)
    {whole ts : List Token} (rest : ts <:+ whole) : Keeps whole (call argument g whole ts) := by
  rcases ts with _ | ⟨⟨lexeme, position, raw⟩, inside⟩
  · exact rest
  cases lexeme with
  | opening =>
    have inner : inside <:+ whole := (List.suffix_cons _ inside).trans rest
    refine ((keeps_arguments keeps [] inside).mono inner).bind fun all _ rest => ?_
    refine ((keeps_closed all).mono rest).bind fun args _ rest => ?_
    split
    · exact rest
    · exact List.suffix_refl whole
  | _ => exact rest

theorem keeps_operand {nested : Parser Formula} (keeps : nested.Keeps) :
    (operand nested).Keeps := by
  intro ts
  rcases ts with _ | ⟨⟨lexeme, position, raw⟩, rest⟩
  · exact List.suffix_refl _
  have behind : rest <:+ ⟨lexeme, position, raw⟩ :: rest := List.suffix_cons _ rest
  cases lexeme with
  | number x => exact behind
  | name n =>
    simp only [operand]
    split
    · exact List.suffix_refl _
    · exact behind
  | literal n =>
    simp only [operand]
    split
    · exact behind
    · exact List.suffix_refl _
  | opening =>
    refine ((keeps rest).mono behind).bind fun inner _ left => ?_
    exact ((keeps_closed inner).mono left).bind fun whole _ left => left
  | function g => exact (keeps_call keeps g behind).bind fun r _ left => left
  | _ => exact List.suffix_refl _

/-! ## Expressions -/

/-- Whatever the tokens are, an expression stops at a place of them. -/
theorem keeps_expression (levels : Nat) : (expression levels).Keeps := by
  induction levels with
  | zero => exact fun ts => List.suffix_refl ts
  | succ levels ih =>
    have simple := keeps_level (keeps_signed (keeps_operand ih)) Operator.loosest
    intro ts
    unfold expression
    rw [binary_eq_level]
    refine (simple ts).bind fun first _ left => ?_
    split
    · next afterIf hif =>
      have inside : afterIf <:+ ts := (hif ▸ List.suffix_cons _ afterIf).trans left
      refine ((simple afterIf).mono inside).bind fun condition _ left => ?_
      split
      · next afterElse helse =>
        have inside : afterElse <:+ ts := (helse ▸ List.suffix_cons _ afterElse).trans left
        exact ((ih afterElse).mono inside).bind fun last _ left => left
      · exact left
    · exact left

/-- Tokens that are no formula are blamed from some place on. -/
theorem suffix_of_formula_error {f : Failure} (failed : formula ts = .error f) : f.rest <:+ ts := by
  have keeps := keeps_expression depthLimit ts
  unfold formula at failed
  split at failed
  · next h =>
    cases failed
    rw [h] at keeps
    exact keeps
  · next r h =>
    rw [h] at keeps
    split at failed
    · cases failed
    · cases failed
      exact keeps

/-! ## Host literals -/

/-- A host literal that is read is the one whose name stands there. -/
theorem operand_literal {nested : Parser Formula} {n : String} {position : Nat} {raw : String}
    {rest : List Token} {r : Reading Formula (⟨.literal n, position, raw⟩ :: rest)}
    (read : operand nested (⟨.literal n, position, raw⟩ :: rest) = .ok r) :
    ∃ l, r.value = .host l ∧ l.name = n := by
  simp only [operand] at read
  split at read
  · next l known =>
    cases read
    exact ⟨l, rfl, HostLiteral.name_of_ofName? known⟩
  · cases read

/-! ## Arguments of calls -/

theorem closed_value {r c : Reading α ts} (h : closed r = .ok c) : c.value = r.value := by
  unfold closed at h
  split at h
  · cases h
    rfl
  · cases h

/-- A call that is read was given as many arguments as every function takes. -/
theorem call_arity {argument : Parser Formula} {g : Builtin} {whole : List Token}
    {r : Reading Formula ts} (read : call argument g whole ts = .ok r) :
    ∃ t inside given, ts = t :: inside ∧ arguments argument [] inside = .ok given ∧
      given.value.length = Builtin.arity ∧ ∃ a b, given.value = [a, b] ∧ r.value = .call g a b := by
  rcases ts with _ | ⟨⟨lexeme, position, raw⟩, inside⟩
  · cases read
  cases lexeme with
  | opening =>
    obtain ⟨given, listed, read⟩ := ok_of_bind read
    obtain ⟨args, ended, read⟩ := ok_of_bind read
    split at read
    · next a b pair =>
      cases read
      have both : given.value = [a, b] := (closed_value ended).symm.trans pair
      exact ⟨_, inside, given, rfl, listed, by rw [both]; rfl, a, b, both, rfl⟩
    · cases read
  | _ => cases read

end Parsing
end PerfFormula
