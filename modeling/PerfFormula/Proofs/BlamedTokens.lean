import PerfFormula.Formula.Derivation
import PerfFormula.Proofs.Acceptance
import PerfFormula.Proofs.Prefixes

/-!
# The tokens that are blamed

When something else was expected, or a token cannot stand where it stands, or an operand is missing,
the parser blames the first token that is impossible: the tokens in front of it can still become a
formula of the relaxed grammar, but not together with it. The end of the tokens is blamed when they
could go on but are no formula yet.

The proof follows the parser. Each of its parts tells which tokens it took before it failed, that
these begin its construct, and where they lead the automaton of the grammar, which is stuck there.

Main statements:

* `SyntaxFault.blamesToken_iff` — the faults in question are those with these messages.
* `Parsing.blames_expression` — an expression that cannot be read is blamed at an impossible token.
* `Parsing.blamed_token_impossible` — so is a whole formula.
-/

namespace PerfFormula

/-- The faults that speak of a token that cannot stand where it stands: `Expected ...`,
`Unexpected token` and `Missing operand`. -/
def SyntaxFault.BlamesToken : SyntaxFault → Prop
  | .expected _ | .unexpectedToken | .missingOperand => True
  | _ => False

namespace SyntaxFault

/-- These faults are told from the others by their messages. -/
theorem blamesToken_iff (f : SyntaxFault) :
    f.BlamesToken ↔ "Expected ".toList <+: f.text.toList ∨ f.text = "Unexpected token" ∨
      f.text = "Missing operand" := by
  cases f with
  | unexpectedToken => exact ⟨fun _ => .inr (.inl rfl), fun _ => trivial⟩
  | missingOperand => exact ⟨fun _ => .inr (.inr rfl), fun _ => trivial⟩
  | expected what =>
    refine ⟨fun _ => .inl ?_, fun _ => trivial⟩
    show _ <+: ("Expected " ++ what.text).toList
    rw [String.toList_append]
    exact List.prefix_append _ _
  | tooDeep limit =>
    refine ⟨False.elim, ?_⟩
    obtain ⟨tail, same⟩ : ∃ tail, text (.tooDeep limit) = "Expression" ++ tail :=
      ⟨" nested deeper than " ++ toString limit ++ " levels", by
        rw [← String.append_assoc, ← String.append_assoc]; rfl⟩
    rw [same]
    simp [← String.toList_inj]
  | wrongArity g given =>
    refine ⟨False.elim, ?_⟩
    obtain ⟨tail, same⟩ : ∃ tail, text (.wrongArity g given) = g.name ++ tail :=
      ⟨" takes " ++ toString Builtin.arity ++ " arguments, got " ++ toString given, by
        rw [← String.append_assoc, ← String.append_assoc, ← String.append_assoc]; rfl⟩
    rw [same]
    cases g <;> simp [Builtin.name, ← String.toList_inj]
  | unexpectedCharacter | unterminatedName | invalidEscape | unknownFunction | unknownLiteral =>
    refine ⟨False.elim, ?_⟩
    rintro (begins | same | same)
    · exact absurd begins (by decide)
    · exact absurd same (by decide)
    · exact absurd same (by decide)

end SyntaxFault

namespace Parsing

open Progress

/-! ## Blame -/

/-- A failure at a token that is impossible in the construct that was to be read, wherever it may
stand: the tokens in front of it begin the construct, and behind them the automaton is stuck. -/
def Blames (complete : List Lexeme → Prop) (fits : List Scope → Prop) (ts : List Token)
    (f : Failure) : Prop :=
  ∃ used, ts = used ++ f.rest ∧ Begins complete (lexemes used) ∧
    ∀ s, fits s → ∃ p, through ⟨.operand, s⟩ (lexemes used) = some p ∧ p.IsStuck (lexemes f.rest)

/-- A parser that blames impossible tokens. -/
def Parser.Blames (p : Parser Formula) (k : Construct) : Prop :=
  ∀ ts f, p ts = .error f → f.fault.BlamesToken → Parsing.Blames (Phrase k) (Fits k) ts f

variable {complete whole : List Lexeme → Prop} {fits fitsWhole : List Scope → Prop}
  {ts us : List Token} {f : Failure}

/-- A failure behind some tokens of the whole, which lead to where the part may stand. -/
theorem Blames.behind (h : Blames complete fits us f) {front : List Token}
    (split : ts = front ++ us) (closing : List Lexeme)
    (rule : ∀ ls, complete ls → whole (lexemes front ++ ls ++ closing))
    (leads : ∀ s, fitsWhole s → ∃ s', fits s' ∧
      through ⟨.operand, s⟩ (lexemes front) = some ⟨.operand, s'⟩) :
    Blames whole fitsWhole ts f := by
  obtain ⟨used, rfl, begun, stuck⟩ := h
  refine ⟨front ++ used, by rw [split, List.append_assoc], ?_, fun s fit => ?_⟩
  · rw [lexemes_append]
    exact begun.within rule
  · obtain ⟨s', fit', reached⟩ := leads s fit
    obtain ⟨p, reached', stuck⟩ := stuck s' fit'
    rw [lexemes_append]
    exact ⟨p, through_append reached reached', stuck⟩

/-- A failure in a part that is all of the whole. -/
theorem Blames.mono (h : Blames complete fits ts f) (rule : ∀ ls, complete ls → whole ls)
    (leads : ∀ s, fitsWhole s → fits s) : Blames whole fitsWhole ts f := by
  obtain ⟨used, split, begun, stuck⟩ := h
  exact ⟨used, split, begun.mono rule, fun s fit => stuck s (leads s fit)⟩

/-- The tokens that a parser took are a phrase. -/
theorem Sound.phrase {p : Parser Formula} {levels : Nat} {k : Construct} (sound : Sound p levels k)
    {r : Reading Formula ts} (read : p ts = .ok r) :
    ∃ used, ts = used ++ r.rest ∧ Phrase k (lexemes used) := by
  obtain ⟨used, split, derives⟩ := sound ts r read
  exact ⟨used, split, derives.phrase⟩

/-! ## Chains and signs -/

theorem blames_chain {operand : Parser Formula} {levels rank : Nat}
    (sound : Sound operand levels (.chain rank)) (blames : operand.Blames (.chain rank))
    {left : Reading Formula ts} (taken : left.Takes fun ls _ => Phrase (.chain (rank + 1)) ls)
    (failed : chain operand (rank + 1) ts left = .error f) (blamed : f.fault.BlamesToken) :
    Blames (Phrase (.chain (rank + 1))) (Fits (.chain (rank + 1))) ts f := by
  -- Every operator leaves fewer tokens behind its right operand.
  induction hn : left.rest.length using Nat.strongRecOn generalizing left with
  | ind n ih =>
    subst hn
    cases found : operator? (rank + 1) left.rest with
    | none =>
      rw [chain_stops found] at failed
      cases failed
    | some hit =>
      obtain ⟨op, afterOp⟩ := hit
      obtain ⟨used, split, phrase⟩ := taken
      obtain ⟨t, behind, isOperator, hrank⟩ := operator?_eq_some found
      rw [chain_step found] at failed
      rcases error_of_bind failed with failed | ⟨right, read, failed⟩
      · -- The right operand fails, and whatever completes it completes the chain.
        have front : lexemes (used ++ [t]) = lexemes used ++ [.operator op] := by simp [isOperator]
        have splitRight : ts = used ++ [t] ++ afterOp := by
          rw [split, behind, List.append_assoc]
          rfl
        refine (blames afterOp f failed blamed).behind splitRight [] ?_ ?_
        · intro rs right
          rw [front]
          simpa using .binary phrase hrank right
        · intro s fit
          rw [front]
          exact ⟨s, fits_of_ne (by simp) s, through_append (through_of_phrase fit phrase) rfl⟩
      · have shorter := operator?_shorter found
        refine ih _ (Nat.lt_trans right.shorter shorter) ?_ failed rfl
        obtain ⟨usedRight, splitRight, phraseRight⟩ := sound.phrase read
        refine ⟨used ++ t :: usedRight, ?_, ?_⟩
        · exact split.trans (by simp [Reading.join, behind, splitRight])
        · simpa [isOperator] using .binary phrase hrank phraseRight

theorem blames_level {operand : Parser Formula} {levels : Nat}
    (sound : Sound operand levels .signed) (blames : operand.Blames .signed) (rank : Nat) :
    (level operand rank).Blames (.chain rank) := by
  induction rank with
  | zero =>
    intro ts f failed blamed
    exact (blames ts f failed blamed).mono (fun ls h => .unchained h) fun s _ =>
      fits_of_ne (by simp) s
  | succ rank ih =>
    intro ts f failed blamed
    rw [level_succ] at failed
    rcases error_of_bind failed with failed | ⟨first, read, failed⟩
    · exact (ih ts f failed blamed).mono (fun ls h => .tighter h) fun s _ =>
        fits_of_ne (by simp) s
    · obtain ⟨used, split, phrase⟩ := (level_sound sound rank).phrase read
      exact blames_chain (level_sound sound rank) ih ⟨used, split, .tighter phrase⟩ failed blamed

/-- Minus signs are taken off before an operand is read, which need not look out for them. -/
theorem blames_signed {operand : Parser Formula}
    (blames : ∀ ts f, (∀ position raw us, ts ≠ ⟨.operator .sub, position, raw⟩ :: us) →
      operand ts = .error f → f.fault.BlamesToken →
        Blames (Phrase .operand) (Fits .operand) ts f) :
    (signed operand).Blames .signed := by
  intro ts f failed blamed
  fun_induction signed operand ts with
  | case1 position raw ts f' failed' ih =>
    cases failed
    have split : ⟨.operator .sub, position, raw⟩ :: ts =
      [⟨.operator .sub, position, raw⟩] ++ ts := rfl
    refine (ih failed').behind split [] (fun ls h => ?_) fun s fit => ⟨s, fit, rfl⟩
    rw [List.append_nil]
    exact .negate h
  | case2 => cases failed
  | case3 ts unsigned =>
    exact (blames ts f unsigned failed blamed).mono (fun ls h => .unsigned h) fun s _ =>
      fits_of_ne (by simp) s

/-! ## Where an expression ends -/

/-- No operator and no `if` comes next. -/
def EndsExpression (rest : List Token) : Prop :=
  ∀ t ∈ rest.head?, (∀ op, t.lexeme ≠ .operator op) ∧ t.lexeme ≠ .ifWord

theorem lexeme_ne_of_head {rest : List Token} {l : Lexeme}
    (other : ∀ position raw us, rest = ⟨l, position, raw⟩ :: us → False) :
    ∀ t ∈ rest.head?, t.lexeme ≠ l := by
  rintro ⟨lexeme, position, raw⟩ next rfl
  obtain ⟨us, behind⟩ := List.head?_eq_some_iff.1 next
  exact other position raw us behind

theorem no_operator_of_level {operand : Parser Formula} {r : Reading Formula ts}
    (read : level operand Operator.loosest ts = .ok r) :
    ∀ t ∈ r.rest.head?, ∀ op, t.lexeme ≠ .operator op := by
  rintro ⟨lexeme, position, raw⟩ first op rfl
  obtain ⟨rest, behind⟩ := List.head?_eq_some_iff.1 first
  rw [← binary_eq_level] at read
  have ends := binary_ends read
  rw [behind] at ends
  -- All operators are within the loosest rank.
  change (if op.rank ≤ Operator.loosest then some (op, rest) else none) = none at ends
  rw [if_pos (Operator.rank_le_loosest op).2] at ends
  cases ends

theorem endsExpression_of_expression (levels : Nat) :
    ∀ ts r, expression levels ts = .ok r → EndsExpression r.rest := by
  induction levels with
  | zero =>
    intro ts r read
    cases read
  | succ levels ih =>
    intro ts r read
    unfold expression at read
    rw [binary_eq_level] at read
    obtain ⟨first, readFirst, read⟩ := ok_of_bind read
    split at read
    · obtain ⟨condition, readCondition, read⟩ := ok_of_bind read
      split at read
      · obtain ⟨last, readLast, read⟩ := ok_of_bind read
        cases read
        exact ih _ last readLast
      · cases read
    · next noIf =>
      cases read
      intro t next
      exact ⟨no_operator_of_level readFirst t next, lexeme_ne_of_head noIf t next⟩

/-! ## Impossible tokens behind an expression -/

theorem isStuck_of_overOperator {s : List Scope} {rest : List Token} (inside : s ≠ [])
    (impossible : ∀ t ∈ rest.head?, overOperator s t.lexeme = none) :
    IsStuck ⟨.operator, s⟩ (lexemes rest) := by
  cases rest with
  | nil =>
    intro same
    exact inside (congrArg Progress.scopes same)
  | cons t rest => exact impossible t rfl

theorem isStuck_of_opening {s : List Scope} {rest : List Token}
    (impossible : ∀ t ∈ rest.head?, t.lexeme ≠ .opening) :
    IsStuck ⟨.opening, s⟩ (lexemes rest) := by
  cases rest with
  | nil =>
    intro same
    cases same
  | cons t rest =>
    have noOpening := impossible t rfl
    show step ⟨.opening, s⟩ t.lexeme = none
    cases h : t.lexeme with
    | opening => exact absurd h noOpening
    | _ => rfl

variable {l : Lexeme} {s : List Scope}

theorem overOperator_group (noOperator : ∀ op, l ≠ .operator op) (noIf : l ≠ .ifWord)
    (noClosing : l ≠ .closing) : overOperator (.group :: s) l = none := by
  cases l with
  | operator op => exact absurd rfl (noOperator op)
  | ifWord => exact absurd rfl noIf
  | closing => exact absurd rfl noClosing
  | _ => rfl

theorem overOperator_arguments (noOperator : ∀ op, l ≠ .operator op) (noIf : l ≠ .ifWord)
    (noClosing : l ≠ .closing) (noComma : l ≠ .comma) :
    overOperator (.arguments :: s) l = none := by
  cases l with
  | operator op => exact absurd rfl (noOperator op)
  | ifWord => exact absurd rfl noIf
  | closing => exact absurd rfl noClosing
  | comma => exact absurd rfl noComma
  | _ => rfl

theorem overOperator_condition (noOperator : ∀ op, l ≠ .operator op) (noElse : l ≠ .elseWord) :
    overOperator (.condition :: s) l = none := by
  cases l with
  | operator op => exact absurd rfl (noOperator op)
  | elseWord => exact absurd rfl noElse
  | _ => rfl

theorem overOperator_nil (noOperator : ∀ op, l ≠ .operator op) (noIf : l ≠ .ifWord) :
    overOperator [] l = none := by
  cases l with
  | operator op => exact absurd rfl (noOperator op)
  | ifWord => exact absurd rfl noIf
  | _ => rfl

/-! ## Calls -/

theorem of_closed_error {α : Type} {r : Reading α ts} (failed : closed r = .error f) :
    f = ⟨.expected .closing, r.rest⟩ ∧ ∀ t ∈ r.rest.head?, t.lexeme ≠ .closing := by
  unfold closed at failed
  split at failed
  · cases failed
  · next noClosing =>
    cases failed
    exact ⟨rfl, lexeme_ne_of_head noClosing⟩

theorem ends_of_arguments {argument : Parser Formula}
    (ends : ∀ ts r, argument ts = .ok r → EndsExpression r.rest) (earlier : List Formula)
    (ts : List Token) {r : Reading (List Formula) ts}
    (read : arguments argument earlier ts = .ok r) :
    EndsExpression r.rest ∧ ∀ t ∈ r.rest.head?, t.lexeme ≠ .comma := by
  fun_induction arguments argument earlier ts with
  | case1 => cases read
  | case2 => cases read
  | case3 earlier ts first readFirst position raw more behind fewer all readAll ih =>
    cases read
    exact ih readAll
  | case4 earlier ts first readFirst noComma =>
    cases read
    exact ⟨ends ts first readFirst, lexeme_ne_of_head noComma⟩

theorem DerivesEach.phraseList {levels : Nat} {ls : List Lexeme} {xs : List Formula}
    (h : DerivesEach levels ls xs) : PhraseList ls := by
  induction h with
  | one h => exact .one h.phrase
  | more h _ ih => exact .more h.phrase ih

theorem blames_arguments {argument : Parser Formula} {levels : Nat}
    (sound : Sound argument levels .expression) (blames : argument.Blames .expression)
    (earlier : List Formula) (ts : List Token) (failed : arguments argument earlier ts = .error f)
    (blamed : f.fault.BlamesToken) :
    Blames PhraseList (fun s => s.head? = some .arguments) ts f := by
  have fits (s : List Scope) (inside : s.head? = some .arguments) : Fits .expression s := by
    intro _ same
    rw [inside] at same
    cases same
  fun_induction arguments argument earlier ts with
  | case1 earlier ts f' failedFirst =>
    cases failed
    exact (blames ts f failedFirst blamed).mono (fun ls h => .one h) fits
  | case2 earlier ts first readFirst position raw more behind fewer f' failedMore ih =>
    cases failed
    obtain ⟨used, split, phrase⟩ := sound.phrase readFirst
    have splitMore : ts = used ++ [⟨.comma, position, raw⟩] ++ more := by
      rw [split, behind, List.append_assoc]
      rfl
    refine (ih failedMore).behind splitMore [] ?_ ?_
    · intro ls h
      simpa using .more phrase h
    · intro s inside
      rw [lexemes_append]
      refine ⟨s, inside, through_append (through_of_phrase (fits s inside) phrase) ?_⟩
      exact through_cons (if_pos inside) rfl
  | case3 => cases failed
  | case4 => cases failed

/-- Behind the name of a function nothing but a parenthesis can follow. -/
theorem blames_opening {g : Builtin} {t : Token} (isFunction : t.lexeme = .function g)
    (impossible : ∀ t ∈ us.head?, t.lexeme ≠ .opening) :
    Blames (Phrase .operand) (Fits .operand) (t :: us) ⟨.expected (.opening g), us⟩ := by
  refine ⟨[t], rfl, ⟨[.opening, .number 0, .closing], ?_⟩, fun s _ => ⟨⟨.opening, s⟩, ?_, ?_⟩⟩
  · have argument : PhraseList [.number 0] := .one (Phrase.of_number .expression 0)
    rw [lexemes_cons, isFunction]
    exact .call argument
  · rw [lexemes_cons, isFunction]
    rfl
  · exact isStuck_of_opening impossible

theorem blames_call {argument : Parser Formula} {levels : Nat}
    (sound : Sound argument levels .expression) (blames : argument.Blames .expression)
    (ends : ∀ ts r, argument ts = .ok r → EndsExpression r.rest) {g : Builtin} {t : Token}
    (isFunction : t.lexeme = .function g) (failed : call argument g (t :: us) us = .error f)
    (blamed : f.fault.BlamesToken) : Blames (Phrase .operand) (Fits .operand) (t :: us) f := by
  rcases us with _ | ⟨⟨lexeme, position, raw⟩, inside⟩
  · cases failed
    exact blames_opening isFunction fun t next => by cases next
  cases lexeme with
  | opening =>
    have front : lexemes [t, ⟨.opening, position, raw⟩] = [.function g, .opening] := by
      simp [isFunction]
    have rule (as : List Lexeme) (h : PhraseList as) :
        Phrase .operand (lexemes [t, ⟨.opening, position, raw⟩] ++ as ++ [.closing]) := by
      rw [front]
      exact .call h
    have leads (s : List Scope) : through ⟨.operand, s⟩ (lexemes [t, ⟨.opening, position, raw⟩]) =
        some ⟨.operand, .arguments :: s⟩ := by
      rw [front]
      rfl
    rcases error_of_bind failed with failed | ⟨given, read, failed⟩
    · have split : t :: ⟨.opening, position, raw⟩ :: inside =
          [t, ⟨.opening, position, raw⟩] ++ inside := rfl
      exact (blames_arguments sound blames [] inside failed blamed).behind split [.closing] rule
        fun s _ => ⟨_, rfl, leads s⟩
    · obtain ⟨used, split, _, -, derives⟩ := arguments_takes sound [] inside given read
      obtain ⟨ended, noComma⟩ := ends_of_arguments ends [] inside read
      rcases error_of_bind failed with failed | ⟨args, -, failed⟩
      · obtain ⟨rfl, noClosing⟩ := of_closed_error failed
        refine ⟨[t, ⟨.opening, position, raw⟩] ++ used, ?_, ?_, fun s _ => ?_⟩
        · exact congrArg ([t, ⟨.opening, position, raw⟩] ++ ·) split
        · rw [lexemes_append]
          exact (Begins.of_complete derives.phraseList).within rule
        · rw [lexemes_append]
          refine ⟨_, through_append (leads s) (through_of_phraseList derives.phraseList), ?_⟩
          refine isStuck_of_overOperator (by simp) fun t next => ?_
          obtain ⟨noOperator, noIf⟩ := ended t next
          exact overOperator_arguments noOperator noIf (noClosing t next) (noComma t next)
      · -- A wrong number of arguments is blamed on the name of the function.
        split at failed
        · cases failed
        · cases failed
          cases blamed
  | _ =>
    cases failed
    refine blames_opening isFunction fun t next => ?_
    cases next
    simp

/-! ## Operands and expressions -/

theorem blames_operand {nested : Parser Formula} {levels : Nat}
    (sound : Sound nested levels .expression) (blames : nested.Blames .expression)
    (ends : ∀ ts r, nested ts = .ok r → EndsExpression r.rest) (ts : List Token) (f : Failure)
    (unsigned : ∀ position raw us, ts ≠ ⟨.operator .sub, position, raw⟩ :: us)
    (failed : operand nested ts = .error f) (blamed : f.fault.BlamesToken) :
    Blames (Phrase .operand) (Fits .operand) ts f := by
  -- Where the first token is to blame, nothing was taken yet.
  have first (same : f.rest = ts) (stuck : ∀ s, IsStuck ⟨.operand, s⟩ (lexemes ts)) :
      Blames (Phrase .operand) (Fits .operand) ts f :=
    ⟨[], same.symm, Phrase.begins_nil .operand, fun s _ => ⟨_, rfl, same ▸ stuck s⟩⟩
  rcases ts with _ | ⟨⟨lexeme, position, raw⟩, us⟩
  · cases failed
    exact first rfl fun s same => by cases same
  cases lexeme with
  | number x => cases failed
  | name n =>
    simp only [operand] at failed
    split at failed
    · cases failed
      cases blamed
    · cases failed
  | literal n =>
    simp only [operand] at failed
    split at failed
    · cases failed
    · cases failed
      cases blamed
  | opening =>
    rcases error_of_bind failed with failed | ⟨inner, read, failed⟩
    · have split : ⟨.opening, position, raw⟩ :: us = [⟨.opening, position, raw⟩] ++ us := rfl
      exact (blames us f failed blamed).behind split [.closing] (fun ls h => .group h)
        fun s _ => ⟨_, fits_group s, rfl⟩
    · rcases error_of_bind failed with failed | ⟨_, -, failed⟩
      · obtain ⟨rfl, noClosing⟩ := of_closed_error failed
        obtain ⟨used, split, phrase⟩ := sound.phrase read
        refine ⟨⟨.opening, position, raw⟩ :: used, congrArg _ split, ?_, fun s _ => ?_⟩
        · exact ⟨[.closing], .group phrase⟩
        · refine ⟨_, through_cons rfl (through_of_phrase (fits_group s) phrase), ?_⟩
          refine isStuck_of_overOperator (by simp) fun t next => ?_
          obtain ⟨noOperator, noIf⟩ := ends us inner read t next
          exact overOperator_group noOperator noIf (noClosing t next)
      · cases failed
  | function g =>
    rcases error_of_bind failed with failed | ⟨_, -, failed⟩
    · exact blames_call sound blames ends rfl failed blamed
    · cases failed
  | operator op =>
    cases failed
    refine first rfl fun s => ?_
    cases op with
    | sub => exact absurd rfl (unsigned position raw us)
    | _ => rfl
  | _ =>
    cases failed
    exact first rfl fun s => rfl

/-- Behind a condition nothing but `else` and an operator can follow. -/
theorem blames_elseWord {first condition rest : List Token} {t : Token}
    (split : ts = first ++ [t] ++ condition ++ rest) (isIf : t.lexeme = .ifWord)
    (phraseFirst : Phrase (.chain Operator.loosest) (lexemes first))
    (phraseCondition : Phrase (.chain Operator.loosest) (lexemes condition))
    (noOperator : ∀ u ∈ rest.head?, ∀ op, u.lexeme ≠ .operator op)
    (noElse : ∀ u ∈ rest.head?, u.lexeme ≠ .elseWord) :
    Blames (Phrase .expression) (Fits .expression) ts ⟨.expected .elseWord, rest⟩ := by
  have used : lexemes (first ++ [t] ++ condition) =
      lexemes first ++ [.ifWord] ++ lexemes condition := by
    simp [isIf]
  refine ⟨_, split, ?_, fun s fit => ?_⟩
  · rw [used]
    exact ⟨_, Phrase.choice_zero phraseFirst phraseCondition⟩
  · rw [used]
    refine ⟨_, through_condition fit phraseFirst phraseCondition, ?_⟩
    refine isStuck_of_overOperator (by simp) fun u next => ?_
    exact overOperator_condition (noOperator u next) (noElse u next)

/-- An expression that cannot be read is blamed at an impossible token. -/
theorem blames_expression (levels : Nat) : (expression levels).Blames .expression := by
  induction levels with
  | zero =>
    intro ts f failed blamed
    cases failed
    cases blamed
  | succ levels ih =>
    have operands := signed_sound (operand_sound (expression_sound levels))
    have sound := level_sound operands Operator.loosest
    have blames := blames_level operands (blames_signed (blames_operand (expression_sound levels) ih
      (endsExpression_of_expression levels))) Operator.loosest
    intro ts f failed blamed
    unfold expression at failed
    rw [binary_eq_level] at failed
    rcases error_of_bind failed with failed | ⟨first, readFirst, failed⟩
    · exact (blames ts f failed blamed).mono (fun ls h => .simple h) fun s _ =>
        fits_of_ne (by simp) s
    obtain ⟨used, split, phrase⟩ := sound.phrase readFirst
    split at failed
    · next position raw afterIf hif =>
      have splitIf : ts = used ++ [⟨.ifWord, position, raw⟩] ++ afterIf := by
        rw [split, hif, List.append_assoc]
        rfl
      rcases error_of_bind failed with failed | ⟨condition, readCondition, failed⟩
      · -- Whatever completes the condition, a last branch is still to come.
        refine (blames afterIf f failed blamed).behind splitIf [.elseWord, .number 0] ?_ ?_
        · intro cs h
          rw [lexemes_append]
          exact Phrase.choice_zero phrase h
        · intro s fit
          rw [lexemes_append]
          exact ⟨_, fits_of_ne (by simp) _, through_ifWord fit phrase⟩
      obtain ⟨usedC, splitC, phraseC⟩ := sound.phrase readCondition
      have splitCondition :
          ts = used ++ [⟨.ifWord, position, raw⟩] ++ usedC ++ condition.rest := by
        rw [List.append_assoc, ← splitC]
        exact splitIf
      split at failed
      · next position' raw' afterElse helse =>
        have splitElse : ts = used ++ [⟨.ifWord, position, raw⟩] ++ usedC ++
            [⟨.elseWord, position', raw'⟩] ++ afterElse := by
          rw [splitCondition, helse, List.append_assoc _ _ afterElse]
          rfl
        rcases error_of_bind failed with failed | ⟨last, -, failed⟩
        · -- The last branch stands where the whole choice does, so it may be a choice again.
          refine (ih afterElse f failed blamed).behind splitElse [] ?_ ?_
          · intro fs h
            simpa using Phrase.choice phrase phraseC h
          · intro s fit
            simp only [lexemes_append]
            exact ⟨s, fit, through_append (through_condition fit phrase phraseC) rfl⟩
        · cases failed
      · next noElse =>
        cases failed
        exact blames_elseWord splitCondition rfl phrase phraseC
          (no_operator_of_level readCondition) (lexeme_ne_of_head noElse)
    · cases failed

/-! ## Whole formulas -/

theorem blames_formula (failed : formula ts = .error f) (blamed : f.fault.BlamesToken) :
    Blames (Phrase .expression) (fun s => s = []) ts f := by
  unfold formula at failed
  split at failed
  · next failedWhole =>
    cases failed
    refine (blames_expression depthLimit ts f failedWhole blamed).mono (fun ls h => h) ?_
    rintro s rfl
    exact fits_nil
  · next r read =>
    split at failed
    · cases failed
    · next behind =>
      cases failed
      obtain ⟨used, split, phrase⟩ := (expression_sound depthLimit).phrase read
      refine ⟨used, split, .of_complete phrase, ?_⟩
      rintro s rfl
      refine ⟨_, through_of_phrase fits_nil phrase, ?_⟩
      -- Where nothing is open, only an operator or a choice can follow an expression.
      have ends := endsExpression_of_expression depthLimit ts r read
      cases hrest : r.rest with
      | nil => exact absurd hrest behind
      | cons t rest =>
        rw [hrest] at ends
        exact overOperator_nil (ends t rfl).1 (ends t rfl).2

/-- The position and the text of the token at a place, or those of the end. -/
theorem locate_of_rest {i : Nat} (h : f.rest = ts.drop i) (ending : Token) :
    f.locate ending = ⟨f.fault, (ts[i]?.getD ending).position, (ts[i]?.getD ending).raw⟩ := by
  rw [Failure.locate, Failure.blamed, h, List.headD_eq_head?_getD, List.head?_drop]

/-- The token that is blamed is the first impossible one. Those in front of it begin a formula of
the relaxed grammar, but not together with it; where the end is blamed, the tokens are no formula of
it. The error in a text is placed at this token. -/
theorem blamed_token_impossible (failed : formula ts = .error f) (blamed : f.fault.BlamesToken) :
    ∃ i ≤ ts.length, f.rest = ts.drop i ∧
      Begins (Phrase .expression) (lexemes (ts.take i)) ∧
      (i < ts.length → ¬Begins (Phrase .expression) (lexemes (ts.take (i + 1)))) ∧
      (i = ts.length → ¬Phrase .expression (lexemes ts)) ∧
      ∀ source runtime ending, tokenize source runtime = .ok (ts ++ [ending]) →
        Formula.parse source runtime = .error (.malformed
          ⟨f.fault, (ts[i]?.getD ending).position, (ts[i]?.getD ending).raw⟩) := by
  obtain ⟨used, split, begun, stuck⟩ := blames_formula failed blamed
  obtain ⟨p, reached, stuck⟩ := stuck [] rfl
  have rest : f.rest = ts.drop used.length := by rw [split, List.drop_left]
  refine ⟨used.length, ?_, rest, ?_, ?_, ?_, ?_⟩
  · rw [split, List.length_append]
    exact Nat.le_add_right _ _
  · rwa [split, List.take_left]
  · intro inside
    rw [split] at inside ⊢
    cases next : f.rest with
    | nil =>
      rw [next, List.append_nil] at inside
      exact absurd inside (Nat.lt_irrefl _)
    | cons t rest =>
      rw [next] at stuck
      rw [List.take_length_add_append, lexemes_append]
      exact not_begins_of_step reached stuck
  · intro atEnd
    rw [atEnd, List.drop_length] at rest
    rw [rest] at split stuck
    rw [split, List.append_nil]
    exact not_phrase_of_through reached stuck
  · intro source runtime ending lexed
    rw [Formula.parse_of_tokenize lexed, failed, ← locate_of_rest rest]
    rfl

/-- In `-()` the parenthesis that closes is to blame: an operand is missing in front of it. -/
theorem blamed_token_impossible_group :
    Formula.parse "-()" 0 = .error (.malformed ⟨.unexpectedToken, 2, ")"⟩) ∧
      ¬Begins (Phrase .expression) [.operator .sub, .opening, .closing] := by
  have failed : formula [⟨.operator .sub, 0, "-"⟩, ⟨.opening, 1, "("⟩, ⟨.closing, 2, ")"⟩] =
      .error ⟨.unexpectedToken, [⟨.closing, 2, ")"⟩]⟩ := by
    rfl
  have lexed : tokenize "-()" 0 =
      .ok ([⟨.operator .sub, 0, "-"⟩, ⟨.opening, 1, "("⟩, ⟨.closing, 2, ")"⟩] ++
        [Token.atEnd "-()"]) := by
    refine tokenize_append_iff.2 ⟨?_, rfl⟩
    have minus : Token.front? ['-', '(', ')'] = some (.symbol (.operator .sub), ['-']) := rfl
    have opening : Token.front? ['(', ')'] = some (.symbol .opening, ['(']) := rfl
    have closing : Token.front? [')'] = some (.symbol .closing, [')']) := rfl
    show Token.scan 0 0 ['-', '(', ')'] = _
    rw [Token.scan_of_read minus rfl]
    show (Token.scan 0 1 ['(', ')']).map _ = _
    rw [Token.scan_of_read opening rfl]
    show ((Token.scan 0 2 [')']).map _).map _ = _
    rw [Token.scan_of_read closing rfl]
    show (((Token.scan 0 3 []).map _).map _).map _ = _
    rw [Token.scan_nil]
    rfl
  obtain ⟨i, inside, rest, -, impossible, -, located⟩ := blamed_token_impossible failed trivial
  obtain rfl : i = 2 := by
    have length := congrArg List.length rest
    simp only [List.length_drop, List.length_cons, List.length_nil] at inside length
    omega
  exact ⟨located "-()" 0 _ lexed, impossible (by decide)⟩

end Parsing
end PerfFormula
