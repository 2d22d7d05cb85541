import PerfFormula.Formula.Token

/-!
# Parsing formulas

From the tokens of a formula to its tree. From the loosest to the tightest construct:

* `A if C else B`, right-associative: the last branch is again a whole expression;
* the five ranks of binary operators, each left-associative: `|`, then `&`, then `< >`, then `+ -`,
  then `* / %`, which are told apart while climbing from one operator to the next;
* any number of minus signs;
* a number, a name, a host literal, a call, or an expression in parentheses.

A parenthesised expression, each argument of a call and each last branch is nested one level deeper
than the expression it stands in, and nesting is limited; chains of operators and of minus signs are
not. Every parser here takes at least one token, and its result says so: that is why the chains end.

The end token of a formula is not among the tokens that the parsers read: where these are used up
comes the end.

Main statements:

* `Parsing.climb_stops`, `Parsing.climb_step` — climbing stops where no operator within the rank
  follows, and goes on behind the right operand of one that does.
-/

namespace PerfFormula
namespace Parsing

/-- Why parsing stopped: the fault, and the tokens from the one to blame to the end. -/
structure Failure where
  fault : SyntaxFault
  rest : List Token

/-- The token to blame, which is the end token if the others are used up. -/
def Failure.blamed (ending : Token) (f : Failure) : Token := f.rest.headD ending

/-- The position and the text of the token to blame. -/
def Failure.locate (ending : Token) (f : Failure) : SyntaxError :=
  ⟨f.fault, (f.blamed ending).position, (f.blamed ending).raw⟩

/-- What was read from the front of some tokens, and the tokens behind it, which are fewer. -/
structure Reading (α : Type) (ts : List Token) where
  value : α
  rest : List Token
  shorter : rest.length < ts.length

/-- Reads something from the front of a token list. -/
abbrev Parser (α : Type) := (ts : List Token) → Except Failure (Reading α ts)

/-- Two operands that were read one after the other, with the operator between them. -/
def Reading.join {ts us : List Token} (left : Reading Formula ts) (op : Operator)
    (right : Reading Formula us) (h : us.length < left.rest.length) : Reading Formula ts :=
  ⟨.binary op left.value right.value, right.rest,
    Nat.lt_trans right.shorter (Nat.lt_trans h left.shorter)⟩

/-- What was read after a first token was read from some more tokens as well. -/
def Reading.after {α : Type} {ts us : List Token} (r : Reading α us) (h : us.length ≤ ts.length) :
    Reading α ts :=
  ⟨r.value, r.rest, Nat.lt_of_lt_of_le r.shorter h⟩

/-! ## Binary operators -/

/-- The operator in front of some tokens, if it is of the given rank or binds tighter, and what
follows it. -/
def operatorWithin? (rank : Nat) : List Token → Option (Operator × List Token)
  | ⟨.operator op, _, _⟩ :: rest => if op.rank ≤ rank then some (op, rest) else none
  | _ => none

theorem operatorWithin?_eq_some {rank : Nat} {ts rest : List Token} {op : Operator}
    (h : operatorWithin? rank ts = some (op, rest)) :
    ∃ t, ts = t :: rest ∧ t.lexeme = .operator op ∧ op.rank ≤ rank := by
  unfold operatorWithin? at h
  split at h
  · split at h
    · next hrank =>
      obtain ⟨rfl, rfl⟩ := Prod.mk.inj (Option.some.inj h)
      exact ⟨_, rfl, rfl, hrank⟩
    · cases h
  · cases h

theorem operatorWithin?_shorter {rank : Nat} {ts rest : List Token} {op : Operator}
    (h : operatorWithin? rank ts = some (op, rest)) : rest.length < ts.length := by
  obtain ⟨t, rfl, -⟩ := operatorWithin?_eq_some h
  simp

/-- Go on behind the first operands of an expression as long as operators of the given rank or
tighter ones follow. What stands on the right of an operator takes only the ones that bind tighter
than it. -/
def climb (operand : Parser Formula) (rank : Nat) (ts : List Token) (left : Reading Formula ts) :
    Except Failure (Reading Formula ts) :=
  match h : operatorWithin? rank left.rest with
  | none => .ok left
  | some (op, afterOp) =>
    have taken := operatorWithin?_shorter h
    match operand afterOp with
    | .error f => .error f
    | .ok first =>
      match climb operand (op.rank - 1) afterOp first with
      | .error f => .error f
      | .ok right => climb operand rank ts (left.join op right taken)
termination_by left.rest.length
decreasing_by
  · exact Nat.lt_trans first.shorter taken
  · exact Nat.lt_trans right.shorter taken

/-- An expression without a choice whose operators are of the given rank or bind tighter. -/
def binary (operand : Parser Formula) (rank : Nat) : Parser Formula := fun ts => do
  let first ← operand ts
  climb operand rank ts first

theorem climb_stops {operand : Parser Formula} {rank : Nat} {ts : List Token}
    {left : Reading Formula ts} (h : operatorWithin? rank left.rest = none) :
    climb operand rank ts left = .ok left := by
  unfold climb
  split
  · rfl
  · next h' => simp [h] at h'

theorem climb_step {operand : Parser Formula} {rank : Nat} {ts afterOp : List Token}
    {left : Reading Formula ts} {op : Operator}
    (h : operatorWithin? rank left.rest = some (op, afterOp)) :
    climb operand rank ts left = (binary operand (op.rank - 1) afterOp).bind fun right =>
      climb operand rank ts (left.join op right (operatorWithin?_shorter h)) := by
  conv => lhs; unfold climb
  split
  · next h' => simp [h] at h'
  · next op' afterOp' h' =>
    obtain ⟨rfl, rfl⟩ := Prod.mk.inj (Option.some.inj (h.symm.trans h'))
    simp only [binary, bind, Except.bind]
    cases operand afterOp with
    | error f => rfl
    | ok first =>
      simp only
      cases climb operand (op.rank - 1) afterOp first with
      | error f => rfl
      | ok right => rfl

/-! ## Signs, operands and calls -/

/-- Minus signs and what they negate. -/
def signed (operand : Parser Formula) : Parser Formula
  | ⟨.operator .sub, _, _⟩ :: ts =>
    match signed operand ts with
    | .error f => .error f
    | .ok r => .ok ⟨.negate r.value, r.rest, Nat.lt_succ_of_lt r.shorter⟩
  | ts => operand ts

/-- The closing parenthesis has to follow; `value` is what it closes. -/
def closed {α : Type} {ts : List Token} (r : Reading α ts) : Except Failure (Reading α ts) :=
  match h : r.rest with
  | ⟨.closing, _, _⟩ :: rest =>
    .ok ⟨r.value, rest, by have := r.shorter; simp only [h, List.length_cons] at this; omega⟩
  | other => .error ⟨.expected .closing, other⟩

/-- The arguments of a call, separated by commas; those read so far come last to first. -/
def arguments (argument : Parser Formula) (earlier : List Formula) (ts : List Token) :
    Except Failure (Reading (List Formula) ts) :=
  match argument ts with
  | .error f => .error f
  | .ok r =>
    match h : r.rest with
    | ⟨.comma, _, _⟩ :: more =>
      have fewer : more.length < ts.length := by
        have := r.shorter
        simp only [h, List.length_cons] at this
        omega
      match arguments argument (r.value :: earlier) more with
      | .error f => .error f
      | .ok all => .ok (all.after (Nat.le_of_lt fewer))
    | _ => .ok ⟨(r.value :: earlier).reverse, r.rest, r.shorter⟩
termination_by ts.length

/-- A call, read behind the name of the function. `whole` are the tokens from that name on. -/
def call (argument : Parser Formula) (f : Builtin) (whole ts : List Token) :
    Except Failure (Reading Formula ts) :=
  match ts with
  | ⟨.opening, _, _⟩ :: inside => do
    let args ← closed (← arguments argument [] inside)
    match args.value with
    | [a, b] => .ok ⟨.call f a b, args.rest, Nat.lt_succ_of_lt args.shorter⟩
    -- The name of the function is to blame, not the parenthesis behind the arguments.
    | given => .error ⟨.wrongArity f given.length, whole⟩
  | other => .error ⟨.expected (.opening f), other⟩

/-- Whether an opening parenthesis comes next. -/
def opens : List Token → Bool
  | ⟨.opening, _, _⟩ :: _ => true
  | _ => false

/-- A number, a name, a host literal, a call, or an expression in parentheses. -/
def operand (nested : Parser Formula) : Parser Formula
  | [] => .error ⟨.missingOperand, []⟩
  | t :: ts =>
    match t.lexeme with
    | .number x => .ok ⟨.number x, ts, Nat.lt_succ_self _⟩
    | .name n =>
      -- Only a function can be called; a name in front of a parenthesis should have been one.
      if opens ts then .error ⟨.unknownFunction, t :: ts⟩
      else .ok ⟨.name n, ts, Nat.lt_succ_self _⟩
    | .literal n =>
      match HostLiteral.ofName? n with
      | some l => .ok ⟨.host l, ts, Nat.lt_succ_self _⟩
      | none => .error ⟨.unknownLiteral, t :: ts⟩
    | .opening => do
      let inner ← closed (← nested ts)
      .ok (inner.after (Nat.le_succ _))
    | .function f => do
      let r ← call nested f (t :: ts) ts
      .ok (r.after (Nat.le_succ _))
    | _ => .error ⟨.unexpectedToken, t :: ts⟩

/-! ## Expressions -/

/-- How many levels of nesting a formula may have. -/
def depthLimit : Nat := 128

/-- An expression that may be nested `depth` levels deep, itself included. -/
def expression : (depth : Nat) → Parser Formula
  | 0, ts => .error ⟨.tooDeep depthLimit, ts⟩
  | depth + 1, ts => do
    -- The first branch and the condition are not nested any deeper than the whole.
    let simple := binary (signed (operand (expression depth))) Operator.loosest
    let first ← simple ts
    match h : first.rest with
    | ⟨.ifWord, _, _⟩ :: afterIf =>
      let condition ← simple afterIf
      match h' : condition.rest with
      | ⟨.elseWord, _, _⟩ :: afterElse =>
        let last ← expression depth afterElse
        .ok ⟨.choice condition.value first.value last.value, last.rest, by
          have h₁ := first.shorter
          have h₂ := condition.shorter
          have h₃ := last.shorter
          simp only [h, h', List.length_cons] at h₁ h₂
          omega⟩
      | other => .error ⟨.expected .elseWord, other⟩
    | _ => .ok first

/-- The tree of a whole formula; tokens behind it are an error. -/
def formula (ts : List Token) : Except Failure Formula :=
  match expression depthLimit ts with
  | .error f => .error f
  | .ok r =>
    match r.rest with
    | [] => .ok r.value
    | rest => .error ⟨.unexpectedToken, rest⟩

end Parsing

/-- The tree of a formula, with the runtime parameter that stands for `?` in names; zero leaves `?`
alone. -/
def Formula.parse (source : String) (runtime : Nat) : Except (Unreadable SyntaxError) Formula :=
  match tokenize source runtime with
  | .error e => .error e
  | .ok tokens =>
    -- There is always a last token, the end of the text.
    let ending := tokens.getLastD (Token.atEnd source)
    match Parsing.formula tokens.dropLast with
    | .error f => .error (.malformed (f.locate ending))
    | .ok x => .ok x

end PerfFormula
