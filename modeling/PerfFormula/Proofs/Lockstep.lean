import PerfFormula.Proofs.Acceptance
import PerfFormula.Proofs.Levels
import PerfFormula.Proofs.Outcome

/-!
# What the parser does not look at

The parser takes the names of a formula into the tree as they are, and looks at the position of a
token only to report it. So tokens with other names that stand at other positions are parsed in step
with the first: the trees are the same but for the names, and a failure blames the token that stands
at the same place among the others.

Main statements:

* `Parsing.blind_expression` — tokens that differ in names and positions alone are parsed in step.
* `Parsing.formula_relabeled` — and so are whole formulas.
-/

namespace PerfFormula

/-! ## Other names and positions -/

/-- A formula with other names. -/
def Formula.rename (ρ : String → String) : Formula → Formula
  | number x => .number x
  | name n => .name (ρ n)
  | host l => .host l
  | binary op l r => .binary op (l.rename ρ) (r.rename ρ)
  | negate x => .negate (x.rename ρ)
  | choice c t f => .choice (c.rename ρ) (t.rename ρ) (f.rename ρ)
  | call g a b => .call g (a.rename ρ) (b.rename ρ)

theorem Formula.rename_id (x : Formula) : x.rename id = x := by
  induction x with
  | binary _ _ _ left right => rw [Formula.rename, left, right]
  | negate _ inner => rw [Formula.rename, inner]
  | choice _ _ _ condition first last => rw [Formula.rename, condition, first, last]
  | call _ _ _ first second => rw [Formula.rename, first, second]
  | _ => rfl

def Lexeme.rename (ρ : String → String) : Lexeme → Lexeme
  | name n => .name (ρ n)
  | lexeme => lexeme

/-- Renaming makes nothing but names. -/
theorem Lexeme.rename_ne {ρ : String → String} {lexeme other : Lexeme}
    (unnamed : ∀ n, other ≠ .name n) (h : lexeme ≠ other) : lexeme.rename ρ ≠ other := by
  cases lexeme with
  | name n => exact (unnamed (ρ n)).symm
  | _ => exact h

theorem Lexeme.rename_id (lexeme : Lexeme) : lexeme.rename id = lexeme := by
  cases lexeme <;> rfl

/-- A token that means another name and stands at another position, and is still written as it
was. -/
def Token.relabel (ρ : String → String) (place : Nat → Nat) (t : Token) : Token :=
  ⟨t.lexeme.rename ρ, place t.position, t.raw⟩

namespace Parsing

/-- The tokens with other names, at other positions. -/
def relabeled (ρ : String → String) (place : Nat → Nat) (ts : List Token) : List Token :=
  ts.map (·.relabel ρ place)

theorem relabeled_cons (ρ : String → String) (place : Nat → Nat) (lexeme : Lexeme) (position : Nat)
    (raw : String) (ts : List Token) : relabeled ρ place (⟨lexeme, position, raw⟩ :: ts) =
      ⟨lexeme.rename ρ, place position, raw⟩ :: relabeled ρ place ts := rfl

def Failure.relabel (ρ : String → String) (place : Nat → Nat) (f : Failure) : Failure :=
  ⟨f.fault, relabeled ρ place f.rest⟩

/-! ## Parsing in step -/

variable {ρ : String → String} {place : Nat → Nat} {α β : Type} {ts us vs ws : List Token}

/-- Two readings that stop at the same token, the second one with other names. -/
structure Reading.InStep (ρ : String → String) (place : Nat → Nat) (change : α → α)
    (r : Reading α ts) (s : Reading α us) : Prop where
  value : s.value = change r.value
  rest : s.rest = relabeled ρ place r.rest

/-- Two outcomes that are the same failure or that are readings in step. -/
def InStep (ρ : String → String) (place : Nat → Nat) (change : α → α)
    (e : Except Failure (Reading α ts)) (e' : Except Failure (Reading α us)) : Prop :=
  (∃ f, e = .error f ∧ e' = .error (f.relabel ρ place)) ∨
    ∃ r s, e = .ok r ∧ e' = .ok s ∧ r.InStep ρ place change s

/-- A parser that looks neither at names nor at positions. -/
def Blind (ρ : String → String) (place : Nat → Nat) (p : Parser Formula) : Prop :=
  ∀ ts, InStep ρ place (Formula.rename ρ) (p ts) (p (relabeled ρ place ts))

theorem InStep.failed {change : α → α} (f : Failure) :
    InStep ρ place change (.error f : Except Failure (Reading α ts))
      (.error (f.relabel ρ place) : Except Failure (Reading α us)) :=
  .inl ⟨f, rfl, rfl⟩

theorem InStep.read {change : α → α} {r : Reading α ts} {s : Reading α us}
    (same : r.InStep ρ place change s) : InStep ρ place change (.ok r) (.ok s) :=
  .inr ⟨r, s, rfl, rfl, same⟩

theorem InStep.bind {change : α → α} {change' : β → β} {e : Except Failure (Reading α ts)}
    {e' : Except Failure (Reading α us)} {next : Reading α ts → Except Failure (Reading β vs)}
    {next' : Reading α us → Except Failure (Reading β ws)} (h : InStep ρ place change e e')
    (hnext : ∀ r s, r.InStep ρ place change s → InStep ρ place change' (next r) (next' s)) :
    InStep ρ place change' (e >>= next) (e' >>= next') := by
  rcases h with ⟨f, rfl, rfl⟩ | ⟨r, s, rfl, rfl, same⟩
  · exact .failed f
  · exact hnext r s same

/-! ## Chains and signs -/

theorem operator?_relabeled (rank : Nat) (ts : List Token) :
    operator? rank (relabeled ρ place ts) =
      (operator? rank ts).map fun found => (found.1, relabeled ρ place found.2) := by
  rcases ts with _ | ⟨⟨lexeme, position, raw⟩, rest⟩
  · rfl
  cases lexeme with
  | operator op =>
    show (if op.rank = rank then some (op, relabeled ρ place rest) else none) =
      (if op.rank = rank then some (op, rest) else none).map _
    split <;> rfl
  | _ => rfl

theorem inStep_chain {operand : Parser Formula} (blind : Blind ρ place operand) (rank : Nat)
    {left : Reading Formula ts} {left' : Reading Formula us}
    (same : left.InStep ρ place (Formula.rename ρ) left') :
    InStep ρ place (Formula.rename ρ) (chain operand rank ts left)
      (chain operand rank us left') := by
  -- On the number of tokens that are left: the chain goes on behind each right operand.
  induction hn : left.rest.length using Nat.strongRecOn generalizing left left' with
  | ind n ih =>
    subst hn
    have found' : operator? rank left'.rest =
        (operator? rank left.rest).map fun found => (found.1, relabeled ρ place found.2) := by
      rw [same.rest, operator?_relabeled]
    cases found : operator? rank left.rest with
    | none =>
      rw [found] at found'
      rw [chain_stops found, chain_stops found']
      exact .read same
    | some hit =>
      obtain ⟨op, afterOp⟩ := hit
      rw [found] at found'
      rw [chain_step found, chain_step found']
      refine (blind afterOp).bind fun r s right => ?_
      refine ih _ (Nat.lt_trans r.shorter (operator?_shorter found)) ⟨?_, right.rest⟩ rfl
      show Formula.binary op left'.value s.value = _
      rw [same.value, right.value]
      rfl

theorem blind_level {operand : Parser Formula} (blind : Blind ρ place operand) (rank : Nat) :
    Blind ρ place (level operand rank) := by
  induction rank with
  | zero => exact blind
  | succ rank ih =>
    intro ts
    rw [level_succ, level_succ]
    exact (ih ts).bind fun r s same => inStep_chain ih (rank + 1) same

theorem signed_of_unsigned {operand : Parser Formula}
    (unsigned : ∀ t ∈ ts.head?, t.lexeme ≠ .operator .sub) : signed operand ts = operand ts := by
  rw [signed]
  rintro position raw rest rfl
  exact unsigned _ rfl rfl

theorem blind_signed {operand : Parser Formula} (blind : Blind ρ place operand) :
    Blind ρ place (signed operand) := by
  intro ts
  induction ts with
  | nil => exact blind []
  | cons t ts ih =>
    obtain ⟨lexeme, position, raw⟩ := t
    by_cases minus : lexeme = .operator .sub
    · subst minus
      show InStep ρ place _ _ (signed operand
        (⟨.operator .sub, place position, raw⟩ :: relabeled ρ place ts))
      rw [signed, signed]
      rcases ih with ⟨f, hf, hf'⟩ | ⟨r, s, hr, hs, same⟩
      · rw [hf, hf']
        exact .failed f
      · rw [hr, hs]
        exact .read ⟨congrArg Formula.negate same.value, same.rest⟩
    · -- Renaming makes no minus sign.
      have minus' : lexeme.rename ρ ≠ .operator .sub := Lexeme.rename_ne (by simp) minus
      rw [relabeled_cons, signed_of_unsigned (by simpa using minus),
        signed_of_unsigned (by simpa using minus')]
      exact blind _

/-! ## Operands -/

theorem inStep_closed {change : α → α} {r : Reading α ts} {s : Reading α us}
    (same : r.InStep ρ place change s) : InStep ρ place change (closed r) (closed s) := by
  obtain ⟨value, rest, shorter⟩ := r
  obtain ⟨value', rest', shorter'⟩ := s
  obtain ⟨hvalue, hrest⟩ := same
  cases hrest
  rcases rest with _ | ⟨⟨lexeme, position, raw⟩, rest⟩
  · exact .failed _
  cases lexeme with
  | closing => exact .read ⟨hvalue, rfl⟩
  | _ => exact .failed _

theorem arguments_fails {argument : Parser Formula} {f : Failure} (earlier : List Formula)
    (first : argument ts = .error f) : arguments argument earlier ts = .error f := by
  unfold arguments
  rw [first]

theorem arguments_last {argument : Parser Formula} {r : Reading Formula ts}
    (earlier : List Formula) (first : argument ts = .ok r)
    (last : ∀ t ∈ r.rest.head?, t.lexeme ≠ .comma) :
    arguments argument earlier ts = .ok ⟨(r.value :: earlier).reverse, r.rest, r.shorter⟩ := by
  unfold arguments
  rw [first]
  dsimp only
  split
  · next h => exact absurd rfl (last _ (by rw [h]; rfl))
  · rfl

theorem arguments_next {argument : Parser Formula} {r : Reading Formula ts} {position : Nat}
    {raw : String} {more : List Token} (earlier : List Formula) (first : argument ts = .ok r)
    (comma : r.rest = ⟨.comma, position, raw⟩ :: more) :
    ∃ fewer : more.length ≤ ts.length, arguments argument earlier ts =
      (arguments argument (r.value :: earlier) more >>= fun all => .ok (all.after fewer)) := by
  have fewer : more.length < ts.length := by
    have := r.shorter
    simp only [comma, List.length_cons] at this
    omega
  refine ⟨Nat.le_of_lt fewer, ?_⟩
  conv => lhs; unfold arguments
  rw [first]
  dsimp only
  split
  · next h =>
    obtain ⟨-, rfl⟩ := List.cons.inj (comma.symm.trans h)
    cases arguments argument (r.value :: earlier) more <;> rfl
  · next other => exact absurd comma (other _ _ _)

theorem inStep_arguments {argument : Parser Formula} (blind : Blind ρ place argument)
    (earlier : List Formula) (ts : List Token) :
    InStep ρ place (List.map (Formula.rename ρ)) (arguments argument earlier ts)
      (arguments argument (earlier.map (Formula.rename ρ)) (relabeled ρ place ts)) := by
  -- On the number of tokens: the next argument starts behind a comma, wherever that is.
  induction hn : ts.length using Nat.strongRecOn generalizing earlier ts with
  | ind n ih =>
    subst hn
    rcases blind ts with ⟨f, hf, hf'⟩ | ⟨r, s, hr, hs, same⟩
    · rw [arguments_fails _ hf, arguments_fails _ hf']
      exact .failed f
    · obtain ⟨value, rest, shorter⟩ := r
      obtain ⟨value', rest', shorter'⟩ := s
      obtain ⟨rfl, rfl⟩ := same
      by_cases comma : ∃ position raw more, rest = ⟨.comma, position, raw⟩ :: more
      · obtain ⟨position, raw, more, rfl⟩ := comma
        obtain ⟨fewer, hnext⟩ := arguments_next earlier hr rfl
        obtain ⟨fewer', hnext'⟩ := arguments_next (earlier.map (Formula.rename ρ)) hs rfl
        rw [hnext, hnext']
        exact (ih _ (Nat.lt_of_succ_lt shorter) (value :: earlier) more rfl).bind fun a b both =>
          .read ⟨both.value, both.rest⟩
      · have last : ∀ t ∈ rest.head?, t.lexeme ≠ .comma := by
          rintro ⟨lexeme, position, raw⟩ ht rfl
          obtain ⟨more, rfl⟩ := List.head?_eq_some_iff.1 ht
          exact comma ⟨position, raw, more, rfl⟩
        have last' : ∀ t ∈ (relabeled ρ place rest).head?, t.lexeme ≠ .comma := by
          intro t ht
          rw [relabeled, List.head?_map] at ht
          obtain ⟨u, hu, rfl⟩ := Option.map_eq_some_iff.1 ht
          exact Lexeme.rename_ne (by simp) (last u hu)
        rw [arguments_last _ hr last, arguments_last _ hs last']
        exact .read ⟨by simp, rfl⟩

theorem inStep_call {argument : Parser Formula} (blind : Blind ρ place argument) (g : Builtin)
    {whole whole' : List Token} (same : whole' = relabeled ρ place whole) (ts : List Token) :
    InStep ρ place (Formula.rename ρ) (call argument g whole ts)
      (call argument g whole' (relabeled ρ place ts)) := by
  subst same
  rcases ts with _ | ⟨⟨lexeme, position, raw⟩, inside⟩
  · exact .failed _
  cases lexeme with
  | opening =>
    refine (inStep_arguments blind [] inside).bind fun r s same =>
      (inStep_closed same).bind fun r s same => ?_
    obtain ⟨value, rest, shorter⟩ := r
    obtain ⟨value', rest', shorter'⟩ := s
    obtain ⟨rfl, rfl⟩ := same
    rcases value with _ | ⟨a, _ | ⟨b, _ | ⟨c, more⟩⟩⟩
    · exact .failed ⟨.wrongArity g 0, whole⟩
    · exact .failed ⟨.wrongArity g 1, whole⟩
    · exact .read ⟨rfl, rfl⟩
    · show InStep ρ place _ (.error ⟨.wrongArity g (a :: b :: c :: more).length, whole⟩)
        (.error ⟨.wrongArity g ((a :: b :: c :: more).map (Formula.rename ρ)).length,
          relabeled ρ place whole⟩)
      rw [List.length_map]
      exact .failed ⟨_, whole⟩
  | _ => exact .failed _

theorem opens_relabeled (ts : List Token) : opens (relabeled ρ place ts) = opens ts := by
  rcases ts with _ | ⟨⟨lexeme, position, raw⟩, rest⟩
  · rfl
  · cases lexeme <;> rfl

theorem blind_operand {nested : Parser Formula} (blind : Blind ρ place nested) :
    Blind ρ place (operand nested) := by
  intro ts
  rcases ts with _ | ⟨⟨lexeme, position, raw⟩, rest⟩
  · exact .failed _
  cases lexeme with
  | number x => exact .read ⟨rfl, rfl⟩
  | name n =>
    -- The name goes into the tree as it is; whether it is called is told by what follows.
    rw [relabeled_cons]
    show InStep ρ place _ (if opens rest then _ else _)
      (if opens (relabeled ρ place rest) then _ else _)
    rw [opens_relabeled]
    by_cases called : opens rest = true
    · rw [if_pos called, if_pos called]
      exact .failed ⟨.unknownFunction, ⟨.name n, position, raw⟩ :: rest⟩
    · rw [if_neg called, if_neg called]
      exact .read ⟨rfl, rfl⟩
  | literal n =>
    rw [relabeled_cons]
    cases known : HostLiteral.ofName? n with
    | some l =>
      simp only [operand, Lexeme.rename, known]
      exact .read ⟨rfl, rfl⟩
    | none =>
      simp only [operand, Lexeme.rename, known]
      exact .failed ⟨.unknownLiteral, ⟨.literal n, position, raw⟩ :: rest⟩
  | opening =>
    exact (blind rest).bind fun r s same => (inStep_closed same).bind fun r s same =>
      .read ⟨same.value, same.rest⟩
  | function g =>
    exact (inStep_call blind g rfl rest).bind fun r s same => .read ⟨same.value, same.rest⟩
  | _ => exact .failed _

/-! ## Expressions -/

/-- The parser looks neither at names nor at positions. -/
theorem blind_expression (levels : Nat) : Blind ρ place (expression levels) := by
  induction levels with
  | zero => exact fun ts => .failed _
  | succ levels ih =>
    -- The parts in front of `if` and `else` are read by the same parser.
    have simple := blind_level (blind_signed (blind_operand ih)) Operator.loosest
    intro ts
    unfold expression
    rw [binary_eq_level]
    refine (simple ts).bind fun first first' same => ?_
    obtain ⟨value, rest, shorter⟩ := first
    obtain ⟨value', rest', shorter'⟩ := first'
    obtain ⟨rfl, rfl⟩ := same
    rcases rest with _ | ⟨⟨lexeme, position, raw⟩, afterIf⟩
    · exact .read ⟨rfl, rfl⟩
    cases lexeme with
    | ifWord =>
      refine (simple afterIf).bind fun condition condition' same => ?_
      obtain ⟨valueC, rest, shorterC⟩ := condition
      obtain ⟨valueC', rest', shorterC'⟩ := condition'
      obtain ⟨rfl, rfl⟩ := same
      rcases rest with _ | ⟨⟨lexeme, position, raw⟩, afterElse⟩
      · exact .failed _
      cases lexeme with
      | elseWord =>
        refine (ih afterElse).bind fun last last' same => .read ⟨?_, same.rest⟩
        show Formula.choice _ _ last'.value = _
        rw [same.value]
        rfl
      | _ => exact .failed _
    | _ => exact .read ⟨rfl, rfl⟩

/-- Tokens with other names, at other positions, are parsed in step. -/
theorem formula_relabeled (ρ : String → String) (place : Nat → Nat) (ts : List Token) :
    (∃ f, formula ts = .error f ∧ formula (relabeled ρ place ts) = .error (f.relabel ρ place)) ∨
      ∃ x, formula ts = .ok x ∧ formula (relabeled ρ place ts) = .ok (x.rename ρ) := by
  have blind : Blind ρ place (expression depthLimit) := blind_expression depthLimit
  unfold formula
  rcases blind ts with ⟨f, hf, hf'⟩ | ⟨r, s, hr, hs, same⟩
  · rw [hf, hf']
    exact .inl ⟨f, rfl, rfl⟩
  · rw [hr, hs]
    obtain ⟨value, rest, shorter⟩ := r
    obtain ⟨value', rest', shorter'⟩ := s
    obtain ⟨rfl, rfl⟩ := same
    cases rest with
    | nil => exact .inr ⟨value, rfl, rfl⟩
    | cons t rest => exact .inl ⟨⟨.unexpectedToken, t :: rest⟩, rfl, rfl⟩

/-! ## Other positions -/

/-- The tokens without their positions. -/
def unplaced (ts : List Token) : List Token := relabeled id (fun _ => 0) ts

theorem unplaced_cons (t : Token) (ts : List Token) :
    unplaced (t :: ts) = ⟨t.lexeme, 0, t.raw⟩ :: unplaced ts := by
  show ⟨t.lexeme.rename id, 0, t.raw⟩ :: unplaced ts = _
  rw [Lexeme.rename_id]

theorem unplaced_append (ts us : List Token) : unplaced (ts ++ us) = unplaced ts ++ unplaced us :=
  List.map_append

/-- What does not depend on positions is the same for tokens that stand elsewhere. -/
theorem map_of_unplaced {what : Token → α} (keeps : ∀ lexeme position raw,
    what ⟨lexeme, position, raw⟩ = what ⟨lexeme, 0, raw⟩) (same : unplaced us = unplaced ts) :
    us.map what = ts.map what := by
  have erased : ∀ ts, (unplaced ts).map what = ts.map what := by
    intro ts
    induction ts with
    | nil => rfl
    | cons t ts ih => rw [unplaced_cons, List.map_cons, List.map_cons, ih, ← keeps _ t.position]
  rw [← erased us, same, erased]

/-- Tokens that stand elsewhere make the same tree, or else the token to blame is the same. -/
theorem formula_of_unplaced (same : unplaced us = unplaced ts) :
    (∃ x, formula ts = .ok x ∧ formula us = .ok x) ∨
      ∃ f g, formula ts = .error f ∧ formula us = .error g ∧ g.fault = f.fault ∧
        unplaced g.rest = unplaced f.rest := by
  have first := formula_relabeled id (fun _ => 0) ts
  have second := formula_relabeled id (fun _ => 0) us
  change relabeled id (fun _ => 0) us = relabeled id (fun _ => 0) ts at same
  rw [same] at second
  -- Without their positions the tokens are the same, so both are compared with that one outcome.
  rcases first with ⟨f, hf, hf'⟩ | ⟨x, hx, hx'⟩ <;> rcases second with ⟨g, hg, hg'⟩ | ⟨y, hy, hy'⟩
  · have alike : g.relabel id (fun _ => 0) = f.relabel id (fun _ => 0) :=
      Except.error.inj (hg'.symm.trans hf')
    obtain ⟨fault, rest⟩ := Failure.mk.inj alike
    exact .inr ⟨f, g, hf, hg, fault, rest⟩
  · cases hf'.symm.trans hy'
  · cases hx'.symm.trans hg'
  · have alike : y.rename id = x.rename id := Except.ok.inj (hy'.symm.trans hx')
    rw [Formula.rename_id, Formula.rename_id] at alike
    exact .inl ⟨x, hx, alike ▸ hy⟩

/-- The report of a failure names the token to blame as it is written, wherever it stands. -/
theorem locate_of_unplaced {f g : Failure} (same : unplaced g.rest = unplaced f.rest)
    {ending ending' : Token} (last : ending'.raw = ending.raw) :
    (g.locate ending').token = (f.locate ending).token := by
  obtain ⟨fault, rest⟩ := f
  obtain ⟨fault', rest'⟩ := g
  cases rest with
  | nil =>
    obtain rfl : rest' = [] := List.map_eq_nil_iff.1 same
    exact last
  | cons t rest =>
    cases rest' with
    | nil => cases same
    | cons t' rest' =>
      rw [unplaced_cons, unplaced_cons] at same
      obtain ⟨-, -, raw⟩ := Token.mk.inj (List.cons.inj same).1
      exact raw

end Parsing
end PerfFormula
