import PerfFormula.Formula.Parser

/-!
# Levels of operators

The grammar has a level for every rank of operators: a chain of operands of the next tighter level,
which are joined from the left. The parser has no levels; it climbs from operator to operator and
only compares their ranks. Both read the same: behind an operand that was read within a rank no
operator of that rank or a tighter one can follow, so that whatever follows belongs to a looser
chain.

Main statements:

* `Parsing.climb_ends` — climbing ends where no operator within the rank follows.
* `Parsing.climb_succ` — to climb within a rank is to climb within the tighter ones and then to go
  on with a chain of that rank.
* `Parsing.binary_eq_level` — climbing reads what the levels read.
-/

namespace PerfFormula
namespace Parsing

/-! ## Chains of one rank -/

/-- The operator in front of some tokens, if it has the given rank, and what follows it. -/
def operator? (rank : Nat) : List Token → Option (Operator × List Token)
  | ⟨.operator op, _, _⟩ :: rest => if op.rank = rank then some (op, rest) else none
  | _ => none

theorem operator?_eq_some {rank : Nat} {ts rest : List Token} {op : Operator}
    (h : operator? rank ts = some (op, rest)) :
    ∃ t, ts = t :: rest ∧ t.lexeme = .operator op ∧ op.rank = rank := by
  unfold operator? at h
  split at h
  · split at h
    · next hrank =>
      obtain ⟨rfl, rfl⟩ := Prod.mk.inj (Option.some.inj h)
      exact ⟨_, rfl, rfl, hrank⟩
    · cases h
  · cases h

theorem operator?_shorter {rank : Nat} {ts rest : List Token} {op : Operator}
    (h : operator? rank ts = some (op, rest)) : rest.length < ts.length := by
  obtain ⟨t, rfl, -⟩ := operator?_eq_some h
  simp

/-- Continue a chain of operators of one rank behind its first operands, as far as it goes. -/
def chain (operand : Parser Formula) (rank : Nat) (ts : List Token) (left : Reading Formula ts) :
    Except Failure (Reading Formula ts) :=
  match h : operator? rank left.rest with
  | none => .ok left
  | some (op, afterOp) =>
    have taken := operator?_shorter h
    match operand afterOp with
    | .error f => .error f
    | .ok right => chain operand rank ts (left.join op right taken)
termination_by left.rest.length
decreasing_by exact Nat.lt_trans right.shorter taken

/-- An expression without a choice whose loosest operators have the given rank. -/
def level (operand : Parser Formula) : (rank : Nat) → Parser Formula
  | 0, ts => operand ts
  | rank + 1, ts => do
    let first ← level operand rank ts
    chain (level operand rank) (rank + 1) ts first

variable {operand : Parser Formula} {rank : Nat} {ts : List Token} {left : Reading Formula ts}

theorem chain_stops (h : operator? rank left.rest = none) :
    chain operand rank ts left = .ok left := by
  unfold chain
  split
  · rfl
  · next h' => simp [h] at h'

theorem chain_step {afterOp : List Token} {op : Operator}
    (h : operator? rank left.rest = some (op, afterOp)) :
    chain operand rank ts left = (operand afterOp).bind fun right =>
      chain operand rank ts (left.join op right (operator?_shorter h)) := by
  conv => lhs; unfold chain
  split
  · next h' => simp [h] at h'
  · next op' afterOp' h' =>
    obtain ⟨rfl, rfl⟩ := Prod.mk.inj (Option.some.inj (h.symm.trans h'))
    cases operand afterOp <;> rfl

theorem level_succ (operand : Parser Formula) (rank : Nat) (ts : List Token) :
    level operand (rank + 1) ts =
      (level operand rank ts).bind (chain (level operand rank) (rank + 1) ts) := rfl

/-! ## Where climbing ends -/

theorem operatorWithin?_zero (ts : List Token) : operatorWithin? 0 ts = none := by
  cases h : operatorWithin? 0 ts with
  | none => rfl
  | some found =>
    obtain ⟨t, -, -, hrank⟩ := operatorWithin?_eq_some h
    have := (Operator.rank_le_loosest found.1).1
    omega

/-- An operator within a rank is one within the tighter ranks, or one of that rank. -/
theorem operatorWithin?_succ (rank : Nat) (ts : List Token) :
    operatorWithin? (rank + 1) ts = (operatorWithin? rank ts).or (operator? (rank + 1) ts) := by
  rcases ts with _ | ⟨⟨lexeme, position, raw⟩, rest⟩
  · rfl
  cases lexeme with
  | operator op =>
    show (if op.rank ≤ rank + 1 then some (op, rest) else none) =
      (if op.rank ≤ rank then some (op, rest) else none).or
        (if op.rank = rank + 1 then some (op, rest) else none)
    rcases Nat.lt_trichotomy op.rank (rank + 1) with tighter | same | looser
    · rw [if_pos (Nat.le_of_lt tighter), if_pos (Nat.le_of_lt_succ tighter)]
      rfl
    · rw [if_pos (Nat.le_of_eq same), if_neg (by omega), if_pos same]
      rfl
    · rw [if_neg (Nat.not_le_of_lt looser), if_neg (by omega), if_neg (Nat.ne_of_gt looser)]
      rfl
  | _ => rfl

/-- Climbing ends where no operator within the rank follows. -/
theorem climb_ends {r : Reading Formula ts} (h : climb operand rank ts left = .ok r) :
    operatorWithin? rank r.rest = none := by
  induction hn : left.rest.length using Nat.strongRecOn generalizing left with
  | ind n ih =>
    subst hn
    cases hop : operatorWithin? rank left.rest with
    | none =>
      rw [climb_stops hop] at h
      cases h
      exact hop
    | some found =>
      obtain ⟨op, afterOp⟩ := found
      have taken := operatorWithin?_shorter hop
      rw [climb_step hop] at h
      cases hright : binary operand (op.rank - 1) afterOp with
      | error f =>
        rw [hright] at h
        cases h
      | ok right =>
        rw [hright] at h
        exact ih _ (Nat.lt_trans right.shorter taken) h rfl

theorem binary_ends {r : Reading Formula ts} (h : binary operand rank ts = .ok r) :
    operatorWithin? rank r.rest = none := by
  unfold binary at h
  cases hfirst : operand ts with
  | error f =>
    rw [hfirst] at h
    cases h
  | ok first =>
    rw [hfirst] at h
    exact climb_ends h

/-! ## Climbing and levels -/

/-- To climb within a rank is to climb within the tighter ones and then to go on with a chain of
that rank. -/
theorem climb_succ (left : Reading Formula ts) :
    climb operand (rank + 1) ts left =
      (climb operand rank ts left).bind (chain (binary operand rank) (rank + 1) ts) := by
  -- Every operator leaves fewer tokens behind its right operand.
  induction hn : left.rest.length using Nat.strongRecOn generalizing left with
  | ind n ih =>
    subst hn
    cases within : operatorWithin? rank left.rest with
    | some found =>
      -- A tighter operator: both climb over it in the same way.
      obtain ⟨op, afterOp⟩ := found
      have within' : operatorWithin? (rank + 1) left.rest = some (op, afterOp) := by
        rw [operatorWithin?_succ, within]
        rfl
      rw [climb_step within, climb_step within']
      cases binary operand (op.rank - 1) afterOp with
      | error f => rfl
      | ok right => exact ih _ (Nat.lt_trans right.shorter (operatorWithin?_shorter within)) _ rfl
    | none =>
      rw [climb_stops within]
      show _ = chain _ _ _ left
      cases same : operator? (rank + 1) left.rest with
      | none =>
        have within' : operatorWithin? (rank + 1) left.rest = none := by
          rw [operatorWithin?_succ, within, same]
          rfl
        rw [climb_stops within', chain_stops same]
      | some found =>
        obtain ⟨op, afterOp⟩ := found
        have within' : operatorWithin? (rank + 1) left.rest = some (op, afterOp) := by
          rw [operatorWithin?_succ, within, same]
          rfl
        obtain ⟨-, -, -, hrank⟩ := operator?_eq_some same
        rw [climb_step within', chain_step same, hrank, Nat.add_sub_cancel]
        cases hright : binary operand rank afterOp with
        | error f => rfl
        | ok right =>
          have taken := operator?_shorter same
          -- Behind the right operand there is nothing left to climb over within the tighter ranks.
          have ends : operatorWithin? rank right.rest = none := binary_ends hright
          have stops : climb operand rank ts (left.join op right taken) =
              .ok (left.join op right taken) := climb_stops ends
          show climb _ _ _ (left.join op right taken) = chain _ _ _ (left.join op right taken)
          rw [ih _ (Nat.lt_trans right.shorter taken) _ rfl, stops]
          rfl

/-- Climbing reads what the levels read. -/
theorem binary_eq_level (operand : Parser Formula) (rank : Nat) :
    binary operand rank = level operand rank := by
  induction rank with
  | zero =>
    funext ts
    show (operand ts).bind _ = operand ts
    cases operand ts with
    | error f => rfl
    | ok first => exact climb_stops (operatorWithin?_zero _)
  | succ rank ih =>
    funext ts
    rw [level_succ, ← ih]
    show (operand ts).bind _ = ((operand ts).bind _).bind _
    cases operand ts with
    | error f => rfl
    | ok first => exact climb_succ first

end Parsing
end PerfFormula
