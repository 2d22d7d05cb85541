import PerfFormula.Formula.Parser

/-!
# The grammar of formulas

Which lexemes are a formula, and of which tree, said by rules instead of by a parser. From the
loosest to the tightest construct: a choice, chains of binary operators of each rank, minus signs,
operands. The last branch of a choice, what stands in parentheses and each argument of a call are
expressions one level deeper; how many levels there may be is part of every rule.

The relaxed grammar leaves the levels and the trees aside, and lets calls have any number of
arguments. It tells which beginnings of a text can still become a formula, wherever the limits are.

Main statements:

* `Derives.ne_nil` — a formula has at least one lexeme.
* `Derives.succ` — what can be derived within some levels can be derived within more.
* `Derives.phrase` — the relaxed grammar derives all that the grammar does.
-/

namespace PerfFormula

/-- The constructs of the grammar. -/
inductive Construct where
  /-- A choice, or a chain of the loosest rank. -/
  | expression
  /-- A chain of operators of at most the given rank. -/
  | chain (rank : Nat)
  /-- An operand behind any number of minus signs. -/
  | signed
  /-- A number, a name, a host literal, a call, or an expression in parentheses. -/
  | operand
  deriving DecidableEq, Repr

/-- The lexemes of a construct and its tree, where expressions are nested at most `levels` deep, the
construct itself included. -/
inductive Derives : (levels : Nat) → Construct → List Lexeme → Formula → Prop where
  | simple {n ls x} : Derives (n + 1) (.chain Operator.loosest) ls x →
      Derives (n + 1) .expression ls x
  | choice {n ts cs fs t c f} : Derives (n + 1) (.chain Operator.loosest) ts t →
      Derives (n + 1) (.chain Operator.loosest) cs c → Derives n .expression fs f →
      Derives (n + 1) .expression (ts ++ .ifWord :: cs ++ .elseWord :: fs) (.choice c t f)
  | tighter {n rank ls x} : Derives n (.chain rank) ls x → Derives n (.chain (rank + 1)) ls x
  | binary {n rank ls rs op l r} : Derives n (.chain (rank + 1)) ls l → op.rank = rank + 1 →
      Derives n (.chain rank) rs r →
      Derives n (.chain (rank + 1)) (ls ++ .operator op :: rs) (.binary op l r)
  | unchained {n ls x} : Derives n .signed ls x → Derives n (.chain 0) ls x
  | negate {n ls x} : Derives n .signed ls x →
      Derives n .signed (.operator .sub :: ls) (.negate x)
  | unsigned {n ls x} : Derives n .operand ls x → Derives n .signed ls x
  | number {n x} : Derives n .operand [.number x] (.number x)
  | name {n s} : Derives n .operand [.name s] (.name s)
  | host {n l} : Derives n .operand [.literal (HostLiteral.name l)] (.host l)
  | group {n ls x} : Derives n .expression ls x →
      Derives (n + 1) .operand (.opening :: ls ++ [.closing]) x
  | call {n g as bs a b} : Derives n .expression as a → Derives n .expression bs b →
      Derives (n + 1) .operand (.function g :: .opening :: as ++ .comma :: bs ++ [.closing])
        (.call g a b)

/-- The lexemes of a formula and its tree. -/
def IsFormula (ls : List Lexeme) (x : Formula) : Prop :=
  Derives Parsing.depthLimit .expression ls x

mutual

/-- The lexemes of a construct of the relaxed grammar. -/
inductive Phrase : Construct → List Lexeme → Prop where
  | simple {ls} : Phrase (.chain Operator.loosest) ls → Phrase .expression ls
  | choice {ts cs fs} : Phrase (.chain Operator.loosest) ts → Phrase (.chain Operator.loosest) cs →
      Phrase .expression fs → Phrase .expression (ts ++ .ifWord :: cs ++ .elseWord :: fs)
  | tighter {rank ls} : Phrase (.chain rank) ls → Phrase (.chain (rank + 1)) ls
  | binary {rank ls rs op} : Phrase (.chain (rank + 1)) ls → Operator.rank op = rank + 1 →
      Phrase (.chain rank) rs → Phrase (.chain (rank + 1)) (ls ++ .operator op :: rs)
  | unchained {ls} : Phrase .signed ls → Phrase (.chain 0) ls
  | negate {ls} : Phrase .signed ls → Phrase .signed (.operator .sub :: ls)
  | unsigned {ls} : Phrase .operand ls → Phrase .signed ls
  | number {x} : Phrase .operand [.number x]
  | name {s} : Phrase .operand [.name s]
  | host {l} : Phrase .operand [.literal (HostLiteral.name l)]
  | group {ls} : Phrase .expression ls → Phrase .operand (.opening :: ls ++ [.closing])
  | call {g as} : PhraseList as → Phrase .operand (.function g :: .opening :: as ++ [.closing])

/-- The lexemes of one or more arguments, separated by commas. -/
inductive PhraseList : List Lexeme → Prop where
  | one {ls} : Phrase .expression ls → PhraseList ls
  | more {ls as} : Phrase .expression ls → PhraseList as → PhraseList (ls ++ .comma :: as)

end

namespace Derives

/-- A construct has at least one lexeme. -/
theorem ne_nil {n : Nat} {k : Construct} {ls : List Lexeme} {x : Formula} (h : Derives n k ls x) :
    ls ≠ [] := by
  induction h with
  | simple _ ih | tighter _ ih | unchained _ ih | unsigned _ ih => exact ih
  | _ => simp

/-- More levels are no hindrance. -/
theorem succ {n : Nat} {k : Construct} {ls : List Lexeme} {x : Formula} (h : Derives n k ls x) :
    Derives (n + 1) k ls x := by
  induction h with
  | simple _ ih => exact .simple ih
  | choice _ _ _ iht ihc ihf => exact .choice iht ihc ihf
  | tighter _ ih => exact .tighter ih
  | binary _ hop _ ihl ihr => exact .binary ihl hop ihr
  | unchained _ ih => exact .unchained ih
  | negate _ ih => exact .negate ih
  | unsigned _ ih => exact .unsigned ih
  | number => exact .number
  | name => exact .name
  | host => exact .host
  | group _ ih => exact .group ih
  | call _ _ iha ihb => exact .call iha ihb

/-- The relaxed grammar derives all that the grammar does. -/
theorem phrase {n : Nat} {k : Construct} {ls : List Lexeme} {x : Formula} (h : Derives n k ls x) :
    Phrase k ls := by
  induction h with
  | simple _ ih => exact .simple ih
  | choice _ _ _ iht ihc ihf => exact .choice iht ihc ihf
  | tighter _ ih => exact .tighter ih
  | binary _ hop _ ihl ihr => exact .binary ihl hop ihr
  | unchained _ ih => exact .unchained ih
  | negate _ ih => exact .negate ih
  | unsigned _ ih => exact .unsigned ih
  | number => exact .number
  | name => exact .name
  | host => exact .host
  | group _ ih => exact .group ih
  | @call _ g _ _ _ _ _ _ iha ihb => simpa using Phrase.call (g := g) (.more iha (.one ihb))

end Derives
end PerfFormula
