import PerfFormula.Proofs.Acceptance

/-!
# Levels of a printed formula

A printed formula has parentheses around every operator, sign and choice, so the grammar derives it
whatever the ranks of its operators are. The one thing that can stand in the way is the number of
levels: each pair of parentheses, each argument and each last branch of a choice takes one more.

Main statements:

* `Formula.derives_lexemes` — the lexemes of a printed formula are derived within its levels.
* `Formula.operand_fails` — within fewer levels its parser gives up on them.
* `Formula.formula_of_lexemes` — so the limit on levels decides.
-/

namespace PerfFormula

open Parsing

namespace Formula

/-- The lexemes of a printed formula. -/
def lexemes : Formula → List Lexeme
  | number x => [.number x]
  | name n => [.name n]
  | host l => [.literal l.name]
  | binary op l r => .opening :: (l.lexemes ++ .operator op :: r.lexemes) ++ [.closing]
  | negate x => .opening :: (.operator .sub :: x.lexemes) ++ [.closing]
  | choice c t f =>
    .opening :: (t.lexemes ++ .ifWord :: c.lexemes ++ .elseWord :: f.lexemes) ++ [.closing]
  | call g a b => .function g :: .opening :: a.lexemes ++ .comma :: b.lexemes ++ [.closing]

/-- How many levels a printed formula has inside, besides the one that it stands on. -/
def inner : Formula → Nat
  | number _ | name _ | host _ => 0
  | binary _ l r => max l.inner r.inner + 1
  | negate x => x.inner + 1
  -- The last branch is an expression in its own right, without parentheses around it.
  | choice c t f => max (max t.inner c.inner) (f.inner + 1) + 1
  | call _ a b => max a.inner b.inner + 1

/-- How many levels a printed formula has. -/
def nesting (x : Formula) : Nat := x.inner + 1

/-! ## Enough levels -/

end Formula

namespace Derives

variable {n : Nat} {ls : List Lexeme} {x : Formula}

theorem looser {rank looser : Nat} (h : Derives n (.chain rank) ls x) (le : rank ≤ looser) :
    Derives n (.chain looser) ls x := by
  induction le with
  | refl => exact h
  | step _ ih => exact .tighter ih

theorem chain_of_signed (h : Derives n .signed ls x) (rank : Nat) : Derives n (.chain rank) ls x :=
  (unchained h).looser (Nat.zero_le rank)

theorem chain_of_operand (h : Derives n .operand ls x) (rank : Nat) :
    Derives n (.chain rank) ls x :=
  (unsigned h).chain_of_signed rank

theorem expression_of_operand (h : Derives (n + 1) .operand ls x) :
    Derives (n + 1) .expression ls x :=
  .simple (h.chain_of_operand Operator.loosest)

/-- Two operands with an operator between them, of whatever rank it is. -/
theorem chain_of_operator {op : Operator} {rs : List Lexeme} {y : Formula}
    (left : Derives n .operand ls x) (right : Derives n .operand rs y) :
    Derives n (.chain Operator.loosest) (ls ++ .operator op :: rs) (.binary op x y) := by
  obtain ⟨low, high⟩ := op.rank_le_loosest
  have rank : op.rank = op.rank - 1 + 1 := (Nat.sub_add_cancel low).symm
  -- The chain of the operator's rank has links of the rank below it.
  have joined : Derives n (.chain (op.rank - 1 + 1)) (ls ++ .operator op :: rs) (.binary op x y) :=
    .binary (left.chain_of_operand _) rank (right.chain_of_operand _)
  exact joined.looser (rank ▸ high)

end Derives

namespace Formula

theorem exists_succ_of_lt {m n : Nat} (h : m < n) : ∃ k, n = k + 1 ∧ m ≤ k := ⟨n - 1, by omega⟩

/-- A printed formula is an operand of what it stands in, if what is inside has enough levels. -/
theorem derives_lexemes (x : Formula) :
    ∀ n, x.inner ≤ n → Derives (n + 1) .operand x.lexemes x := by
  induction x with
  | number => exact fun _ _ => .number
  | name => exact fun _ _ => .name
  | host => exact fun _ _ => .host
  | binary op l r ihl ihr =>
    intro n fits
    obtain ⟨k, rfl, within⟩ := exists_succ_of_lt fits
    obtain ⟨fitsL, fitsR⟩ := Nat.max_le.1 within
    exact .group (.simple (.chain_of_operator (ihl k fitsL) (ihr k fitsR)))
  | negate x ih =>
    intro n fits
    obtain ⟨k, rfl, within⟩ := exists_succ_of_lt fits
    exact .group (.simple ((Derives.negate (.unsigned (ih k within))).chain_of_signed _))
  | choice c t f ihc iht ihf =>
    intro n fits
    obtain ⟨k, rfl, within⟩ := exists_succ_of_lt fits
    obtain ⟨before, last⟩ := Nat.max_le.1 within
    obtain ⟨fitsT, fitsC⟩ := Nat.max_le.1 before
    -- The last branch stands one level further in than the other two parts.
    obtain ⟨j, rfl, fitsF⟩ := exists_succ_of_lt last
    exact .group (.choice ((iht _ fitsT).chain_of_operand _) ((ihc _ fitsC).chain_of_operand _)
      (ihf j fitsF).expression_of_operand)
  | call g a b iha ihb =>
    intro n fits
    obtain ⟨k, rfl, within⟩ := exists_succ_of_lt fits
    obtain ⟨fitsA, fitsB⟩ := Nat.max_le.1 within
    exact .call (iha k fitsA).expression_of_operand (ihb k fitsB).expression_of_operand

end Formula

/-! ## Too few levels -/

namespace Parsing

/-- A parser stops for want of levels. -/
def TooDeep (p : Parser Formula) (ts : List Token) : Prop :=
  ∃ rest, p ts = .error ⟨.tooDeep depthLimit, rest⟩

namespace TooDeep

variable {operand nested : Parser Formula} {rank n : Nat} {ts us : List Token} {t : Token}
  {x : Formula}

theorem signed (h : TooDeep operand (t :: ts)) (unsigned : t.lexeme ≠ .operator .sub) :
    TooDeep (Parsing.signed operand) (t :: ts) := by
  obtain ⟨rest, failed⟩ := h
  refine ⟨rest, ?_⟩
  rw [Parsing.signed, failed]
  rintro position raw us same
  exact unsigned (by rw [(List.cons.inj same).1])

theorem minus (h : TooDeep (Parsing.signed operand) ts) (minus : t.lexeme = .operator .sub) :
    TooDeep (Parsing.signed operand) (t :: ts) := by
  obtain ⟨rest, failed⟩ := h
  obtain ⟨lexeme, position, raw⟩ := t
  obtain rfl : lexeme = .operator .sub := minus
  exact ⟨rest, by rw [Parsing.signed, failed]⟩

theorem binary (h : TooDeep operand ts) (rank : Nat) :
    TooDeep (Parsing.binary operand rank) ts := by
  obtain ⟨rest, failed⟩ := h
  exact ⟨rest, by rw [Parsing.binary, failed]; rfl⟩

/-- The operand behind an operator is read like the one in front of it. -/
theorem behind_operator {op : Operator} (first : Reads operand ts x (t :: us))
    (ht : t.lexeme = .operator op) (within : op.rank ≤ rank) (h : TooDeep operand us) :
    TooDeep (Parsing.binary operand rank) ts := by
  obtain ⟨left, read, -, behind⟩ := first
  obtain ⟨rest, failed⟩ := h.binary (op.rank - 1)
  have found : operatorWithin? rank left.rest = some (op, us) := by
    obtain ⟨lexeme, position, raw⟩ := t
    obtain rfl : lexeme = .operator op := ht
    rw [behind, operatorWithin?, if_pos within]
  refine ⟨rest, ?_⟩
  rw [Parsing.binary, read]
  show climb operand rank ts left = _
  rw [climb_step found, failed]
  rfl

/-- The parser of an expression without a choice. -/
def simple (n : Nat) : Parser Formula :=
  Parsing.binary (Parsing.signed (Parsing.operand (expression n))) Operator.loosest

theorem expression (h : TooDeep (simple n) ts) : TooDeep (Parsing.expression (n + 1)) ts := by
  obtain ⟨rest, failed⟩ := h
  unfold simple at failed
  exact ⟨rest, by rw [Parsing.expression, failed]; rfl⟩

theorem condition (first : Reads (simple n) ts x (t :: us)) (ht : t.lexeme = .ifWord)
    (h : TooDeep (simple n) us) : TooDeep (Parsing.expression (n + 1)) ts := by
  obtain ⟨branch, read, -, behind⟩ := first
  obtain ⟨rest, failed⟩ := h
  unfold simple at read failed
  obtain ⟨lexeme, position, raw⟩ := t
  obtain rfl : lexeme = .ifWord := ht
  refine ⟨rest, ?_⟩
  simp only [Parsing.expression, read, bind, Except.bind]
  split
  · next same =>
    obtain ⟨-, rfl⟩ := List.cons.inj (behind.symm.trans same)
    rw [failed]
  · next other => exact absurd behind (other _ _ _)

theorem last {ifWord elseWord : Token} {vs : List Token} {y : Formula}
    (first : Reads (simple n) ts x (ifWord :: us)) (hif : ifWord.lexeme = .ifWord)
    (condition : Reads (simple n) us y (elseWord :: vs)) (helse : elseWord.lexeme = .elseWord)
    (h : TooDeep (Parsing.expression n) vs) : TooDeep (Parsing.expression (n + 1)) ts := by
  obtain ⟨branch, read, -, behind⟩ := first
  obtain ⟨asked, read', -, behind'⟩ := condition
  obtain ⟨rest, failed⟩ := h
  unfold simple at read read'
  obtain ⟨lexeme, position, raw⟩ := ifWord
  obtain rfl : lexeme = .ifWord := hif
  obtain ⟨lexeme, position', raw'⟩ := elseWord
  obtain rfl : lexeme = .elseWord := helse
  refine ⟨rest, ?_⟩
  simp only [Parsing.expression, read, bind, Except.bind]
  split
  · next same =>
    obtain ⟨-, rfl⟩ := List.cons.inj (behind.symm.trans same)
    rw [read']
    dsimp only
    split
    · next same' =>
      obtain ⟨-, rfl⟩ := List.cons.inj (behind'.symm.trans same')
      rw [failed]
    · next other => exact absurd behind' (other _ _ _)
  · next other => exact absurd behind (other _ _ _)

theorem group (h : TooDeep nested ts) (ht : t.lexeme = .opening) :
    TooDeep (Parsing.operand nested) (t :: ts) := by
  obtain ⟨rest, failed⟩ := h
  refine ⟨rest, ?_⟩
  simp only [Parsing.operand, ht, failed]
  rfl

/-- The arguments of a call cannot be read. -/
theorem call {name opening : Token} {g : Builtin} (hname : name.lexeme = .function g)
    (hopen : opening.lexeme = .opening)
    (h : ∃ rest, arguments nested [] ts = .error ⟨.tooDeep depthLimit, rest⟩) :
    TooDeep (Parsing.operand nested) (name :: opening :: ts) := by
  obtain ⟨rest, failed⟩ := h
  obtain ⟨lexeme, position, raw⟩ := opening
  obtain rfl : lexeme = .opening := hopen
  refine ⟨rest, ?_⟩
  simp only [Parsing.operand, hname, Parsing.call, failed]
  rfl

theorem first_argument (h : TooDeep nested ts) (earlier : List Formula) :
    ∃ rest, arguments nested earlier ts = .error ⟨.tooDeep depthLimit, rest⟩ := by
  obtain ⟨rest, failed⟩ := h
  exact ⟨rest, by rw [arguments, failed]⟩

theorem second_argument (first : Reads nested ts x (t :: us)) (ht : t.lexeme = .comma)
    (h : TooDeep nested us) :
    ∃ rest, arguments nested [] ts = .error ⟨.tooDeep depthLimit, rest⟩ := by
  obtain ⟨argument, read, -, behind⟩ := first
  obtain ⟨rest, failed⟩ := h.first_argument [argument.value]
  obtain ⟨lexeme, position, raw⟩ := t
  obtain rfl : lexeme = .comma := ht
  refine ⟨rest, ?_⟩
  unfold arguments
  simp only [read]
  split
  · next same =>
    obtain ⟨-, rfl⟩ := List.cons.inj (behind.symm.trans same)
    rw [failed]
  · next other => exact absurd behind (other _ _ _)

end TooDeep
end Parsing

namespace Formula

/-- The lexemes of a printed formula do not start with a minus sign. -/
theorem unsigned_lexemes (x : Formula) :
    ∃ l rest, x.lexemes = l :: rest ∧ ∀ op, l ≠ .operator op :=
  head_of_operand (x.derives_lexemes x.inner (Nat.le_refl _))

/-- What the operand parser does with a formula if what is inside has too few levels. -/
def FailsInside (x : Formula) : Prop := ∀ n used rest, Parsing.lexemes used = x.lexemes →
  n < x.inner → TooDeep (operand (expression n)) (used ++ rest)

namespace FailsInside

variable {x : Formula} {n : Nat} {used : List Token}

theorem signed (h : x.FailsInside) (hused : Parsing.lexemes used = x.lexemes) (few : n < x.inner)
    (rest : List Token) : TooDeep (signed (operand (expression n))) (used ++ rest) := by
  have failed := h n used rest hused few
  obtain ⟨l, ls, same, unsigned⟩ := x.unsigned_lexemes
  obtain ⟨t, us, rfl, rfl, -⟩ := lexemes_eq_cons (hused.trans same)
  exact failed.signed (unsigned .sub)

theorem simple (h : x.FailsInside) (hused : Parsing.lexemes used = x.lexemes) (few : n < x.inner)
    (rest : List Token) : TooDeep (TooDeep.simple n) (used ++ rest) :=
  (h.signed hused few rest).binary _

theorem expression (h : x.FailsInside) (hused : Parsing.lexemes used = x.lexemes)
    (few : n < x.nesting) (rest : List Token) :
    TooDeep (Parsing.expression n) (used ++ rest) := by
  cases n with
  | zero => exact ⟨used ++ rest, rfl⟩
  | succ n => exact (h.simple hused (Nat.lt_of_succ_lt_succ few) rest).expression

end FailsInside

section

variable {x : Formula} {n : Nat} {used : List Token}

theorem ends_signed {t : Token} (rest : List Token) (h : t.lexeme ≠ .opening) :
    Ends .signed (t :: rest) := by
  rintro u ⟨⟩
  exact ⟨h, trivial⟩

theorem reads_signed (fits : x.inner ≤ n) (hused : Parsing.lexemes used = x.lexemes)
    {rest : List Token} (ends : Ends .signed rest) :
    Reads (signed (operand (expression n))) (used ++ rest) x rest :=
  (reads_of_derives (.unsigned (x.derives_lexemes n fits)) used hused).1 rest ends

theorem reads_simple (fits : x.inner ≤ n) (hused : Parsing.lexemes used = x.lexemes)
    {rest : List Token} (ends : Ends (.chain Operator.loosest) rest) :
    Reads (TooDeep.simple n) (used ++ rest) x rest := by
  have derived := (x.derives_lexemes n fits).chain_of_operand Operator.loosest
  have read := (reads_of_derives derived used hused).1 rest ends
  unfold TooDeep.simple
  rw [binary_eq_level]
  exact read

theorem reads_expression (fits : x.nesting ≤ n) (hused : Parsing.lexemes used = x.lexemes)
    {rest : List Token} (ends : Ends .expression rest) :
    Reads (expression n) (used ++ rest) x rest := by
  obtain ⟨k, rfl, within⟩ := exists_succ_of_lt fits
  have derived := (x.derives_lexemes k within).expression_of_operand
  exact (reads_of_derives derived used hused).1 rest ends

/-- A formula in parentheses takes a level for itself, and what is inside has to do with the
rest. -/
theorem fails_group {m : Nat} {ls : List Lexeme} (few : n < m + 1)
    (hused : Parsing.lexemes used = .opening :: ls ++ [.closing])
    (inside : ∀ k us rest, k < m → Parsing.lexemes us = ls →
      TooDeep (expression (k + 1)) (us ++ rest)) (rest : List Token) :
    TooDeep (operand (expression n)) (used ++ rest) := by
  obtain ⟨opening, behind, rfl, hopen, hbehind⟩ := lexemes_eq_cons hused
  obtain ⟨us, vs, rfl, hus, -⟩ := lexemes_eq_append hbehind
  simp only [List.append_assoc, List.cons_append]
  refine .group ?_ hopen
  cases n with
  | zero => exact ⟨_, rfl⟩
  | succ k => exact inside k us _ (Nat.lt_of_succ_lt_succ few) hus

end

/-- The parser of operands stops for want of levels if there are too few for what is inside. -/
theorem operand_fails (x : Formula) : x.FailsInside := by
  induction x with
  | number | name | host => exact fun n _ _ _ few => absurd few (Nat.not_lt_zero n)
  | binary op l r ihl ihr =>
    intro n used rest hused few
    refine fails_group few hused (fun k inside rest few hinside => ?_) rest
    obtain ⟨us, ws, rfl, hus, hws⟩ := lexemes_eq_append hinside
    obtain ⟨t, ws, rfl, ht, hws⟩ := lexemes_eq_cons hws
    simp only [List.append_assoc, List.cons_append]
    refine TooDeep.expression ?_
    rcases Nat.lt_or_ge k l.inner with fewL | fitsL
    · exact ihl.simple hus fewL _
    · have ends : Ends .signed (t :: (ws ++ rest)) := ends_signed _ (by simp [ht])
      have left := reads_signed fitsL hus ends
      exact .behind_operator left ht op.rank_le_loosest.2 (ihr.signed hws (by omega) _)
  | negate x ih =>
    intro n used rest hused few
    refine fails_group few hused (fun k inside rest few hinside => ?_) rest
    obtain ⟨t, us, rfl, ht, hus⟩ := lexemes_eq_cons hinside
    exact (((ih.signed hus few rest).minus ht).binary _).expression
  | choice c t f ihc iht ihf =>
    intro n used rest hused few
    refine fails_group few hused (fun k inside rest few hinside => ?_) rest
    simp only [List.append_assoc, List.cons_append] at hinside
    obtain ⟨ts, more, rfl, hts, hmore⟩ := lexemes_eq_append hinside
    obtain ⟨ifWord, more, rfl, hif, hmore⟩ := lexemes_eq_cons hmore
    obtain ⟨cs, more, rfl, hcs, hmore⟩ := lexemes_eq_append hmore
    obtain ⟨elseWord, fs, rfl, helse, hfs⟩ := lexemes_eq_cons hmore
    simp only [List.append_assoc, List.cons_append]
    -- The parts are read in order, and one of them is the first that is nested too deep.
    rcases Nat.lt_or_ge k t.inner with fewT | fitsT
    · exact (iht.simple hts fewT _).expression
    have endsIf : Ends (.chain Operator.loosest) (ifWord :: (cs ++ elseWord :: (fs ++ rest))) :=
      ends_cons _ (by simp [hif]) (by simp [hif]) (by simp)
    have first := reads_simple fitsT hts endsIf
    rcases Nat.lt_or_ge k c.inner with fewC | fitsC
    · exact .condition first hif (ihc.simple hcs fewC _)
    have endsElse : Ends (.chain Operator.loosest) (elseWord :: (fs ++ rest)) :=
      ends_cons _ (by simp [helse]) (by simp [helse]) (by simp)
    have condition := reads_simple fitsC hcs endsElse
    have fewF : k < f.nesting := by simp only [nesting]; omega
    exact .last first hif condition helse (ihf.expression hfs fewF _)
  | call g a b iha ihb =>
    intro n used rest hused few
    simp only [lexemes, List.append_assoc, List.cons_append] at hused
    obtain ⟨name, behind, rfl, hname, hbehind⟩ := lexemes_eq_cons hused
    obtain ⟨opening, inside, rfl, hopen, hinside⟩ := lexemes_eq_cons hbehind
    obtain ⟨us, more, rfl, hus, hmore⟩ := lexemes_eq_append hinside
    obtain ⟨comma, second, rfl, hcomma, hsecond⟩ := lexemes_eq_cons hmore
    obtain ⟨vs, ws, rfl, hvs, -⟩ := lexemes_eq_append hsecond
    simp only [List.append_assoc, List.cons_append]
    refine TooDeep.call hname hopen ?_
    rcases Nat.lt_or_ge n a.nesting with fewA | fitsA
    · exact (iha.expression hus fewA _).first_argument []
    have ends : Ends .expression (comma :: (vs ++ (ws ++ rest))) :=
      ends_cons _ (by simp [hcomma]) (by simp [hcomma]) (by simp [hcomma])
    have first := reads_expression fitsA hus ends
    have fewB : n < b.nesting := by simp only [Formula.inner, nesting] at few fitsA ⊢; omega
    exact TooDeep.second_argument first hcomma (ihb.expression hvs fewB _)

/-- Tokens with the lexemes of a printed formula are parsed as the formula if it is nested within
the limit, and refused for want of levels otherwise. -/
theorem formula_of_lexemes {x : Formula} {ts : List Token} (h : Parsing.lexemes ts = x.lexemes) :
    (x.nesting ≤ depthLimit → Parsing.formula ts = .ok x) ∧
      (depthLimit < x.nesting → TooDeep (expression depthLimit) ts) := by
  constructor
  · intro fits
    have within : x.inner ≤ depthLimit - 1 := Nat.le_sub_one_of_lt fits
    have derived := (x.derives_lexemes _ within).expression_of_operand
    exact formula_eq_ok_iff.2 (h ▸ derived)
  · intro few
    have failed := x.operand_fails.expression h few []
    rwa [List.append_nil] at failed

end Formula
end PerfFormula
