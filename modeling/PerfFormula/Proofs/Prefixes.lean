import PerfFormula.Formula.Grammar

/-!
# Beginnings of formulas

Which lexemes can still become a formula of the relaxed grammar, wherever the limits of the grammar
are. An automaton goes through lexemes from left to right: it knows what may come next, and it
remembers the parentheses and the conditions that are still open. It goes through every formula, so
lexemes at which it is stuck begin none.

Main statements:

* `Begins.within` — what begins a part begins the whole behind whatever stands in front of the part.
* `Progress.through_of_phrase` — the automaton goes through every phrase and forgets it.
* `Progress.not_begins_of_step`, `Progress.not_phrase_of_through` — where the automaton is stuck, no
  formula goes on.
-/

namespace PerfFormula

/-! ## Beginnings -/

/-- Some lexemes that can be completed. -/
def Begins (complete : List Lexeme → Prop) (ls : List Lexeme) : Prop :=
  ∃ more, complete (ls ++ more)

namespace Begins

variable {complete whole : List Lexeme → Prop} {ls : List Lexeme}

theorem of_complete (h : complete ls) : Begins complete ls :=
  ⟨[], by rwa [List.append_nil]⟩

theorem mono (rule : ∀ ls, complete ls → whole ls) (h : Begins complete ls) : Begins whole ls := by
  obtain ⟨more, h⟩ := h
  exact ⟨more, rule _ h⟩

/-- What begins a part begins the whole, behind whatever stands in front of the part. -/
theorem within {front behind : List Lexeme}
    (rule : ∀ ls, complete ls → whole (front ++ ls ++ behind)) (h : Begins complete ls) :
    Begins whole (front ++ ls) := by
  obtain ⟨more, h⟩ := h
  exact ⟨more ++ behind, by simpa using rule _ h⟩

end Begins

namespace Phrase

theorem chain_of_signed {ls : List Lexeme} (h : Phrase .signed ls) (rank : Nat) :
    Phrase (.chain rank) ls := by
  induction rank with
  | zero => exact .unchained h
  | succ rank ih => exact .tighter ih

/-- A number is a phrase of every construct. -/
theorem of_number (k : Construct) (x : Float) : Phrase k [.number x] := by
  have signed : Phrase .signed [.number x] := .unsigned .number
  cases k with
  | expression => exact .simple (signed.chain_of_signed _)
  | chain rank => exact signed.chain_of_signed rank
  | signed => exact signed
  | operand => exact .number

/-- Nothing was read yet of a phrase. -/
theorem begins_nil (k : Construct) : Begins (Phrase k) [] := ⟨[.number 0], of_number k 0⟩

/-- A choice that goes on with any last branch. -/
theorem choice_zero {ts cs : List Lexeme} (first : Phrase (.chain Operator.loosest) ts)
    (condition : Phrase (.chain Operator.loosest) cs) :
    Phrase .expression (ts ++ [.ifWord] ++ cs ++ [.elseWord, .number 0]) := by
  simpa using Phrase.choice first condition (of_number .expression 0)

end Phrase

/-! ## The automaton -/

/-- What is open and has to be closed. -/
inductive Scope where
  /-- A parenthesis around an expression. -/
  | group
  /-- The parenthesis around the arguments of a call. -/
  | arguments
  /-- A condition, which `else` ends. -/
  | condition
  deriving DecidableEq

/-- What may come next. -/
inductive Next where
  /-- An operand, or a minus sign in front of one. -/
  | operand
  /-- The parenthesis behind the name of a function. -/
  | opening
  /-- Whatever goes on or closes what was read. -/
  | operator
  deriving DecidableEq

/-- How far the automaton is: what may come next, and what is open, the innermost scope first. -/
structure Progress where
  next : Next
  scopes : List Scope
  deriving DecidableEq

namespace Progress

/-- A step over a lexeme where an operand is due. -/
def overOperand (s : List Scope) : Lexeme → Option Progress
  | .number _ | .name _ | .literal _ => some ⟨.operator, s⟩
  | .operator .sub => some ⟨.operand, s⟩
  | .opening => some ⟨.operand, .group :: s⟩
  | .function _ => some ⟨.opening, s⟩
  | _ => none

/-- A step over a lexeme behind an operand. -/
def overOperator (s : List Scope) : Lexeme → Option Progress
  | .operator _ => some ⟨.operand, s⟩
  -- A condition has no choice of its own unless in parentheses.
  | .ifWord => if s.head? = some .condition then none else some ⟨.operand, .condition :: s⟩
  | .elseWord =>
    match s with
    | .condition :: outer => some ⟨.operand, outer⟩
    | _ => none
  | .closing =>
    match s with
    | .group :: outer | .arguments :: outer => some ⟨.operator, outer⟩
    | _ => none
  | .comma => if s.head? = some .arguments then some ⟨.operand, s⟩ else none
  | _ => none

/-- A step over a lexeme; there is none where the lexeme is impossible. -/
def step (p : Progress) (l : Lexeme) : Option Progress :=
  match p.next with
  | .operand => overOperand p.scopes l
  | .opening => if l matches .opening then some ⟨.operand, .arguments :: p.scopes⟩ else none
  | .operator => overOperator p.scopes l

/-- The steps over some lexemes, one after the other. -/
def through (p : Progress) (ls : List Lexeme) : Option Progress := ls.foldlM step p

section Steps

variable {p q r : Progress} {l : Lexeme} {as bs ls : List Lexeme}

theorem through_append_eq (p : Progress) (as bs : List Lexeme) :
    p.through (as ++ bs) = (p.through as).bind fun q => q.through bs := List.foldlM_append

theorem through_append (first : p.through as = some q) (second : q.through bs = some r) :
    p.through (as ++ bs) = some r := by
  rw [through_append_eq, first]
  exact second

theorem through_cons_eq (p : Progress) (l : Lexeme) (ls : List Lexeme) :
    p.through (l :: ls) = (p.step l).bind fun q => q.through ls := rfl

theorem through_cons (first : p.step l = some q) (second : q.through ls = some r) :
    p.through (l :: ls) = some r := by
  rw [through_cons_eq, first]
  exact second

end Steps

/-! ## Phrases -/

/-- Where a construct may stand: a condition is no choice. -/
def Fits (k : Construct) (s : List Scope) : Prop :=
  k = .expression → s.head? ≠ some .condition

theorem fits_of_ne {k : Construct} (h : k ≠ .expression) (s : List Scope) : Fits k s :=
  fun same => absurd same h

theorem fits_group {k : Construct} (s : List Scope) : Fits k (.group :: s) :=
  fun _ same => by cases same

theorem fits_arguments {k : Construct} (s : List Scope) : Fits k (.arguments :: s) :=
  fun _ same => by cases same

theorem fits_nil {k : Construct} : Fits k [] := fun _ same => by cases same

theorem step_ifWord {s : List Scope} (fits : Fits .expression s) :
    step ⟨.operator, s⟩ .ifWord = some ⟨.operand, .condition :: s⟩ := if_neg (fits rfl)

mutual

-- By recursion on the phrase. Whatever a phrase opens it closes, so the scopes around it do not
-- matter, except that a choice must not stand in a condition.

/-- The automaton goes through every phrase, and afterwards the same is open as before. -/
theorem through_of_phrase {k : Construct} {ls : List Lexeme} {s : List Scope} (fits : Fits k s) :
    Phrase k ls → through ⟨.operand, s⟩ ls = some ⟨.operator, s⟩
  | .simple h => through_of_phrase (fits_of_ne (by simp) s) h
  | .choice first condition last =>
    through_append
      (through_append (through_of_phrase (fits_of_ne (by simp) s) first)
        (through_cons (step_ifWord fits)
          (through_of_phrase (fits_of_ne (by simp) (.condition :: s)) condition)))
      (through_cons rfl (through_of_phrase fits last))
  | .tighter h => through_of_phrase (fits_of_ne (by simp) s) h
  | .binary left _ right =>
    through_append (through_of_phrase (fits_of_ne (by simp) s) left)
      (through_cons rfl (through_of_phrase (fits_of_ne (by simp) s) right))
  | .unchained h => through_of_phrase (fits_of_ne (by simp) s) h
  | .negate h => through_cons rfl (through_of_phrase (fits_of_ne (by simp) s) h)
  | .unsigned h => through_of_phrase (fits_of_ne (by simp) s) h
  | .number => rfl
  | .name => rfl
  | .host => rfl
  | .group h =>
    through_append (through_cons rfl (through_of_phrase (fits_group s) h)) rfl
  | .call h => through_append (through_cons rfl (through_cons rfl (through_of_phraseList h))) rfl

theorem through_of_phraseList {as : List Lexeme} {s : List Scope} :
    PhraseList as →
      through ⟨.operand, .arguments :: s⟩ as = some ⟨.operator, .arguments :: s⟩
  | .one h => through_of_phrase (fits_arguments s) h
  | .more h hs =>
    through_append (through_of_phrase (fits_arguments s) h)
      (through_cons rfl (through_of_phraseList hs))

end

theorem through_ifWord {ts : List Lexeme} {s : List Scope} (fits : Fits .expression s)
    (first : Phrase (.chain Operator.loosest) ts) :
    through ⟨.operand, s⟩ (ts ++ [.ifWord]) = some ⟨.operand, .condition :: s⟩ :=
  through_append (through_of_phrase (fits_of_ne (by simp) s) first)
    (through_cons (step_ifWord fits) rfl)

theorem through_condition {ts cs : List Lexeme} {s : List Scope} (fits : Fits .expression s)
    (first : Phrase (.chain Operator.loosest) ts)
    (condition : Phrase (.chain Operator.loosest) cs) :
    through ⟨.operand, s⟩ (ts ++ [.ifWord] ++ cs) = some ⟨.operator, .condition :: s⟩ :=
  through_append (through_ifWord fits first)
    (through_of_phrase (fits_of_ne (by simp) (.condition :: s)) condition)

/-! ## Where the automaton is stuck -/

/-- Nothing goes on: the next lexeme is impossible, or it is the end and something is missing. -/
def IsStuck (p : Progress) : List Lexeme → Prop
  | [] => p ≠ ⟨.operator, []⟩
  | l :: _ => p.step l = none

variable {p : Progress} {l : Lexeme} {ls : List Lexeme}

theorem through_of_formula (phrase : Phrase .expression ls) :
    through ⟨.operand, []⟩ ls = some ⟨.operator, []⟩ :=
  through_of_phrase fits_nil phrase

/-- A lexeme over which the automaton cannot step goes on no formula. -/
theorem not_begins_of_step (reached : through ⟨.operand, []⟩ ls = some p)
    (stuck : p.step l = none) : ¬Begins (Phrase .expression) (ls ++ [l]) := by
  rintro ⟨more, phrase⟩
  -- The automaton would go through the whole formula, this lexeme included.
  have whole := through_of_formula phrase
  rw [List.append_assoc, through_append_eq, reached] at whole
  change (p.step l).bind _ = _ at whole
  rw [stuck] at whole
  cases whole

/-- Lexemes behind which something is missing are no formula. -/
theorem not_phrase_of_through (reached : through ⟨.operand, []⟩ ls = some p)
    (stuck : p ≠ ⟨.operator, []⟩) : ¬Phrase .expression ls := by
  intro phrase
  rw [through_of_formula phrase] at reached
  exact stuck (Option.some.inj reached).symm

end Progress
end PerfFormula
