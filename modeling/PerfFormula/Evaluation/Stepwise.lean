import PerfFormula.Evaluation.Run

/-!
# Evaluation step by step

An evaluation as a machine that takes one step after the other. What `Formula.run` leaves to the
recursion stands here in the state: the evaluations that wait for a value, from the innermost to the
outermost, and among them the references that are being resolved. So it can be said of every moment
how many of them there are.
-/

namespace PerfFormula

/-- Where a computation that goes step by step has come to. -/
inductive Stepwise (σ ω : Type) where
  | goesOn (state : σ)
  | ended (outcome : ω)

/-- Where a number of steps leads to. A computation that has ended takes no further step. -/
def Stepwise.steps {σ ω : Type} (next : σ → Stepwise σ ω) : Nat → σ → Stepwise σ ω
  | 0, s => goesOn s
  | n + 1, s =>
    match next s with
    | goesOn s => steps next n s
    | ended o => ended o

namespace Evaluation

/-- What an evaluation waits for that has begun and has not come to its value: a part of its
formula, or the formula that a name refers to. -/
inductive Waiting where
  -- for an operand, with the other one or its value
  | left (op : Operator) (right : Formula)
  | right (op : Operator) (left : Float)
  | operand
  -- for the condition of a choice, and then for the branch that it selects
  | condition (whenTrue whenFalse : Formula)
  | branch
  -- for an argument of a call, with the other one or its value
  | first (function : Builtin) (second : Formula)
  | second (function : Builtin) (first : Float)
  -- for the formula that a name refers to
  | reference (name : String)

/-- What is done next: a formula is evaluated, or a value is handed on to what waits for it. -/
inductive Task where
  | evaluate (f : Formula)
  | handOn (x : Float)

/-- A moment of an evaluation: what is done next, what waits for it, from the innermost to the
outermost, and what was found out so far. -/
structure Moment where
  task : Task
  waiting : List Waiting
  run : Run

/-- The references that some evaluations resolve, from the outermost to the innermost. -/
def resolvingIn : List Waiting → List String
  | [] => []
  | .reference name :: outer => resolvingIn outer ++ [name]
  | _ :: outer => resolvingIn outer

namespace Moment

/-- The moment at which nothing was done. -/
def start (f : Formula) : Moment := ⟨.evaluate f, [], .start⟩

/-- The references that are being resolved, from the outermost to the innermost. -/
def resolving (s : Moment) : List String := resolvingIn s.waiting

/-- How many evaluations have begun and have not come to their value. -/
def depth (s : Moment) : Nat :=
  match s.task with
  | .evaluate _ => s.waiting.length + 1
  | .handOn _ => s.waiting.length

end Moment
end Evaluation

namespace Context

open Evaluation Stepwise

/-- Look up a name. -/
def stepName (c : Context) (name : String) (outer : List Waiting) (run : Run) :
    Stepwise Moment (Except FormulaError Float × Run) :=
  match NameMap.lookupIn name run.resolved with
  | some x => goesOn ⟨.handOn x, outer, run⟩
  | none =>
    match c.datum name with
    | .error _ => ended (.error .usedAfterFree, run)
    | .ok .pending => ended (.error (.undefined name), run)
    | .ok (.value x) => goesOn ⟨.handOn x, outer, run⟩
    | .ok (.reference source) =>
      if name ∈ resolvingIn outer then ended (.error (.cycle (resolvingIn outer ++ [name])), run)
      else
        match Formula.parse source c.runtime with
        | .error e => ended (.error (.unreadable source e), run)
        | .ok f => goesOn ⟨.evaluate f, .reference name :: outer, run⟩

/-- Begin to evaluate a formula. -/
def stepInto (c : Context) (outer : List Waiting) (run : Run) :
    Formula → Stepwise Moment (Except FormulaError Float × Run)
  | .number x => goesOn ⟨.handOn x, outer, run⟩
  | .name n => c.stepName n outer run
  | .host l => goesOn ⟨.handOn (c.answers l), outer, run.ask l⟩
  | .binary op l r => goesOn ⟨.evaluate l, .left op r :: outer, run⟩
  | .negate f => goesOn ⟨.evaluate f, .operand :: outer, run⟩
  | .choice condition t f => goesOn ⟨.evaluate condition, .condition t f :: outer, run⟩
  | .call g a b => goesOn ⟨.evaluate a, .first g b :: outer, run⟩

/-- Hand a value on to the innermost evaluation that waits, if there is one. -/
def stepOut (run : Run) (x : Float) : List Waiting →
    Stepwise Moment (Except FormulaError Float × Run)
  | [] => ended (.ok x, run)
  | .left op r :: outer => goesOn ⟨.evaluate r, .right op x :: outer, run⟩
  | .right op y :: outer =>
    match op.apply y x with
    | .ok z => goesOn ⟨.handOn z, outer, run⟩
    | .error e => ended (.error (.arithmetic e), run)
  | .operand :: outer => goesOn ⟨.handOn (-x), outer, run⟩
  | .condition t f :: outer =>
    -- The choice itself waits on, now for its branch.
    goesOn ⟨.evaluate (if isTrue x then t else f), .branch :: outer, run⟩
  | .branch :: outer => goesOn ⟨.handOn x, outer, run⟩
  | .first g b :: outer => goesOn ⟨.evaluate b, .second g x :: outer, run⟩
  | .second g y :: outer => goesOn ⟨.handOn (g.apply y x), outer, run⟩
  -- The reference is resolved, and its value is remembered.
  | .reference name :: outer => goesOn ⟨.handOn x, outer, run.remember name x⟩

/-- One step of an evaluation. -/
def step (c : Context) (s : Moment) : Stepwise Moment (Except FormulaError Float × Run) :=
  match s.task with
  | .evaluate f => c.stepInto s.waiting s.run f
  | .handOn x => stepOut s.run x s.waiting

end Context

/-! ## How deep an evaluation can get -/

/-- How many evaluations of its parts a formula takes inside each other, itself included. -/
def Formula.height : Formula → Nat
  | number _ | name _ | host _ => 1
  | binary _ l r => max l.height r.height + 1
  | negate f => f.height + 1
  | choice c t f => max c.height (max t.height f.height) + 1
  | call _ a b => max a.height b.height + 1

namespace Context

/-- The height of the formula that a name refers to, if it refers to one that can be read. -/
def heightOf (c : Context) (name : String) : Nat :=
  match c.datum name with
  | .ok (.reference source) =>
    match Formula.parse source c.runtime with
    | .ok f => f.height
    | .error _ => 0
  | _ => 0

/-- The height of the highest formula that a name refers to. -/
def tallest (c : Context) : Nat := (c.references.map c.heightOf).foldr max 0

/-- How many evaluations can be inside each other: those of the formula itself, and those of one
formula for each reference that is being resolved. -/
def deepest (c : Context) (f : Formula) : Nat := f.height + c.references.length * c.tallest

end Context
end PerfFormula
