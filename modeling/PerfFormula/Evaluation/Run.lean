import PerfFormula.Evaluation.Context
import PerfFormula.Formula.Parser

/-!
# Evaluating formulas

Evaluation follows a reference at its first use and remembers its value for the rest of the run.
What was remembered is kept also when the run fails, and becomes part of the context afterwards. The
run also notes which host literals were asked.

Main statements:

* `Context.keys_settle` — what is remembered of known names takes the place of their data, and the
  names stay the same, in the same order.
-/

namespace PerfFormula

/-- What a run has found out so far: the values of references, the latest first, and the host
literals that were asked. -/
structure Run where
  resolved : List (String × Float)
  asked : List HostLiteral

namespace Run

/-- The run that has not begun. -/
def start : Run := ⟨[], []⟩

/-- Remember the value of a reference. -/
def remember (r : Run) (name : String) (x : Float) : Run :=
  { r with resolved := (name, x) :: r.resolved }

/-- Note that a host literal was asked. -/
def ask (r : Run) (l : HostLiteral) : Run := { r with asked := l :: r.asked }

end Run

/-- A step of a run: a value or an error, and what was found out either way. -/
abbrev RunM := ExceptT FormulaError (StateM Run)

/-- Evaluate a formula, given the answers to host literals and how names are looked up. -/
def Formula.run (answers : HostLiteral → Float) (lookup : String → RunM Float) :
    Formula → RunM Float
  | number x => return x
  | name n => lookup n
  | host l => do
    modify (·.ask l)
    return answers l
  | binary op l r => do
    let x ← l.run answers lookup
    let y ← r.run answers lookup
    liftExcept ((op.apply x y).mapError .arithmetic)
  | negate f => do
    let x ← f.run answers lookup
    return -x
  | choice c t f => do
    let x ← c.run answers lookup
    if isTrue x then t.run answers lookup else f.run answers lookup
  | call g a b => do
    let x ← a.run answers lookup
    let y ← b.run answers lookup
    return g.apply x y
where
  /-- An outcome that finds nothing out. -/
  liftExcept {α : Type} (e : Except FormulaError α) : RunM α := ExceptT.mk (pure e)

namespace Context

/-- Look up a name, where `chain` are the references that are being followed. -/
def resolve (c : Context) (chain : List String) (name : String) : RunM Float := do
  -- A reference that has a value already is not followed again.
  match NameMap.lookupIn name (← get).resolved with
  | some x => return x
  | none =>
    match _h : c.datum name with
    | .error _ => throw .usedAfterFree
    | .ok .pending => throw (.undefined name)
    | .ok (.value x) => return x
    | .ok (.reference source) =>
      -- The chain of the report ends with the name that closes the cycle.
      if _fresh : name ∈ chain then throw (.cycle (chain ++ [name]))
      else
        match Formula.parse source c.runtime with
        | .error e => throw (.unreadable source e)
        | .ok f =>
          let x ← f.run c.answers fun n => c.resolve (chain ++ [name]) n
          modify (·.remember name x)
          return x
termination_by (c.unresolved chain).length
decreasing_by exact unresolved_append_lt _h _fresh

/-- The context after a run: references that were resolved have their values. -/
def settle (c : Context) (r : Run) : Context :=
  match c.ids with
  | .freed => c
  | .live m =>
    c.withIds (.live (r.resolved.foldr (fun entry m => m.set entry.1 (.value entry.2)) m))

/-- Values for known names take the place of their data: the names stay the same. -/
theorem keys_settle {c : Context} {m : NameMap Datum} {r : Run} (live : c.ids = .live m)
    (known : ∀ entry ∈ r.resolved, entry.1 ∈ m.keys) :
    ∃ after, (c.settle r).ids = .live after ∧ after.keys = m.keys := by
  refine ⟨r.resolved.foldr (fun entry m => m.set entry.1 (.value entry.2)) m,
    by simp [settle, live, withIds], ?_⟩
  generalize r.resolved = resolved at known
  induction resolved with
  | nil => rfl
  | cons entry rest ih =>
    have same := ih fun e he => known e (List.mem_cons_of_mem _ he)
    rw [List.foldr_cons, NameMap.keys_set, same, if_pos (known entry List.mem_cons_self)]

/-- Evaluate a formula from the start: the outcome and what was found out. -/
def runFormula (c : Context) (f : Formula) : Except FormulaError Float × Run :=
  (f.run c.answers (c.resolve [])).run.run Run.start

/-- Evaluate a formula: the outcome, and the context afterwards. -/
def evaluate (c : Context) (f : Formula) : Except FormulaError Float × Context :=
  let (outcome, r) := c.runFormula f
  (outcome, c.settle r)

end Context
end PerfFormula
