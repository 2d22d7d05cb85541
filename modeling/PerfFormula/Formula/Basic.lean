/-!
# Formulas over named counters

The tree of a formula such as `inst_retired.any / cpu_clk_unhalted.thread if #smt_on else 0`. Names
stand for measured events or for other formulas; a host literal asks a question about the machine.
Every function takes two arguments, and that is part of its shape here, so no later stage has to
check it.

Main statements:

* `Operator.ofSymbol?_symbol`, `Builtin.ofName?_name`, `HostLiteral.ofName?_name` — reading the
  written form of an operator, a function or a host literal gives it back.
-/

namespace PerfFormula

/-- Binary operators. -/
inductive Operator where
  | add
  | sub
  | mul
  | div
  | mod
  | less
  | greater
  | or
  | and
  deriving DecidableEq, Repr

namespace Operator

/-- The character that writes an operator. -/
def symbol : Operator → Char
  | add => '+'
  | sub => '-'
  | mul => '*'
  | div => '/'
  | mod => '%'
  | less => '<'
  | greater => '>'
  | or => '|'
  | and => '&'

/-- All operators. -/
def all : List Operator := [add, sub, mul, div, mod, less, greater, or, and]

/-- The operator that a character writes. -/
def ofSymbol? (c : Char) : Option Operator := all.find? (·.symbol == c)

theorem ofSymbol?_symbol (o : Operator) : ofSymbol? o.symbol = some o := by
  cases o <;> decide

/-- How loosely an operator binds: products first, then sums, comparisons, conjunction and
disjunction. -/
def rank : Operator → Nat
  | mul | div | mod => 1
  | add | sub => 2
  | less | greater => 3
  | and => 4
  | or => 5

/-- The rank of the loosest operators. -/
def loosest : Nat := 5

theorem rank_le_loosest (o : Operator) : 1 ≤ o.rank ∧ o.rank ≤ loosest := by
  cases o <;> decide

end Operator

/-- The functions that a formula may call, each with two arguments. -/
inductive Builtin where
  | min
  | max
  | ratio
  deriving DecidableEq, Repr

namespace Builtin

/-- The name of a function. -/
def name : Builtin → String
  | min => "min"
  | max => "max"
  | ratio => "d_ratio"

/-- All functions. -/
def all : List Builtin := [min, max, ratio]

/-- The function of a name. -/
def ofName? (s : String) : Option Builtin := all.find? (·.name == s)

theorem ofName?_name (f : Builtin) : ofName? f.name = some f := by
  cases f <;> decide

/-- How many arguments every function takes. -/
def arity : Nat := 2

end Builtin

/-- Questions about the machine that a formula may ask. -/
inductive HostLiteral where
  /-- Is simultaneous multithreading active? -/
  | smtOn
  /-- How many processors are there? -/
  | cpus
  /-- How many processors are online? -/
  | cpusOnline
  deriving DecidableEq, Repr

namespace HostLiteral

/-- The name of a host literal, without the `#` in front. -/
def name : HostLiteral → String
  | smtOn => "smt_on"
  | cpus => "num_cpus"
  | cpusOnline => "num_cpus_online"

/-- All host literals. -/
def all : List HostLiteral := [smtOn, cpus, cpusOnline]

/-- The host literal of a name. -/
def ofName? (s : String) : Option HostLiteral := all.find? (·.name == s)

theorem ofName?_name (l : HostLiteral) : ofName? l.name = some l := by
  cases l <;> decide

theorem name_of_ofName? {s : String} {l : HostLiteral} (h : ofName? s = some l) : l.name = s := by
  simpa using List.find?_some h

end HostLiteral

/-- The tree of a formula. -/
inductive Formula where
  | number (value : Float)
  | name (name : String)
  | host (literal : HostLiteral)
  | binary (op : Operator) (left right : Formula)
  | negate (operand : Formula)
  | choice (condition whenTrue whenFalse : Formula)
  | call (function : Builtin) (first second : Formula)
  deriving BEq

namespace Formula

/-- The names of a second list after those of a first, without the names that the first has. -/
def joinNames (first second : List String) : List String :=
  first ++ second.filter (· ∉ first)

/-- Every name that occurs in a formula, once, in the order of first occurrence. -/
def names : Formula → List String
  | number _ => []
  | name n => [n]
  | host _ => []
  | binary _ l r => joinNames l.names r.names
  | negate x => x.names
  | choice c t f => joinNames (joinNames c.names t.names) f.names
  | call _ a b => joinNames a.names b.names

@[simp] theorem mem_joinNames {first second : List String} {n : String} :
    n ∈ joinNames first second ↔ n ∈ first ∨ n ∈ second := by
  by_cases h : n ∈ first <;> simp [joinNames, h]

theorem nodup_joinNames {first second : List String} (h₁ : first.Nodup) (h₂ : second.Nodup) :
    (joinNames first second).Nodup := by
  rw [joinNames, List.nodup_append]
  refine ⟨h₁, h₂.filter _, ?_⟩
  rintro a ha b hb rfl
  simp [ha] at hb

/-- No name is listed twice. -/
theorem nodup_names (x : Formula) : x.names.Nodup := by
  induction x with
  | number | host => simp [names]
  | name => simp [names]
  | binary _ _ _ ihl ihr => exact nodup_joinNames ihl ihr
  | negate _ ih => exact ih
  | choice _ _ _ ihc iht ihf => exact nodup_joinNames (nodup_joinNames ihc iht) ihf
  | call _ _ _ iha ihb => exact nodup_joinNames iha ihb

end Formula

end PerfFormula
