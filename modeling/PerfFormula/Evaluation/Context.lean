import PerfFormula.Evaluation.FormulaError
import PerfFormula.Names.IdentifierSet

/-!
# Contexts

What a formula is evaluated in: the data of its names, the runtime parameter, and the answers to
host literals. A name has a value, or it refers to another formula, or it is known to be needed and
still waits for either.

Main statements:

* `Context.unresolved_append_lt` — following a reference that is not on the chain yet leaves fewer
  references to follow. This is why evaluation ends, also when references form a cycle.
-/

namespace PerfFormula

/-- What is known of a name. -/
inductive Datum where
  | pending
  | value (x : Float)
  /-- The text of the formula that defines the name. -/
  | reference (source : String)

/-- The names, the runtime parameter and the answers to host literals. -/
structure Context where
  ids : IdentifierSet Datum
  runtime : Nat
  answers : HostLiteral → Float

namespace Context

/-- A context without names. -/
def new (runtime : Nat) (answers : HostLiteral → Float) : Context := ⟨.empty, runtime, answers⟩

/-- A context without names for a runtime parameter that is still to be checked. -/
def make (runtime : Int) (answers : HostLiteral → Float) : Except FormulaError Context := do
  return new (← checkRuntime runtime) answers

/-! ## The data of names -/

/-- The context with other names. -/
def withIds (c : Context) (ids : IdentifierSet Datum) : Context := { c with ids }

/-- Give a name a value. -/
def bind (c : Context) (name : String) (x : Float) : Except SetError Context :=
  (c.ids.set name (.value x)).map c.withIds

/-- Give values to several names. -/
def bindAll (c : Context) (values : NameMap Float) : Except SetError Context :=
  values.entries.foldlM (fun c entry => c.bind entry.1 entry.2) c

/-- Note that a name is needed; what is known of it stays. -/
def need (c : Context) (name : String) : Except SetError Context := do
  if ← c.ids.contains name then return c
  else (c.ids.insert name .pending).map c.withIds

/-- Let a name refer to a formula. -/
def refer (c : Context) (name source : String) : Except SetError Context :=
  (c.ids.set name (.reference source)).map c.withIds

/-- What is known of a name; nothing but that it is pending, if it is unknown. -/
def datum (c : Context) (name : String) : Except SetError Datum :=
  (c.ids.get? name).map (·.getD .pending)

/-- Forget a name. -/
def forget (c : Context) (name : String) : Except SetError Context :=
  (c.ids.remove name).map c.withIds

/-- Forget all names. -/
def clear (c : Context) : Except SetError Context := c.ids.clear.map c.withIds

/-- Free the set of names. -/
def free (c : Context) : Context := c.withIds .freed

/-! ## References -/

/-- The names that refer to formulas. -/
def references (c : Context) : List String :=
  c.ids.contents.entries.filterMap fun entry =>
    match entry.2 with
    | .reference _ => some entry.1
    | _ => none

/-- The references that are not on a chain. -/
def unresolved (c : Context) (chain : List String) : List String :=
  c.references.filter (· ∉ chain)

theorem mem_entries_of_lookupIn {δ : Type} {name : String} {d : δ} {entries : List (String × δ)}
    (h : NameMap.lookupIn name entries = some d) : (name, d) ∈ entries := by
  induction entries with
  | nil => simp [NameMap.lookupIn] at h
  | cons entry rest ih =>
    unfold NameMap.lookupIn at h
    split at h
    · next hn =>
      obtain rfl := Option.some.inj h
      exact List.mem_cons.2 (.inl (by rw [← hn]))
    · exact List.mem_cons_of_mem _ (ih h)

/-- A name that refers to a formula is one of the references. -/
theorem mem_references {c : Context} {name source : String}
    (h : c.datum name = .ok (.reference source)) : name ∈ c.references := by
  unfold datum IdentifierSet.get? at h
  cases hids : c.ids with
  | freed => simp [hids, IdentifierSet.use, Bind.bind, Except.bind, Except.map] at h
  | live m =>
    simp only [hids, IdentifierSet.use, Bind.bind, Except.bind, Pure.pure, Except.pure, Except.map,
      Except.ok.injEq] at h
    cases hf : m.find? name with
    | none => simp [hf] at h
    | some d =>
      simp only [hf, Option.getD_some] at h
      subst h
      rw [references, List.mem_filterMap]
      refine ⟨(name, .reference source), ?_, rfl⟩
      simpa [hids, IdentifierSet.contents] using mem_entries_of_lookupIn hf

theorem datum_ne_reference {c : Context} (closed : c.references = []) (name source : String) :
    c.datum name ≠ .ok (.reference source) := by
  intro h
  have mem := mem_references h
  rw [closed] at mem
  cases mem

/-- Following a reference that is not on the chain yet leaves fewer references to follow. -/
theorem unresolved_append_lt {c : Context} {chain : List String} {name source : String}
    (h : c.datum name = .ok (.reference source)) (fresh : name ∉ chain) :
    (c.unresolved (chain ++ [name])).length < (c.unresolved chain).length := by
  have split : c.unresolved (chain ++ [name]) = (c.unresolved chain).filter (· ≠ name) := by
    rw [unresolved, unresolved, List.filter_filter]
    apply List.filter_congr
    intro n _
    by_cases hn : n = name <;> simp [hn]
  rw [split]
  have present : name ∈ c.unresolved chain := by
    simp [unresolved, mem_references h, fresh]
  exact List.length_filter_lt_length_iff_exists.2 ⟨name, present, by simp⟩

end Context
end PerfFormula
