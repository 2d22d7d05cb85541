/-!
# Maps from names in the order of insertion

A map whose keys are names and which keeps the order in which the names came. Replacing the datum of
a name keeps its place; a name that is removed and inserted again comes last.

Main statements:

* `find?_set`, `keys_set` — setting a name changes its datum alone, and adds the name at the end if
  it is new.
* `find?_erase`, `keys_erase` — erasing a name forgets it and keeps the order of the others.
* `find?_merge`, `keys_merge` — a merge keeps every datum of the first map and adds the new names of
  the second one behind them.
-/

namespace PerfFormula

/-- A map from names to data that keeps the order of insertion. -/
structure NameMap (δ : Type) where
  entries : List (String × δ)
  distinct : (entries.map (·.1)).Nodup

namespace NameMap

variable {δ : Type}

theorem eq_of_entries {m n : NameMap δ} (h : m.entries = n.entries) : m = n := by
  cases m
  cases n
  congr

/-- The map without names. -/
def empty : NameMap δ := ⟨[], by simp⟩

instance : Inhabited (NameMap δ) := ⟨empty⟩

/-- The names of a map, in order. -/
def keys (m : NameMap δ) : List String := m.entries.map (·.1)

/-- How many names a map has. -/
def size (m : NameMap δ) : Nat := m.entries.length

/-- The datum of a name among some entries. -/
def lookupIn (name : String) : List (String × δ) → Option δ
  | [] => none
  | (n, d) :: rest => if n = name then some d else lookupIn name rest

/-- The datum of a name. -/
def find? (m : NameMap δ) (name : String) : Option δ := lookupIn name m.entries

/-- Whether a map has a name. -/
def contains (m : NameMap δ) (name : String) : Bool := decide (name ∈ m.keys)

/-- The entries after the datum of a name was replaced, or added at the end. -/
def setEntry (entries : List (String × δ)) (name : String) (datum : δ) : List (String × δ) :=
  match entries with
  | [] => [(name, datum)]
  | (n, d) :: rest => if n = name then (n, datum) :: rest else (n, d) :: setEntry rest name datum

theorem map_fst_setEntry (entries : List (String × δ)) (name : String) (datum : δ) :
    (setEntry entries name datum).map (·.1) =
      if name ∈ entries.map (·.1) then entries.map (·.1) else entries.map (·.1) ++ [name] := by
  induction entries with
  | nil => simp [setEntry]
  | cons entry rest ih =>
    obtain ⟨n, d⟩ := entry
    by_cases h : n = name
    · simp [setEntry, h]
    · have h' : name ≠ n := fun e => h e.symm
      simp only [setEntry, h, if_false, List.map_cons, ih, List.mem_cons, h', false_or]
      split <;> simp

/-- Replace the datum of a name, or add the name at the end. -/
def set (m : NameMap δ) (name : String) (datum : δ) : NameMap δ where
  entries := setEntry m.entries name datum
  distinct := by
    rw [map_fst_setEntry]
    split
    · exact m.distinct
    · next h =>
      rw [List.nodup_append]
      refine ⟨m.distinct, by simp, ?_⟩
      rintro a ha b hb rfl
      exact h (List.mem_singleton.1 hb ▸ ha)

/-- Forget a name. -/
def erase (m : NameMap δ) (name : String) : NameMap δ where
  entries := m.entries.filter (·.1 ≠ name)
  distinct := m.distinct.sublist (List.filter_sublist.map _)

/-- The entries of a first map, then those of a second one under new names. -/
def merge (m other : NameMap δ) : NameMap δ where
  entries := m.entries ++ other.entries.filter (fun entry => !m.contains entry.1)
  distinct := by
    rw [List.map_append, List.nodup_append]
    refine ⟨m.distinct, other.distinct.sublist (List.filter_sublist.map _), ?_⟩
    rintro a ha b hb rfl
    obtain ⟨entry, he, rfl⟩ := List.mem_map.1 hb
    have := (List.mem_filter.1 he).2
    have found : m.contains entry.1 = true := decide_eq_true ha
    simp [found] at this

/-- The map of some entries; the last datum of a name wins, its first place is kept. -/
def ofList (entries : List (String × δ)) : NameMap δ :=
  entries.foldl (fun m entry => m.set entry.1 entry.2) empty

/-! ## What the operations do -/

@[simp] theorem keys_empty : (empty : NameMap δ).keys = [] := rfl

@[simp] theorem find?_empty (name : String) : (empty : NameMap δ).find? name = none := rfl

theorem contains_iff {m : NameMap δ} {name : String} : m.contains name = true ↔ name ∈ m.keys := by
  simp [contains]

theorem lookupIn_eq_none_iff {name : String} {entries : List (String × δ)} :
    lookupIn name entries = none ↔ name ∉ entries.map (·.1) := by
  induction entries with
  | nil => simp [lookupIn]
  | cons entry rest ih =>
    by_cases h : entry.1 = name
    · simp [lookupIn, h]
    · have h' : name ≠ entry.1 := fun e => h e.symm
      simp only [lookupIn, h, if_false, ih, List.map_cons, List.mem_cons, h', false_or]

theorem lookupIn_append (name : String) (first second : List (String × δ)) :
    lookupIn name (first ++ second) = (lookupIn name first).or (lookupIn name second) := by
  induction first with
  | nil => simp [lookupIn]
  | cons entry rest ih => by_cases h : entry.1 = name <;> simp [lookupIn, h, ih]

/-- Entries under other names do not matter. -/
theorem lookupIn_filter (name : String) (keep : String → Bool) (entries : List (String × δ)) :
    lookupIn name (entries.filter (fun entry => keep entry.1)) =
      if keep name then lookupIn name entries else none := by
  induction entries with
  | nil => simp [lookupIn]
  | cons entry rest ih =>
    by_cases h : entry.1 = name
    · by_cases hk : keep name = true <;> simp_all [lookupIn]
    · by_cases hk : keep entry.1 = true <;> simp [lookupIn, h, hk, ih]

theorem find?_eq_none_iff {m : NameMap δ} {name : String} :
    m.find? name = none ↔ name ∉ m.keys :=
  lookupIn_eq_none_iff

theorem keys_set (m : NameMap δ) (name : String) (datum : δ) :
    (m.set name datum).keys = if name ∈ m.keys then m.keys else m.keys ++ [name] :=
  map_fst_setEntry m.entries name datum

theorem find?_set (m : NameMap δ) (name other : String) (datum : δ) :
    (m.set name datum).find? other = if other = name then some datum else m.find? other := by
  simp only [find?, set]
  induction m.entries with
  | nil => simp [setEntry, lookupIn, eq_comm]
  | cons entry rest ih =>
    obtain ⟨n, d⟩ := entry
    by_cases h : n = name
    · subst h
      by_cases ho : n = other
      · simp [setEntry, lookupIn, ho]
      · have ho' : other ≠ n := fun e => ho e.symm
        simp [setEntry, lookupIn, ho, ho']
    · by_cases ho : n = other
      · subst ho; simp [setEntry, lookupIn, h]
      · simp [setEntry, lookupIn, h, ho, ih]

theorem keys_erase (m : NameMap δ) (name : String) :
    (m.erase name).keys = m.keys.filter (· ≠ name) := by
  simp [keys, erase, List.filter_map, Function.comp_def]

theorem find?_erase (m : NameMap δ) (name other : String) :
    (m.erase name).find? other = if other = name then none else m.find? other := by
  have h := lookupIn_filter other (fun n => n ≠ name) m.entries
  simp only [find?, erase, h]
  by_cases ho : other = name <;> simp [ho]

theorem keys_merge (m other : NameMap δ) :
    (m.merge other).keys = m.keys ++ other.keys.filter (fun n => !m.contains n) := by
  simp [keys, merge, List.filter_map, Function.comp_def]

theorem find?_merge (m other : NameMap δ) (name : String) :
    (m.merge other).find? name = (m.find? name).or (other.find? name) := by
  have h := lookupIn_filter name (fun n => !m.contains n) other.entries
  simp only [find?, merge, lookupIn_append, h]
  cases hm : lookupIn name m.entries with
  | some d => simp
  | none =>
    have absent : name ∉ m.keys := find?_eq_none_iff.1 hm
    simp [contains, absent]

end NameMap
end PerfFormula
