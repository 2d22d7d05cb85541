import PerfFormula.Proofs.FoundNames
import PerfFormula.Proofs.FreedSets

/-!
# Merged identifier sets

The union of two sets empties the second one into the first, entry by entry. What comes of it is a
merge that prefers the first set: its entries stay as they are, and behind them come the entries of
the second set under new names, in their order. From this the laws of a union follow, for the names,
their order and their data at once: it is associative, and a set without names changes nothing on
either side. Nothing at all in the place of a set is left aside.

Main statements:

* `NameMap.merge_eq_foldl` — a merge takes over one entry after the other.
* `NameMap.merge_assoc`, `NameMap.size_merge_add` — its laws.
* `Registry.join_prefers_first` — the union of sets that names hold.
-/

namespace PerfFormula

namespace NameMap

variable {δ : Type}

/-! ## One entry after the other -/

/-- Take over an entry, unless its name is there already. -/
def takeOver (m : NameMap δ) (entry : String × δ) : NameMap δ :=
  if m.contains entry.1 then m else m.set entry.1 entry.2

theorem entries_takeOver (m : NameMap δ) (entry : String × δ) :
    (m.takeOver entry).entries = m.entries ++ [entry].filter fun e => !m.contains e.1 := by
  unfold takeOver
  by_cases old : m.contains entry.1 = true
  · simp [old]
  · have fresh : entry.1 ∉ m.entries.map (·.1) := fun there => old (contains_iff.2 there)
    rw [if_neg old, List.filter_singleton, Bool.eq_false_iff.2 old]
    exact setEntry_of_fresh fresh entry.2

/-- Only the name of the entry itself may be new after it was taken over. -/
theorem contains_takeOver (m : NameMap δ) {entry : String × δ} {name : String}
    (other : name ≠ entry.1) : (m.takeOver entry).contains name = m.contains name := by
  unfold takeOver
  split
  · rfl
  · rw [Bool.eq_iff_iff, contains_iff, contains_iff, keys_set]
    split
    · rfl
    · simp [other]

theorem entries_foldl_takeOver (entries : List (String × δ)) (m : NameMap δ)
    (distinct : (entries.map (·.1)).Nodup) :
    (entries.foldl takeOver m).entries = m.entries ++ entries.filter fun e => !m.contains e.1 := by
  induction entries generalizing m with
  | nil => simp
  | cons entry rest ih =>
    rw [List.map_cons, List.nodup_cons] at distinct
    -- The entries behind have other names, so the same ones are new for them as before.
    have same : rest.filter (fun e => !(m.takeOver entry).contains e.1) =
        rest.filter fun e => !m.contains e.1 := by
      apply List.filter_congr
      intro e mem
      have other : e.1 ≠ entry.1 := by
        intro same
        exact distinct.1 (same ▸ List.mem_map_of_mem mem)
      rw [contains_takeOver m other]
    rw [List.foldl_cons, ih _ distinct.2, same, entries_takeOver, List.append_assoc,
      ← List.filter_append, List.singleton_append]

/-- A merge takes over the entries of the second map, one after the other. -/
theorem merge_eq_foldl (m other : NameMap δ) : m.merge other = other.entries.foldl takeOver m :=
  eq_of_entries (entries_foldl_takeOver other.entries m other.distinct).symm

/-! ## Laws of a merge -/

theorem contains_merge (m other : NameMap δ) (name : String) :
    (m.merge other).contains name = (m.contains name || other.contains name) := by
  rw [Bool.eq_iff_iff, Bool.or_eq_true, contains_iff, contains_iff, contains_iff, keys_merge,
    List.mem_append, List.mem_filter]
  by_cases old : name ∈ m.keys
  · simp [old]
  · simp [contains, old]

/-- The order of merging does not matter, neither for the data nor for the order of the names. -/
theorem merge_assoc (m n o : NameMap δ) : (m.merge n).merge o = m.merge (n.merge o) := by
  apply eq_of_entries
  have behind : (o.entries.filter fun e => !n.contains e.1).filter (fun e => !m.contains e.1) =
      o.entries.filter fun e => !(m.merge n).contains e.1 := by
    rw [List.filter_filter]
    apply List.filter_congr
    intro e _
    rw [contains_merge, Bool.not_or]
  calc ((m.merge n).merge o).entries
      = m.entries ++ n.entries.filter (fun e => !m.contains e.1) ++
          o.entries.filter (fun e => !(m.merge n).contains e.1) := rfl
    _ = m.entries ++ (n.entries ++ o.entries.filter fun e => !n.contains e.1).filter
          (fun e => !m.contains e.1) := by rw [List.filter_append, behind, List.append_assoc]
    _ = (m.merge (n.merge o)).entries := rfl

theorem merge_empty (m : NameMap δ) : m.merge .empty = m :=
  eq_of_entries (List.append_nil _)

theorem empty_merge (m : NameMap δ) : empty.merge m = m := by
  apply eq_of_entries
  show [] ++ m.entries.filter _ = m.entries
  rw [List.nil_append, List.filter_eq_self]
  intro e _
  rfl

/-- The names that two maps have in common. -/
def common (m other : NameMap δ) : List String := m.keys.filter other.contains

/-- A merge has as many names as both maps together, those in common counted once. -/
theorem size_merge_add (m other : NameMap δ) :
    (m.merge other).size + (m.common other).length = m.size + other.size := by
  -- The names in common are the same from both sides, each once.
  have both : (m.common other).Perm (other.keys.filter m.contains) := by
    refine (List.perm_ext_iff_of_nodup (m.distinct.filter _) (other.distinct.filter _)).2 ?_
    intro name
    simp only [List.mem_filter, contains_iff]
    exact and_comm
  have split := List.length_eq_length_filter_add (l := other.keys) m.contains
  have sizes : (m.merge other).keys.length = (m.merge other).size := List.length_map _
  have sizes' : other.keys.length = other.size := List.length_map _
  have sizes'' : m.keys.length = m.size := List.length_map _
  rw [keys_merge, List.length_append] at sizes
  rw [both.length_eq]
  omega

end NameMap

namespace Registry

open NameMap (takeOver)

variable {δ : Type} {r : Registry δ} {a b : String} {i j : Nat} {m n o : NameMap δ}

/-! ## Unions of sets that names hold -/

/-- What is left of a union of two sets: the first one has taken over the second one, which is
empty, and a name holds the first one. -/
def joined (r : Registry δ) (i j : Nat) (u : NameMap δ) (target : String) : Registry δ :=
  ((r.write i (.live u)).write j .empty).hold target i

theorem step_join (heldA : r.held? a = some (i, .live m)) (heldB : r.held? b = some (j, .live n))
    (different : i ≠ j) (target : String) :
    r.step (.join a b target) = (.ok (.joined true false), r.joined i j (m.merge n) target) := by
  apply step_of_perform
  have united : r.unite i j (.live m) (.live n) =
      .ok ((r.write i (.live (m.merge n))).write j .empty) := if_neg different
  rw [perform, heldA, heldB]
  show (r.unite i j (.live m) (.live n)).bind _ = _
  rw [united, decide_eq_false different]
  rfl

theorem held?_joined (heldA : r.held? a = some (i, .live m)) (different : i ≠ j) (u : NameMap δ)
    (target : String) : (r.joined i j u target).held? target = some (i, .live u) := by
  have inRange := (List.getElem?_eq_some_iff.1 (cell_of_held? heldA).2).1
  apply held?_of_cell
  · exact (find?_hold _ target target i).trans (if_pos rfl)
  · show ((r.cells.set i (.live u)).set j .empty)[i]? = _
    rw [List.getElem?_set_ne different.symm, List.getElem?_set_self inRange]

/-- Another name holds what it held, if this was neither of the two sets. -/
theorem held?_joined_of_ne {c : String} {k : Nat} {s : IdentifierSet δ}
    (heldC : r.held? c = some (k, s)) (notFirst : k ≠ i) (notSecond : k ≠ j) (u : NameMap δ)
    {target : String} (other : c ≠ target) : (r.joined i j u target).held? c = some (k, s) := by
  obtain ⟨holds, stored⟩ := cell_of_held? heldC
  apply held?_of_cell
  · exact ((find?_hold _ target c i).trans (if_neg other)).trans holds
  · show ((r.cells.set i (.live u)).set j .empty)[k]? = _
    rw [List.getElem?_set_ne notSecond.symm, List.getElem?_set_ne notFirst.symm]
    exact stored

/-- A union with nothing, on either side, is the set itself. -/
theorem held?_join_nothing {missing : String} (heldA : r.held? a = some (i, .live m))
    (nothing : r.held? missing = none) (target : String) :
    (r.step (.join a missing target)).2.held? target = some (i, .live m) ∧
      (r.step (.join missing a target)).2.held? target = some (i, .live m) := by
  have left : r.perform (.join a missing target) = .ok (.joined true false, r.hold target i) := by
    rw [perform, heldA, nothing]
    rfl
  have right : r.perform (.join missing a target) = .ok (.joined false true, r.hold target i) := by
    rw [perform, heldA, nothing]
    rfl
  have holds : (r.hold target i).held? target = some (i, .live m) :=
    held?_of_cell ((find?_hold r target target i).trans (if_pos rfl)) (cell_of_held? heldA).2
  rw [step_of_perform left, step_of_perform right]
  exact ⟨holds, holds⟩

/-- A union of nothing with nothing is a new set without identifiers. -/
theorem held?_join_nothings {missing missing' : String} (nothing : r.held? missing = none)
    (nothing' : r.held? missing' = none) (target : String) :
    (r.step (.join missing missing' target)).2.held? target =
      some (r.cells.length, .live .empty) := by
  have done : r.perform (.join missing missing' target) =
      .ok (.joined false false, r.add target .empty) := by
    rw [perform, nothing, nothing']
    rfl
  rw [step_of_perform done]
  apply held?_of_cell
  · exact (find?_add r target target .empty).trans (if_pos rfl)
  · show (r.cells ++ [.empty])[r.cells.length]? = _
    rw [List.getElem?_concat_length]
    rfl

/-- The union of three sets, the first two united first. -/
theorem held?_join_left {c between : String} {k : Nat} (heldA : r.held? a = some (i, .live m))
    (heldB : r.held? b = some (j, .live n)) (heldC : r.held? c = some (k, .live o)) (ab : i ≠ j)
    (ac : i ≠ k) (bc : j ≠ k) (notThird : between ≠ c) (target : String) :
    (r.run [.join a b between, .join between c target]).held? target =
      some (i, .live ((m.merge n).merge o)) := by
  have first := held?_joined heldA ab (m.merge n) between
  have second := held?_joined_of_ne heldC ac.symm bc.symm (m.merge n) notThird.symm
  show (((r.step (.join a b between)).2.step (.join between c target)).2).held? target = _
  rw [step_join heldA heldB ab, step_join first second ac]
  exact held?_joined first ac _ target

/-- The union of three sets, the last two united first. -/
theorem held?_join_right {c between : String} {k : Nat} (heldA : r.held? a = some (i, .live m))
    (heldB : r.held? b = some (j, .live n)) (heldC : r.held? c = some (k, .live o)) (ab : i ≠ j)
    (ac : i ≠ k) (bc : j ≠ k) (notFirst : between ≠ a) (target : String) :
    (r.run [.join b c between, .join a between target]).held? target =
      some (i, .live (m.merge (n.merge o))) := by
  have first := held?_joined_of_ne heldA ab ac (n.merge o) notFirst.symm
  have second := held?_joined heldB bc (n.merge o) between
  show (((r.step (.join b c between)).2.step (.join a between target)).2).held? target = _
  rw [step_join heldB heldC bc, step_join first second ab]
  exact held?_joined first ab _ target

/-- The union of two sets takes over what is new in the second one, entry by entry: the sizes add
up but for the names in common, every name of the first set keeps its datum, and every other name
has its datum from the second one. Three sets come to the same entries in the same order, whichever
two of them are united first. Neither nothing nor a set without identifiers makes a difference, on
both sides; nothing and nothing come to a set without identifiers. -/
theorem join_prefers_first {c between : String} {k : Nat} (heldA : r.held? a = some (i, .live m))
    (heldB : r.held? b = some (j, .live n)) (heldC : r.held? c = some (k, .live o)) (ab : i ≠ j)
    (ac : i ≠ k) (bc : j ≠ k) (notFirst : between ≠ a) (notThird : between ≠ c)
    (target : String) :
    (∃ u, (r.step (.join a b target)).2.held? target = some (i, .live u) ∧
      u = n.entries.foldl takeOver m ∧
      u.size + (m.common n).length = m.size + n.size ∧
      (∀ key ∈ m.keys, u.find? key = m.find? key) ∧
      ∀ key ∉ m.keys, u.find? key = n.find? key) ∧
    (∃ u, (r.run [.join a b between, .join between c target]).held? target = some (i, .live u) ∧
      (r.run [.join b c between, .join a between target]).held? target = some (i, .live u)) ∧
    (∀ missing, r.held? missing = none →
      (r.step (.join a missing target)).2.held? target = some (i, .live m) ∧
        (r.step (.join missing a target)).2.held? target = some (i, .live m) ∧
        (r.step (.join missing missing target)).2.held? target =
          some (r.cells.length, .live .empty)) ∧
    ∀ e l, r.held? e = some (l, .live .empty) → l ≠ i →
      (r.step (.join a e target)).2.held? target = some (i, .live m) ∧
        (r.step (.join e a target)).2.held? target = some (l, .live m) := by
  refine ⟨⟨m.merge n, ?_, m.merge_eq_foldl n, m.size_merge_add n, ?_, ?_⟩, ?_, ?_, ?_⟩
  · rw [step_join heldA heldB ab]
    exact held?_joined heldA ab _ target
  · intro key there
    have known : m.find? key ≠ none := fun unknown => NameMap.find?_eq_none_iff.1 unknown there
    obtain ⟨d, found⟩ := Option.ne_none_iff_exists'.1 known
    rw [NameMap.find?_merge, found, Option.some_or]
  · intro key absent
    rw [NameMap.find?_merge, NameMap.find?_eq_none_iff.2 absent, Option.none_or]
  · refine ⟨_, held?_join_left heldA heldB heldC ab ac bc notThird target, ?_⟩
    rw [NameMap.merge_assoc]
    exact held?_join_right heldA heldB heldC ab ac bc notFirst target
  · intro missing nothing
    obtain ⟨left, right⟩ := held?_join_nothing heldA nothing target
    exact ⟨left, right, held?_join_nothings nothing nothing target⟩
  · intro e l heldE different
    rw [step_join heldA heldE different.symm, step_join heldE heldA different, NameMap.merge_empty,
      NameMap.empty_merge]
    exact ⟨held?_joined heldA different.symm m target, held?_joined heldE different m target⟩

/-- Three sets that share names under which they have different data. -/
def overlapping : Registry Nat :=
  (empty : Registry Nat).run [.create "a" ["x", "y"] 0, .create "b" ["y"] 1, .put "b" "z" 2,
    .create "c" ["z", "x", "w"] 3]

/-- The union of all three is the same in both orders of uniting. -/
theorem join_prefers_first_overlapping :
    ∃ u : NameMap Nat, u.entries = [("x", 0), ("y", 0), ("z", 2), ("w", 3)] ∧
      (overlapping.run [.join "a" "b" "d", .join "d" "c" "e"]).held? "e" = some (0, .live u) ∧
      (overlapping.run [.join "b" "c" "d", .join "a" "d" "e"]).held? "e" = some (0, .live u) := by
  obtain ⟨-, ⟨u, left, right⟩, -⟩ :=
    @join_prefers_first Nat overlapping "a" "b" 0 1 _ _ _ "c" "d" 2 rfl rfl rfl (by decide)
      (by decide) (by decide) (by decide) (by decide) "e"
  refine ⟨u, ?_, left, right⟩
  cases left
  rfl

end Registry
end PerfFormula
