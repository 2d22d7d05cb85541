import Mathlib.Data.List.Chain

/-!
# Walks that close a loop

A walk from name to name along the edges of a graph closes a loop when it comes back to a name that
it has passed, and stops there. Such a walk is what a report of a cycle lists: the way to the cycle
and once around it.

Main statements:

* `ClosesLoop.exists_cycle` — where a walk closes a loop, a cycle is reached from its start.
-/

namespace PerfFormula

variable {edge : String → String → Prop} {start : String} {walk : List String}

/-- A walk from `start` along edges that passes no name twice, but for the last one, which it has
passed before. -/
structure ClosesLoop (edge : String → String → Prop) (start : String) (walk : List String) :
    Prop where
  starts : walk.head? = some start
  along : walk.IsChain edge
  closes : ∃ way last, walk = way ++ [last] ∧ way.Nodup ∧ last ∈ way

/-- What a walk ends at is reached from what it starts at. -/
theorem reaches_of_isChain {way : List String} {last : String}
    (starts : (way ++ [last]).head? = some start) (along : (way ++ [last]).IsChain edge) :
    Relation.ReflTransGen edge start last := by
  have nonempty : way ++ [last] ≠ [] := by simp
  have reaches := List.relationReflTransGen_of_exists_isChain (way ++ [last]) along nonempty
  have first : (way ++ [last]).head nonempty = start := by
    rw [List.head?_eq_some_head nonempty] at starts
    exact Option.some.inj starts
  rw [first, List.getLast_append_singleton] at reaches
  exact reaches

/-- Where a walk closes a loop, a cycle is reached from its start. -/
theorem ClosesLoop.exists_cycle (h : ClosesLoop edge start walk) :
    ∃ n next, Relation.ReflTransGen edge start n ∧ edge n next ∧
      Relation.ReflTransGen edge next n := by
  obtain ⟨way, last, rfl, -, passed⟩ := h.closes
  -- The last name splits the walk into the way to the cycle and the cycle itself.
  obtain ⟨before, behind, rfl⟩ := List.append_of_mem passed
  have along := h.along
  rw [List.append_assoc, List.cons_append, List.isChain_split] at along
  obtain ⟨toCycle, around⟩ := along
  have starts : (before ++ [last]).head? = some start := by
    rw [← h.starts]
    cases before <;> rfl
  obtain ⟨next, rest, hnext⟩ : ∃ next rest, behind ++ [last] = next :: rest := by
    cases behind with
    | nil => exact ⟨last, [], rfl⟩
    | cons next rest => exact ⟨next, rest ++ [last], rfl⟩
  have leaves : edge last next := by
    rw [hnext, List.isChain_cons_cons] at around
    exact around.1
  have returns : (behind ++ [last]).IsChain edge := around.tail
  have first : (behind ++ [last]).head? = some next := by
    rw [hnext]
    rfl
  exact ⟨last, next, reaches_of_isChain starts toCycle, leaves, reaches_of_isChain first returns⟩

end PerfFormula
