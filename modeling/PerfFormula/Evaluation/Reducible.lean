import PerfFormula.Evaluation.Needed

/-!
# Reducible choices

A choice whose condition is not known but whose branches are the same constant is that constant,
whatever the condition is, so no name of the condition is needed. An evaluation does not know that
and evaluates the condition first. The names of such conditions are the ones that an evaluation may
look up without their being needed.

Main statements:

* `Formula.needed_of_isReducible` — a reducible choice is constant.
* `Formula.names_of_mem_subformulas` — the names of a part of a formula are names of the formula.
-/

namespace PerfFormula
namespace Formula

/-- The parts of a formula, itself included. -/
def subformulas : Formula → List Formula
  | number x => [number x]
  | name n => [name n]
  | host l => [host l]
  | binary op l r => binary op l r :: (l.subformulas ++ r.subformulas)
  | negate f => negate f :: f.subformulas
  | choice c t f => choice c t f :: (c.subformulas ++ t.subformulas ++ f.subformulas)
  | call g a b => call g a b :: (a.subformulas ++ b.subformulas)

/-- A choice whose condition is not known and whose branches are the same constant. -/
def IsReducible (answers : HostLiteral → Float) : Formula → Prop
  | choice c t f => ∃ ns x y, c.needed answers = .names ns ∧ t.needed answers = .constant x ∧
      f.needed answers = .constant y ∧ (x == y) = true
  | _ => False

/-- A name in the condition of a reducible choice somewhere in a formula. -/
def Hides (answers : HostLiteral → Float) (whole : Formula) (n : String) : Prop :=
  ∃ c t f, choice c t f ∈ whole.subformulas ∧ (choice c t f).IsReducible answers ∧ n ∈ c.names

theorem self_mem_subformulas (f : Formula) : f ∈ f.subformulas := by
  cases f <;> simp [subformulas]

/-- A reducible choice is constant. -/
theorem needed_of_isReducible {answers : HostLiteral → Float} {f : Formula}
    (h : f.IsReducible answers) : ∃ x, f.needed answers = .constant x := by
  cases f with
  | choice c t f =>
    obtain ⟨ns, x, y, hc, ht, hf, hxy⟩ := h
    exact ⟨x, by simp [needed, hc, ht, hf, Needed.choose, hxy]⟩
  | _ => exact h.elim

/-- The names of a part of a formula are names of the formula. -/
theorem names_of_mem_subformulas {part whole : Formula} (h : part ∈ whole.subformulas) :
    ∀ n ∈ part.names, n ∈ whole.names := by
  induction whole with
  | number | name | host =>
    obtain rfl := by simpa [subformulas] using h
    exact fun _ hn => hn
  | binary op l r ihl ihr =>
    simp only [subformulas, List.mem_cons, List.mem_append] at h
    rcases h with rfl | h | h
    · exact fun _ hn => hn
    · intro n hn; simp [names, ihl h n hn]
    · intro n hn; simp [names, ihr h n hn]
  | negate f ih =>
    simp only [subformulas, List.mem_cons] at h
    rcases h with rfl | h
    · exact fun _ hn => hn
    · exact ih h
  | choice c t f ihc iht ihf =>
    simp only [subformulas, List.mem_cons, List.mem_append] at h
    rcases h with rfl | (h | h) | h
    · exact fun _ hn => hn
    · intro n hn; simp [names, ihc h n hn]
    · intro n hn; simp [names, iht h n hn]
    · intro n hn; simp [names, ihf h n hn]
  | call g a b iha ihb =>
    simp only [subformulas, List.mem_cons, List.mem_append] at h
    rcases h with rfl | h | h
    · exact fun _ hn => hn
    · intro n hn; simp [names, iha h n hn]
    · intro n hn; simp [names, ihb h n hn]

/-- A hidden name occurs in the formula. -/
theorem Hides.mem_names {answers : HostLiteral → Float} {f : Formula} {n : String}
    (h : f.Hides answers n) : n ∈ f.names := by
  obtain ⟨c, t, e, hpart, -, hn⟩ := h
  exact names_of_mem_subformulas hpart n (by simp [names, hn])

end Formula
end PerfFormula
