import PerfFormula.Evaluation.Reducible
import PerfFormula.Proofs.Folding
import PerfFormula.Proofs.Memory

/-!
# Names that an evaluation looks up

An evaluation looks up only names that the formula needs, and names that stand in the condition of a
reducible choice: the condition is evaluated although the choice is constant. No other name has any
influence, neither on the value of a formula nor on why it has none.

Main statements:

* `Formula.meaning_congr` — two look-ups that agree on these names give a formula the same outcome.
* `Formula.error_of_meaning` — an error comes from arithmetic or from looking up one of these names.
* `Context.hides_of_evaluate_undefined` — where all needed names are bound, a name without a value
  is one that a reducible choice hides.
-/

namespace PerfFormula

namespace Needed

@[simp] theorem list_fold₁ (g : Float → Except ArithmeticError Float) (a : Needed) :
    (fold₁ g a).list = a.list := by
  unfold fold₁
  split
  · split <;> rfl
  · rfl

@[simp] theorem list_fold₂ (g : Float → Float → Except ArithmeticError Float) (a b : Needed) :
    (fold₂ g a b).list = Formula.joinNames a.list b.list := by
  unfold fold₂
  split
  · -- Constants need nothing, and neither does a fold that fails.
    split <;> rfl
  · rfl

theorem mem_list_fold₂ {g : Float → Float → Except ArithmeticError Float} {a b : Needed}
    {n : String} : n ∈ (fold₂ g a b).list ↔ n ∈ a.list ∨ n ∈ b.list := by
  rw [list_fold₂, Formula.mem_joinNames]

end Needed

namespace Formula

variable {answers : HostLiteral → Float} {n : String}

/-! ## Consulted names -/

/-- A name that an evaluation may look up: one that is needed, or one that a reducible choice
hides. -/
def Consults (answers : HostLiteral → Float) (f : Formula) (n : String) : Prop :=
  n ∈ (f.needed answers).list ∨ f.Hides answers n

theorem Hides.mono {part whole : Formula} (h : part.Hides answers n)
    (parts : ∀ p ∈ part.subformulas, p ∈ whole.subformulas) : whole.Hides answers n := by
  obtain ⟨c, t, f, mem, reducible, hn⟩ := h
  exact ⟨c, t, f, parts _ mem, reducible, hn⟩

/-- A choice whose condition is not constant needs the names of all its parts, unless it is
reducible. -/
theorem mem_needed_choice {c t f : Formula} {ns : List String} (hc : c.needed answers = .names ns)
    (irreducible : ¬(choice c t f).IsReducible answers) :
    n ∈ ((choice c t f).needed answers).list ↔
      n ∈ (c.needed answers).list ∨ n ∈ (t.needed answers).list ∨ n ∈ (f.needed answers).list := by
  have all : n ∈ joinNames (joinNames ns (t.needed answers).list) (f.needed answers).list ↔
      n ∈ ns ∨ n ∈ (t.needed answers).list ∨ n ∈ (f.needed answers).list := by
    rw [mem_joinNames, mem_joinNames, or_assoc]
  simp only [needed, hc, Needed.choose]
  split
  · next x y ht hf =>
    split
    · next same => exact absurd ⟨ns, x, y, hc, ht, hf, same⟩ irreducible
    · exact all
  · exact all

theorem Consults.mono {part whole : Formula} (h : part.Consults answers n)
    (needs : n ∈ (part.needed answers).list → n ∈ (whole.needed answers).list)
    (parts : ∀ p ∈ part.subformulas, p ∈ whole.subformulas) : whole.Consults answers n :=
  h.imp needs fun hidden => hidden.mono parts

/-- Where two parts are folded, both are evaluated. -/
theorem Consults.of_fold₂ {g : Float → Float → Except ArithmeticError Float} {a b whole : Formula}
    (h : a.Consults answers n ∨ b.Consults answers n)
    (folds : whole.needed answers = Needed.fold₂ g (a.needed answers) (b.needed answers))
    (parts : ∀ p ∈ a.subformulas ++ b.subformulas, p ∈ whole.subformulas) :
    whole.Consults answers n := by
  rcases h with h | h
  · refine h.mono (fun hn => ?_) fun p hp => parts p (List.mem_append_left _ hp)
    rw [folds]
    exact Needed.mem_list_fold₂.2 (.inl hn)
  · refine h.mono (fun hn => ?_) fun p hp => parts p (List.mem_append_right _ hp)
    rw [folds]
    exact Needed.mem_list_fold₂.2 (.inr hn)

theorem Consults.binary {op : Operator} {l r : Formula}
    (h : l.Consults answers n ∨ r.Consults answers n) : (binary op l r).Consults answers n :=
  .of_fold₂ h rfl fun _ hp => List.mem_cons_of_mem _ hp

theorem Consults.call {g : Builtin} {a b : Formula}
    (h : a.Consults answers n ∨ b.Consults answers n) : (call g a b).Consults answers n :=
  .of_fold₂ h rfl fun _ hp => List.mem_cons_of_mem _ hp

theorem Consults.negate {f : Formula} (h : f.Consults answers n) :
    (negate f).Consults answers n := by
  refine h.mono (fun hn => ?_) fun p hp => by simp [subformulas, hp]
  rw [needed, Needed.list_fold₁]
  exact hn

/-- The condition of a choice is always evaluated: where the choice is reducible, all names of the
condition are hidden ones. -/
theorem Consults.condition {c t f : Formula} (h : c.Consults answers n) :
    (choice c t f).Consults answers n := by
  by_cases reducible : (choice c t f).IsReducible answers
  · refine .inr ⟨c, t, f, self_mem_subformulas _, reducible, ?_⟩
    rcases h with h | h
    · exact needed_subset_names answers c n h
    · exact h.mem_names
  · refine h.mono (fun hn => ?_) fun p hp => by simp [subformulas, hp]
    cases hc : c.needed answers with
    | constant v =>
      rw [hc] at hn
      cases hn
    | names ns => exact (mem_needed_choice hc reducible).2 (.inl hn)

/-- What a branch needs, the choice needs, unless the condition is a constant that selects the
other one. -/
theorem mem_needed_of_branch {c t f : Formula} {b : Bool}
    (hn : n ∈ ((if b then t else f).needed answers).list)
    (selected : ∀ v, c.needed answers = .constant v → isTrue v = b) :
    n ∈ ((choice c t f).needed answers).list := by
  cases hc : c.needed answers with
  | constant v =>
    simp only [needed, hc, selected v hc]
    cases b <;> exact hn
  | names ns =>
    by_cases reducible : (choice c t f).IsReducible answers
    · -- The branches of a reducible choice are constants, which need nothing.
      obtain ⟨_, x, y, -, ht, hf, -⟩ := reducible
      cases b
      · rw [if_neg (by simp), hf] at hn
        cases hn
      · rw [if_pos rfl, ht] at hn
        cases hn
    · refine (mem_needed_choice hc reducible).2 (.inr ?_)
      cases b
      · exact .inr hn
      · exact .inl hn

/-- A branch is evaluated unless the condition is a constant that selects the other one. -/
theorem Consults.branch {c t f : Formula} {b : Bool}
    (h : (if b then t else f).Consults answers n)
    (selected : ∀ v, c.needed answers = .constant v → isTrue v = b) :
    (choice c t f).Consults answers n := by
  refine h.mono (fun hn => mem_needed_of_branch hn selected) fun p hp => ?_
  cases b <;> simp_all [subformulas]

/-! ## What the outcome depends on -/

variable {lookup lookup' : String → Except FormulaError Float}

theorem selected_of_meaning {c : Formula} {w : Float} (value : c.meaning answers lookup = .ok w) :
    ∀ v, c.needed answers = .constant v → isTrue v = isTrue w :=
  fun _ folded => (isTrue_of_constant folded value).symm

/-- Look-ups that agree on the consulted names give a formula the same outcome. -/
theorem meaning_congr {f : Formula} (agree : ∀ n, f.Consults answers n → lookup n = lookup' n) :
    f.meaning answers lookup = f.meaning answers lookup' := by
  induction f with
  | number x => rfl
  | name n => exact agree n (.inl (List.mem_singleton.2 rfl))
  | host l => rfl
  | binary op l r ihl ihr =>
    rw [meaning, meaning, ihl fun n hn => agree n (.binary (.inl hn)),
      ihr fun n hn => agree n (.binary (.inr hn))]
  | negate f ih => rw [meaning, meaning, ih fun n hn => agree n hn.negate]
  | choice c t f ihc iht ihf =>
    rw [meaning, meaning, ← ihc fun n hn => agree n hn.condition]
    cases value : c.meaning answers lookup with
    | error e => rfl
    | ok w =>
      have selected := selected_of_meaning value
      show (if isTrue w then _ else _) = (if isTrue w then _ else _)
      cases hw : isTrue w with
      | true => exact iht fun n hn => agree n (.branch (b := true) hn (hw ▸ selected))
      | false => exact ihf fun n hn => agree n (.branch (b := false) hn (hw ▸ selected))
  | call g a b iha ihb =>
    rw [meaning, meaning, iha fun n hn => agree n (.call (.inl hn)),
      ihb fun n hn => agree n (.call (.inr hn))]

/-- An error comes from an operator that has no value or from looking up a consulted name. -/
theorem cause_of_meaning {f : Formula} {e : FormulaError}
    (failed : f.meaning answers lookup = .error e) :
    (∃ (op : Operator) (x y : Float) (a : ArithmeticError),
        op.apply x y = .error a ∧ e = .arithmetic a) ∨
      ∃ n, f.Consults answers n ∧ lookup n = .error e := by
  induction f with
  | number x => cases failed
  | name n => exact .inr ⟨n, .inl (List.mem_singleton.2 rfl), failed⟩
  | host l => cases failed
  | binary op l r ihl ihr =>
    rcases error_of_bind failed with failed | ⟨x, -, failed⟩
    · exact (ihl failed).imp_right fun ⟨n, hn, h⟩ => ⟨n, .binary (.inl hn), h⟩
    rcases error_of_bind failed with failed | ⟨y, -, failed⟩
    · exact (ihr failed).imp_right fun ⟨n, hn, h⟩ => ⟨n, .binary (.inr hn), h⟩
    · obtain ⟨a, undefined, rfl⟩ := mapError_eq_error_iff.1 failed
      exact .inl ⟨op, x, y, a, undefined, rfl⟩
  | negate f ih =>
    rcases error_of_bind failed with failed | ⟨x, -, failed⟩
    · exact (ih failed).imp_right fun ⟨n, hn, h⟩ => ⟨n, hn.negate, h⟩
    · cases failed
  | choice c t f ihc iht ihf =>
    rcases error_of_bind failed with failed | ⟨w, value, failed⟩
    · exact (ihc failed).imp_right fun ⟨n, hn, h⟩ => ⟨n, hn.condition, h⟩
    · have selected := selected_of_meaning value
      cases hw : isTrue w with
      | true =>
        rw [hw] at failed selected
        exact (iht failed).imp_right fun ⟨n, hn, h⟩ => ⟨n, .branch (b := true) hn selected, h⟩
      | false =>
        rw [hw] at failed selected
        exact (ihf failed).imp_right fun ⟨n, hn, h⟩ => ⟨n, .branch (b := false) hn selected, h⟩
  | call g a b iha ihb =>
    rcases error_of_bind failed with failed | ⟨x, -, failed⟩
    · exact (iha failed).imp_right fun ⟨n, hn, h⟩ => ⟨n, .call (.inl hn), h⟩
    rcases error_of_bind failed with failed | ⟨y, -, failed⟩
    · exact (ihb failed).imp_right fun ⟨n, hn, h⟩ => ⟨n, .call (.inr hn), h⟩
    · cases failed

/-- An error comes from arithmetic or from looking up a consulted name. -/
theorem error_of_meaning {f : Formula} {e : FormulaError}
    (failed : f.meaning answers lookup = .error e) :
    (∃ a, e = .arithmetic a) ∨ ∃ n, f.Consults answers n ∧ lookup n = .error e :=
  (cause_of_meaning failed).imp_left fun ⟨_, _, _, a, _, same⟩ => ⟨a, same⟩

end Formula

namespace Context

/-! ## Names without a value -/

/-- Without references, looking up a name fails for want of a value only if that name has none. -/
theorem nameMeaning_eq_undefined {c : Context} {chain : List String} {name n : String}
    (unreferenced : ∀ m source, c.datum m ≠ .ok (.reference source))
    (failed : c.nameMeaning chain name = .error (.undefined n)) :
    name = n ∧ ∀ x, c.datum name ≠ .ok (.value x) := by
  rw [nameMeaning_eq] at failed
  split at failed
  · cases failed
  · next pending =>
    cases failed
    exact ⟨rfl, fun x h => by rw [pending] at h; cases h⟩
  · cases failed
  · next source reference => exact absurd reference (unreferenced name source)

/-- Where every needed name has a value and no name refers to a formula, a name that an evaluation
finds without a value is hidden by a reducible choice; in particular there is none if no choice is
reducible. -/
theorem hides_of_evaluate_undefined {c : Context} {f : Formula}
    (bound : ∀ n ∈ (f.needed c.answers).list, ∃ x, c.datum n = .ok (.value x))
    (unreferenced : ∀ n source, c.datum n ≠ .ok (.reference source)) :
    (∀ n, (c.evaluate f).1 = .error (.undefined n) → f.Hides c.answers n) ∧
      ((∀ part ∈ f.subformulas, ¬part.IsReducible c.answers) →
        ∀ n, (c.evaluate f).1 ≠ .error (.undefined n)) := by
  have hides : ∀ n, (c.evaluate f).1 = .error (.undefined n) → f.Hides c.answers n := by
    intro n undefined
    rw [evaluate_outcome, meaning] at undefined
    rcases Formula.error_of_meaning undefined with ⟨a, ha⟩ | ⟨m, consulted, failed⟩
    · cases ha
    · obtain ⟨rfl, valueless⟩ := nameMeaning_eq_undefined unreferenced failed
      rcases consulted with needed | hidden
      · obtain ⟨x, hx⟩ := bound m needed
        exact absurd hx (valueless x)
      · exact hidden
  refine ⟨hides, fun irreducible n undefined => ?_⟩
  obtain ⟨c', t', f', mem, reducible, -⟩ := hides n undefined
  exact irreducible _ mem reducible

/-- A context in which only `b` has a value. -/
def onlyB : Context := ⟨.live (.ofList [("b", .value 2.0)]), 0, fun _ => 0.0⟩

/-- The formula `b + (1.0 if a else 1.0)`, which needs only `b`. -/
def hidesA : Formula :=
  .binary .add (.name "b") (.choice (.name "a") (.number 1.0) (.number 1.0))

/-- Everything that is needed is bound, and yet the evaluation misses the name in the condition. -/
theorem hides_a_of_evaluate_onlyB :
    (∀ n ∈ (hidesA.needed onlyB.answers).list, ∃ x, onlyB.datum n = .ok (.value x)) ∧
      (∀ n source, onlyB.datum n ≠ .ok (.reference source)) ∧
      (onlyB.evaluate hidesA).1 = .error (.undefined "a") ∧ hidesA.Hides onlyB.answers "a" := by
  have bound : ∀ n ∈ (hidesA.needed onlyB.answers).list, ∃ x, onlyB.datum n = .ok (.value x) := by
    intro n hn
    obtain rfl : n = "b" := List.mem_singleton.1 hn
    exact ⟨2.0, rfl⟩
  have unreferenced : ∀ n source, onlyB.datum n ≠ .ok (.reference source) := by
    intro n source h
    cases mem_references h
  have undefined : (onlyB.evaluate hidesA).1 = .error (.undefined "a") := by
    rw [evaluate_outcome]
    simp only [meaning, Formula.meaning, nameMeaning_eq, hidesA]
    rfl
  exact ⟨bound, unreferenced, undefined,
    (hides_of_evaluate_undefined bound unreferenced).1 "a" undefined⟩

end Context
end PerfFormula
