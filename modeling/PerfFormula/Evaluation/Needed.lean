import PerfFormula.Formula.Arithmetic

/-!
# What a formula needs

Which names have to be known before a formula can be evaluated, found out without knowing any of
them. A subformula without names is folded to its value, so that of a choice with a constant
condition only the selected branch counts. A choice whose condition is not constant but whose
branches are the same constant is that constant. Where folding fails, as with `1 / 0`, nothing is
known of the value, and no name is needed.

Main statements:

* `Formula.nodup_needed` — no name is needed twice.
* `Formula.needed_subset_names` — only names that occur in the formula are needed.
-/

namespace PerfFormula

/-- What is known of a formula before its names are: its value, or the names that it needs in the
order in which they were found. -/
inductive Needed where
  | constant (x : Float)
  | names (names : List String)

namespace Needed

/-- The names that are needed, none for a constant. -/
def list : Needed → List String
  | constant _ => []
  | names ns => ns

/-- Fold one operand. -/
def fold₁ (f : Float → Except ArithmeticError Float) : Needed → Needed
  | constant x =>
    match f x with
    | .ok y => constant y
    | .error _ => names []
  | names ns => names ns

/-- Fold two operands: to a constant if both are, else to the names of both. -/
def fold₂ (f : Float → Float → Except ArithmeticError Float) (a b : Needed) : Needed :=
  match a, b with
  | constant x, constant y =>
    match f x y with
    | .ok z => constant z
    | .error _ => names []
  | a, b => names (Formula.joinNames a.list b.list)

/-- A choice whose condition is not constant: the common value of its branches if they are the same
constant, else the names of all three. -/
def choose (condition whenTrue whenFalse : Needed) : Needed :=
  let all := names
    (Formula.joinNames (Formula.joinNames condition.list whenTrue.list) whenFalse.list)
  -- Either branch gives the same value, so that the condition does not matter any more.
  match whenTrue, whenFalse with
  | constant x, constant y => if x == y then constant x else all
  | _, _ => all

end Needed

namespace Formula

/-- What a formula needs, given the answers to host literals. -/
def needed (answers : HostLiteral → Float) : Formula → Needed
  | number x => .constant x
  | name n => .names [n]
  | host l => .constant (answers l)
  | binary op l r => .fold₂ op.apply (l.needed answers) (r.needed answers)
  | negate f => .fold₁ (fun x => .ok (-x)) (f.needed answers)
  | choice c t f =>
    -- The branch that is not selected is never evaluated, so it needs nothing.
    match c.needed answers with
    | .constant x => if isTrue x then t.needed answers else f.needed answers
    | .names ns => .choose (.names ns) (t.needed answers) (f.needed answers)
  | call g a b => .fold₂ (fun x y => .ok (g.apply x y)) (a.needed answers) (b.needed answers)

/-- The errors that folding runs into, in the order in which the formula is walked. They are no
errors of the formula: it only stays unknown there. -/
def foldErrors (answers : HostLiteral → Float) : Formula → List ArithmeticError
  | number _ | name _ | host _ => []
  | binary op l r =>
    l.foldErrors answers ++ r.foldErrors answers ++
      match l.needed answers, r.needed answers with
      | .constant x, .constant y =>
        match op.apply x y with
        | .ok _ => []
        | .error e => [e]
      | _, _ => []
  | negate f => f.foldErrors answers
  | choice c t f =>
    c.foldErrors answers ++
      match c.needed answers with
      | .constant x => if isTrue x then t.foldErrors answers else f.foldErrors answers
      | .names _ => t.foldErrors answers ++ f.foldErrors answers
  | call _ a b => a.foldErrors answers ++ b.foldErrors answers

/-! ## Which names are needed -/

/-- No name is needed twice. -/
theorem nodup_needed (answers : HostLiteral → Float) (f : Formula) :
    (f.needed answers).list.Nodup := by
  induction f with
  | number | host => simp [needed, Needed.list]
  | name => simp [needed, Needed.list]
  | binary op l r ihl ihr =>
    unfold needed Needed.fold₂
    split
    · split <;> simp [Needed.list]
    · exact nodup_joinNames ihl ihr
  | negate f ih =>
    unfold needed Needed.fold₁
    split
    · simp [Needed.list]
    · next h => simpa [h] using ih
  | choice c t f ihc iht ihf =>
    unfold needed
    split
    · split
      · exact iht
      · exact ihf
    · next ns hc =>
      rw [hc] at ihc
      have all := nodup_joinNames (nodup_joinNames ihc iht) ihf
      unfold Needed.choose
      simp only
      split
      · split
        · simp [Needed.list]
        · simpa [Needed.list] using all
      · exact all
  | call g a b iha ihb =>
    unfold needed Needed.fold₂
    split
    · simp [Needed.list]
    · exact nodup_joinNames iha ihb

/-- Only names that occur in the formula are needed. -/
theorem needed_subset_names (answers : HostLiteral → Float) (f : Formula) :
    ∀ n ∈ (f.needed answers).list, n ∈ f.names := by
  induction f with
  | number | host => simp [needed, Needed.list]
  | name => simp [needed, Needed.list, names]
  | binary op l r ihl ihr =>
    unfold needed Needed.fold₂
    split
    · split <;> simp [Needed.list]
    · intro n hn
      simp only [Needed.list, mem_joinNames, names] at hn ⊢
      exact hn.imp (ihl n) (ihr n)
  | negate f ih =>
    unfold needed Needed.fold₁
    split
    · split <;> simp [Needed.list]
    · next h => simpa [h, names] using ih
  | choice c t f ihc iht ihf =>
    unfold needed
    split
    · split
      · intro n hn; simp [names, iht n hn]
      · intro n hn; simp [names, ihf n hn]
    · next ns hc =>
      rw [hc] at ihc
      have all : ∀ n ∈ joinNames (joinNames (Needed.names ns).list (t.needed answers).list)
          (f.needed answers).list, n ∈ (choice c t f).names := by
        intro n hn
        simp only [mem_joinNames, names] at hn ⊢
        exact hn.imp (Or.imp (ihc n) (iht n)) (ihf n)
      unfold Needed.choose
      simp only
      split
      · split
        · simp [Needed.list]
        · next ht hf _ => simpa [Needed.list] using all
      · exact all
  | call g a b iha ihb =>
    unfold needed Needed.fold₂
    split
    · simp [Needed.list]
    · intro n hn
      simp only [Needed.list, mem_joinNames, names] at hn ⊢
      exact hn.imp (iha n) (ihb n)

end Formula
end PerfFormula
