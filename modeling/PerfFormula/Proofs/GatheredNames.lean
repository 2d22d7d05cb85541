import PerfFormula.Evaluation.Gathering
import PerfFormula.Proofs.Consulted
import PerfFormula.Proofs.DepthFirst
import PerfFormula.Proofs.SharedSets

/-!
# Names gathered in place

Gathering the names of a formula changes sets on the way: what a set hands over it no longer has,
and one and the same set is handed on from a subformula to the formula around it. Still no step is
refused, no set that there was before is changed, and the set that is found at last has the names
that `Formula.needed` lists. The reason is that the sets of two subformulas are never the same: each
one lies behind all sets that there were when the walk came to its subformula.

Main statements:

* `Finding.yields_gather` — what gathering finds, and that it keeps every set there was.
* `Formula.gathered_names` — which names are found, and all names in order where there is no choice.
-/

namespace PerfFormula

namespace Formula

@[simp] theorem nil_joinNames (names : List String) : joinNames [] names = names := by
  simp [joinNames]

@[simp] theorem joinNames_nil (names : List String) : joinNames names [] = names := by
  simp [joinNames]

end Formula

open Formula (joinNames)

/-! ## Steps that succeed -/

namespace GatherM

variable {α β : Type} {r : Registry Datum}

/-- A step is not refused, and what it gives and leaves is as claimed. -/
def Yields (step : GatherM α) (r : Registry Datum) (claim : α → Registry Datum → Prop) : Prop :=
  ∃ x after, step.run r = .ok (x, after) ∧ claim x after

theorem yields_pure {claim : α → Registry Datum → Prop} {x : α} (h : claim x r) :
    Yields (pure x) r claim :=
  ⟨x, r, rfl, h⟩

theorem yields_bind {step : GatherM α} {next : α → GatherM β}
    {between : α → Registry Datum → Prop} {claim : β → Registry Datum → Prop}
    (first : Yields step r between)
    (second : ∀ x after, between x after → Yields (next x) after claim) :
    Yields (step >>= next) r claim := by
  obtain ⟨x, after, run, h⟩ := first
  obtain ⟨y, last, run', h'⟩ := second x after h
  refine ⟨y, last, ?_, h'⟩
  rw [StateT.run_bind, run]
  exact run'

theorem Yields.imp {step : GatherM α} {claim claim' : α → Registry Datum → Prop}
    (h : Yields step r claim) (imp : ∀ x after, claim x after → claim' x after) :
    Yields step r claim' := by
  obtain ⟨x, after, run, h⟩ := h
  exact ⟨x, after, run, imp x after h⟩

end GatherM

/-! ## Cells that are kept -/

namespace Registry

variable {r between after : Registry Datum} {base bound : Nat} {names : List String}

/-- No cell below `base` was changed, and no cell is gone. -/
structure Keeps (base : Nat) (r after : Registry Datum) : Prop where
  holders : after.holders = r.holders
  grows : r.cells.length ≤ after.cells.length
  below : ∀ i < base, after.cells[i]? = r.cells[i]?

theorem Keeps.refl (base : Nat) (r : Registry Datum) : Keeps base r r :=
  ⟨rfl, le_rfl, fun _ _ => rfl⟩

theorem Keeps.trans (first : Keeps base r between) (second : Keeps base between after) :
    Keeps base r after where
  holders := second.holders.trans first.holders
  grows := first.grows.trans second.grows
  below i h := (second.below i h).trans (first.below i h)

theorem Keeps.mono (h : Keeps bound r after) (le : base ≤ bound) : Keeps base r after :=
  ⟨h.holders, h.grows, fun i small => h.below i (by omega)⟩

/-- Changing a cell from `base` on keeps those below. -/
theorem keeps_write {cell : Nat} (le : base ≤ cell) (s : IdentifierSet Datum) :
    Keeps base r (r.write cell s) := by
  refine ⟨rfl, by simp, fun i small => ?_⟩
  have different : cell ≠ i := by omega
  rw [cells_write, List.getElem?_set_ne different]

/-- A cell from `base` on has a set of these names, all pending. A missing set has no names. -/
def Holds (r : Registry Datum) (base : Nat) : Option Nat → List String → Prop
  | none, names => names = []
  | some cell, names =>
    base ≤ cell ∧ ∃ m, r.cells[cell]? = some (.live m) ∧ m.entries = names.map (·, .pending)

theorem Holds.lt {cell : Nat} (h : r.Holds base (some cell) names) : cell < r.cells.length := by
  obtain ⟨-, m, stored, -⟩ := h
  exact (List.getElem?_eq_some_iff.1 stored).1

theorem Holds.of_same {set? : Option Nat} (h : r.Holds base set? names)
    (same : ∀ cell, set? = some cell → after.cells[cell]? = r.cells[cell]?) :
    after.Holds base set? names := by
  cases set? with
  | none => exact h
  | some cell =>
    obtain ⟨le, m, stored, entries⟩ := h
    exact ⟨le, m, (same cell rfl).trans stored, entries⟩

theorem Holds.mono {set? : Option Nat} (h : r.Holds bound set? names) (le : base ≤ bound) :
    r.Holds base set? names := by
  cases set? with
  | none => exact h
  | some cell => exact ⟨le.trans h.1, h.2⟩

/-- Steps that keep every cell there was keep what it holds. -/
theorem Holds.keep {set? : Option Nat} (h : r.Holds base set? names)
    (keeps : Keeps r.cells.length r after) : after.Holds base set? names := by
  refine h.of_same fun cell there => ?_
  subst there
  exact keeps.below cell h.lt

theorem keys_of_entries {m : NameMap Datum} (entries : m.entries = names.map (·, .pending)) :
    m.keys = names := by
  rw [NameMap.keys, entries, List.map_map]
  exact List.map_id names

end Registry

namespace GatherM

open Registry

variable {r : Registry Datum} {base : Nat} {names : List String}

/-! ## Single steps -/

/-- A new set lies behind all others. -/
theorem yields_create {s : IdentifierSet Datum} {m : NameMap Datum} (live : s = .live m)
    (entries : m.entries = names.map (·, .pending)) :
    Yields (create s) r fun cell after =>
      cell = r.cells.length ∧ Keeps r.cells.length r after ∧
        after.Holds r.cells.length (some cell) names := by
  subst live
  refine ⟨_, _, rfl, rfl, ⟨rfl, by simp, fun i small => ?_⟩, le_rfl, m, ?_, entries⟩
  · exact List.getElem?_append_left small
  · exact List.getElem?_concat_length

theorem yields_read {cell : Nat} {s : IdentifierSet Datum} (stored : r.cells[cell]? = some s) :
    Yields (read cell) r fun given after => given = s ∧ after = r := by
  refine ⟨s, r, ?_, rfl, rfl⟩
  simp [read, StateT.run, stored]

theorem yields_get (r : Registry Datum) :
    Yields get r fun given after => given = r ∧ after = r :=
  ⟨r, r, rfl, rfl, rfl⟩

/-- What is done to a single set is done without the registry. -/
theorem yields_lift {α : Type} {e : Except RegistryError α} {x : α} (done : e = .ok x) :
    Yields (liftM e) r fun given after => given = x ∧ after = r := by
  subst done
  exact ⟨x, r, rfl, rfl, rfl⟩

/-- The names of a merge are those of the first map, followed by the new ones of the second. -/
theorem entries_merge {m n : NameMap Datum} {first second : List String}
    (hm : m.entries = first.map (·, .pending)) (hn : n.entries = second.map (·, .pending)) :
    (m.merge n).entries = (joinNames first second).map (·, .pending) := by
  have keys := keys_of_entries hm
  simp [NameMap.merge, hm, hn, joinNames, NameMap.contains, keys, List.filter_map,
    Function.comp_def]

/-- Uniting two different sets is not refused, and leaves the second one empty. -/
theorem yields_unite {cell other : Nat} {m n : NameMap Datum} (different : cell ≠ other)
    (first : r.cells[cell]? = some (.live m)) (second : r.cells[other]? = some (.live n)) :
    Yields (unite cell other) r fun _ after => Unites r cell other after := by
  have done : r.unite cell other (.live m) (.live n) =
      .ok ((r.write cell (.live (m.merge n))).write other .empty) := by
    rw [Registry.unite, if_neg different]
    rfl
  refine yields_bind (yields_read first) ?_
  rintro _ _ ⟨rfl, rfl⟩
  refine yields_bind (yields_read second) ?_
  rintro _ r ⟨rfl, rfl⟩
  refine yields_bind (yields_get r) ?_
  rintro _ r ⟨rfl, rfl⟩
  refine yields_bind (yields_lift done) ?_
  rintro _ r ⟨rfl, rfl⟩
  exact ⟨(), _, rfl, .moves different first second⟩

/-- Two sets that may be missing are not one and the same. -/
def Apart (a b : Option Nat) : Prop := ∀ cell, a = some cell → b ≠ some cell

/-- What becomes of two sets that are joined: the names of both are in one cell, which is that of
one of them or a new one, and all other cells stay as they were. -/
structure Joins (r : Registry Datum) (base : Nat) (a b : Option Nat) (names : List String)
    (cell : Nat) (after : Registry Datum) : Prop where
  keeps : Keeps base r after
  holds : after.Holds base (some cell) names
  origin : a = some cell ∨ b = some cell ∨ cell = r.cells.length
  others : ∀ i < r.cells.length, a ≠ some i → b ≠ some i → after.cells[i]? = r.cells[i]?

theorem yields_join {a b : Option Nat} {first second : List String}
    (enough : base ≤ r.cells.length) (ha : r.Holds base a first) (hb : r.Holds base b second)
    (apart : Apart a b) :
    Yields (join a b) r (Joins r base a b (joinNames first second)) := by
  cases a with
  | none =>
    cases ha
    rw [Formula.nil_joinNames]
    cases b with
    | none =>
      cases hb
      -- only where both are missing is there a new set
      refine (yields_create rfl List.map_nil.symm).imp fun cell after new => ?_
      obtain ⟨rfl, keeps, holds⟩ := new
      exact ⟨keeps.mono enough, holds.mono enough, .inr (.inr rfl), fun i small _ _ =>
        keeps.below i small⟩
    | some other =>
      exact yields_pure ⟨.refl base r, hb, .inr (.inl rfl), fun _ _ _ _ => rfl⟩
  | some cell =>
    cases b with
    | none =>
      cases hb
      rw [Formula.joinNames_nil]
      exact yields_pure ⟨.refl base r, ha, .inl rfl, fun _ _ _ _ => rfl⟩
    | some other =>
      obtain ⟨le, m, stored, entries⟩ := ha
      obtain ⟨le', n, stored', entries'⟩ := hb
      have different : cell ≠ other := by
        rintro rfl
        exact apart cell rfl rfl
      refine yields_bind (yields_unite different stored stored') fun _ after unites => ?_
      obtain ⟨m', n', first', second', united, -⟩ := unites.cells different
      cases stored.symm.trans first'
      cases stored'.symm.trans second'
      refine yields_pure ⟨⟨unites.holders_eq, by rw [unites.length_eq], ?_⟩,
        ⟨le, _, united, entries_merge entries entries'⟩, .inl rfl, ?_⟩
      · -- both cells lie from `base` on
        intro i small
        exact unites.others (by omega) (by omega)
      · intro i _ notFirst notSecond
        exact unites.others (fun same => notFirst (by rw [same]))
          fun same => notSecond (by rw [same])

end GatherM

namespace Finding

open Registry GatherM

variable {r after : Registry Datum} {base : Nat}

/-- What a finding says: the value of a constant, else names whose set lies from `base` on. -/
def Says (found : Finding) (r : Registry Datum) (base : Nat) : Needed → Prop
  | .constant x => found = ⟨x, none⟩
  | .names names => ∃ cell, found = unknown cell ∧ r.Holds base (some cell) names

theorem Says.holds {found : Finding} {needed : Needed} (h : found.Says r base needed) :
    r.Holds base found.set? needed.list := by
  cases needed with
  | constant x =>
    cases h
    rfl
  | names names =>
    obtain ⟨cell, rfl, holds⟩ := h
    exact holds

theorem Says.of_holds {cell : Nat} {names : List String} (h : r.Holds base (some cell) names) :
    (unknown cell).Says r base (.names names) :=
  ⟨cell, rfl, h⟩

theorem Says.mono {found : Finding} {needed : Needed} {bound : Nat}
    (h : found.Says r bound needed) (le : base ≤ bound) : found.Says r base needed := by
  cases needed with
  | constant x => exact h
  | names names =>
    obtain ⟨cell, same, holds⟩ := h
    exact ⟨cell, same, holds.mono le⟩

theorem Says.keep {found : Finding} {needed : Needed} (h : found.Says r base needed)
    (keeps : Keeps r.cells.length r after) : found.Says after base needed := by
  cases needed with
  | constant x => exact h
  | names names =>
    obtain ⟨cell, same, holds⟩ := h
    exact ⟨cell, same, holds.keep keeps⟩

theorem Says.not_isConstant {found : Finding} {names : List String}
    (h : found.Says r base (.names names)) : found.isConstant = false := by
  obtain ⟨cell, rfl, -⟩ := h
  rfl

/-- A set that was found before others is none of them. -/
theorem Says.apart {found later : Finding} {needed needed' : Needed} {r' : Registry Datum}
    {bound : Nat} (h : found.Says r base needed) (h' : later.Says r' bound needed')
    (le : r.cells.length ≤ bound) : Apart found.set? later.set? := by
  have first := h.holds
  have second := h'.holds
  intro cell same same'
  rw [same] at first
  rw [same'] at second
  have := first.lt
  have := second.1
  omega

/-! ## Parts together -/

/-- Findings whose sets are all there, and what they say. -/
def Stand (r : Registry Datum) (base : Nat) (parts : List (Finding × Needed)) : Prop :=
  ∀ part ∈ parts, r.Holds base part.1.set? part.2.list

/-- A set is none of those that some findings have. -/
def Misses (set? : Option Nat) (parts : List (Finding × Needed)) : Prop :=
  ∀ part ∈ parts, Apart set? part.1.set?

theorem Stand.joins {parts : List (Finding × Needed)} {a b : Option Nat} {names : List String}
    {cell : Nat} (stand : Stand r base parts) (joined : Joins r base a b names cell after)
    (first : Misses a parts) (second : Misses b parts) : Stand after base parts := by
  intro part mem
  have held := stand part mem
  refine held.of_same fun i same => ?_
  rw [same] at held
  exact joined.others i held.lt (fun other => first part mem i other same)
    fun other => second part mem i other same

/-- The joined set is one of the two or new, and in no case one of those that are still to come. -/
theorem misses_joined {parts : List (Finding × Needed)} {a b : Option Nat} {names : List String}
    {cell : Nat} (stand : Stand r base parts) (joined : Joins r base a b names cell after)
    (first : Misses a parts) (second : Misses b parts) : Misses (some cell) parts := by
  intro part mem i same same'
  cases same
  rcases joined.origin with origin | origin | new
  · exact first part mem cell origin same'
  · exact second part mem cell origin same'
  · -- a new set lies behind all that there were
    have held := stand part mem
    rw [same'] at held
    have := held.lt
    omega

/-- Joining some sets one after the other gathers all names. The sets that are still to come stay as
they are, since none of them is one of those that were joined already. -/
theorem yields_joinAll {parts : List (Finding × Needed)} {all : Option Nat} {names : List String}
    (enough : base ≤ r.cells.length) (holds : r.Holds base all names) (stand : Stand r base parts)
    (misses : Misses all parts) (apart : parts.Pairwise fun p q => Apart p.1.set? q.1.set?) :
    Yields ((parts.map (·.1)).foldlM (fun all part => some <$> join all part.set?) all) r
      fun all after => Keeps base r after ∧
        after.Holds base all
          (parts.foldl (fun names part => joinNames names part.2.list) names) := by
  induction parts generalizing r all names with
  | nil => exact yields_pure ⟨.refl base r, holds⟩
  | cons part rest ih =>
    obtain ⟨own, apart⟩ := List.pairwise_cons.1 apart
    have others : Misses all rest := fun p mem => misses p (List.mem_cons_of_mem _ mem)
    have later : Stand r base rest := fun p mem => stand p (List.mem_cons_of_mem _ mem)
    have joins : Yields (some <$> join all part.1.set?) r fun all' after => ∃ cell,
        all' = some cell ∧
          Joins r base all part.1.set? (joinNames names part.2.list) cell after := by
      rw [map_eq_pure_bind]
      refine yields_bind (yields_join enough holds (stand part List.mem_cons_self)
        (misses part List.mem_cons_self)) fun cell after h => ?_
      exact yields_pure ⟨cell, rfl, h⟩
    rw [List.map_cons, List.foldlM_cons, List.foldl_cons]
    refine yields_bind joins ?_
    rintro _ after ⟨cell, rfl, joined⟩
    have rest' := ih (enough.trans joined.keeps.grows) joined.holds
      (later.joins joined others own) (misses_joined later joined others own) apart
    exact rest'.imp fun all' last done => ⟨joined.keeps.trans done.1, done.2⟩

/-- A step keeps what there was and says of a part of a formula what is known of it. -/
def Finds (step : GatherM Finding) (r : Registry Datum) (base : Nat) (needed : Needed) : Prop :=
  Yields step r fun found after => Keeps base r after ∧ found.Says after base needed

theorem finds_nothing (enough : base ≤ r.cells.length) :
    Finds (do return unknown (← create .empty)) r base (.names []) := by
  refine yields_bind (yields_create rfl List.map_nil.symm) fun cell after new => ?_
  obtain ⟨-, keeps, holds⟩ := new
  exact yields_pure ⟨keeps.mono enough, .of_holds (holds.mono enough)⟩

theorem finds_uniteAll {parts : List (Finding × Needed)} (enough : base ≤ r.cells.length)
    (stand : Stand r base parts) (apart : parts.Pairwise fun p q => Apart p.1.set? q.1.set?) :
    Finds (uniteAll (parts.map (·.1))) r base
      (.names (parts.foldl (fun names part => joinNames names part.2.list) [])) := by
  have none_yet : r.Holds base none [] := rfl
  have all := yields_joinAll enough none_yet stand (fun _ _ _ h => (by cases h)) apart
  refine yields_bind all fun set? after done => ?_
  obtain ⟨keeps, holds⟩ := done
  cases set? with
  | none =>
    rw [holds]
    refine (finds_nothing (enough.trans keeps.grows)).imp fun found last h => ?_
    exact ⟨keeps.trans h.1, h.2⟩
  | some cell => exact yields_pure ⟨keeps, .of_holds holds⟩

/-- What is folded from constants alone is a constant, or nothing is known of it. -/
theorem finds_folded {parts : List Finding} {folded : Except ArithmeticError Float}
    {needed : Needed} (constant : parts.all isConstant = true) (enough : base ≤ r.cells.length)
    (value : ∀ x, folded = .ok x → needed = .constant x)
    (failed : ∀ e, folded = .error e → needed = .names []) :
    Finds (fold folded parts) r base needed := by
  unfold fold
  rw [if_pos constant]
  cases folded with
  | ok x =>
    rw [value x rfl]
    exact yields_pure ⟨.refl base r, rfl⟩
  | error e =>
    rw [failed e rfl]
    exact finds_nothing enough

theorem fold_of_not_constant {parts : List Finding} (unknown : parts.all isConstant = false)
    (folded : Except ArithmeticError Float) : fold folded parts = uniteAll parts := by
  unfold fold
  rw [unknown]
  rfl

theorem finds_fold₁ {x : Finding} {a : Needed} (f : Float → Except ArithmeticError Float)
    (enough : base ≤ r.cells.length) (ha : x.Says r base a) :
    Finds (fold (f x.value) [x]) r base (.fold₁ f a) := by
  cases a with
  | constant v =>
    cases ha
    exact finds_folded rfl enough (fun w h => by rw [Needed.fold₁, h])
      fun e h => by rw [Needed.fold₁, h]
  | names names =>
    have unknown : [x].all isConstant = false := by simp [ha.not_isConstant]
    rw [fold_of_not_constant unknown]
    have stand : Stand r base [(x, .names names)] := by
      intro part mem
      rw [List.mem_singleton.1 mem]
      exact ha.holds
    have all := finds_uniteAll enough stand (List.pairwise_singleton ..)
    simpa [Needed.list, Needed.fold₁] using all

theorem stand_pair {x y : Finding} {a b : Needed} (ha : x.Says r base a) (hb : y.Says r base b) :
    Stand r base [(x, a), (y, b)] := by
  intro part mem
  rcases List.mem_pair.1 mem with rfl | rfl
  · exact ha.holds
  · exact hb.holds

theorem finds_fold₂ {x y : Finding} {a b : Needed}
    (f : Float → Float → Except ArithmeticError Float)
    (enough : base ≤ r.cells.length) (ha : x.Says r base a) (hb : y.Says r base b)
    (apart : Apart x.set? y.set?) :
    Finds (fold (f x.value y.value) [x, y]) r base (.fold₂ f a b) := by
  have all := finds_uniteAll enough (stand_pair ha hb) (by simpa using apart)
  cases a with
  | constant v =>
    cases b with
    | constant w =>
      cases ha
      cases hb
      exact finds_folded rfl enough (fun z h => by rw [Needed.fold₂, h])
        fun e h => by rw [Needed.fold₂, h]
    | names ms =>
      rw [fold_of_not_constant (by simp [hb.not_isConstant])]
      simpa [Needed.fold₂] using all
  | names ns =>
    rw [fold_of_not_constant (by simp [ha.not_isConstant])]
    simpa [Needed.fold₂] using all

theorem finds_choose {x y z : Finding} {ns : List String} {b c : Needed}
    (enough : base ≤ r.cells.length) (hx : x.Says r base (.names ns)) (hy : y.Says r base b)
    (hz : z.Says r base c) (apart : [x.set?, y.set?, z.set?].Pairwise Apart) :
    Finds (if y.isConstant && z.isConstant && y.value == z.value then return ⟨y.value, none⟩
      else uniteAll [x, y, z]) r base (.choose (.names ns) b c) := by
  have stand : Stand r base [(x, .names ns), (y, b), (z, c)] := by
    intro part mem
    rcases List.mem_cons.1 mem with rfl | mem
    · exact hx.holds
    · exact stand_pair hy hz part mem
  have all := finds_uniteAll enough stand (by simpa using apart)
  simp only [List.foldl_cons, List.foldl_nil, Formula.nil_joinNames] at all
  cases b with
  | names ms =>
    rw [hy.not_isConstant]
    exact all
  | constant v =>
    cases c with
    | names ms =>
      rw [hz.not_isConstant, Bool.and_false, Bool.false_and]
      exact all
    | constant w =>
      cases hy
      cases hz
      -- only here is the condition not looked at any more
      by_cases same : (v == w) = true
      · simp only [Needed.choose, same, isConstant]
        exact yields_pure ⟨.refl base r, rfl⟩
      · simp only [Bool.not_eq_true] at same
        simp only [Needed.choose, same, isConstant]
        exact all

/-! ## Whole formulas -/

/-- What is found behind what was found before: the sets of both are there, and are not the same. -/
theorem yields_then {first second : GatherM Finding} {needed needed' : Needed}
    (hfirst : Finds first r r.cells.length needed)
    (hsecond : ∀ r : Registry Datum, Finds second r r.cells.length needed') {β : Type}
    {next : Finding → Finding → GatherM β} {claim : β → Registry Datum → Prop}
    (last : ∀ x y after, Keeps r.cells.length r after → x.Says after r.cells.length needed →
      y.Says after r.cells.length needed' → Apart x.set? y.set? → Yields (next x y) after claim) :
    Yields (do let x ← first; let y ← second; next x y) r claim := by
  refine yields_bind hfirst fun x between hx => ?_
  refine yields_bind (hsecond between) fun y after hy => ?_
  exact last x y after (hx.1.trans (hy.1.mono hx.1.grows)) (hx.2.keep hy.1)
    (hy.2.mono hx.1.grows) (hx.2.apart hy.2 le_rfl)

theorem Finds.of_keeps {step : GatherM Finding} {between : Registry Datum} {needed : Needed}
    {bound : Nat} (h : Finds step between bound needed) (keeps : Keeps base r between)
    (le : base ≤ bound) :
    Yields step between fun found after => Keeps base r after ∧ found.Says after base needed :=
  h.imp fun _ _ done => ⟨keeps.trans (done.1.mono le), done.2.mono le⟩

/-- What gathering finds is what the formula needs, and every set there was is kept. -/
theorem finds_gather (answers : HostLiteral → Float) (f : Formula) (r : Registry Datum) :
    Finds (f.gather answers) r r.cells.length (f.needed answers) := by
  induction f generalizing r with
  | number | host => exact yields_pure ⟨.refl _ r, rfl⟩
  | name n =>
    unfold Formula.gather
    refine yields_bind (yields_lift rfl) ?_
    rintro _ r ⟨rfl, rfl⟩
    have single : (NameMap.empty.set n Datum.pending).entries = [n].map (·, .pending) := rfl
    refine yields_bind (yields_create rfl single) fun cell after new => ?_
    exact yields_pure ⟨new.2.1, .of_holds new.2.2⟩
  | binary op l r' ihl ihr =>
    unfold Formula.gather
    refine yields_then (ihl r) ihr fun x y after keeps hx hy apart => ?_
    exact (finds_fold₂ op.apply keeps.grows hx hy apart).of_keeps keeps le_rfl
  | negate f ih =>
    unfold Formula.gather
    refine yields_bind (ih r) fun x after hx => ?_
    exact (finds_fold₁ (fun v => .ok (-v)) hx.1.grows hx.2).of_keeps hx.1 le_rfl
  | choice c t f ihc iht ihf =>
    unfold Formula.gather Formula.needed
    refine yields_bind (ihc r) fun x between hx => ?_
    obtain ⟨keeps, hx⟩ := hx
    cases known : c.needed answers with
    | constant v =>
      rw [known] at hx
      cases hx
      -- the value of the condition selects one branch, in both ways of finding the names
      by_cases taken : isTrue v = true
      · simp only [isConstant, Option.isNone_none, taken, if_true]
        exact (iht between).of_keeps keeps keeps.grows
      · simp only [isConstant, Option.isNone_none, taken, if_true]
        exact (ihf between).of_keeps keeps keeps.grows
    | names ns =>
      rw [known] at hx
      rw [hx.not_isConstant]
      refine yields_then (iht between) ihf fun y z after keeps' hy hz apart => ?_
      have xy := hx.apart hy le_rfl
      have xz := hx.apart hz le_rfl
      refine (finds_choose (keeps.grows.trans keeps'.grows) (hx.keep keeps') (hy.mono keeps.grows)
        (hz.mono keeps.grows) ?_).of_keeps (keeps.trans (keeps'.mono keeps.grows)) le_rfl
      simp [xy, xz, apart]
  | call g a b iha ihb =>
    unfold Formula.gather
    refine yields_then (iha r) ihb fun x y after keeps hx hy apart => ?_
    exact (finds_fold₂ (fun v w => .ok (g.apply v w)) keeps.grows hx hy apart).of_keeps keeps le_rfl

end Finding

/-! ## The names in order -/

namespace Formula

/-- The names of a formula from left to right, as often as they stand in it. -/
def occurrences : Formula → List String
  | number _ | host _ => []
  | name n => [n]
  | binary _ l r => l.occurrences ++ r.occurrences
  | negate f => f.occurrences
  -- A choice is written with its condition in the middle.
  | choice c t f => t.occurrences ++ c.occurrences ++ f.occurrences
  | call _ a b => a.occurrences ++ b.occurrences

/-- No part of a formula is a choice. -/
def IsChoiceFree (f : Formula) : Prop := ∀ c t e, choice c t e ∉ f.subformulas

/-- Names that are noted one after the other come behind those that were noted before. -/
theorem joinNames_eraseDups (names met : List String) :
    joinNames names met.eraseDups = met.foldl Events.note names := by
  induction met using List.reverseRecOn with
  | nil => simp [joinNames]
  | append_singleton met n ih =>
    have last : (met ++ [n]).eraseDups = Events.note met.eraseDups n := by
      rw [← Events.foldl_note, ← Events.foldl_note, List.foldl_append]
      rfl
    rw [last, List.foldl_append, ← ih]
    unfold Events.note joinNames
    by_cases old : n ∈ names <;> by_cases noted : n ∈ met <;> simp [old, noted]

theorem joinNames_of_eraseDups (first second : List String) :
    joinNames first.eraseDups second.eraseDups = (first ++ second).eraseDups := by
  rw [joinNames_eraseDups, ← Events.foldl_note, ← Events.foldl_note, List.foldl_append]

/-- Without a choice, the names of a formula come in the order of their first occurrence. -/
theorem names_eq_eraseDups {f : Formula} (free : f.IsChoiceFree) :
    f.names = f.occurrences.eraseDups := by
  induction f with
  | number | host | name => rfl
  | binary op l r ihl ihr =>
    rw [names, ihl fun c t e h => free c t e (by simp [subformulas, h]),
      ihr fun c t e h => free c t e (by simp [subformulas, h]), joinNames_of_eraseDups]
    rfl
  | negate f ih => exact ih fun c t e h => free c t e (by simp [subformulas, h])
  | choice c t e => exact absurd (self_mem_subformulas _) (free c t e)
  | call g a b iha ihb =>
    rw [names, iha fun c t e h => free c t e (by simp [subformulas, h]),
      ihb fun c t e h => free c t e (by simp [subformulas, h]), joinNames_of_eraseDups]
    rfl

/-- Without a choice, all names are needed. -/
theorem list_needed_of_isChoiceFree {f : Formula} (free : f.IsChoiceFree)
    (answers : HostLiteral → Float) : (f.needed answers).list = f.names := by
  induction f with
  | number | host | name => rfl
  | binary op l r ihl ihr =>
    rw [needed, Needed.list_fold₂, ihl fun c t e h => free c t e (by simp [subformulas, h]),
      ihr fun c t e h => free c t e (by simp [subformulas, h])]
    rfl
  | negate f ih =>
    rw [needed, Needed.list_fold₁, ih fun c t e h => free c t e (by simp [subformulas, h])]
    rfl
  | choice c t e => exact absurd (self_mem_subformulas _) (free c t e)
  | call g a b iha ihb =>
    rw [needed, Needed.list_fold₂, iha fun c t e h => free c t e (by simp [subformulas, h]),
      ihb fun c t e h => free c t e (by simp [subformulas, h])]
    rfl

end Formula

/-- The names of the set that was found, none if there is none: they are all there. -/
def Finding.Lists (found : Finding) (r : Registry Datum) (names : List String) : Prop :=
  match found.set? with
  | none => names = []
  | some cell => ∃ m, r.cells[cell]? = some (.live m) ∧ m.keys = names

/-- Gathering the names of a formula in place is never refused, whatever sets there are, and leaves
these as they are. It finds no name twice, and only names of the formula. Where the formula has no
choice, it finds all of them, from left to right in the order of their first occurrence. -/
theorem Formula.gathered_names (answers : HostLiteral → Float) (f : Formula) (r : Registry Datum) :
    ∃ found after names, (f.gather answers).run r = .ok (found, after) ∧
      Registry.Keeps r.cells.length r after ∧ found.Lists after names ∧
      names.Nodup ∧ (∀ n ∈ names, n ∈ f.names) ∧
      (f.IsChoiceFree → (∀ n, n ∈ names ↔ n ∈ f.names) ∧ names = f.occurrences.eraseDups) := by
  obtain ⟨found, after, run, keeps, told⟩ := Finding.finds_gather answers f r
  refine ⟨found, after, (f.needed answers).list, run, keeps, ?_, f.nodup_needed answers,
    f.needed_subset_names answers, fun free => ?_⟩
  · have holds := told.holds
    unfold Finding.Lists
    cases there : found.set? with
    | none => rwa [there] at holds
    | some cell =>
      rw [there] at holds
      obtain ⟨-, m, stored, entries⟩ := holds
      exact ⟨m, stored, Registry.keys_of_entries entries⟩
  · rw [list_needed_of_isChoiceFree free]
    exact ⟨fun n => Iff.rfl, names_eq_eraseDups free⟩

/-- Nothing is known of `1 / 0`, and no name is needed for it; still the names around it are. -/
def besideUnknown : Formula :=
  .binary .add (.binary .mul (.name "b") (.binary .div (.number 1) (.number 0)))
    (.call .max (.name "a") (.name "b"))

theorem Formula.gathered_names_besideUnknown :
    besideUnknown.IsChoiceFree ∧
      ∃ found after, (besideUnknown.gather fun _ => 0).run .empty = .ok (found, after) ∧
        found.Lists after ["b", "a"] := by
  have free : besideUnknown.IsChoiceFree := by
    intro c t e h
    simp [besideUnknown, subformulas] at h
  obtain ⟨found, after, names, run, -, lists, -, -, all⟩ :=
    gathered_names (fun _ => 0) besideUnknown .empty
  obtain ⟨-, rfl⟩ := all free
  have order : besideUnknown.occurrences.eraseDups = ["b", "a"] := by decide
  rw [order] at lists
  exact ⟨free, found, after, run, lists⟩

end PerfFormula
