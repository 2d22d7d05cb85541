import PerfFormula.Proofs.SharedSets

/-!
# Use after free

A set that was freed stays freed, whatever is done later and however many names hold it. An
operation that it takes part in is refused and changes nothing, whether the freed set is the
receiver or the operand, with three exceptions, in which nobody looks at whether the set was freed:
a comparison, the question whether a set without identifiers is contained in it, and a union with
nothing. Even these change no set.

Main statements:

* `Registry.freed_run` — a freed set stays freed in every run.
* `Registry.perform_freed` — with a freed set among its participants an operation is refused, unless
  it overlooks the set.
* `Registry.refused_after_free` — what becomes of an operation on a set that was freed earlier in a
  run.
-/

namespace PerfFormula

namespace SetOperation

variable {δ : Type}

/-- The names whose sets take part in an operation, as its receiver or as its operand. Making a set,
freeing it and showing its text are possible for every set. -/
def participants : SetOperation δ → List String
  | insert set _ _ | put set _ _ | find set _ | get set _ _ | remove set _ | size set | keys set
  | contains set _ | clear set | equals set (.names _) | equals set .unrelated => [set]
  | isSubsetOf set other | union set other | join set other _ | equals set (.set other) =>
    [set, other]
  | create _ _ _ | free _ | text _ => []

/-- The names that have to hold a set. A union as an expression takes nothing in the place of a set,
and a set may be compared with anything. -/
def required : SetOperation δ → List String
  | insert set _ _ | put set _ _ | find set _ | get set _ _ | remove set _ | size set | keys set
  | contains set _ | clear set | free set | text set | equals set _ => [set]
  | isSubsetOf set other | union set other => [set, other]
  | create _ _ _ | join _ _ _ => []

end SetOperation

namespace Registry

variable {δ : Type} {r after : Registry δ}

/-- The set in a cell takes part in an operation. -/
def TakesPart (r : Registry δ) (operation : SetOperation δ) (cell : Nat) : Prop :=
  ∃ name ∈ operation.participants, r.holders.find? name = some cell

/-- The names that have to hold a set for an operation hold one. -/
def Provides (r : Registry δ) (operation : SetOperation δ) : Prop :=
  ∀ name ∈ operation.required, ∃ found, r.held? name = some found

/-- The operations that do not look at whether a set that takes part was freed. -/
inductive Overlooks (r : Registry δ) : SetOperation δ → Prop where
  | equals (set : String) (other : Comparand) : Overlooks r (.equals set other)
  /-- Nothing is looked for in the operand if the receiver has no identifiers. -/
  | isSubsetOf {set other : String} {cell : Nat} {m : NameMap δ} :
      r.held? set = some (cell, .live m) → m.size = 0 → Overlooks r (.isSubsetOf set other)
  /-- A union with nothing is the other set as it is. -/
  | join {set other : String} (target : String) :
      (r.held? set = none ∨ r.held? other = none) → Overlooks r (.join set other target)

/-! ## Freed sets stay freed -/

/-- A set that is changed through a name stays freed, if the change makes nothing of a freed set. -/
theorem freed_of_change {cell : Nat} (freed : r.cells[cell]? = some .freed) {set : String}
    {f : IdentifierSet δ → Except SetError (IdentifierSet δ)}
    (stays : ∀ s, f .freed = .ok s → s = .freed) {answer : SetAnswer δ}
    (done : r.change set f = .ok (answer, after)) : after.cells[cell]? = some .freed := by
  obtain ⟨⟨changed, s⟩, held, done⟩ := ok_of_bind done
  obtain ⟨s', lifted, done⟩ := ok_of_bind done
  cases done
  have stored := (cell_of_held? (held?_of_held held)).2
  have made : f s = .ok s' := (mapError_eq_ok_iff.1 lifted)
  rw [cells_write]
  by_cases same : changed = cell
  · -- The change met the freed set itself.
    subst same
    cases freed.symm.trans stored
    rw [stays s' made, List.getElem?_set_self (List.getElem?_eq_some_iff.1 freed).1]
  · rw [List.getElem?_set_ne same]
    exact freed

/-- Of two sets that are united neither was freed. -/
theorem Unites.freed {cell first second : Nat} (freed : r.cells[cell]? = some .freed)
    (h : Unites r first second after) : after.cells[cell]? = some .freed := by
  cases h with
  | itself => exact freed
  | @moves m n different storedFirst storedSecond =>
    have notFirst : cell ≠ first := by
      rintro rfl
      cases freed.symm.trans storedFirst
    have notSecond : cell ≠ second := by
      rintro rfl
      cases freed.symm.trans storedSecond
    rw [(Unites.moves different storedFirst storedSecond).others notFirst notSecond]
    exact freed

/-- An operation that succeeds leaves a freed set freed. -/
theorem freed_of_perform {cell : Nat} (freed : r.cells[cell]? = some .freed)
    {operation : SetOperation δ} {answer : SetAnswer δ}
    (done : r.perform operation = .ok (answer, after)) : after.cells[cell]? = some .freed := by
  cases performs_of_perform done with
  | creates | starts => exact getElem?_add freed
  | asks | passes => exact freed
  | unites _ _ united | joins _ _ united =>
    have kept := united.freed freed
    exact kept
  | changes s' receiver single =>
    -- Only freeing makes something of a freed set, and that is a freed set again.
    cases operation with
    | insert | put | remove | clear =>
      rw [perform] at done
      exact freed_of_change freed (fun s made => by cases made) done
    | free =>
      rw [perform] at done
      refine freed_of_change freed (fun s made => ?_) done
      cases made
      rfl
    | union | join => cases single
    | _ => cases receiver

/-- A freed set stays freed in every run. -/
theorem freed_run {cell : Nat} (freed : r.cells[cell]? = some .freed)
    (operations : List (SetOperation δ)) : (r.run operations).cells[cell]? = some .freed := by
  induction operations generalizing r with
  | nil => exact freed
  | cons operation rest ih =>
    refine ih (r := (r.step operation).2) ?_
    cases outcome : (r.step operation).1 with
    | error e =>
      rw [step_error outcome]
      exact freed
    | ok answer => exact freed_of_perform freed (ok_of_step outcome)

/-! ## What is refused -/

theorem held_of_held? {name : String} {found : Nat × IdentifierSet δ}
    (h : r.held? name = some found) : r.held name = .ok found := by
  rw [held, h]

/-- A name holds the set that is in its cell. -/
theorem held?_of_cell {name : String} {cell : Nat} {s : IdentifierSet δ}
    (held : r.holders.find? name = some cell) (stored : r.cells[cell]? = some s) :
    r.held? name = some (cell, s) := by
  simp [held?, held, stored]

theorem change_freed {set : String} {cell : Nat} (held : r.held? set = some (cell, .freed))
    {f : IdentifierSet δ → Except SetError (IdentifierSet δ)}
    (refuses : f .freed = .error .usedAfterFree) :
    r.change set f = .error (.set .usedAfterFree) := by
  rw [change, held_of_held? held]
  show (lift (f .freed)).bind _ = _
  rw [refuses]
  rfl

theorem ask_freed {set : String} {cell : Nat} (held : r.held? set = some (cell, .freed))
    {f : IdentifierSet δ → Except SetError (SetAnswer δ)}
    (refuses : f .freed = .error .usedAfterFree) : r.ask set f = .error (.set .usedAfterFree) := by
  rw [ask, held_of_held? held]
  show (lift (f .freed)).bind _ = _
  rw [refuses]
  rfl

/-- Two sets are not united if one of them was freed. -/
theorem unite_freed {first second : Nat} {s s' : IdentifierSet δ}
    (storedFirst : r.cells[first]? = some s) (storedSecond : r.cells[second]? = some s')
    (freed : s = .freed ∨ s' = .freed) :
    r.unite first second s s' = .error (.set .usedAfterFree) := by
  unfold unite
  split
  · next same =>
    -- Within one cell both are the same set.
    subst same
    cases storedFirst.symm.trans storedSecond
    obtain rfl : s = .freed := freed.elim id id
    rfl
  · rcases freed with rfl | rfl
    · rfl
    · cases s with
      | freed => rfl
      | live m => rfl

/-- One of two sets was freed, if a name of the two holds a freed set. -/
theorem freed_of_pair {name set other : String} (participant : name ∈ [set, other]) {cell : Nat}
    (held : r.held? name = some (cell, .freed)) {found found' : Nat × IdentifierSet δ}
    (first : r.held? set = some found) (second : r.held? other = some found') :
    found.2 = .freed ∨ found'.2 = .freed := by
  rcases List.mem_cons.1 participant with rfl | participant
  · cases held.symm.trans first
    exact .inl rfl
  · obtain rfl := List.mem_singleton.1 participant
    cases held.symm.trans second
    exact .inr rfl

/-- Two sets are asked about each other. -/
theorem perform_isSubsetOf {set other : String} {cell cell' : Nat} {s s' : IdentifierSet δ}
    (first : r.held? set = some (cell, s)) (second : r.held? other = some (cell', s')) :
    r.perform (.isSubsetOf set other) =
      (lift (s.isSubsetOf s')).map fun b => (.truth b, r) := by
  rw [perform, held_of_held? second]
  simp only [bind, Except.bind]
  unfold ask
  rw [held_of_held? first]
  cases h : s.isSubsetOf s' <;> simp only [bind, Except.bind, h] <;> rfl

/-- A set with identifiers is not asked about a freed set, nor is a freed set asked. -/
theorem isSubsetOf_freed {s s' : IdentifierSet δ} (freed : s = .freed ∨ s' = .freed)
    (looks : ∀ m, s = .live m → m.size ≠ 0) : s.isSubsetOf s' = .error .usedAfterFree := by
  cases s with
  | freed => rfl
  | live m =>
    obtain rfl : s' = .freed := freed.elim (fun h => by cases h) id
    simp [IdentifierSet.isSubsetOf, IdentifierSet.use, looks m rfl, bind, Except.bind]

/-- With a freed set among its participants an operation is refused, unless it overlooks the set. -/
theorem perform_freed {cell : Nat} (freed : r.cells[cell]? = some .freed)
    {operation : SetOperation δ} (takesPart : r.TakesPart operation cell)
    (provides : r.Provides operation) (sees : ¬r.Overlooks operation) :
    r.perform operation = .error (.set .usedAfterFree) := by
  obtain ⟨name, participant, holds⟩ := takesPart
  have held : r.held? name = some (cell, .freed) := held?_of_cell holds freed
  cases operation with
  | insert | put | remove | clear =>
    obtain rfl := List.mem_singleton.1 participant
    rw [perform]
    exact change_freed held rfl
  | find | get | size | keys | contains =>
    obtain rfl := List.mem_singleton.1 participant
    rw [perform]
    exact ask_freed held rfl
  | create | free | text => cases participant
  | equals set other => exact absurd (.equals set other) sees
  | isSubsetOf set other =>
    obtain ⟨⟨cell₁, s⟩, first⟩ := provides set (by simp [SetOperation.required])
    obtain ⟨⟨cell₂, s'⟩, second⟩ := provides other (by simp [SetOperation.required])
    have refused : s.isSubsetOf s' = .error .usedAfterFree := by
      refine isSubsetOf_freed (freed_of_pair participant held first second) fun m live empty => ?_
      subst live
      exact sees (.isSubsetOf first empty)
    rw [perform_isSubsetOf first second, refused]
    rfl
  | union set other =>
    obtain ⟨⟨cell₁, s⟩, first⟩ := provides set (by simp [SetOperation.required])
    obtain ⟨⟨cell₂, s'⟩, second⟩ := provides other (by simp [SetOperation.required])
    have refused := unite_freed (cell_of_held? first).2 (cell_of_held? second).2
      (freed_of_pair participant held first second)
    rw [perform, held_of_held? first, held_of_held? second]
    simp only [bind, Except.bind, refused]
  | join set other target =>
    rw [perform]
    -- Where one of the two is missing, the other one is passed on unseen.
    split
    · next first second => exact absurd (.join target (.inl first)) sees
    · next first second => exact absurd (.join target (.inl first)) sees
    · next first second => exact absurd (.join target (.inr second)) sees
    · next first second =>
      have refused := unite_freed (cell_of_held? first).2 (cell_of_held? second).2
        (freed_of_pair participant held first second)
      simp only [bind, Except.bind, refused]

/-! ## What is overlooked -/

/-- An operation that overlooks a freed set succeeds. -/
theorem ok_of_overlooks {operation : SetOperation δ} (overlooks : r.Overlooks operation)
    (provides : r.Provides operation) :
    ∃ answer after, r.perform operation = .ok (answer, after) := by
  cases overlooks with
  | equals set other =>
    obtain ⟨found, first⟩ := provides set (by simp [SetOperation.required])
    rw [perform, held_of_held? first]
    cases other with
    | set holder =>
      cases second : r.held? holder with
      | none => exact ⟨_, _, by simp only [bind, Except.bind, second]; rfl⟩
      | some found' => exact ⟨_, _, by simp only [bind, Except.bind, second]; rfl⟩
    | names | unrelated => exact ⟨_, _, rfl⟩
  | @isSubsetOf set other cell m first none =>
    obtain ⟨⟨cell', s'⟩, second⟩ := provides other (by simp [SetOperation.required])
    -- The answer is there before the operand is looked at.
    have answered : (IdentifierSet.live m).isSubsetOf s' = .ok true := by
      simp [IdentifierSet.isSubsetOf, IdentifierSet.use, none, bind, Except.bind, pure, Except.pure]
    rw [perform_isSubsetOf first second, answered]
    exact ⟨_, _, rfl⟩
  | @join set other target missing =>
    rw [perform]
    split
    · exact ⟨_, _, rfl⟩
    · exact ⟨_, _, rfl⟩
    · exact ⟨_, _, rfl⟩
    · next first second =>
      rw [first, second] at missing
      rcases missing with missing | missing <;> cases missing

/-- An operation that overlooks a freed set changes no set. -/
theorem Overlooks.keeps {operation : SetOperation δ} (overlooks : r.Overlooks operation)
    (performs : Performs r operation after) {cell : Nat} {s : IdentifierSet δ}
    (stored : r.cells[cell]? = some s) : after.cells[cell]? = some s := by
  cases performs with
  | creates | starts => exact getElem?_add stored
  | asks | passes => exact stored
  | changes _ receiver single =>
    cases overlooks with
    | equals | isSubsetOf => cases receiver
    | join => cases single
  | unites => cases overlooks
  | joins first second =>
    cases overlooks with
    | join _ missing =>
      rw [first, second] at missing
      rcases missing with missing | missing <;> cases missing

/-! ## Runs in which a set is freed -/

theorem step_of_perform {operation : SetOperation δ} {answer : SetAnswer δ}
    (done : r.perform operation = .ok (answer, after)) :
    r.step operation = (.ok answer, after) := by
  rw [step, done]

theorem step_of_refused {operation : SetOperation δ} {e : RegistryError}
    (refused : r.perform operation = .error e) : r.step operation = (.error e, r) := by
  rw [step, refused]

/-- What a name holds is freed by freeing it. -/
theorem freed_of_free {name : String} {cell : Nat} {s : IdentifierSet δ}
    (held : r.held? name = some (cell, s)) :
    (r.step (.free name)).2.cells[cell]? = some .freed := by
  have done : r.perform (.free name) = .ok (.done, r.write cell .freed) := by
    rw [perform, change, held_of_held? held]
    rfl
  have inRange := (List.getElem?_eq_some_iff.1 (cell_of_held? held).2).1
  rw [step_of_perform done, cells_write, List.getElem?_set_self inRange]

/-- A set that was freed in a run stays freed. Every later operation that it takes part in is
refused and changes nothing; only an operation that overlooks freed sets succeeds, and it changes no
set. -/
theorem refused_after_free (history later : List (SetOperation δ)) {name : String} {cell : Nat}
    {s : IdentifierSet δ} (held : ((empty : Registry δ).run history).held? name = some (cell, s))
    (operation : SetOperation δ) :
    let r := (empty : Registry δ).run (history ++ .free name :: later)
    r.cells[cell]? = some .freed ∧
      (r.TakesPart operation cell → r.Provides operation →
        (¬r.Overlooks operation → r.step operation = (.error (.set .usedAfterFree), r)) ∧
          (r.Overlooks operation → (∃ answer, (r.step operation).1 = .ok answer) ∧
            ∀ (i : Nat) s, r.cells[i]? = some s → (r.step operation).2.cells[i]? = some s)) := by
  intro r
  have freed : r.cells[cell]? = some .freed := by
    show ((empty : Registry δ).run (history ++ .free name :: later)).cells[cell]? = _
    rw [run, List.foldl_append]
    exact freed_run (freed_of_free held) later
  refine ⟨freed, fun takesPart provides => ⟨fun sees => ?_, fun overlooks => ?_⟩⟩
  · exact step_of_refused (perform_freed freed takesPart provides sees)
  · obtain ⟨answer, after, done⟩ := ok_of_overlooks overlooks provides
    rw [step_of_perform done]
    exact ⟨⟨answer, rfl⟩, fun i s stored =>
      overlooks.keeps (performs_of_perform done) stored⟩

/-- Two sets, the second of which two names hold. -/
def freedBefore : List (SetOperation Nat) :=
  [.create "a" [] 0, .create "b" ["x"] 1, .join "b" "none" "c"]

/-- The set that `b` and `c` hold is freed through `b`. Then `c` cannot be united with a new set. -/
theorem refused_after_free_aliased :
    (∃ s, ((empty : Registry Nat).run freedBefore).held? "b" = some (1, s) ∧
        (empty.run freedBefore).held? "c" = some (1, s)) ∧
      (empty.run (freedBefore ++ [.free "b", .create "d" ["y"] 2])).step (.union "d" "c") =
        (.error (.set .usedAfterFree),
          empty.run (freedBefore ++ [.free "b", .create "d" ["y"] 2])) := by
  refine ⟨⟨_, rfl, rfl⟩, ?_⟩
  have held : ((empty : Registry Nat).run freedBefore).held? "b" = some (1, _) := rfl
  obtain ⟨-, refused⟩ :=
    refused_after_free freedBefore [.create "d" ["y"] 2] held (.union "d" "c")
  refine (refused ⟨"c", by simp [SetOperation.participants], rfl⟩ ?_).1 (fun h => by cases h)
  intro name mem
  simp only [SetOperation.required, List.mem_cons, List.not_mem_nil, or_false] at mem
  rcases mem with rfl | rfl <;> exact ⟨_, rfl⟩

/-- Not every operation on a freed set is refused: a set without identifiers is contained in it. -/
theorem accepted_after_free :
    ¬∀ (history later : List (SetOperation Nat)) (name : String) (cell : Nat)
      (s : IdentifierSet Nat) (operation : SetOperation Nat),
      ((empty : Registry Nat).run history).held? name = some (cell, s) →
      (empty.run (history ++ .free name :: later)).TakesPart operation cell →
      (empty.run (history ++ .free name :: later)).Provides operation →
      (empty.run (history ++ .free name :: later)).step operation =
        (.error (.set .usedAfterFree), empty.run (history ++ .free name :: later)) := by
  intro always
  have refused := always freedBefore [] "b" 1 _ (.isSubsetOf "a" "b") rfl
    ⟨"b", by simp [SetOperation.participants], rfl⟩ (by
      intro name mem
      simp only [SetOperation.required, List.mem_cons, List.not_mem_nil, or_false] at mem
      rcases mem with rfl | rfl <;> exact ⟨_, rfl⟩)
  have answered := congrArg Prod.fst refused
  cases answered

end Registry
end PerfFormula
