import PerfFormula.Names.Registry
import PerfFormula.Proofs.Outcome

/-!
# Runs on shared identifier sets

What a run of operations does to identifier sets that several names may hold. An operation that
succeeds is one of a few kinds: it asks, it replaces the set of its receiver, it makes a new set, or
it unites two sets. From these kinds follows what becomes of every set, whichever names hold it: all
but the receiver stay as they were, and of a union of two sets the operand is empty afterwards.

Main statements:

* `Registry.performs_of_perform` — which kinds of operations there are.
* `Registry.sound_run` — after every run each name holds a set, and no set has an identifier twice.
* `Registry.runs_change_receivers` — what an operation after a run does to the sets.
-/

namespace PerfFormula

namespace SetOperation

variable {δ : Type}

/-- The name whose set an operation changes, if there is one. -/
def receiver? : SetOperation δ → Option String
  | insert set _ _ | put set _ _ | remove set _ | clear set | free set | union set _
  | join set _ _ =>
    some set
  | create _ _ _ | find _ _ | get _ _ _ | size _ | keys _ | contains _ _ | isSubsetOf _ _
  | equals _ _ | text _ => none

/-- The names whose sets an operation unites, the receiver first. -/
def united? : SetOperation δ → Option (String × String)
  | union set other | join set other _ => some (set, other)
  | _ => none

/-- The name that holds what an operation gives, if there is one. -/
def target? : SetOperation δ → Option String
  | create set _ _ => some set
  | join _ _ target => some target
  | _ => none

end SetOperation

namespace Registry

variable {δ : Type} {r after : Registry δ}

/-! ## Kinds of operations -/

/-- The union of the sets in two cells, the first of which receives what the other hands over. -/
inductive Unites (r : Registry δ) (cell other : Nat) : Registry δ → Prop where
  | itself : cell = other → Unites r cell other r
  | moves {m n : NameMap δ} : cell ≠ other → r.cells[cell]? = some (.live m) →
      r.cells[other]? = some (.live n) →
      Unites r cell other ((r.write cell (.live (m.merge n))).write other .empty)

/-- What a registry comes to by an operation that succeeds. -/
inductive Performs (r : Registry δ) : SetOperation δ → Registry δ → Prop where
  | creates {set : String} {keys : List String} {datum : δ} (s : IdentifierSet δ) :
      Performs r (.create set keys datum) (r.add set s)
  | changes {operation : SetOperation δ} {set : String} {cell : Nat} {s : IdentifierSet δ}
      (s' : IdentifierSet δ) : operation.receiver? = some set → operation.united? = none →
      operation.target? = none → r.held? set = some (cell, s) →
      Performs r operation (r.write cell s')
  | asks {operation : SetOperation δ} : operation.receiver? = none → operation.united? = none →
      operation.target? = none → Performs r operation r
  | unites {set other : String} {cell cell' : Nat} {s s' : IdentifierSet δ} {after : Registry δ} :
      r.held? set = some (cell, s) → r.held? other = some (cell', s') →
      Unites r cell cell' after → Performs r (.union set other) after
  | joins {set other target : String} {cell cell' : Nat} {s s' : IdentifierSet δ}
      {after : Registry δ} : r.held? set = some (cell, s) → r.held? other = some (cell', s') →
      Unites r cell cell' after → Performs r (.join set other target) (after.hold target cell)
  | passes {set other target name : String} {cell : Nat} {s : IdentifierSet δ} :
      (r.held? set = none ∨ r.held? other = none) → r.held? name = some (cell, s) →
      Performs r (.join set other target) (r.hold target cell)
  | starts {set other target : String} : r.held? set = none → r.held? other = none →
      Performs r (.join set other target) (r.add target .empty)

/-! ## Which kind an operation is -/

theorem held?_of_held {name : String} {found : Nat × IdentifierSet δ}
    (h : r.held name = .ok found) : r.held? name = some found := by
  unfold held at h
  split at h
  · next same =>
    cases h
    exact same
  · cases h

/-- What a name holds is the set in a cell. -/
theorem cell_of_held? {name : String} {cell : Nat} {s : IdentifierSet δ}
    (h : r.held? name = some (cell, s)) :
    r.holders.find? name = some cell ∧ r.cells[cell]? = some s := by
  obtain ⟨c, held, h⟩ := Option.bind_eq_some_iff.1 h
  obtain ⟨s', stored, h⟩ := Option.bind_eq_some_iff.1 h
  cases h
  exact ⟨held, stored⟩

theorem ok_of_change {set : String} {f : IdentifierSet δ → Except SetError (IdentifierSet δ)}
    {answer : SetAnswer δ} (h : r.change set f = .ok (answer, after)) :
    ∃ cell s s', r.held? set = some (cell, s) ∧ after = r.write cell s' := by
  obtain ⟨⟨cell, s⟩, held, h⟩ := ok_of_bind h
  obtain ⟨s', -, h⟩ := ok_of_bind h
  cases h
  exact ⟨cell, s, s', held?_of_held held, rfl⟩

theorem ok_of_ask {set : String} {f : IdentifierSet δ → Except SetError (SetAnswer δ)}
    {answer : SetAnswer δ} (h : r.ask set f = .ok (answer, after)) : after = r := by
  obtain ⟨⟨cell, s⟩, -, h⟩ := ok_of_bind h
  obtain ⟨a, -, h⟩ := ok_of_bind h
  cases h
  rfl

/-- Only sets that may be used are united. -/
theorem unites_of_unite {cell cell' : Nat} {s s' : IdentifierSet δ}
    (first : r.cells[cell]? = some s)
    (second : r.cells[cell']? = some s') (h : r.unite cell cell' s s' = .ok after) :
    Unites r cell cell' after := by
  unfold unite at h
  split at h
  · next same =>
    obtain ⟨m, -, h⟩ := ok_of_bind h
    cases h
    exact .itself same
  · next different =>
    obtain ⟨united, h', h⟩ := ok_of_bind h
    cases h
    cases s with
    | freed => cases h'
    | live m =>
      cases s' with
      | freed => cases h'
      | live n =>
        cases h'
        exact .moves different first second

/-- Every operation that succeeds is of one of the kinds. -/
theorem performs_of_perform {operation : SetOperation δ} {answer : SetAnswer δ}
    (h : r.perform operation = .ok (answer, after)) : Performs r operation after := by
  cases operation with
  | create set keys datum =>
    obtain ⟨s, -, h⟩ := ok_of_bind h
    cases h
    exact .creates s
  | insert set key datum | put set key datum | remove set key | clear set | free set =>
    rw [perform] at h
    obtain ⟨cell, s, s', held, rfl⟩ := ok_of_change h
    exact .changes s' rfl rfl rfl held
  | find set key | get set key fallback | size set | keys set | contains set key | text set =>
    rw [perform] at h
    obtain rfl := ok_of_ask h
    exact .asks rfl rfl rfl
  | isSubsetOf set other =>
    obtain ⟨_, -, h⟩ := ok_of_bind h
    obtain rfl := ok_of_ask h
    exact .asks rfl rfl rfl
  -- comparing may read another set, but changes neither
  | equals set other =>
    obtain ⟨_, -, h⟩ := ok_of_bind h
    have same : after = r := by
      cases other with
      | set holder =>
        simp only at h
        split at h <;> cases h <;> rfl
      | names names => cases h; rfl
      | unrelated => cases h; rfl
    rw [same]
    exact .asks rfl rfl rfl
  | union set other =>
    obtain ⟨⟨cell, s⟩, held, h⟩ := ok_of_bind h
    obtain ⟨⟨cell', s'⟩, held', h⟩ := ok_of_bind h
    obtain ⟨united, h', h⟩ := ok_of_bind h
    cases h
    have first := held?_of_held held
    have second := held?_of_held held'
    exact .unites first second
      (unites_of_unite (cell_of_held? first).2 (cell_of_held? second).2 h')
  | join set other target =>
    rw [perform] at h
    split at h
    -- a union as an expression passes over names that hold nothing
    · next first second =>
      cases h
      exact .starts first second
    · next cell s first second =>
      cases h
      exact .passes (.inl first) second
    · next cell s first second =>
      cases h
      exact .passes (.inr second) first
    · next cell s cell' s' first second =>
      obtain ⟨united, h', h⟩ := ok_of_bind h
      cases h
      exact .joins first second
        (unites_of_unite (cell_of_held? first).2 (cell_of_held? second).2 h')

/-! ## Cells and names after an operation -/

@[simp] theorem cells_write (r : Registry δ) (cell : Nat) (s : IdentifierSet δ) :
    (r.write cell s).cells = r.cells.set cell s := rfl

theorem find?_hold (r : Registry δ) (name other : String) (cell : Nat) :
    (r.hold name cell).holders.find? other =
      if other = name then some cell else r.holders.find? other :=
  NameMap.find?_set r.holders name other cell

@[simp] theorem cells_add (r : Registry δ) (name : String) (s : IdentifierSet δ) :
    (r.add name s).cells = r.cells ++ [s] := rfl

theorem find?_add (r : Registry δ) (name other : String) (s : IdentifierSet δ) :
    (r.add name s).holders.find? other =
      if other = name then some r.cells.length else r.holders.find? other :=
  NameMap.find?_set r.holders name other r.cells.length

theorem Unites.holders_eq {cell cell' : Nat} (h : Unites r cell cell' after) :
    after.holders = r.holders := by
  cases h <;> rfl

theorem Unites.length_eq {cell cell' : Nat} (h : Unites r cell cell' after) :
    after.cells.length = r.cells.length := by
  cases h with
  | itself => rfl
  | moves => simp

/-- A union concerns the two sets alone. -/
theorem Unites.others {cell cell' : Nat} (h : Unites r cell cell' after) {i : Nat}
    (notFirst : i ≠ cell) (notSecond : i ≠ cell') : after.cells[i]? = r.cells[i]? := by
  cases h with
  | itself => rfl
  | moves =>
    rw [cells_write, cells_write, List.getElem?_set_ne notSecond.symm,
      List.getElem?_set_ne notFirst.symm]

/-- What a union of two different sets leaves in their cells. -/
theorem Unites.cells {cell cell' : Nat} (h : Unites r cell cell' after) (different : cell ≠ cell') :
    ∃ m n, r.cells[cell]? = some (.live m) ∧ r.cells[cell']? = some (.live n) ∧
      after.cells[cell]? = some (.live (m.merge n)) ∧ after.cells[cell']? = some .empty := by
  cases h with
  | itself same => exact absurd same different
  | @moves m n _ first second =>
    have inRange := (List.getElem?_eq_some_iff.1 first).1
    have inRange' := (List.getElem?_eq_some_iff.1 second).1
    refine ⟨m, n, first, second, ?_, ?_⟩
    · rw [cells_write, cells_write, List.getElem?_set_ne different.symm,
        List.getElem?_set_self inRange]
    · rw [cells_write, cells_write, List.getElem?_set_self (by simpa using inRange')]

/-! ## What every run keeps -/

/-- Every name holds a cell that there is, and no set has an identifier twice. -/
structure Sound (r : Registry δ) : Prop where
  held : ∀ name cell, r.holders.find? name = some cell → cell < r.cells.length
  distinct : ∀ (cell : Nat) (m : NameMap δ), r.cells[cell]? = some (.live m) →
    (m.entries.map (·.1)).Nodup

theorem sound_empty : (empty : Registry δ).Sound :=
  ⟨fun _ _ h => (by cases h), fun _ m _ => m.distinct⟩

theorem Sound.lt_of_held? (sound : r.Sound) {name : String} {cell : Nat} {s : IdentifierSet δ}
    (h : r.held? name = some (cell, s)) : cell < r.cells.length :=
  sound.held name cell (cell_of_held? h).1

/-- If a name comes to hold a cell, this is a cell that there is. -/
theorem Sound.hold (sound : r.Sound) (name : String) {cell : Nat} (h : cell < r.cells.length) :
    (r.hold name cell).Sound := by
  refine ⟨fun other i found => ?_, fun _ m _ => m.distinct⟩
  rw [find?_hold] at found
  split at found
  · cases found
    exact h
  · exact sound.held other i found

theorem Sound.add (sound : r.Sound) (name : String) (s : IdentifierSet δ) :
    (r.add name s).Sound := by
  refine ⟨fun other i found => ?_, fun _ m _ => m.distinct⟩
  rw [cells_add, List.length_append, List.length_singleton]
  rw [find?_add] at found
  split at found
  · cases found
    exact Nat.lt_succ_self _
  · exact Nat.lt_succ_of_lt (sound.held other i found)

theorem Sound.unites (sound : r.Sound) {cell cell' : Nat} (h : Unites r cell cell' after) :
    after.Sound := by
  refine ⟨fun name i found => ?_, fun _ m _ => m.distinct⟩
  rw [h.holders_eq] at found
  rw [h.length_eq]
  exact sound.held name i found

theorem Sound.performs (sound : r.Sound) {operation : SetOperation δ}
    (h : Performs r operation after) : after.Sound := by
  cases h with
  | creates s => exact sound.add _ s
  | changes s' _ _ _ _ =>
    refine ⟨fun name i found => ?_, fun _ m _ => m.distinct⟩
    rw [cells_write, List.length_set]
    exact sound.held name i found
  | asks => exact sound
  | unites _ _ united => exact sound.unites united
  | joins held _ united =>
    exact (sound.unites united).hold _ (united.length_eq ▸ sound.lt_of_held? held)
  | passes _ held => exact sound.hold _ (sound.lt_of_held? held)
  | starts => exact sound.add _ .empty

theorem ok_of_step {operation : SetOperation δ} {answer : SetAnswer δ}
    (h : (r.step operation).1 = .ok answer) :
    r.perform operation = .ok (answer, (r.step operation).2) := by
  unfold step at h ⊢
  split at h
  · next performed =>
    cases h
    rw [performed]
  · cases h

theorem Sound.step (sound : r.Sound) (operation : SetOperation δ) : (r.step operation).2.Sound := by
  cases outcome : (r.step operation).1 with
  | error e =>
    rw [step_error outcome]
    exact sound
  | ok answer => exact sound.performs (performs_of_perform (ok_of_step outcome))

/-- The registry after some operations, one after the other. -/
def run (r : Registry δ) (operations : List (SetOperation δ)) : Registry δ :=
  operations.foldl (fun r operation => (r.step operation).2) r

/-- After every run each name holds a set, and no set has an identifier twice. -/
theorem sound_run (sound : r.Sound) (operations : List (SetOperation δ)) :
    (r.run operations).Sound := by
  induction operations generalizing r with
  | nil => exact sound
  | cons operation rest ih => exact ih (sound.step operation)

/-! ## What an operation changes -/

/-- The set in a cell is the receiver of an operation. -/
def Receives (r : Registry δ) (operation : SetOperation δ) (cell : Nat) : Prop :=
  ∃ set s, operation.receiver? = some set ∧ r.held? set = some (cell, s)

/-- The set in a cell is the operand of a union. -/
def HandsOver (r : Registry δ) (operation : SetOperation δ) (cell : Nat) : Prop :=
  ∃ set other s, operation.united? = some (set, other) ∧ r.held? other = some (cell, s)

/-- What an operation that succeeds changes: its receiver alone, but for the operand of a union of
two different sets, which is empty afterwards. The receiver of a union then has its old entries,
followed by those of the operand under names that are new to it. -/
structure Changes (r : Registry δ) (operation : SetOperation δ) (after : Registry δ) : Prop where
  others : ∀ (cell : Nat) s, r.cells[cell]? = some s → ¬r.Receives operation cell →
    ¬r.HandsOver operation cell → after.cells[cell]? = some s
  union : ∀ set other cell cell' s s', operation.united? = some (set, other) →
    r.held? set = some (cell, s) → r.held? other = some (cell', s') → cell ≠ cell' →
    ∃ m n u, s = .live m ∧ s' = .live n ∧ after.cells[cell]? = some (.live u) ∧
      u.entries = m.entries ++ n.entries.filter (fun entry => !m.contains entry.1) ∧
      after.cells[cell']? = some .empty
  withItself : ∀ set other cell s s', operation.united? = some (set, other) →
    r.held? set = some (cell, s) → r.held? other = some (cell, s') → after.cells = r.cells
  withNothing : ∀ set other, operation.united? = some (set, other) →
    r.held? set = none ∨ r.held? other = none →
    ∀ (cell : Nat) s, r.cells[cell]? = some s → after.cells[cell]? = some s
  holders : ∀ name, operation.target? ≠ some name →
    after.holders.find? name = r.holders.find? name

/-- A new set takes no cell that there was. -/
theorem getElem?_add {name : String} {s s' : IdentifierSet δ} {cell : Nat}
    (h : r.cells[cell]? = some s) : (r.add name s').cells[cell]? = some s := by
  rw [cells_add, List.getElem?_append_left (List.getElem?_eq_some_iff.1 h).1]
  exact h

/-- Where nothing is united and a set that there was changes only as the receiver, the operation
changes what it may. -/
theorem changes_of_single {operation : SetOperation δ} (single : operation.united? = none)
    (others : ∀ (cell : Nat) s, r.cells[cell]? = some s → ¬r.Receives operation cell →
      after.cells[cell]? = some s)
    (holders : ∀ name, operation.target? ≠ some name →
      after.holders.find? name = r.holders.find? name) : r.Changes operation after where
  others cell s stored notReceiver _ := others cell s stored notReceiver
  union _ _ _ _ _ _ united := by rw [single] at united; cases united
  withItself _ _ _ _ _ united := by rw [single] at united; cases united
  withNothing _ _ united := by rw [single] at united; cases united
  holders := holders

/-- Where two sets are united, the operation changes what it may. -/
theorem changes_of_unites {operation : SetOperation δ} {set other : String} {cell cell' : Nat}
    {s s' : IdentifierSet δ} (receiver : operation.receiver? = some set)
    (united : operation.united? = some (set, other)) (held : r.held? set = some (cell, s))
    (held' : r.held? other = some (cell', s')) {between : Registry δ}
    (unites : Unites r cell cell' between) (cells : after.cells = between.cells)
    (holders : ∀ name, operation.target? ≠ some name →
      after.holders.find? name = r.holders.find? name) : r.Changes operation after where
  others i t stored notReceiver notOperand := by
    -- what is neither receiver nor operand is in neither of the two cells
    have notFirst : i ≠ cell := by
      rintro rfl
      exact notReceiver ⟨set, s, receiver, held⟩
    have notSecond : i ≠ cell' := by
      rintro rfl
      exact notOperand ⟨set, other, s', united, held'⟩
    rw [cells, unites.others notFirst notSecond]
    exact stored
  union set₁ other₁ i i' t t' united₁ held₁ held₁' different := by
    cases united.symm.trans united₁
    cases held.symm.trans held₁
    cases held'.symm.trans held₁'
    obtain ⟨m, n, first, second, receives, empties⟩ := unites.cells different
    cases (cell_of_held? held).2.symm.trans first
    cases (cell_of_held? held').2.symm.trans second
    exact ⟨m, n, m.merge n, rfl, rfl, cells ▸ receives, rfl, cells ▸ empties⟩
  withItself set₁ other₁ i t t' united₁ held₁ held₁' := by
    cases united.symm.trans united₁
    cases held.symm.trans held₁
    cases held'.symm.trans held₁'
    cases unites with
    | itself => exact cells
    | moves different => exact absurd rfl different
  withNothing set₁ other₁ united₁ missing := by
    cases united.symm.trans united₁
    rw [held, held'] at missing
    rcases missing with missing | missing <;> cases missing
  holders := holders

/-- A union with nothing changes no set. -/
theorem changes_of_unpaired {set other target : String}
    (missing : r.held? set = none ∨ r.held? other = none)
    (cells : ∀ (cell : Nat) s, r.cells[cell]? = some s → after.cells[cell]? = some s)
    (holders : ∀ name, target ≠ name → after.holders.find? name = r.holders.find? name) :
    r.Changes (.join set other target) after where
  others cell s stored _ _ := cells cell s stored
  union set₁ other₁ _ _ _ _ united held held' := by
    cases united
    rw [held, held'] at missing
    rcases missing with missing | missing <;> cases missing
  withItself set₁ other₁ _ _ _ united held held' := by
    cases united
    rw [held, held'] at missing
    rcases missing with missing | missing <;> cases missing
  withNothing _ _ _ _ := cells
  holders name notTarget := holders name fun same => notTarget (congrArg some same)

theorem changes_of_performs {operation : SetOperation δ} (h : Performs r operation after) :
    r.Changes operation after := by
  cases h with
  | creates s =>
    refine changes_of_single rfl (fun cell t stored _ => getElem?_add stored) fun name other => ?_
    rw [find?_add, if_neg fun same => other (congrArg some same.symm)]
  | @changes _ set cell s s' receiver single _ held =>
    refine changes_of_single single (fun i t stored notReceiver => ?_) fun _ _ => rfl
    have different : cell ≠ i := by
      rintro rfl
      exact notReceiver ⟨set, s, receiver, held⟩
    rw [cells_write, List.getElem?_set_ne different]
    exact stored
  | asks _ single _ => exact changes_of_single single (fun _ _ stored _ => stored) fun _ _ => rfl
  | unites held held' unites =>
    exact changes_of_unites rfl rfl held held' unites rfl fun _ _ => by rw [unites.holders_eq]
  | joins held held' unites =>
    refine changes_of_unites rfl rfl held held' unites rfl fun name other => ?_
    rw [find?_hold, if_neg fun same => other (congrArg some same.symm), unites.holders_eq]
  | passes missing _ =>
    refine changes_of_unpaired missing (fun _ _ stored => stored) fun name other => ?_
    rw [find?_hold, if_neg other.symm]
  | starts missing _ =>
    refine changes_of_unpaired (.inl missing) (fun _ _ => getElem?_add) fun name other => ?_
    rw [find?_add, if_neg other.symm]

/-- After every run of operations each name holds a set, and no set has an identifier twice. A
further operation that is refused leaves everything as it was; one that succeeds changes only its
receiver, and the operand of a union of two different sets. -/
theorem runs_change_receivers (operations : List (SetOperation δ)) (operation : SetOperation δ) :
    ((empty : Registry δ).run operations).Sound ∧
      (∀ e, ((empty.run operations).step operation).1 = .error e →
        ((empty.run operations).step operation).2 = empty.run operations) ∧
      ∀ answer, ((empty.run operations).step operation).1 = .ok answer →
        (empty.run operations).Changes operation ((empty.run operations).step operation).2 := by
  refine ⟨sound_run sound_empty operations, fun e refused => step_error refused, ?_⟩
  exact fun answer done => changes_of_performs (performs_of_perform (ok_of_step done))

/-- Two sets, the first of which two names hold. -/
def aliased : List (SetOperation Nat) :=
  [.create "a" ["x", "y"] 0, .create "b" ["y", "z"] 1, .join "a" "none" "c"]

/-- The set that `a` and `c` hold takes over what is new to it, and `b` is empty then; to insert
what is there already is refused. -/
theorem runs_change_receivers_aliased :
    ((empty.run aliased).step (.insert "c" "x" 2)).2 = empty.run aliased ∧
      (empty.run aliased).held? "a" = (empty.run aliased).held? "c" ∧
      ∃ u : NameMap Nat, ((empty.run aliased).step (.union "c" "b")).2.cells[0]? = some (.live u) ∧
        u.entries = [("x", 0), ("y", 0), ("z", 1)] ∧
        ((empty.run aliased).step (.union "c" "b")).2.cells[1]? = some .empty := by
  obtain ⟨-, refused, -⟩ := runs_change_receivers aliased (.insert "c" "x" 2)
  obtain ⟨-, -, done⟩ := runs_change_receivers aliased (.union "c" "b")
  refine ⟨refused (.set (.duplicate "x")) rfl, rfl, ?_⟩
  obtain ⟨m, n, u, first, second, receives, entries, empties⟩ :=
    (done .done rfl).union "c" "b" 0 1 _ _ rfl rfl rfl (by decide)
  cases first
  cases second
  exact ⟨u, receives, entries, empties⟩

end Registry
end PerfFormula
