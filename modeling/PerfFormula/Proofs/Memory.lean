import PerfFormula.Evaluation.Meaning
import PerfFormula.Evaluation.Run
import PerfFormula.Proofs.Outcome

/-!
# The memory of a run cannot be observed

An evaluation that remembers the references it has resolved has the outcome that the meaning of the
formula says, which follows every reference wherever it is used. The two see different chains of
references: a remembered reference is looked up while others are being followed that were not there
when it was resolved. What makes up for this is that a reference is remembered only after all that
it needs, and that the references being followed are never remembered ones. So a chain without
remembered names cannot meet, on the way through a remembered reference, a name that is on it.

Main statements:

* `Context.computes_resolve` — a look-up computes the meaning of the name.
* `Context.evaluate_outcome` — an evaluation has the outcome that the formula means.
* `Context.evaluate_memory_unobservable` — and it leaves the context as it was, but for references
  that became the values they mean.
-/

namespace PerfFormula

namespace Run

/-- The names whose values a run remembers. -/
def names (r : Run) : List String := r.resolved.map (·.1)

@[simp] theorem names_remember (r : Run) (name : String) (x : Float) :
    (r.remember name x).names = name :: r.names := rfl

/-- None of the references that are being followed is remembered. -/
def Apart (chain : List String) (r : Run) : Prop := ∀ n ∈ chain, n ∉ r.names

theorem Apart.mono {chain : List String} {r r' : Run} (h : Apart chain r')
    (grows : ∀ n ∈ r.names, n ∈ r'.names) : Apart chain r :=
  fun n hn remembered => h n hn (grows n remembered)

theorem apart_append {chain : List String} {name : String} {r : Run} (h : Apart chain r)
    (fresh : name ∉ r.names) : Apart (chain ++ [name]) r := by
  intro n hn
  rcases List.mem_append.1 hn with hn | hn
  · exact h n hn
  · rw [List.mem_singleton.1 hn]
    exact fresh

end Run

namespace Context

open Run (Apart)

/-! ## Unfolding look-ups -/

theorem nameMeaning_eq (c : Context) (chain : List String) (name : String) :
    c.nameMeaning chain name =
      match c.datum name with
      | .error _ => .error .usedAfterFree
      | .ok .pending => .error (.undefined name)
      | .ok (.value x) => .ok x
      | .ok (.reference source) =>
        if name ∈ chain then .error (.cycle (chain ++ [name]))
        else
          match Formula.parse source c.runtime with
          | .error e => .error (.unreadable source e)
          | .ok f => f.meaning c.answers (c.nameMeaning (chain ++ [name])) := by
  rw [nameMeaning]
  split
  · next h => rw [h]
  · next h => rw [h]
  · next h => rw [h]
  · next source h =>
    rw [h]
    by_cases onChain : name ∈ chain
    · rw [dif_pos onChain]
      exact (if_pos onChain).symm
    · rw [dif_neg onChain]
      exact (if_neg onChain).symm

/-- A reference that is not on the chain means what its formula means behind it. -/
theorem nameMeaning_follow {c : Context} {chain : List String} {name source : String} {f : Formula}
    (reference : c.datum name = .ok (.reference source)) (fresh : name ∉ chain)
    (parses : Formula.parse source c.runtime = .ok f) :
    c.nameMeaning chain name = f.meaning c.answers (c.nameMeaning (chain ++ [name])) := by
  rw [nameMeaning_eq, reference]
  simp only [if_neg fresh, parses]

/-- What holds of a name if it holds of the names behind it holds of every name: each reference that
is followed leaves fewer of them to follow. -/
theorem follow_induction (c : Context) {claim : List String → String → Prop}
    (each : ∀ chain name, (∀ source, c.datum name = .ok (.reference source) → name ∉ chain →
      ∀ n, claim (chain ++ [name]) n) → claim chain name)
    (chain : List String) (name : String) : claim chain name := by
  induction hn : (c.unresolved chain).length using Nat.strongRecOn generalizing chain name with
  | ind k ih =>
    subst hn
    refine each chain name fun source reference fresh n => ?_
    exact ih _ (unresolved_append_lt reference fresh) (chain ++ [name]) n rfl

/-- Remember the value that a reference came to, if it has one. -/
def remembering (name : String) :
    Except FormulaError Float × Run → Except FormulaError Float × Run
  | (.ok x, r) => (.ok x, r.remember name x)
  | (.error e, r) => (.error e, r)

theorem after_resolve (c : Context) (chain : List String) (name : String) (r : Run) :
    after (c.resolve chain name) r =
      match NameMap.lookupIn name r.resolved with
      | some x => (.ok x, r)
      | none =>
        match c.datum name with
        | .error _ => (.error .usedAfterFree, r)
        | .ok .pending => (.error (.undefined name), r)
        | .ok (.value x) => (.ok x, r)
        | .ok (.reference source) =>
          if name ∈ chain then (.error (.cycle (chain ++ [name])), r)
          else
            match Formula.parse source c.runtime with
            | .error e => (.error (.unreadable source e), r)
            | .ok f =>
              remembering name (after (f.run c.answers (c.resolve (chain ++ [name]))) r) := by
  rw [resolve, after_bind]
  show after (match NameMap.lookupIn name r.resolved with | some x => pure x | none => _) r = _
  split
  · rfl
  · split
    · next h => rw [h]; rfl
    · next h => rw [h]; rfl
    · next h => rw [h]; rfl
    · next source h =>
      rw [h]
      by_cases onChain : name ∈ chain
      · rw [dif_pos onChain]
        simp only [if_pos onChain]
        rfl
      · rw [dif_neg onChain]
        simp only [if_neg onChain]
        cases Formula.parse source c.runtime with
        | error e => rfl
        | ok f =>
          simp only
          rw [after_bind]
          rcases after (f.run c.answers (c.resolve (chain ++ [name]))) r with ⟨e | x, r'⟩ <;> rfl

/-- A reference that is neither remembered nor on the chain is resolved by its formula. -/
theorem after_resolve_follow {c : Context} {chain : List String} {name source : String}
    {f : Formula} {r : Run} (unknown : NameMap.lookupIn name r.resolved = none)
    (reference : c.datum name = .ok (.reference source)) (fresh : name ∉ chain)
    (parses : Formula.parse source c.runtime = .ok f) :
    after (c.resolve chain name) r =
      remembering name (after (f.run c.answers (c.resolve (chain ++ [name]))) r) := by
  rw [after_resolve, unknown, reference]
  simp only [if_neg fresh, parses]

/-! ## Runs that remember what is meant -/

/-- What a run remembers are references, each with the value that it has on every chain without
remembered names. -/
structure Remembers (c : Context) (r : Run) : Prop where
  reference : ∀ entry ∈ r.resolved, ∃ source, c.datum entry.1 = .ok (.reference source)
  value : ∀ entry ∈ r.resolved, ∀ chain, Apart chain r →
    c.nameMeaning chain entry.1 = .ok entry.2

/-- A run that goes on while some references are being followed: it remembers what it did, and
perhaps more, but none of those. -/
structure Extends (c : Context) (chain : List String) (r r' : Run) : Prop where
  remembers : c.Remembers r'
  apart : Apart chain r'
  grows : ∀ n ∈ r.names, n ∈ r'.names

/-- An outcome is what is meant: a value on every chain without remembered names, an error on the
chain that it occurred on. -/
def IsMeant {α : Type} (chain : List String) (r : Run)
    (meant : List String → Except FormulaError α) : Except FormulaError α → Prop
  | .ok x => ∀ other, Apart other r → meant other = .ok x
  | .error e => meant chain = .error e

/-- What a step of a run comes to is what is meant. -/
structure IsFaithful {α : Type} (c : Context) (chain : List String) (r : Run)
    (meant : List String → Except FormulaError α) (result : Except FormulaError α × Run) :
    Prop extends c.Extends chain r result.2 where
  outcome : IsMeant chain result.2 meant result.1

/-- Whatever is remembered when it is taken, a step comes to what is meant. -/
def Computes {α : Type} (c : Context) (chain : List String) (step : RunM α)
    (meant : List String → Except FormulaError α) : Prop :=
  ∀ r, c.Remembers r → Apart chain r → c.IsFaithful chain r meant (after step r)

variable {c : Context} {chain : List String}

theorem Extends.refl {r : Run} (remembers : c.Remembers r) (apart : Apart chain r) :
    c.Extends chain r r :=
  ⟨remembers, apart, fun _ hn => hn⟩

theorem Extends.trans {r₁ r₂ r₃ : Run} (first : c.Extends chain r₁ r₂)
    (second : c.Extends chain r₂ r₃) : c.Extends chain r₁ r₃ :=
  ⟨second.remembers, second.apart, fun n hn => second.grows n (first.grows n hn)⟩

theorem remembers_start : c.Remembers Run.start := by
  constructor <;> intro entry hentry <;> cases hentry

theorem apart_start : Apart chain Run.start := by
  intro n _ hn
  cases hn

/-- Asking the host is nothing to remember. -/
theorem Remembers.ask {r : Run} (h : c.Remembers r) (l : HostLiteral) : c.Remembers (r.ask l) :=
  ⟨h.reference, h.value⟩

/-- A reference that is not being followed any more may be remembered with its value. -/
theorem Remembers.remember {r : Run} (h : c.Remembers r) {name source : String} {x : Float}
    (reference : c.datum name = .ok (.reference source))
    (value : ∀ other, Apart other (r.remember name x) → c.nameMeaning other name = .ok x) :
    c.Remembers (r.remember name x) := by
  constructor
  · intro entry hentry
    rcases List.mem_cons.1 hentry with rfl | hentry
    · exact ⟨source, reference⟩
    · exact h.reference entry hentry
  · intro entry hentry other hother
    rcases List.mem_cons.1 hentry with rfl | hentry
    · exact value other hother
    · exact h.value entry hentry other (hother.mono fun n hn => List.mem_cons_of_mem name hn)

/-! ## Steps -/

theorem computes_pure {α : Type} (x : α) : c.Computes chain (pure x) fun _ => pure x :=
  fun _ remembers apart => ⟨.refl remembers apart, fun _ _ => rfl⟩

theorem computes_lift {α : Type} (e : Except FormulaError α) :
    c.Computes chain (Formula.run.liftExcept e) fun _ => e := by
  intro r remembers apart
  refine ⟨.refl remembers apart, ?_⟩
  cases e with
  | error e => rfl
  | ok x => exact fun _ _ => rfl

theorem computes_bind {α β : Type} {step : RunM α} {next : α → RunM β}
    {meant : List String → Except FormulaError α}
    {meantNext : α → List String → Except FormulaError β}
    (first : c.Computes chain step meant)
    (second : ∀ x, c.Computes chain (next x) (meantNext x)) :
    c.Computes chain (step >>= next) fun other => meant other >>= fun x => meantNext x other := by
  intro r remembers apart
  have hfirst := first r remembers apart
  rw [after_bind]
  generalize after step r = result at hfirst ⊢
  rcases result with ⟨e | x, r₁⟩
  · have failed : meant chain = .error e := hfirst.outcome
    refine ⟨hfirst.toExtends, ?_⟩
    show meant chain >>= _ = _
    rw [failed]
    rfl
  · have hsecond := second x r₁ hfirst.remembers hfirst.apart
    show c.IsFaithful chain r _ (after (next x) r₁)
    generalize after (next x) r₁ = result at hsecond ⊢
    -- A chain without the names that are remembered at the end is without those of the first step.
    have value : ∀ other, Apart other result.2 → meant other = .ok x :=
      fun other hother => hfirst.outcome other (hother.mono hsecond.grows)
    refine ⟨hfirst.toExtends.trans hsecond.toExtends, ?_⟩
    rcases result with ⟨e | y, r₂⟩
    · show meant chain >>= _ = _
      rw [value chain hsecond.apart]
      exact hsecond.outcome
    · intro other hother
      show meant other >>= _ = _
      rw [value other hother]
      exact hsecond.outcome other hother

/-- Evaluating a formula computes its meaning if looking up a name computes that of the name. -/
theorem computes_run {lookup : String → RunM Float}
    (names : ∀ n, c.Computes chain (lookup n) fun other => c.nameMeaning other n) (f : Formula) :
    c.Computes chain (f.run c.answers lookup) fun other =>
      f.meaning c.answers (c.nameMeaning other) := by
  induction f with
  | number x => exact computes_pure x
  | name n => exact names n
  | host l =>
    intro r remembers apart
    exact ⟨⟨remembers.ask l, apart, fun _ hn => hn⟩, fun _ _ => rfl⟩
  | binary op l r ihl ihr =>
    exact computes_bind ihl fun x => computes_bind ihr fun y => computes_lift _
  | negate f ih => exact computes_bind ih fun x => computes_pure (-x)
  | choice condition t f ihc iht ihf =>
    refine computes_bind ihc fun x => ?_
    cases isTrue x with
    | true => exact iht
    | false => exact ihf
  | call g a b iha ihb =>
    exact computes_bind iha fun x => computes_bind ihb fun y => computes_pure (g.apply x y)

/-- A reference is faithfully resolved, and may then be remembered, if its formula is faithfully
evaluated behind it. -/
theorem IsFaithful.follow {name source : String} {f : Formula} {r : Run}
    {result : Except FormulaError Float × Run}
    (inner : c.IsFaithful (chain ++ [name]) r
      (fun other => f.meaning c.answers (c.nameMeaning other)) result)
    (reference : c.datum name = .ok (.reference source)) (fresh : name ∉ chain)
    (parses : Formula.parse source c.runtime = .ok f) :
    c.IsFaithful chain r (fun other => c.nameMeaning other name) (remembering name result) := by
  -- The name itself was being followed, so that it was not remembered on the way.
  have unknown : name ∉ result.2.names := inner.apart name (by simp)
  have apart : Apart chain result.2 := fun n hn => inner.apart n (by simp [hn])
  rcases result with ⟨e | x, r'⟩
  · refine ⟨⟨inner.remembers, apart, inner.grows⟩, ?_⟩
    show c.nameMeaning chain name = .error e
    rw [nameMeaning_follow reference fresh parses]
    exact inner.outcome
  · have value : ∀ other, Apart other (r'.remember name x) → c.nameMeaning other name = .ok x := by
      intro other hother
      have fresh' : name ∉ other := fun hn => hother name hn (by simp)
      have hother' : Apart other r' := hother.mono fun n hn => by simp [hn]
      rw [nameMeaning_follow reference fresh' parses]
      exact inner.outcome _ (Run.apart_append hother' unknown)
    refine ⟨⟨inner.remembers.remember reference value, ?_, fun n hn => ?_⟩, value⟩
    · intro n hn
      show n ∉ name :: r'.names
      rw [List.mem_cons, not_or]
      exact ⟨fun same => fresh (same ▸ hn), apart n hn⟩
    · exact List.mem_cons_of_mem name (inner.grows n hn)

/-- Looking up a name computes the meaning of the name. -/
theorem computes_resolve (c : Context) (chain : List String) (name : String) :
    c.Computes chain (c.resolve chain name) fun other => c.nameMeaning other name := by
  induction chain, name using c.follow_induction with
  | each chain name ih =>
    intro r remembers apart
    have stays := Extends.refl remembers apart
    rw [after_resolve]
    split
    · next x found =>
      -- A remembered name: its value is the one on this chain too, where nothing is remembered.
      have mem := mem_entries_of_lookupIn found
      exact ⟨stays, fun other hother => remembers.value _ mem other hother⟩
    · next absent =>
      split
      · next h => exact ⟨stays, by simp only [IsMeant]; rw [nameMeaning_eq, h]⟩
      · next h => exact ⟨stays, by simp only [IsMeant]; rw [nameMeaning_eq, h]⟩
      · next x h => exact ⟨stays, fun other _ => by rw [nameMeaning_eq, h]⟩
      · next source h =>
        split
        · next onChain =>
          exact ⟨stays, by simp only [IsMeant]; rw [nameMeaning_eq, h]; exact if_pos onChain⟩
        · next fresh =>
          split
          · next e he =>
            refine ⟨stays, ?_⟩
            simp only [IsMeant]
            rw [nameMeaning_eq, h]
            simp only [if_neg fresh, he]
          · next f hf =>
            have apart' := Run.apart_append apart (NameMap.lookupIn_eq_none_iff.1 absent)
            exact (computes_run (ih source h fresh) f r remembers apart').follow h fresh hf

/-! ## Whole evaluations -/

theorem faithful_runFormula (c : Context) (f : Formula) :
    c.IsFaithful [] Run.start (fun other => f.meaning c.answers (c.nameMeaning other))
      (c.runFormula f) :=
  computes_run (fun n => computes_resolve c [] n) f Run.start remembers_start apart_start

/-- An evaluation has the outcome that the formula means. -/
theorem evaluate_outcome (c : Context) (f : Formula) : (c.evaluate f).1 = c.meaning f := by
  have faithful := faithful_runFormula c f
  show (c.runFormula f).1 = _
  generalize c.runFormula f = result at faithful ⊢
  have none : Apart [] result.2 := faithful.apart
  rcases result with ⟨e | x, r⟩
  · exact Eq.symm faithful.outcome
  · exact (faithful.outcome [] none).symm

/-- After a run a name has the value that is remembered of it, or else the datum it had. -/
theorem find?_settled (m : NameMap Datum) (resolved : List (String × Float)) (name : String) :
    (resolved.foldr (fun entry m => m.set entry.1 (.value entry.2)) m).find? name =
      ((NameMap.lookupIn name resolved).map .value).or (m.find? name) := by
  induction resolved with
  | nil => rfl
  | cons entry rest ih =>
    rw [List.foldr_cons, NameMap.find?_set, ih]
    by_cases hn : name = entry.1
    · rw [if_pos hn, NameMap.lookupIn, if_pos hn.symm]
      rfl
    · rw [if_neg hn, NameMap.lookupIn, if_neg (Ne.symm hn)]

theorem get?_settle (c : Context) (r : Run) (name : String) :
    (c.settle r).ids.get? name = c.ids.get? name ∨
      ∃ x, (name, x) ∈ r.resolved ∧ (c.settle r).ids.get? name = .ok (some (.value x)) := by
  unfold settle
  cases hids : c.ids with
  | freed => exact .inl (by rw [hids])
  | live m =>
    cases hx : NameMap.lookupIn name r.resolved with
    | none =>
      refine .inl (congrArg Except.ok ?_)
      rw [find?_settled, hx]
      rfl
    | some x =>
      refine .inr ⟨x, mem_entries_of_lookupIn hx, congrArg Except.ok ?_⟩
      rw [find?_settled, hx]
      rfl

theorem get?_of_reference {name source : String} (h : c.datum name = .ok (.reference source)) :
    c.ids.get? name = .ok (some (.reference source)) := by
  unfold datum at h
  cases hget : c.ids.get? name with
  | error e => rw [hget] at h; cases h
  | ok d =>
    rw [hget] at h
    cases d with
    | none => cases h
    | some d => cases h; rfl

/-- The values of references take their places, so that the names and their order stay. -/
theorem keys_settle_of_remembers {r : Run} (remembers : c.Remembers r) :
    (c.settle r).ids.keys = c.ids.keys := by
  cases hids : c.ids with
  | freed =>
    have same : c.settle r = c := by rw [settle, hids]
    rw [same, hids]
  | live m =>
    have known : ∀ entry ∈ r.resolved, entry.1 ∈ m.keys := by
      intro entry hentry
      obtain ⟨source, h⟩ := remembers.reference entry hentry
      have found := get?_of_reference h
      rw [hids] at found
      by_cases mem : entry.1 ∈ m.keys
      · exact mem
      · have absent : (IdentifierSet.live m).get? entry.1 = .ok none :=
          congrArg Except.ok (NameMap.find?_eq_none_iff.2 mem)
        rw [absent] at found
        cases found
    obtain ⟨m', hm', hkeys⟩ := keys_settle hids known
    rw [hm']
    exact congrArg Except.ok hkeys

/-- The memory of an evaluation cannot be observed: the outcome is what the formula means, also when
it is an error, and afterwards the context is as it was, but for references that now have the
values that they mean. -/
theorem evaluate_memory_unobservable (c : Context) (f : Formula) :
    (c.evaluate f).1 = c.meaning f ∧
      (c.evaluate f).2.runtime = c.runtime ∧
      (c.evaluate f).2.answers = c.answers ∧
      (c.evaluate f).2.ids.keys = c.ids.keys ∧
      ∀ name, (c.evaluate f).2.ids.get? name = c.ids.get? name ∨
        ∃ source x, c.ids.get? name = .ok (some (.reference source)) ∧
          (c.evaluate f).2.ids.get? name = .ok (some (.value x)) ∧
          c.meaning (.name name) = .ok x := by
  have faithful := faithful_runFormula c f
  refine ⟨evaluate_outcome c f, ?_, ?_, ?_, fun name => ?_⟩
  · show (c.settle _).runtime = _
    unfold settle
    split <;> rfl
  · show (c.settle _).answers = _
    unfold settle
    split <;> rfl
  · exact keys_settle_of_remembers faithful.remembers
  · rcases get?_settle c (c.runFormula f).2 name with same | ⟨x, hx, value⟩
    · exact .inl same
    · obtain ⟨source, reference⟩ := faithful.remembers.reference _ hx
      have meant : c.nameMeaning [] name = .ok x :=
        faithful.remembers.value _ hx [] faithful.apart
      exact .inr ⟨source, x, get?_of_reference reference, value, meant⟩

end Context
end PerfFormula
