/-!
# Outcomes

Computations that end with a value or with an error, one after the other. Some of them also change a
state, and keep what they changed when they fail.

Main statements:

* `ok_of_bind`, `error_of_bind` — what became of the parts of a computation that ended.
  `ok_of_after_bind` and `error_of_after_bind` say the same where there is a state.
* `mapM_isOk_iff`, `mapM_eq_ok`, `error_of_mapM` — a list of outcomes has values if every one of
  them has.
* `foldlM_eq_error_iff` — a fold stops at the first element that its step refuses.
* `after_bind` — the state that a first computation leaves is the one that the second starts from.
* `error_of_forM` — a computation for each of some things fails in one of them.
-/

namespace PerfFormula

/-! ## Computations without a state -/

theorem ok_of_bind {ε α β : Type} {e : Except ε α} {next : α → Except ε β} {y : β}
    (h : e >>= next = .ok y) : ∃ x, e = .ok x ∧ next x = .ok y := by
  cases e with
  | error e => cases h
  | ok x => exact ⟨x, rfl, h⟩

theorem error_of_bind {ε α β : Type} {e : Except ε α} {next : α → Except ε β} {d : ε}
    (h : e >>= next = .error d) : e = .error d ∨ ∃ x, e = .ok x ∧ next x = .error d := by
  cases e with
  | error e =>
    cases h
    exact .inl rfl
  | ok x => exact .inr ⟨x, rfl, h⟩

theorem mapError_eq_ok_iff {ε δ α : Type} {e : Except ε α} {g : ε → δ} {x : α} :
    e.mapError g = .ok x ↔ e = .ok x := by
  cases e with
  | error e => exact ⟨fun h => (by cases h), fun h => (by cases h)⟩
  | ok y => exact ⟨fun h => congrArg _ (Except.ok.inj h), fun h => congrArg _ (Except.ok.inj h)⟩

theorem mapError_eq_error_iff {ε δ α : Type} {e : Except ε α} {g : ε → δ} {d : δ} :
    e.mapError g = .error d ↔ ∃ e', e = .error e' ∧ g e' = d := by
  cases e with
  | error e =>
    constructor
    · intro h
      exact ⟨e, rfl, Except.error.inj h⟩
    · rintro ⟨e', h, rfl⟩
      rw [Except.error.inj h]
      rfl
  | ok y =>
    constructor
    · intro h
      cases h
    · rintro ⟨e', h, -⟩
      cases h

theorem map_eq_ok_iff {ε α β : Type} {e : Except ε α} {g : α → β} {y : β} :
    e.map g = .ok y ↔ ∃ x, e = .ok x ∧ g x = y := by
  cases e with
  | error e =>
    constructor
    · intro h
      cases h
    · rintro ⟨x, h, -⟩
      cases h
  | ok x =>
    constructor
    · exact fun h => ⟨x, rfl, Except.ok.inj h⟩
    · rintro ⟨_, h, rfl⟩
      rw [Except.ok.inj h]
      rfl

theorem map_eq_error_iff {ε α β : Type} {e : Except ε α} {g : α → β} {d : ε} :
    e.map g = .error d ↔ e = .error d := by
  cases e with
  | error e =>
    exact ⟨fun h => congrArg _ (Except.error.inj h), fun h => congrArg _ (Except.error.inj h)⟩
  | ok x => exact ⟨fun h => (by cases h), fun h => (by cases h)⟩

theorem mapError_bind {ε δ α β : Type} (e : Except ε α) (next : α → Except ε β) (g : ε → δ) :
    (e >>= next).mapError g = e.mapError g >>= fun x => (next x).mapError g := by
  cases e <;> rfl

/-- The error of a fold told in another way is the error of a fold whose steps tell it so. -/
theorem foldlM_mapError {ε δ α β : Type} (f : β → α → Except ε β) (g : ε → δ) (b : β)
    (xs : List α) :
    (xs.foldlM f b).mapError g = xs.foldlM (fun b x => (f b x).mapError g) b := by
  induction xs generalizing b with
  | nil => rfl
  | cons x xs ih =>
    rw [List.foldlM_cons, List.foldlM_cons, mapError_bind]
    exact congrArg _ (funext ih)

theorem foldlM_cons_eq_error_iff {ε α β : Type} {f : β → α → Except ε β} {b : β} {x : α}
    {xs : List α} {e : ε} :
    (x :: xs).foldlM f b = .error e ↔
      f b x = .error e ∨ ∃ b', f b x = .ok b' ∧ xs.foldlM f b' = .error e := by
  rw [List.foldlM_cons]
  constructor
  · exact error_of_bind
  · rintro (failed | ⟨b', done, failed⟩)
    · rw [failed]
      rfl
    · rw [done]
      exact failed

/-- A fold stops at the first element that its step refuses, and fails as the step does. -/
theorem foldlM_eq_error_iff {ε α β : Type} {f : β → α → Except ε β} {b : β} {xs : List α} {e : ε} :
    xs.foldlM f b = .error e ↔
      ∃ before x behind b', xs = before ++ x :: behind ∧ before.foldlM f b = .ok b' ∧
        f b' x = .error e := by
  induction xs generalizing b with
  | nil =>
    constructor
    · intro failed
      cases failed
    · rintro ⟨before, x, behind, b', split, -⟩
      simp at split
  | cons first rest ih =>
    rw [foldlM_cons_eq_error_iff]
    constructor
    · rintro (failed | ⟨b₁, done, failed⟩)
      · exact ⟨[], first, rest, b, rfl, rfl, failed⟩
      · obtain ⟨before, x, behind, b', rfl, read, failed⟩ := ih.1 failed
        refine ⟨first :: before, x, behind, b', rfl, ?_, failed⟩
        rw [List.foldlM_cons, done]
        exact read
    · rintro ⟨before, x, behind, b', split, read, failed⟩
      cases before with
      | nil =>
        obtain ⟨rfl, rfl⟩ := List.cons.inj split
        cases read
        exact .inl failed
      | cons first' before =>
        obtain ⟨rfl, rfl⟩ := List.cons.inj split
        -- The first element was taken, so the fold stopped among the others.
        obtain ⟨b₁, done, read⟩ := ok_of_bind (List.foldlM_cons (m := Except ε) ▸ read)
        exact .inr ⟨b₁, done, ih.2 ⟨before, x, behind, b', rfl, read, failed⟩⟩

/-! ## Lists of outcomes -/

theorem mapM_isOk_iff {ε α β : Type} {f : α → Except ε β} {xs : List α} :
    (∃ ys, xs.mapM f = .ok ys) ↔ ∀ x ∈ xs, ∃ y, f x = .ok y := by
  induction xs with
  | nil => exact ⟨fun _ x mem => (by cases mem), fun _ => ⟨[], rfl⟩⟩
  | cons x xs ih =>
    rw [List.forall_mem_cons, ← ih, List.mapM_cons]
    constructor
    · rintro ⟨ys, done⟩
      obtain ⟨y, first, done⟩ := ok_of_bind done
      obtain ⟨rest, others, -⟩ := ok_of_bind done
      exact ⟨⟨y, first⟩, rest, others⟩
    · rintro ⟨⟨y, first⟩, ys, others⟩
      rw [first, others]
      exact ⟨y :: ys, rfl⟩

theorem mapM_eq_ok {ε α β : Type} {f : α → Except ε β} {g : α → β} {xs : List α}
    (each : ∀ x ∈ xs, f x = .ok (g x)) : xs.mapM f = .ok (xs.map g) := by
  induction xs with
  | nil => rfl
  | cons x xs ih =>
    have others := ih fun y mem => each y (List.mem_cons_of_mem x mem)
    rw [List.mapM_cons, each x List.mem_cons_self, others]
    rfl

/-- What one map makes of each value, another one makes of what it was made from. -/
theorem mapM_of_mapM {ε ε' α β γ : Type} {f : α → Except ε β} {g : α → Except ε' γ} {h : β → γ}
    {xs : List α} {ys : List β} (each : ∀ x ∈ xs, ∀ y, f x = .ok y → g x = .ok (h y))
    (done : xs.mapM f = .ok ys) : xs.mapM g = .ok (ys.map h) := by
  induction xs generalizing ys with
  | nil =>
    cases done
    rfl
  | cons x xs ih =>
    rw [List.mapM_cons] at done
    obtain ⟨y, first, done⟩ := ok_of_bind done
    obtain ⟨rest, others, done⟩ := ok_of_bind done
    cases done
    rw [List.mapM_cons, each x List.mem_cons_self y first,
      ih (fun x mem => each x (List.mem_cons_of_mem _ mem)) others]
    rfl

theorem length_of_mapM {ε α β : Type} {f : α → Except ε β} {xs : List α} {ys : List β}
    (done : xs.mapM f = .ok ys) : ys.length = xs.length := by
  have same : xs.mapM (fun _ => Except.ok ()) = (.ok (ys.map fun _ => ()) : Except ε _) :=
    mapM_of_mapM (fun _ _ _ _ => rfl) done
  have all : xs.mapM (fun _ => Except.ok ()) = (.ok (xs.map fun _ => ()) : Except ε _) :=
    mapM_eq_ok fun _ _ => rfl
  rw [same] at all
  simpa using congrArg List.length (Except.ok.inj all)

theorem error_of_mapM {ε α β : Type} {f : α → Except ε β} {xs : List α} {e : ε}
    (failed : xs.mapM f = .error e) : ∃ x ∈ xs, f x = .error e := by
  induction xs with
  | nil => cases failed
  | cons x xs ih =>
    rw [List.mapM_cons] at failed
    rcases error_of_bind failed with first | ⟨y, -, failed⟩
    · exact ⟨x, List.mem_cons_self, first⟩
    · rcases error_of_bind failed with others | ⟨ys, -, failed⟩
      · obtain ⟨x', mem, h⟩ := ih others
        exact ⟨x', List.mem_cons_of_mem _ mem, h⟩
      · cases failed

/-! ## Computations that change a state -/

/-- What a computation comes to from a state: how it ends, and the state that it leaves. -/
abbrev after {ε σ α : Type} (step : ExceptT ε (StateM σ) α) (s : σ) : Except ε α × σ :=
  step.run.run s

theorem after_bind {ε σ α β : Type} (step : ExceptT ε (StateM σ) α)
    (next : α → ExceptT ε (StateM σ) β) (s : σ) :
    after (step >>= next) s =
      match after step s with
      | (.ok x, s') => after (next x) s'
      | (.error e, s') => (.error e, s') := by
  rw [after, ExceptT.run_bind, StateT.run_bind]
  rcases h : step.run.run s with ⟨e | x, s'⟩
  · rw [after, h]
    rfl
  · rw [after, h]
    rfl

theorem ok_of_after_bind {ε σ α β : Type} {step : ExceptT ε (StateM σ) α}
    {next : α → ExceptT ε (StateM σ) β} {s s' : σ} {y : β}
    (h : after (step >>= next) s = (.ok y, s')) :
    ∃ x s₁, after step s = (.ok x, s₁) ∧ after (next x) s₁ = (.ok y, s') := by
  rw [after_bind] at h
  rcases hstep : after step s with ⟨e | x, s₁⟩
  · rw [hstep] at h
    cases h
  · rw [hstep] at h
    exact ⟨x, s₁, rfl, h⟩

theorem error_of_after_bind {ε σ α β : Type} {step : ExceptT ε (StateM σ) α}
    {next : α → ExceptT ε (StateM σ) β} {s s' : σ} {e : ε}
    (h : after (step >>= next) s = (.error e, s')) :
    after step s = (.error e, s') ∨
      ∃ x s₁, after step s = (.ok x, s₁) ∧ after (next x) s₁ = (.error e, s') := by
  rw [after_bind] at h
  rcases hstep : after step s with ⟨e₁ | x, s₁⟩
  · rw [hstep] at h
    cases h
    exact .inl rfl
  · rw [hstep] at h
    exact .inr ⟨x, s₁, rfl, h⟩

/-! ## Computations for each of some things -/

theorem forM_cons {ε σ α : Type} (step : α → ExceptT ε (StateM σ) Unit) (first : α)
    (rest : List α) : (first :: rest).forM step = step first >>= fun _ => rest.forM step := rfl

theorem ok_of_forM_cons {ε σ α : Type} {step : α → ExceptT ε (StateM σ) Unit} {first : α}
    {rest : List α} {s s' : σ} (h : after ((first :: rest).forM step) s = (.ok (), s')) :
    ∃ s₁, after (step first) s = (.ok (), s₁) ∧ after (rest.forM step) s₁ = (.ok (), s') := by
  rw [forM_cons] at h
  obtain ⟨_, s₁, hfirst, hrest⟩ := ok_of_after_bind h
  exact ⟨s₁, hfirst, hrest⟩

theorem error_of_forM {ε σ α : Type} {step : α → ExceptT ε (StateM σ) Unit} {xs : List α}
    {s s' : σ} {e : ε} (failed : after (xs.forM step) s = (.error e, s')) :
    ∃ x ∈ xs, ∃ s₁, after (step x) s₁ = (.error e, s') := by
  induction xs generalizing s with
  | nil => cases failed
  | cons first rest ih =>
    rw [forM_cons] at failed
    rcases error_of_after_bind failed with hfirst | ⟨_, s₁, -, hrest⟩
    · exact ⟨first, List.mem_cons_self, s, hfirst⟩
    · obtain ⟨x, hx, s₂, h⟩ := ih hrest
      exact ⟨x, List.mem_cons_of_mem _ hx, s₂, h⟩

end PerfFormula
