import PerfFormula.Metric.Reach
import PerfFormula.Proofs.Outcome

/-!
# Walks that come to an end

A walk through the metrics that a metric needs ends well if no metric on it is met again on its own
way, if every metric has a formula that can be parsed, and if the names that are no metrics are
noted as events. These are the branches of a finite tree of metrics, and the tree is what is left of
the walk: what is proved of it by induction holds of every metric that the walk went through.

Main statements:

* `MetricTable.after_walk` — what a walk comes to, in terms of the walks that it consists of.
* `MetricTable.expands_of_events` — where a metric has events, the walk from it came to an end.
-/

namespace PerfFormula
namespace MetricTable

open Events

variable {t : MetricTable} {runtime : Int} {answers : HostLiteral → Float}

/-! ## Steps of a walk -/

/-- Go on with a name that is needed: through a metric, or past an event. -/
def visit (t : MetricTable) (runtime : Int) (answers : HostLiteral → Float) (chain : List String)
    (ident : String) : WalkM Unit :=
  if t.contains ident then t.walk runtime answers chain ident else modify (·.find ident)

theorem after_walk (t : MetricTable) (runtime : Int) (answers : HostLiteral → Float)
    (chain : List String) (name : String) (w : Walk) :
    after (t.walk runtime answers chain name) w =
      if name ∈ chain then (.error (.formula (.cycle (chain ++ [name]))), w)
      else
        match t.find? name with
        | none => (.error (.unknown name), w)
        | some m =>
          match formulaOf m runtime with
          | .error e => (.error (.formula e), w)
          | .ok f =>
            after ((neededBy answers m f).forM (t.visit runtime answers (chain ++ [name])))
              (w.enter f) := by
  rw [walk]
  by_cases onChain : name ∈ chain
  · rw [dif_pos onChain, if_pos onChain]
    rfl
  · rw [dif_neg onChain, if_neg onChain]
    split
    · next found => rw [found]; rfl
    · next m found =>
      simp only [found]
      cases formulaOf m runtime with
      | error e => rfl
      | ok f => rfl

/-- A walk that ended well has found a metric, read its formula and gone on with what it needs. -/
theorem ok_of_walk {chain : List String} {name : String} {w w' : Walk}
    (h : after (t.walk runtime answers chain name) w = (.ok (), w')) :
    ∃ m f, name ∉ chain ∧ t.find? name = some m ∧ formulaOf m runtime = .ok f ∧
      after ((neededBy answers m f).forM (t.visit runtime answers (chain ++ [name])))
        (w.enter f) = (.ok (), w') := by
  rw [after_walk] at h
  split at h
  · cases h
  · next fresh =>
    split at h
    · cases h
    · next m found =>
      split at h
      · cases h
      · next f parses => exact ⟨m, f, fresh, found, parses, h⟩

/-- What holds of a walk if it holds of the walks behind it holds of every walk: each metric that is
gone through leaves fewer of them to go through. -/
theorem walk_induction (t : MetricTable) {claim : List String → String → Prop}
    (each : ∀ chain name, (∀ m, t.find? name = some m → name ∉ chain →
      ∀ i, claim (chain ++ [name]) i) → claim chain name)
    (chain : List String) (name : String) : claim chain name := by
  induction hn : (t.openNames chain).length using Nat.strongRecOn generalizing chain name with
  | ind k ih =>
    subst hn
    refine each chain name fun m found fresh i => ?_
    exact ih _ (open_append_lt found fresh) (chain ++ [name]) i rfl

/-! ## What is left of a walk that came to an end -/

/-- A walk through the metric `name` comes to an end, where `chain` are the metrics on the way to it
and `events` the events that are noted in the end. -/
inductive Expands (t : MetricTable) (runtime : Int) (answers : HostLiteral → Float)
    (events : List String) : List String → String → Prop where
  | intro {chain : List String} {name : String} {m : Metric} {f : Formula} :
      name ∉ chain → t.find? name = some m → formulaOf m runtime = .ok f →
      (∀ i ∈ neededBy answers m f, i ∈ t.names →
        Expands t runtime answers events (chain ++ [name]) i) →
      (∀ i ∈ neededBy answers m f, i ∉ t.names → i ∈ events) →
      Expands t runtime answers events chain name

/-- A step of a walk that keeps the events noted before it, and that does what is claimed of it
whatever events are noted later. -/
def Attains (step : WalkM Unit) (claim : List String → Prop) : Prop :=
  ∀ w w', after step w = (.ok (), w') → (∀ e ∈ w.events, e ∈ w'.events) ∧
    ∀ events, (∀ e ∈ w'.events, e ∈ events) → claim events

theorem attains_find (event : String) :
    Attains (modify (·.find event)) fun events => event ∈ events := by
  intro w w' h
  obtain rfl : w.find event = w' := (Prod.mk.inj h).2
  unfold Walk.find
  split
  · next noted => exact ⟨fun _ he => he, fun events sub => sub event noted⟩
  · refine ⟨fun e he => List.mem_append_left _ he, fun events sub => sub event ?_⟩
    exact List.mem_append_right _ (List.mem_singleton.2 rfl)

theorem attains_forM {step : String → WalkM Unit} {claim : String → List String → Prop}
    {names : List String} (each : ∀ n ∈ names, Attains (step n) (claim n)) :
    Attains (names.forM step) fun events => ∀ n ∈ names, claim n events := by
  induction names with
  | nil =>
    intro w w' h
    obtain rfl : w = w' := (Prod.mk.inj h).2
    exact ⟨fun _ he => he, fun _ _ n hn => by cases hn⟩
  | cons first rest ih =>
    intro w w' h
    obtain ⟨w₁, hfirst, hrest⟩ := ok_of_forM_cons h
    obtain ⟨grows₁, claim₁⟩ := each first (by simp) w w₁ hfirst
    obtain ⟨grows₂, claim₂⟩ := ih (fun n hn => each n (by simp [hn])) w₁ w' hrest
    refine ⟨fun e he => grows₂ e (grows₁ e he), fun events sub n hn => ?_⟩
    rcases List.mem_cons.1 hn with rfl | hn
    · exact claim₁ events fun e he => sub e (grows₂ e he)
    · exact claim₂ events sub n hn

theorem attains_visit {chain : List String} {i : String}
    (walks : Attains (t.walk runtime answers chain i) fun events =>
      t.Expands runtime answers events chain i) :
    Attains (t.visit runtime answers chain i) fun events =>
      (i ∈ t.names → t.Expands runtime answers events chain i) ∧ (i ∉ t.names → i ∈ events) := by
  intro w w' h
  unfold visit at h
  split at h
  · next isMetric =>
    have mem : i ∈ t.names := of_decide_eq_true isMetric
    obtain ⟨grows, expands⟩ := walks w w' h
    exact ⟨grows, fun events sub => ⟨fun _ => expands events sub, absurd mem⟩⟩
  · next isEvent =>
    have notMem : i ∉ t.names := fun mem => isEvent (decide_eq_true mem)
    obtain ⟨grows, noted⟩ := attains_find i w w' h
    refine ⟨grows, fun events sub => ⟨fun mem => absurd mem notMem, fun _ => ?_⟩⟩
    exact noted events sub

/-- A walk that ended well has gone through a finite tree of metrics. -/
theorem attains_walk (t : MetricTable) (runtime : Int) (answers : HostLiteral → Float)
    (chain : List String) (name : String) :
    Attains (t.walk runtime answers chain name) fun events =>
      t.Expands runtime answers events chain name := by
  induction chain, name using t.walk_induction with
  | each chain name ih =>
    intro w w' h
    obtain ⟨m, f, fresh, found, parses, h⟩ := ok_of_walk h
    have each : ∀ i ∈ neededBy answers m f,
        Attains (t.visit runtime answers (chain ++ [name]) i) _ := fun i _ =>
      attains_visit (ih m found fresh i)
    obtain ⟨grows, claim⟩ := attains_forM each (w.enter f) w' h
    refine ⟨grows, fun events sub => .intro fresh found parses ?_ ?_⟩
    · exact fun i hi => (claim events sub i hi).1
    · exact fun i hi => (claim events sub i hi).2

/-! ## Whole walks -/

theorem ok_of_events {name : String} {events : List String}
    (h : t.events name runtime answers = .ok events) :
    ∃ w, after (t.walk runtime answers [] name) Walk.start = (.ok (), w) ∧ w.events = events := by
  unfold MetricTable.events walkFrom at h
  rcases hwalk : after (t.walk runtime answers [] name) Walk.start with ⟨e | u, w⟩
  · rw [show (t.walk runtime answers [] name).run.run Walk.start = (.error e, w) from hwalk] at h
    cases h
  · rw [show (t.walk runtime answers [] name).run.run Walk.start = (.ok u, w) from hwalk] at h
    exact ⟨w, rfl, Except.ok.inj h⟩

theorem error_of_events {name : String} {e : ResolveError}
    (h : t.events name runtime answers = .error e) :
    ∃ w, after (t.walk runtime answers [] name) Walk.start = (.error e, w) := by
  unfold MetricTable.events walkFrom at h
  rcases hwalk : after (t.walk runtime answers [] name) Walk.start with ⟨e' | u, w⟩
  · rw [show (t.walk runtime answers [] name).run.run Walk.start = (.error e', w) from hwalk] at h
    cases h
    exact ⟨w, rfl⟩
  · rw [show (t.walk runtime answers [] name).run.run Walk.start = (.ok u, w) from hwalk] at h
    cases h

/-- Where a metric has events, the walk from it came to an end. -/
theorem expands_of_events {name : String} {events : List String}
    (h : t.events name runtime answers = .ok events) :
    t.Expands runtime answers events [] name := by
  obtain ⟨w, ended, rfl⟩ := ok_of_events h
  exact (attains_walk t runtime answers [] name Walk.start w ended).2 _ fun _ he => he

end MetricTable
end PerfFormula
