import PerfFormula.Proofs.Cycles
import PerfFormula.Proofs.Sufficiency

/-!
# The events of a metric

The events of a metric are the names that are reached from it and are no metrics, in the order in
which a depth-first walk first meets them. The walk goes through a metric again wherever it is
needed, so it may meet an event many times. What it meets is said here by a relation between the
names to go through and the events on the way, which knows neither the chain of the walk nor what
was noted before.

Main statements:

* `MetricTable.mem_of_depthFirst` — a depth-first walk meets the events that are reached.
* `MetricTable.notes_walk` — a walk that ends well notes what a depth-first walk meets.
* `MetricTable.events_of_isReadable` — what a metric whose formulas can be read has for events.
-/

namespace PerfFormula

namespace Events

/-! ## Noting events -/

/-- Note an event behind those that are noted, unless it is one of them. -/
def note (noted : List String) (event : String) : List String :=
  if event ∈ noted then noted else noted ++ [event]

theorem events_find (w : Walk) (event : String) : (w.find event).events = note w.events event := by
  unfold Walk.find note
  split <;> rfl

theorem nodup_note {noted : List String} (h : noted.Nodup) (event : String) :
    (note noted event).Nodup := by
  rw [← events_find ⟨noted, []⟩ event]
  exact Walk.find_nodup h event

/-- Noting some events one after the other keeps the first occurrence of each. -/
theorem foldl_note (met : List String) : met.foldl note [] = met.eraseDups := by
  induction met using List.reverseRecOn with
  | nil => rfl
  | append_singleton met event ih =>
    rw [List.foldl_append, ih, List.eraseDups_append]
    show note met.eraseDups event = met.eraseDups ++ ([event].removeAll met).eraseDups
    by_cases noted : event ∈ met
    · have gone : [event].removeAll met = [] := by simp [List.removeAll, noted]
      rw [gone, note, if_pos (List.mem_eraseDups.2 noted)]
      simp
    · have stays : [event].removeAll met = [event] := by simp [List.removeAll, noted]
      rw [stays, note, if_neg fun h => noted (List.mem_eraseDups.1 h)]
      rfl

theorem nodup_eraseDups (met : List String) : met.eraseDups.Nodup := by
  rw [← foldl_note]
  induction met using List.reverseRecOn with
  | nil => exact List.nodup_nil
  | append_singleton met event ih =>
    rw [List.foldl_append]
    exact nodup_note ih event

end Events

namespace MetricTable

open Events

variable {t : MetricTable} {runtime : Int} {answers : HostLiteral → Float}

/-! ## Depth-first walks -/

/-- A depth-first walk through some names, one after the other, meets these events in this order,
each as often as it comes to it. For a metric it goes through what its formula needs, in the order
in which it is needed, before it goes on. -/
inductive DepthFirst (t : MetricTable) (runtime : Int) (answers : HostLiteral → Float) :
    List String → List String → Prop where
  | done : DepthFirst t runtime answers [] []
  | event {i : String} {rest met : List String} :
      i ∉ t.names → DepthFirst t runtime answers rest met →
      DepthFirst t runtime answers (i :: rest) (i :: met)
  | metric {i : String} {m : Metric} {f : Formula} {rest within met : List String} :
      t.find? i = some m → formulaOf m runtime = .ok f →
      DepthFirst t runtime answers (neededBy answers m f) within →
      DepthFirst t runtime answers rest met →
      DepthFirst t runtime answers (i :: rest) (within ++ met)

theorem DepthFirst.append {first second met met' : List String}
    (h : t.DepthFirst runtime answers first met) (h' : t.DepthFirst runtime answers second met') :
    t.DepthFirst runtime answers (first ++ second) (met ++ met') := by
  induction h with
  | done => exact h'
  | event isEvent _ ih => exact .event isEvent ih
  | metric found parses within _ _ ih =>
    rw [List.append_assoc]
    exact .metric found parses within ih

/-- There is only one way to walk depth first. -/
theorem DepthFirst.unique {names met met' : List String}
    (h : t.DepthFirst runtime answers names met) (h' : t.DepthFirst runtime answers names met') :
    met = met' := by
  induction h generalizing met' with
  | done =>
    cases h'
    rfl
  | event isEvent _ ih =>
    cases h' with
    | event _ rest => rw [ih rest]
    | metric found => exact absurd (mem_names_of_find? found) isEvent
  | metric found parses _ _ ihWithin ih =>
    cases h' with
    | event isEvent => exact absurd (mem_names_of_find? found) isEvent
    | metric found' parses' within rest =>
      cases Option.some.inj (found.symm.trans found')
      cases Except.ok.inj (parses.symm.trans parses')
      rw [ihWithin within, ih rest]

/-- From a metric the events are reached that are reached from what its formula needs. -/
theorem isEventOf_metric {i e : String} {m : Metric} {f : Formula} (found : t.find? i = some m)
    (parses : formulaOf m runtime = .ok f) :
    t.IsEventOf runtime answers i e ↔
      ∃ k ∈ neededBy answers m f, t.IsEventOf runtime answers k e := by
  constructor
  · rintro ⟨reaches, isEvent⟩
    rcases reaches.cases_head with rfl | ⟨k, needs, reaches⟩
    · exact absurd (mem_names_of_find? found) isEvent
    · exact ⟨k, (needs_iff found parses).1 needs, reaches, isEvent⟩
  · rintro ⟨k, mem, reaches, isEvent⟩
    have needs : t.Needs runtime answers i k := (needs_iff found parses).2 mem
    exact ⟨Reaches.trans (.step .refl needs) reaches, isEvent⟩

/-- A depth-first walk meets the events that are reached from the names that it goes through. -/
theorem mem_of_depthFirst {names met : List String} (h : t.DepthFirst runtime answers names met)
    (e : String) : e ∈ met ↔ ∃ i ∈ names, t.IsEventOf runtime answers i e := by
  induction h with
  | done => simp
  | @event i rest met isEvent _ ih =>
    have itself : t.IsEventOf runtime answers i e ↔ e = i := by
      constructor
      · rintro ⟨reaches, -⟩
        exact (reaches.eq_of_event isEvent).symm
      · rintro rfl
        exact ⟨.refl, isEvent⟩
    rw [List.mem_cons, ih, List.exists_mem_cons_iff, itself]
  | @metric i m f rest within met found parses _ _ ihWithin ih =>
    rw [List.mem_append, ihWithin, ih, List.exists_mem_cons_iff, isEventOf_metric found parses]

/-! ## What a walk notes -/

/-- A step of a walk that ends well notes events that it meets, one after the other. -/
def Notes (step : WalkM Unit) (meets : List String → Prop) : Prop :=
  ∀ w w', after step w = (.ok (), w') → ∃ met, meets met ∧ w'.events = met.foldl note w.events

theorem notes_find (event : String) :
    Notes (modify (·.find event)) fun met => met = [event] := by
  intro w w' h
  obtain rfl : w.find event = w' := (Prod.mk.inj h).2
  exact ⟨[event], rfl, events_find w event⟩

/-- Going on with some names one after the other meets what a depth-first walk through them does. -/
theorem notes_forM {step : String → WalkM Unit} {names : List String}
    (each : ∀ n ∈ names, Notes (step n) (t.DepthFirst runtime answers [n])) :
    Notes (names.forM step) (t.DepthFirst runtime answers names) := by
  induction names with
  | nil =>
    intro w w' h
    obtain rfl : w = w' := (Prod.mk.inj h).2
    exact ⟨[], .done, rfl⟩
  | cons first rest ih =>
    intro w w' h
    obtain ⟨w₁, hfirst, hrest⟩ := ok_of_forM_cons h
    obtain ⟨met₁, walked₁, noted₁⟩ := each first List.mem_cons_self w w₁ hfirst
    obtain ⟨met₂, walked₂, noted₂⟩ :=
      ih (fun n hn => each n (List.mem_cons_of_mem _ hn)) w₁ w' hrest
    refine ⟨met₁ ++ met₂, walked₁.append walked₂, ?_⟩
    rw [List.foldl_append, ← noted₁]
    exact noted₂

theorem notes_visit {chain : List String} {i : String}
    (walks : Notes (t.walk runtime answers chain i) (t.DepthFirst runtime answers [i])) :
    Notes (t.visit runtime answers chain i) (t.DepthFirst runtime answers [i]) := by
  intro w w' h
  unfold visit at h
  split at h
  · exact walks w w' h
  · next isEvent =>
    obtain ⟨met, rfl, noted⟩ := notes_find i w w' h
    have notMetric : i ∉ t.names := fun known => isEvent (decide_eq_true known)
    exact ⟨[i], .event notMetric .done, noted⟩

/-- A walk that ends well notes what a depth-first walk meets. -/
theorem notes_walk (t : MetricTable) (runtime : Int) (answers : HostLiteral → Float)
    (chain : List String) (name : String) :
    Notes (t.walk runtime answers chain name) (t.DepthFirst runtime answers [name]) := by
  induction chain, name using t.walk_induction with
  | each chain name ih =>
    intro w w' h
    obtain ⟨m, f, fresh, found, parses, h⟩ := ok_of_walk h
    obtain ⟨met, within, noted⟩ :=
      notes_forM (fun i _ => notes_visit (ih m found fresh i)) (w.enter f) w' h
    -- The walk through the metric alone is the walk through what its formula needs.
    have whole : t.DepthFirst runtime answers [name] (met ++ []) :=
      .metric found parses within .done
    rw [List.append_nil] at whole
    exact ⟨met, whole, noted⟩

/-- The events of a metric are those that a depth-first walk from it meets, each where it is met
first. -/
theorem depthFirst_of_events {name : String} {events : List String}
    (h : t.events name runtime answers = .ok events) :
    ∃ met, t.DepthFirst runtime answers [name] met ∧ events = met.eraseDups := by
  obtain ⟨w, ended, rfl⟩ := ok_of_events h
  obtain ⟨met, walked, noted⟩ := notes_walk t runtime answers [] name Walk.start w ended
  exact ⟨met, walked, noted.trans (foldl_note met)⟩

/-! ## The events of a metric -/

theorem isEventOf_iff {name e : String} (known : name ∈ t.names) :
    t.IsEventOf runtime answers name e ↔
      (∃ m, t.Reaches runtime answers name m ∧ t.Needs runtime answers m e) ∧ e ∉ t.names := by
  constructor
  · rintro ⟨reaches, isEvent⟩
    cases reaches with
    | refl => exact absurd known isEvent
    | step reaches needs => exact ⟨⟨_, reaches, needs⟩, isEvent⟩
  · rintro ⟨⟨m, reaches, needs⟩, isEvent⟩
    exact ⟨reaches.step needs, isEvent⟩

/-- What becomes of the events of a metric if every formula on the way can be read. A cycle is
reported exactly when a metric on one is reached, and the report lists a walk that closes a loop.
Otherwise the events are the names that reached metrics need and that are no metrics, each once and
in the order in which a depth-first walk first meets them. -/
theorem events_of_isReadable {name : String} (known : name ∈ t.names)
    (readable : t.IsReadable runtime answers name) :
    ((∃ loop, t.events name runtime answers = .error (.formula (.cycle loop))) ↔
      ∃ m, t.Reaches runtime answers name m ∧ t.IsCyclic runtime answers m) ∧
    (∀ loop, t.events name runtime answers = .error (.formula (.cycle loop)) →
      ClosesLoop (t.Needs runtime answers) name loop) ∧
    ((¬∃ m, t.Reaches runtime answers name m ∧ t.IsCyclic runtime answers m) →
      ∃ events, t.events name runtime answers = .ok events ∧ events.Nodup ∧
        (∀ e, e ∈ events ↔
          (∃ m, t.Reaches runtime answers name m ∧ t.Needs runtime answers m e) ∧ e ∉ t.names) ∧
        (∃ met, t.DepthFirst runtime answers [name] met) ∧
        ∀ met, t.DepthFirst runtime answers [name] met → events = met.eraseDups) := by
  refine ⟨events_eq_cycle_iff known readable, ?_, fun acyclic => ?_⟩
  · intro loop failed
    obtain ⟨loop', same, closes⟩ := closesLoop_of_events_error known readable failed
    cases same
    exact closes
  · cases outcome : t.events name runtime answers with
    | error e =>
      obtain ⟨loop, rfl, -⟩ := closesLoop_of_events_error known readable outcome
      exact absurd ((events_eq_cycle_iff known readable).1 ⟨loop, outcome⟩) acyclic
    | ok events =>
      obtain ⟨met, walked, rfl⟩ := depthFirst_of_events outcome
      refine ⟨met.eraseDups, rfl, nodup_eraseDups met, fun e => ?_, ⟨met, walked⟩, ?_⟩
      · rw [List.mem_eraseDups, mem_of_depthFirst walked, ← isEventOf_iff known]
        simp
      · intro met' walked'
        rw [walked.unique walked']

/-- A metric that names itself and comes to the same events in several ways, and two metrics that
need each other. -/
def shared : MetricTable :=
  ⟨[bare "total" "hits + misses" (by cbv) (by decide),
    bare "ratio" "misses / total" (by cbv) (by decide),
    bare "gap" "ratio - d_ratio(gap, hits) / total" (by cbv) (by decide),
    bare "ping" "pong + hits" (by cbv) (by decide),
    bare "pong" "total if ping else misses" (by cbv) (by decide)], by decide⟩

theorem isReadable_shared (name : String) : shared.IsReadable 0 answers name := by
  intro i m _ found
  have mem := (of_find? found).1
  simp only [shared, List.mem_cons, List.not_mem_nil, or_false] at mem
  rcases mem with rfl | rfl | rfl | rfl | rfl
  · exact ⟨.binary .add (.name "hits") (.name "misses"), by cbv⟩
  · exact ⟨.binary .div (.name "misses") (.name "total"), by cbv⟩
  · exact ⟨.binary .sub (.name "ratio") (.binary .div (.call .ratio (.name "gap") (.name "hits"))
      (.name "total")), by cbv⟩
  · exact ⟨.binary .add (.name "pong") (.name "hits"), by cbv⟩
  · exact ⟨.choice (.name "ping") (.name "total") (.name "misses"), by cbv⟩

/-- One metric of the table has events, another one reaches itself. -/
theorem events_shared :
    ("gap" ∈ shared.names ∧ shared.IsReadable 0 (fun _ => 0.0) "gap" ∧
      shared.events "gap" 0 (fun _ => 0.0) = .ok ["misses", "hits"] ∧
      (∃ met, shared.DepthFirst 0 (fun _ => 0.0) ["gap"] met) ∧
      ∀ met, shared.DepthFirst 0 (fun _ => 0.0) ["gap"] met → ["misses", "hits"] = met.eraseDups) ∧
    "ping" ∈ shared.names ∧ shared.IsReadable 0 (fun _ => 0.0) "ping" ∧
      shared.events "ping" 0 (fun _ => 0.0) = .error (.formula (.cycle ["ping", "pong", "ping"])) ∧
      ClosesLoop (shared.Needs 0 fun _ => 0.0) "ping" ["ping", "pong", "ping"] := by
  have outcome : shared.events "gap" 0 (fun _ => 0.0) = .ok ["misses", "hits"] := by cbv
  have failed : shared.events "ping" 0 (fun _ => 0.0) =
      .error (.formula (.cycle ["ping", "pong", "ping"])) := by cbv
  have readable : ∀ name, shared.IsReadable 0 (fun _ => 0.0) name := isReadable_shared
  have known : "gap" ∈ shared.names ∧ "ping" ∈ shared.names := by decide
  obtain ⟨cyclic, -, found⟩ := events_of_isReadable known.1 (readable "gap")
  have acyclic : ¬∃ m, shared.Reaches 0 (fun _ => 0.0) "gap" m ∧
      shared.IsCyclic 0 (fun _ => 0.0) m := by
    intro h
    obtain ⟨loop, reported⟩ := cyclic.2 h
    rw [outcome] at reported
    cases reported
  obtain ⟨events, same, -, -, walked, order⟩ := found acyclic
  obtain rfl : ["misses", "hits"] = events := Except.ok.inj (outcome.symm.trans same)
  have closes := (events_of_isReadable known.2 (readable "ping")).2.1 _ failed
  exact ⟨⟨known.1, readable "gap", outcome, walked, order⟩,
    known.2, readable "ping", failed, closes⟩

end MetricTable
end PerfFormula
