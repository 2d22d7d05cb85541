import PerfFormula.Proofs.FailedCall
import PerfFormula.Proofs.Renaming

/-!
# What earlier calls change for later ones

A call that follows a reference leaves its value in the context, and the text of the reference is
not read again. A later call with another runtime parameter gets that value too, although the text
may mean another one by then. This is all that earlier calls change: where the references that they
resolved have the values that the later call would give them, its outcome is the one that it would
have had as the first call. So it is when all calls have the same runtime parameter, and when no
reference mentions the parameter.

Main statements:

* `Context.evaluateText_afterCalls_numbered` — an earlier call changes the value of a later one.
* `Context.Resolved.meaning` — a context means the same after references got the values they mean.
* `Context.earlier_calls_only_resolve` — what earlier calls change in the context, and when that
  makes no difference for a later call.
-/

namespace PerfFormula

/-- Where another look-up gives at least the same values, so does a formula. -/
theorem Formula.meaning_mono {answers : HostLiteral → Float}
    {lookup lookup' : String → Except FormulaError Float} {f : Formula} {w : Float}
    (keeps : ∀ n x, lookup n = .ok x → lookup' n = .ok x)
    (value : f.meaning answers lookup = .ok w) : f.meaning answers lookup' = .ok w := by
  induction f generalizing w with
  | number x => exact value
  | name n => exact keeps n w value
  | host l => exact value
  | binary op l r ihl ihr =>
    obtain ⟨x, hx, value⟩ := ok_of_bind value
    obtain ⟨y, hy, value⟩ := ok_of_bind value
    rw [meaning, ihl hx]
    show (r.meaning answers lookup' >>= _) = _
    rw [ihr hy]
    exact value
  | negate f ih =>
    obtain ⟨x, hx, value⟩ := ok_of_bind value
    rw [meaning, ih hx]
    exact value
  | choice c t f ihc iht ihf =>
    obtain ⟨x, hx, value⟩ := ok_of_bind value
    rw [meaning, ihc hx]
    show (if isTrue x then _ else _) = _
    cases selected : isTrue x with
    | true =>
      rw [selected] at value
      exact iht value
    | false =>
      rw [selected] at value
      exact ihf value
  | call g a b iha ihb =>
    obtain ⟨x, hx, value⟩ := ok_of_bind value
    obtain ⟨y, hy, value⟩ := ok_of_bind value
    rw [meaning, iha hx]
    show (b.meaning answers lookup' >>= _) = _
    rw [ihb hy]
    exact value

namespace Context

variable {c after : Context} {chain : List String} {name : String} {x : Float}

/-! ## Values and chains -/

/-- A name that has a value while some references are being followed has it from the start too. -/
theorem nameMeaning_of_chain (value : c.nameMeaning chain name = .ok x) :
    c.nameMeaning [] name = .ok x := by
  have faithful := computes_resolve c chain name Run.start remembers_start apart_start
  generalize PerfFormula.after (c.resolve chain name) Run.start = result at faithful
  have outcome := faithful.outcome
  rcases result with ⟨e | y, r⟩
  · rw [show c.nameMeaning chain name = .error e from outcome] at value
    cases value
  · rw [show c.nameMeaning chain name = .ok y from outcome chain faithful.apart] at value
    cases value
    exact outcome [] (by simp [Run.Apart])

/-- A name that has a value also has it while references without a value are being followed: what
is met on the way to a value has one itself. -/
theorem nameMeaning_of_valueless (value : c.nameMeaning [] name = .ok x)
    (valueless : ∀ n ∈ chain, ∀ y, c.nameMeaning [] n ≠ .ok y) :
    c.nameMeaning chain name = .ok x := by
  have faithful := computes_resolve c [] name Run.start remembers_start apart_start
  generalize PerfFormula.after (c.resolve [] name) Run.start = result at faithful
  have outcome := faithful.outcome
  rcases result with ⟨e | y, r⟩
  · rw [show c.nameMeaning [] name = .error e from outcome] at value
    cases value
  · rw [show c.nameMeaning [] name = .ok y from outcome [] faithful.apart] at value
    cases value
    refine outcome chain fun n onChain remembered => ?_
    obtain ⟨entry, mem, rfl⟩ := List.mem_map.1 remembered
    exact valueless _ onChain _ (faithful.remembers.value entry mem [] faithful.apart)

/-! ## Contexts with resolved references -/

theorem Resolved.datum_eq (h : c.Resolved c.runtime after) (name : String) :
    after.datum name = c.datum name ∨
      ∃ x, after.datum name = .ok (.value x) ∧ c.nameMeaning [] name = .ok x := by
  rcases h.datum name with same | ⟨source, x, -, value, meant⟩
  · exact .inl (by rw [Context.datum, same, Context.datum])
  · exact .inr ⟨x, by rw [Context.datum, value]; rfl, meant⟩

/-- What has a value still has it after references got theirs. -/
theorem Resolved.keeps_value (h : c.Resolved c.runtime after)
    (value : c.nameMeaning chain name = .ok x) : after.nameMeaning chain name = .ok x := by
  induction chain, name using c.follow_induction generalizing x with
  | each chain name ih =>
    rcases h.datum_eq name with same | ⟨y, resolved, meant⟩
    · rw [nameMeaning_eq] at value ⊢
      rw [same, h.runtime_eq, h.answers_eq]
      split at value
      · cases value
      · cases value
      · exact value
      · next source reference =>
        split at value
        · cases value
        · next fresh =>
          simp only [if_neg fresh]
          split at value
          · cases value
          · next f parses =>
            exact Formula.meaning_mono (fun n _ hy => ih source reference fresh n hy) value
    · -- The name was resolved: the value that it has now is the one that it means.
      rw [nameMeaning_of_chain value] at meant
      rw [nameMeaning_eq, resolved]
      exact meant.symm

/-- A name means the same, be it a value or an error, while no references with a value are being
followed. A reference with a value is not followed any more after it was resolved, so that chains
with such references differ. -/
theorem Resolved.nameMeaning (h : c.Resolved c.runtime after)
    (valueless : ∀ n ∈ chain, ∀ y, c.nameMeaning [] n ≠ .ok y) :
    after.nameMeaning chain name = c.nameMeaning chain name := by
  induction chain, name using c.follow_induction with
  | each chain name ih =>
    -- What has a value keeps it; a name without one may be put on the chain.
    by_cases hasValue : ∃ y, c.nameMeaning [] name = .ok y
    · obtain ⟨y, value⟩ := hasValue
      have here := nameMeaning_of_valueless value valueless
      rw [here, h.keeps_value here]
    rcases h.datum_eq name with same | ⟨y, -, meant⟩
    · rw [nameMeaning_eq, nameMeaning_eq c, same, h.runtime_eq, h.answers_eq]
      split
      · rfl
      · rfl
      · rfl
      · next source reference =>
        split
        · rfl
        · next fresh =>
          split
          · rfl
          · have valueless' : ∀ n ∈ chain ++ [name], ∀ y, c.nameMeaning [] n ≠ .ok y := by
              intro n hn y hy
              rcases List.mem_append.1 hn with hn | hn
              · exact valueless n hn y hy
              · exact hasValue ⟨y, List.mem_singleton.1 hn ▸ hy⟩
            congr 1
            funext n
            exact ih source reference fresh n valueless'
    · exact absurd ⟨y, meant⟩ hasValue

/-- A formula means the same after references got the values that they mean. -/
theorem Resolved.meaning (h : c.Resolved c.runtime after) (f : Formula) :
    after.meaning f = c.meaning f := by
  have names : after.nameMeaning [] = c.nameMeaning [] := by
    funext n
    exact h.nameMeaning (by simp)
  rw [Context.meaning, Context.meaning, names, h.answers_eq]

/-! ## Calls with a runtime parameter -/

/-- The context with another runtime parameter. -/
def under (c : Context) (runtime : Nat) : Context := { c with runtime }

@[simp] theorem runtime_under (c : Context) (runtime : Nat) :
    (c.under runtime).runtime = runtime := rfl

@[simp] theorem answers_under (c : Context) (runtime : Nat) :
    (c.under runtime).answers = c.answers := rfl

@[simp] theorem ids_under (c : Context) (runtime : Nat) : (c.under runtime).ids = c.ids := rfl

@[simp] theorem datum_under (c : Context) (runtime : Nat) (name : String) :
    (c.under runtime).datum name = c.datum name := rfl

theorem callRuntime_natCast (c : Context) (runtime : Nat) :
    c.callRuntime (some (runtime : Int)) = .ok runtime := by
  show checkRuntime runtime = _
  rw [checkRuntime, if_neg (by omega), Int.toNat_natCast]

theorem start_some (c : Context) (source : String) (runtime : Nat) :
    c.start source (some runtime) = parse source runtime >>= fun f => .ok (c.under runtime, f) := by
  rw [start, callRuntime_natCast]
  rfl

/-- The outcome of a call is what its text means under its runtime parameter. -/
theorem evaluateText_outcome (c : Context) (source : String) (runtime : Nat) :
    (c.evaluateText source (some runtime)).1 =
      parse source runtime >>= (c.under runtime).meaning := by
  rw [evaluateText, start_some]
  cases parse source runtime with
  | error e => rfl
  | ok f => exact evaluate_outcome _ f

/-- A call that does not fail before its evaluation resolves references. -/
theorem evaluateText_changes (c : Context) (source : String) (runtime : Nat) :
    (c.evaluateText source (some runtime)).2 = c ∨
      c.Resolved runtime (c.evaluateText source (some runtime)).2 := by
  rw [evaluateText, start_some]
  cases parse source runtime with
  | error e => exact .inl rfl
  | ok f =>
    have resolved := resolved_evaluate (c.under runtime) f
    exact .inr ⟨resolved.runtime_eq, resolved.answers_eq, resolved.keys_eq, resolved.datum⟩

/-- After references got values that a call would give them too, the call has the same outcome. -/
theorem Resolved.evaluateText {runtime : Nat} (h : c.Resolved runtime (after.under runtime))
    (source : String) :
    (after.evaluateText source (some runtime)).1 = (c.evaluateText source (some runtime)).1 := by
  have same : (c.under runtime).Resolved (c.under runtime).runtime (after.under runtime) :=
    ⟨h.runtime_eq, h.answers_eq, h.keys_eq, h.datum⟩
  rw [evaluateText_outcome, evaluateText_outcome]
  cases parse source runtime with
  | error e => rfl
  | ok f => exact same.meaning f

/-! ## Calls one after the other -/

/-- The context after some calls, each with its text and its own runtime parameter. -/
def afterCalls (c : Context) (calls : List (String × Nat)) : Context :=
  calls.foldl (fun c call => (c.evaluateText call.1 (some call.2)).2) c

theorem afterCalls_append (c : Context) (calls : List (String × Nat)) (text : String)
    (runtime : Nat) : c.afterCalls (calls ++ [(text, runtime)]) =
      ((c.afterCalls calls).evaluateText text (some runtime)).2 := by
  rw [afterCalls, List.foldl_append]
  rfl

/-- One of some calls found a name as a reference, and that had a value at the time, under the
runtime parameter of the call. -/
def ResolvedIn (c : Context) (calls : List (String × Nat)) (name : String) (x : Float) : Prop :=
  ∃ earlier text runtime later, calls = earlier ++ (text, runtime) :: later ∧
    (∃ source, (c.afterCalls earlier).ids.get? name = .ok (some (.reference source))) ∧
    ((c.afterCalls earlier).under runtime).meaning (.name name) = .ok x

theorem ResolvedIn.append {calls : List (String × Nat)} (h : c.ResolvedIn calls name x)
    (call : String × Nat) : c.ResolvedIn (calls ++ [call]) name x := by
  obtain ⟨earlier, text, runtime, later, rfl, found⟩ := h
  exact ⟨earlier, text, runtime, later ++ [call], by simp, found⟩

/-- What calls leave of a context: the names and the answers, and each datum, unless it was a
reference and is now the value that it had in one of the calls. -/
structure LeftByCalls (c : Context) (calls : List (String × Nat)) (after : Context) : Prop where
  answers_eq : after.answers = c.answers
  keys_eq : after.ids.keys = c.ids.keys
  datum : ∀ name, after.ids.get? name = c.ids.get? name ∨
    ∃ source x, c.ids.get? name = .ok (some (.reference source)) ∧
      after.ids.get? name = .ok (some (.value x)) ∧ c.ResolvedIn calls name x

/-- What is a reference after the calls has been one all the time. -/
theorem LeftByCalls.reference {calls : List (String × Nat)} (h : c.LeftByCalls calls after)
    {source : String} (reference : after.ids.get? name = .ok (some (.reference source))) :
    c.ids.get? name = .ok (some (.reference source)) := by
  rcases h.datum name with same | ⟨_, x, -, value, -⟩
  · exact same.symm.trans reference
  · rw [value] at reference
    cases reference

theorem leftByCalls_afterCalls (c : Context) (calls : List (String × Nat)) :
    c.LeftByCalls calls (c.afterCalls calls) := by
  -- From the last call backwards: what it resolves was a reference before the first one.
  induction calls using List.reverseRecOn with
  | nil => exact ⟨rfl, rfl, fun _ => .inl rfl⟩
  | append_singleton calls call ih =>
    obtain ⟨text, runtime⟩ := call
    have before : ∀ name, (c.afterCalls calls).ids.get? name = c.ids.get? name ∨
        ∃ source x, c.ids.get? name = .ok (some (.reference source)) ∧
          (c.afterCalls calls).ids.get? name = .ok (some (.value x)) ∧
          c.ResolvedIn (calls ++ [(text, runtime)]) name x := fun name =>
      (ih.datum name).imp_right fun ⟨source, x, reference, value, resolved⟩ =>
        ⟨source, x, reference, value, resolved.append _⟩
    rw [afterCalls_append]
    rcases evaluateText_changes (c.afterCalls calls) text runtime with same | changed
    · rw [same]
      exact ⟨ih.answers_eq, ih.keys_eq, before⟩
    · refine ⟨changed.answers_eq.trans ih.answers_eq, changed.keys_eq.trans ih.keys_eq,
        fun name => ?_⟩
      rcases changed.datum name with same | ⟨source, x, reference, value, meant⟩
      · rw [same]
        exact before name
      · exact .inr ⟨source, x, ih.reference reference, value, calls, text, runtime, [], rfl,
          ⟨source, reference⟩, meant⟩

/-! ## When earlier calls make no difference -/

/-- Where no reference can tell two runtime parameters apart, a name means the same under both. -/
theorem nameMeaning_under_congr {first second : Nat}
    (alike : ∀ n source, c.datum n = .ok (.reference source) →
      Formula.parse source first = Formula.parse source second) :
    (c.under first).nameMeaning chain name = (c.under second).nameMeaning chain name := by
  induction chain, name using c.follow_induction with
  | each chain name ih =>
    rw [nameMeaning_eq, nameMeaning_eq (c.under second)]
    simp only [datum_under, runtime_under, answers_under]
    split
    · rfl
    · rfl
    · rfl
    · next source reference =>
      split
      · rfl
      · next fresh =>
        rw [alike name source reference]
        split
        · rfl
        · next f parses =>
          have behind : (c.under first).nameMeaning (chain ++ [name]) =
              (c.under second).nameMeaning (chain ++ [name]) := by
            funext n
            exact ih source reference fresh n
          rw [behind]

/-- Calls whose runtime parameters no reference can tell apart resolve references to the values
that they have from the start. -/
theorem resolved_afterCalls {calls : List (String × Nat)} {runtime : Nat}
    (alike : ∀ n source, c.ids.get? n = .ok (some (.reference source)) →
      ∀ call ∈ calls, Formula.parse source call.2 = Formula.parse source runtime) :
    c.Resolved runtime ((c.afterCalls calls).under runtime) := by
  induction calls using List.reverseRecOn with
  | nil => exact ⟨rfl, rfl, rfl, fun _ => .inl rfl⟩
  | append_singleton calls call ih =>
    obtain ⟨text, other⟩ := call
    have earlier := ih fun n source reference call mem =>
      alike n source reference call (List.mem_append_left _ mem)
    rw [afterCalls_append]
    rcases evaluateText_changes (c.afterCalls calls) text other with same | changed
    · rw [same]
      exact earlier
    · refine ⟨rfl, changed.answers_eq.trans earlier.answers_eq,
        changed.keys_eq.trans earlier.keys_eq, fun name => ?_⟩
      have original := leftByCalls_afterCalls c calls
      rcases changed.datum name with same | ⟨source, x, reference, value, meant⟩
      · rw [ids_under, same]
        exact earlier.datum name
      · refine .inr ⟨source, x, original.reference reference, value, ?_⟩
        -- The last call gave the value that the reference has under the later parameter, and
        -- this is the one from the start, since the calls before it only resolved.
        have now : ((c.afterCalls calls).under runtime).nameMeaning [] name = .ok x := by
          have alike : ∀ n source, (c.afterCalls calls).datum n = .ok (.reference source) →
              Formula.parse source other = Formula.parse source runtime :=
            fun n source reference =>
              alike n source (original.reference (get?_of_reference reference)) (text, other)
                (by simp)
          rw [← nameMeaning_under_congr alike]
          exact meant
        have same : (c.under runtime).Resolved (c.under runtime).runtime
            ((c.afterCalls calls).under runtime) :=
          ⟨earlier.runtime_eq, earlier.answers_eq, earlier.keys_eq, earlier.datum⟩
        exact (same.meaning (.name name)).symm.trans now

/-! ## A reference with the runtime parameter -/

/-- A context in which `r` refers to a formula that mentions the runtime parameter. -/
def numbered : Context :=
  ⟨.live (.ofList [("r", .reference "e?"), ("e2", .value 6.0), ("e3", .value 9.0)]), 0,
    fun _ => 0.0⟩

theorem meaning_under_numbered {runtime : Nat} {n : String} {x : Float}
    (parses : Formula.parse "e?" runtime = .ok (.name n))
    (value : numbered.datum n = .ok (.value x)) :
    (numbered.under runtime).nameMeaning [] "r" = .ok x := by
  have reference : (numbered.under runtime).datum "r" = .ok (.reference "e?") := rfl
  have bound : (numbered.under runtime).datum n = .ok (.value x) := value
  rw [nameMeaning_follow reference (by simp) parses, Formula.meaning, nameMeaning_eq, datum_under,
    value]

theorem parse_name_numbered (runtime : Nat) : Context.parse "r" runtime = .ok (.name "r") := by
  have plain : Formula.parse "r" 0 = .ok (.name "r") := by cbv
  rw [Context.parse, Formula.parse_of_unmarked (by decide), plain]
  rfl

theorem datum_afterCalls_numbered {runtime : Nat} {n : String} {x : Float}
    (parses : Formula.parse "e?" runtime = .ok (.name n))
    (value : numbered.datum n = .ok (.value x)) :
    (numbered.afterCalls [("r", runtime)]).datum "r" = .ok (.value x) := by
  have reference : (numbered.under runtime).datum "r" = .ok (.reference "e?") := rfl
  have run : (numbered.under runtime).runFormula (.name "r") = (.ok x, ⟨[("r", x)], []⟩) := by
    show PerfFormula.after ((numbered.under runtime).resolve [] "r") Run.start = _
    rw [after_resolve_follow rfl reference (by simp) parses]
    show remembering "r" (PerfFormula.after ((numbered.under runtime).resolve ["r"] n) _) = _
    rw [after_resolve]
    simp only [datum_under, value]
    rfl
  show ((numbered.evaluateText "r" (some runtime)).2).datum "r" = _
  rw [evaluateText, start_some, parse_name_numbered]
  show ((numbered.under runtime).evaluate (.name "r")).2.datum "r" = _
  rw [evaluate, run]
  rfl

/-- The first call gives `r` a value, and the second one has it as its outcome although `r` has
another value under the runtime parameter of that call. -/
theorem evaluateText_afterCalls_numbered :
    ((numbered.afterCalls [("r", 2)]).evaluateText "r" (some (3 : Nat))).1 = .ok 6.0 ∧
      (numbered.evaluateText "r" (some (3 : Nat))).1 = .ok 9.0 ∧
      ((numbered.afterCalls [("r", 2)]).evaluateText "r" (some (3 : Nat))).1 ≠
        (numbered.evaluateText "r" (some (3 : Nat))).1 := by
  have second : Formula.parse "e?" 2 = .ok (.name "e2") := by cbv
  have third : Formula.parse "e?" 3 = .ok (.name "e3") := by cbv
  have later : ((numbered.afterCalls [("r", 2)]).evaluateText "r" (some (3 : Nat))).1 =
      .ok 6.0 := by
    rw [evaluateText_outcome, parse_name_numbered]
    exact meaning_name_of_value (datum_afterCalls_numbered second rfl)
  have alone : (numbered.evaluateText "r" (some (3 : Nat))).1 = .ok 9.0 := by
    rw [evaluateText_outcome, parse_name_numbered]
    exact meaning_under_numbered third rfl
  refine ⟨later, alone, ?_⟩
  rw [later, alone]
  intro same
  have sixes : ((6.0 : Float) == 6.0) = true := by decide +kernel
  have differ : ((6.0 : Float) == 9.0) = false := by decide +kernel
  rw [← Except.ok.inj same, sixes] at differ
  cases differ

/-! ## What earlier calls change -/

/-- What earlier calls, each with its own runtime parameter, change for a later one. They change
nothing in the context but references, which become the values that they had in the first call that
came to one, and only the data that they leave matter for the later call. If it would give these
references the same values, then its outcome is the one that it has on the original context. This is
so if no reference can tell the runtime parameters of the calls apart, as when all calls have the
same one or no reference mentions it. -/
theorem earlier_calls_only_resolve (c : Context) (calls : List (String × Nat)) (source : String)
    (runtime : Nat) :
    c.LeftByCalls calls (c.afterCalls calls) ∧
    ((c.afterCalls calls).evaluateText source (some runtime)).1 =
      ((c.withIds (c.afterCalls calls).ids).evaluateText source (some runtime)).1 ∧
    ((∀ name x, (∃ text, c.ids.get? name = .ok (some (.reference text))) →
        (c.afterCalls calls).ids.get? name = .ok (some (.value x)) →
        (c.under runtime).meaning (.name name) = .ok x) →
      ((c.afterCalls calls).evaluateText source (some runtime)).1 =
        (c.evaluateText source (some runtime)).1) ∧
    ((∀ name text, c.ids.get? name = .ok (some (.reference text)) →
        ∀ call ∈ calls, Formula.parse text call.2 = Formula.parse text runtime) →
      ((c.afterCalls calls).evaluateText source (some runtime)).1 =
        (c.evaluateText source (some runtime)).1) ∧
    ((∀ call ∈ calls, call.2 = runtime) →
      ((c.afterCalls calls).evaluateText source (some runtime)).1 =
        (c.evaluateText source (some runtime)).1) ∧
    ((∀ name text, c.ids.get? name = .ok (some (.reference text)) → '?' ∉ text.toList) →
      ((c.afterCalls calls).evaluateText source (some runtime)).1 =
        (c.evaluateText source (some runtime)).1) := by
  have left := leftByCalls_afterCalls c calls
  have alike : (∀ name text, c.ids.get? name = .ok (some (.reference text)) →
      ∀ call ∈ calls, Formula.parse text call.2 = Formula.parse text runtime) →
      ((c.afterCalls calls).evaluateText source (some runtime)).1 =
        (c.evaluateText source (some runtime)).1 :=
    fun h => (resolved_afterCalls h).evaluateText source
  refine ⟨left, ?_, fun valued => ?_, alike, fun same => ?_, fun unmarked => ?_⟩
  · have data : (c.withIds (c.afterCalls calls).ids).under runtime =
        (c.afterCalls calls).under runtime := by
      rw [under, under, withIds, left.answers_eq]
    rw [evaluateText_outcome, evaluateText_outcome, data]
  · have resolved : c.Resolved runtime ((c.afterCalls calls).under runtime) := by
      refine ⟨rfl, left.answers_eq, left.keys_eq, fun name => ?_⟩
      rcases left.datum name with kept | ⟨text, x, reference, value, -⟩
      · exact .inl kept
      · exact .inr ⟨text, x, reference, value, valued name x ⟨text, reference⟩ value⟩
    exact resolved.evaluateText source
  · exact alike fun _ text _ call mem => by rw [same call mem]
  · refine alike fun name text reference call _ => ?_
    have one := Formula.parse_of_unmarked (unmarked name text reference)
    rw [one call.2, one runtime]

/-- A call with the same runtime parameter as earlier ones, also behind one that gave `r` the value
that it has in both, and calls that cannot tell the runtime parameters apart. -/
theorem earlier_calls_only_resolve_numbered :
    numbered.LeftByCalls [("r", 2)] (numbered.afterCalls [("r", 2)]) ∧
      ((numbered.afterCalls [("r", 3)]).evaluateText "r" (some (3 : Nat))).1 =
        (numbered.evaluateText "r" (some (3 : Nat))).1 ∧
      ((numbered.afterCalls [("r + 1", 3), ("r", 3)]).evaluateText "r" (some (3 : Nat))).1 =
        (numbered.evaluateText "r" (some (3 : Nat))).1 ∧
      (((referring 0).afterCalls [("a + c", 2)]).evaluateText "a" (some (3 : Nat))).1 =
        ((referring 0).evaluateText "a" (some (3 : Nat))).1 := by
  have third : Formula.parse "e?" 3 = .ok (.name "e3") := by cbv
  have mem : ∀ {c : Context} {name text : String},
      c.ids.get? name = .ok (some (.reference text)) → name ∈ c.references := by
    intro c name text h
    exact mem_references (by rw [Context.datum, h]; rfl)
  obtain ⟨left, -⟩ := earlier_calls_only_resolve numbered [("r", 2)] "r" 3
  obtain ⟨-, -, valued, -⟩ := earlier_calls_only_resolve numbered [("r", 3)] "r" 3
  obtain ⟨-, -, -, -, same, -⟩ := earlier_calls_only_resolve numbered [("r + 1", 3), ("r", 3)] "r" 3
  obtain ⟨-, -, -, -, -, unmarked⟩ :=
    earlier_calls_only_resolve (referring 0) [("a + c", 2)] "a" 3
  refine ⟨left, valued ?_, same (by simp), unmarked ?_⟩
  · rintro name x ⟨text, reference⟩ value
    obtain rfl : name = "r" := List.mem_singleton.1 (mem reference)
    have nine : (numbered.afterCalls [("r", 3)]).datum "r" = .ok (.value 9.0) :=
      datum_afterCalls_numbered third rfl
    rw [Context.datum, value] at nine
    cases nine
    exact meaning_under_numbered third rfl
  · intro name text reference
    obtain rfl : name = "a" := List.mem_singleton.1 (mem reference)
    cases reference
    decide

end Context
end PerfFormula
