import PerfFormula.Evaluation.Call
import PerfFormula.Proofs.GatheredNames

/-!
# Names found in a context

Finding the names of a text in a context only appends: the entries that there were stay as they are,
and behind them come the names that the formula needs, each once and as pending, but for those that
are excluded or there already. The sets that are changed on the way to this come to the same, and no
other set of the program notices.

Main statements:

* `Formula.yields_gatherInto` — what is left in the set of a context, and in all other sets.
* `Context.found_names_appended` — finding names appends, once is enough, and the order of two calls
  matters only for the order of the names.
-/

namespace PerfFormula

namespace NameMap

variable {δ : Type}

theorem setEntry_of_fresh {entries : List (String × δ)} {name : String}
    (fresh : name ∉ entries.map (·.1)) (datum : δ) :
    setEntry entries name datum = entries ++ [(name, datum)] := by
  induction entries with
  | nil => rfl
  | cons entry rest ih =>
    rw [List.map_cons, List.mem_cons, not_or] at fresh
    rw [setEntry, if_neg (Ne.symm fresh.1), ih fresh.2]
    rfl

theorem entries_foldl_set (entries : List (String × δ)) (m : NameMap δ)
    (distinct : (m.keys ++ entries.map (·.1)).Nodup) :
    (entries.foldl (fun m entry => m.set entry.1 entry.2) m).entries = m.entries ++ entries := by
  induction entries generalizing m with
  | nil => simp
  | cons entry rest ih =>
    have fresh : entry.1 ∉ m.keys := by
      intro there
      exact (List.nodup_append.1 distinct).2.2 _ there _ (by simp) rfl
    have added : (m.set entry.1 entry.2).entries = m.entries ++ [entry] :=
      setEntry_of_fresh fresh entry.2
    have keys : (m.set entry.1 entry.2).keys = m.keys ++ [entry.1] := by simp [keys, added]
    rw [List.foldl_cons, ih _ (by simpa [keys] using distinct), added]
    simp

/-- A map of entries with different names has these entries, in this order. -/
theorem entries_ofList {entries : List (String × δ)} (distinct : (entries.map (·.1)).Nodup) :
    (ofList entries).entries = entries := by
  rw [ofList, entries_foldl_set entries empty (by simpa using distinct)]
  rfl

/-- What was taken over once is not taken over again. -/
theorem merge_merge (m other : NameMap δ) : (m.merge other).merge other = m.merge other := by
  apply eq_of_entries
  show (m.merge other).entries ++ other.entries.filter _ = (m.merge other).entries
  have nothing : other.entries.filter (fun entry => !(m.merge other).contains entry.1) = [] := by
    rw [List.filter_eq_nil_iff]
    intro entry mem
    have there : entry.1 ∈ other.keys := List.mem_map_of_mem mem
    by_cases old : entry.1 ∈ m.keys <;> simp [contains, keys_merge, there, old]
  rw [nothing, List.append_nil]

end NameMap

/-- Names that nothing is known of yet. -/
def pendingNames (names : List String) : NameMap Datum := .ofList (names.map (·, .pending))

theorem entries_pendingNames {names : List String} (distinct : names.Nodup) :
    (pendingNames names).entries = names.map (·, .pending) := by
  apply NameMap.entries_ofList
  rwa [List.map_map, show ((·.1) ∘ fun n : String => (n, Datum.pending)) = id from rfl, List.map_id]

theorem find?_pendingNames {names : List String} (distinct : names.Nodup) (n : String) :
    (pendingNames names).find? n = if n ∈ names then some .pending else none := by
  rw [NameMap.find?, entries_pendingNames distinct]
  clear distinct
  induction names with
  | nil => rfl
  | cons first rest ih =>
    by_cases same : first = n
    · simp [NameMap.lookupIn, same]
    · simp [NameMap.lookupIn, same, Ne.symm same, ih]

/-- What finding names makes of a map: behind the old entries come, each once and as pending, the
names that are needed and are neither excluded nor there already. -/
structure Appends (needed excluded : List String) (m after : NameMap Datum) : Prop where
  entries : after.entries =
    m.entries ++ (needed.filter fun n => n ∉ excluded ∧ n ∉ m.keys).map (·, .pending)
  once : (needed.filter fun n => n ∉ excluded ∧ n ∉ m.keys).Nodup

theorem appends_merge {needed : List String} (distinct : needed.Nodup) (excluded : List String)
    (m : NameMap Datum) :
    Appends needed excluded m (m.merge (pendingNames (needed.filter (· ∉ excluded)))) := by
  refine ⟨?_, distinct.filter _⟩
  show m.entries ++ (pendingNames (needed.filter (· ∉ excluded))).entries.filter _ = _
  rw [entries_pendingNames (distinct.filter _)]
  simp [List.filter_map, List.filter_filter, NameMap.contains, Function.comp_def,
    Bool.and_comm]

/-! ## In place -/

namespace Formula

open Registry GatherM

variable {r : Registry Datum} {base cell : Nat} {names : List String}

theorem yields_remove (key : String) (holds : r.Holds base (some cell) names) :
    Yields (remove cell key) r fun _ after =>
      Keeps base r after ∧ after.Holds base (some cell) (names.filter (· ≠ key)) := by
  have inRange := holds.lt
  obtain ⟨le, m, stored, entries⟩ := holds
  refine yields_bind (yields_read stored) ?_
  rintro _ r ⟨rfl, rfl⟩
  refine yields_bind (yields_lift rfl) ?_
  rintro _ r ⟨rfl, rfl⟩
  refine ⟨(), _, rfl, keeps_write le _, le, m.erase key, ?_, ?_⟩
  · rw [cells_write, List.getElem?_set_self inRange]
  · simp [NameMap.erase, entries, List.filter_map, Function.comp_def]

/-- Excluded names are dropped one after the other, whether or not they are there. -/
theorem yields_exclude (excluded : List String) (holds : r.Holds base (some cell) names) :
    Yields (excluded.forM (remove cell)) r fun _ after =>
      Keeps base r after ∧ after.Holds base (some cell) (names.filter (· ∉ excluded)) := by
  induction excluded generalizing r names with
  | nil => exact yields_pure ⟨.refl base r, by simpa using holds⟩
  | cons key rest ih =>
    refine yields_bind (yields_remove key holds) fun _ between done => ?_
    refine (ih done.2).imp fun _ after done' => ⟨done.1.trans done'.1, ?_⟩
    have same : names.filter (· ∉ key :: rest) =
        (names.filter (· ≠ key)).filter (· ∉ rest) := by
      rw [List.filter_filter]
      exact List.filter_congr fun n _ => by simp [Bool.and_comm]
    rw [same]
    exact done'.2

/-- A set without names is replaced by a new one, which has none either. -/
theorem yields_setOrNew {found : Finding} {needed : Needed} (enough : base ≤ r.cells.length)
    (told : found.Says r base needed) :
    Yields found.setOrNew r fun cell after =>
      Keeps base r after ∧ after.Holds base (some cell) needed.list := by
  have holds := told.holds
  have anew : needed.list = [] → Yields (create .empty) r fun cell after =>
      Keeps base r after ∧ after.Holds base (some cell) needed.list := by
    intro nothing
    rw [nothing]
    refine (yields_create rfl List.map_nil.symm).imp fun cell after new => ?_
    exact ⟨new.2.1.mono enough, new.2.2.mono enough⟩
  unfold Finding.setOrNew
  cases there : found.set? with
  | none =>
    rw [there] at holds
    exact anew holds
  | some cell =>
    rw [there] at holds
    obtain ⟨le, m, stored, entries⟩ := holds
    refine yields_bind (yields_read stored) ?_
    rintro _ r ⟨rfl, rfl⟩
    refine yields_bind (yields_lift rfl) ?_
    rintro _ r ⟨rfl, rfl⟩
    have size : m.size = needed.list.length := by simp [NameMap.size, entries]
    rw [size]
    by_cases nothing : needed.list.length = 0
    · rw [if_pos nothing]
      exact anew (List.length_eq_zero_iff.1 nothing)
    · rw [if_neg nothing]
      exact yields_pure ⟨.refl base r, le, m, stored, entries⟩

/-- Gathering names into the set of a context is not refused. That set then has, behind its old
entries, what is new to it; every other set that there was is as before. -/
theorem yields_gatherInto (answers : HostLiteral → Float) (f : Formula) (excluded : List String)
    {own : Nat} {m : NameMap Datum} (stored : r.cells[own]? = some (.live m)) :
    Yields (f.gatherInto answers excluded own) r fun _ after =>
      after.cells[own]? = some
        (.live (m.merge (pendingNames ((f.needed answers).list.filter (· ∉ excluded))))) ∧
      after.holders = r.holders ∧
      ∀ i < r.cells.length, i ≠ own → after.cells[i]? = r.cells[i]? := by
  have inRange := (List.getElem?_eq_some_iff.1 stored).1
  refine yields_bind (Finding.finds_gather answers f r) fun found r₁ h₁ => ?_
  refine yields_bind (yields_setOrNew h₁.1.grows h₁.2) fun cell r₂ h₂ => ?_
  refine yields_bind (yields_exclude excluded h₂.2) fun _ r₃ h₃ => ?_
  have keeps : Keeps r.cells.length r r₃ := (h₁.1.trans h₂.1).trans h₃.1
  obtain ⟨le, n, found', entries⟩ := h₃.2
  -- the set that was found lies behind all sets that there were, so it is not the context's own
  have different : own ≠ cell := by omega
  have own' := (keeps.below own inRange).trans stored
  refine (yields_unite different own' found').imp fun _ after unites => ?_
  obtain ⟨m', n', first, second, united, -⟩ := unites.cells different
  cases own'.symm.trans first
  cases found'.symm.trans second
  have distinct := (f.nodup_needed answers).filter (· ∉ excluded)
  have same : n = pendingNames ((f.needed answers).list.filter (· ∉ excluded)) :=
    NameMap.eq_of_entries (entries.trans (entries_pendingNames distinct).symm)
  refine ⟨same ▸ united, unites.holders_eq.trans keeps.holders, fun i small other => ?_⟩
  rw [unites.others other (by omega), keeps.below i small]

end Formula

/-! ## Calls on a context -/

namespace Context

variable {c : Context} {m : NameMap Datum} {source : String} {excluded : List String}
  {given : Option Nat} {f : Formula}

/-- What a text needs of a context, when its own runtime parameter or that of the context goes. -/
theorem neededByText_eq (parsed : parse source (given.getD c.runtime) = .ok f) :
    c.neededByText source excluded (given.map Int.ofNat) =
      .ok ((f.needed c.answers).list.filter (· ∉ excluded)) := by
  have runtime : c.callRuntime (given.map Int.ofNat) = .ok (given.getD c.runtime) := by
    cases given with
    | none => rfl
    | some r =>
      show checkRuntime (r : Int) = _
      rw [checkRuntime, if_neg (by omega)]
      rfl
  unfold neededByText
  rw [runtime]
  show parse source (given.getD c.runtime) >>= _ = _
  rw [parsed]
  rfl

theorem findText_eq (live : c.ids = .live m)
    (parsed : parse source (given.getD c.runtime) = .ok f) :
    c.findText source excluded (given.map Int.ofNat) =
      (.ok (), c.withIds
        (.live (m.merge (pendingNames ((f.needed c.answers).list.filter (· ∉ excluded)))))) := by
  have found : c.findNames source excluded (given.map Int.ofNat) =
      .ok (c.withIds
        (.live (m.merge (pendingNames ((f.needed c.answers).list.filter (· ∉ excluded)))))) := by
    unfold findNames
    rw [neededByText_eq parsed, live]
    rfl
  rw [findText, found]

/-- Taking over two maps in which nothing is known of any name comes to the same in both orders, but
for the order of the names. -/
theorem find?_merge_pendingNames (m : NameMap Datum) {first second : List String}
    (distinct : first.Nodup) (distinct' : second.Nodup) (n : String) :
    ((m.merge (pendingNames first)).merge (pendingNames second)).find? n =
      ((m.merge (pendingNames second)).merge (pendingNames first)).find? n := by
  simp only [NameMap.find?_merge, find?_pendingNames distinct, find?_pendingNames distinct']
  cases m.find? n with
  | some d => rfl
  | none => by_cases h : n ∈ first <;> by_cases h' : n ∈ second <;> simp [h, h']

/-- The names of a map are the ones that have a datum. -/
theorem mem_keys_congr {one two : NameMap Datum} (same : ∀ n, one.find? n = two.find? n)
    (n : String) : n ∈ one.keys ↔ n ∈ two.keys := by
  rw [← not_iff_not, ← NameMap.find?_eq_none_iff, ← NameMap.find?_eq_none_iff, same n]

/-- Finding the names of a text that parses succeeds in every live context. The context keeps its
runtime parameter and its entries, and gets behind them what the formula needs, each name once and
as pending, but for what is excluded or there already. So it is with the sets that are changed on
the way, whichever sets there are beside that of the context. A second call finds nothing more, and
two calls lead to the same names with the same data in both orders. -/
theorem found_names_appended (live : c.ids = .live m)
    (parsed : parse source (given.getD c.runtime) = .ok f) (excluded : List String) :
    ∃ after : NameMap Datum,
      c.findText source excluded (given.map Int.ofNat) = (.ok (), c.withIds (.live after)) ∧
      Appends (f.needed c.answers).list excluded m after ∧
      (∀ (r : Registry Datum) (own : Nat), r.cells[own]? = some (.live m) →
        ∃ last, (f.gatherInto c.answers excluded own).run r = .ok ((), last) ∧
          last.cells[own]? = some (.live after) ∧ last.holders = r.holders ∧
          ∀ i < r.cells.length, i ≠ own → last.cells[i]? = r.cells[i]?) ∧
      (c.withIds (.live after)).findText source excluded (given.map Int.ofNat) =
        (.ok (), c.withIds (.live after)) ∧
      ∀ (source' : String) (excluded' : List String) (given' : Option Nat) (f' : Formula),
        parse source' (given'.getD c.runtime) = .ok f' →
        ∃ one two : NameMap Datum,
          (c.findText source excluded (given.map Int.ofNat)).2.findText source' excluded'
            (given'.map Int.ofNat) = (.ok (), c.withIds (.live one)) ∧
          (c.findText source' excluded' (given'.map Int.ofNat)).2.findText source excluded
            (given.map Int.ofNat) = (.ok (), c.withIds (.live two)) ∧
          (∀ n, n ∈ one.keys ↔ n ∈ two.keys) ∧ ∀ n, one.find? n = two.find? n := by
  have distinct := f.nodup_needed c.answers
  refine ⟨_, findText_eq live parsed, appends_merge distinct excluded m, ?_, ?_, ?_⟩
  · intro r own stored
    obtain ⟨_, last, run, done⟩ := f.yields_gatherInto c.answers excluded stored
    exact ⟨last, run, done⟩
  · -- the names are there already when the call is repeated
    refine (findText_eq (c := c.withIds _) rfl parsed).trans ?_
    exact congrArg (fun after => (Except.ok (), c.withIds (.live after))) (m.merge_merge _)
  · intro source' excluded' given' f' parsed'
    have distinct' := f'.nodup_needed c.answers
    rw [findText_eq live parsed, findText_eq live parsed']
    refine ⟨_, _, findText_eq rfl parsed', findText_eq rfl parsed, ?_⟩
    have same := find?_merge_pendingNames m (distinct.filter (· ∉ excluded))
      (distinct'.filter (· ∉ excluded'))
    exact ⟨mem_keys_congr same, same⟩

/-- A context that knows two names. -/
def knowing : Context :=
  ⟨.live (.ofList [("a", .value 2.0), ("b", .reference "x + a")]), 0, fun _ => 0.0⟩

/-- Of the three names of a text one is excluded and one is there already. Together with the names
of another text they are the same in both orders. -/
theorem found_names_appended_knowing :
    ∃ after one two : NameMap Datum,
      knowing.findText "x + e? / a" ["x"] (some 3) = (.ok (), knowing.withIds (.live after)) ∧
      after.entries = [("a", .value 2.0), ("b", .reference "x + a"), ("e3", .pending)] ∧
      (knowing.findText "x + e? / a" ["x"] (some 3)).2.findText "b + x" [] none =
        (.ok (), knowing.withIds (.live one)) ∧
      (knowing.findText "b + x" [] none).2.findText "x + e? / a" ["x"] (some 3) =
        (.ok (), knowing.withIds (.live two)) ∧
      ∀ n, one.find? n = two.find? n := by
  have parsed : parse "x + e? / a" 3 =
      .ok (.binary .add (.name "x") (.binary .div (.name "e3") (.name "a"))) := by cbv
  have parsed' : parse "b + x" 0 = .ok (.binary .add (.name "b") (.name "x")) := by cbv
  obtain ⟨after, found, appends, -, -, orders⟩ :=
    @found_names_appended knowing _ _ (some 3) _ rfl parsed ["x"]
  obtain ⟨one, two, first, second, -, same⟩ := orders "b + x" [] none _ parsed'
  exact ⟨after, one, two, found, appends.entries, first, second, same⟩

end Context
end PerfFormula
