import PerfFormula.Metric.Frame
import PerfFormula.Proofs.PlainSheets
import PerfFormula.Proofs.ReportedErrors
import PerfFormula.Proofs.Sufficiency

/-!
# Metrics row by row

Metrics of a frame are computed row by row, and in every row name by name, as if each were computed
alone: whether one of them fails has no influence on another one, and what other rows hold has none
either. Only an error that is about the runtime parameter ends all of it. The values of a row are
kept under their names and read back from there, and the numbers of all rows are put one behind the
other and arranged anew; a name that was asked for twice, rows without values, and no rows at all
come through both.

The counts of a row are the last ones under each name that are not missing, so that a missing cell
is no different from a column that is not there.

Main statements:

* `MetricTable.digitLimit_lt_of_refusesRuntime` — when a metric cannot be computed for the runtime
  parameter.
* `MetricTable.computeRow_eq_ok`, `MetricTable.valuesUnder_eq` — what is computed for a row, and
  what is read back of it.
* `FrameLibrary.tabulate_eq_ok` — rows of numbers come through an array and make a frame.
* `MetricTable.computeFrame_isOk_iff` — when metrics can be computed for a frame.
* `FrameLibrary.find?_counts`, `FrameLibrary.counts_of_present` — what the counts of a row are.
* `MetricTable.computeFrame_agrees` — every cell of the results is the value of one metric for the
  counts of one row.
-/

namespace PerfFormula

namespace MetricTable

variable {t : MetricTable} {names : List String} {runtime : Int} {answers : HostLiteral → Float}

/-! ## Metrics of a sample -/

/-- The formula of a metric fails for the runtime parameter, or when it is evaluated. -/
theorem error_of_compute {name : String} {sample : Sample} {e : FormulaError}
    (failed : t.compute name sample runtime answers = .error (.formula e)) :
    ∃ m, t.find? name = some m ∧ (runtime < 0 ∨ 0 ≤ runtime ∧
      ((t.sampleContext sample runtime.toNat answers).evaluateText m.source none).1 =
        .error e) := by
  unfold compute at failed
  cases found : t.find? name with
  | none =>
    rw [found] at failed
    cases failed
  | some m =>
    refine ⟨m, rfl, (lt_or_ge runtime 0).imp id fun allowed => ⟨allowed, ?_⟩⟩
    have checked : checkRuntime runtime = .ok runtime.toNat := if_neg (Int.not_lt.2 allowed)
    rw [found, checked] at failed
    rcases error_of_bind failed with failed | ⟨x, -, failed⟩
    · obtain ⟨cause, fails, same⟩ := mapError_eq_error_iff.1 failed
      cases same
      exact fails
    · cases failed

/-- A metric of the table has no value for a runtime parameter that is negative. -/
theorem compute_of_negative {name : String} {sample : Sample} (known : name ∈ t.names)
    (negative : runtime < 0) : t.compute name sample runtime answers =
      .error (.formula (.negativeRuntime runtime)) := by
  obtain ⟨m, found⟩ := Option.isSome_iff_exists.1 ((t.find?_isSome_iff name).2 known)
  have refused : checkRuntime runtime = .error (.negativeRuntime runtime) := if_pos negative
  unfold compute
  rw [found, refused]
  rfl

/-- A metric has no value for a sample because of the runtime parameter. -/
def RefusesRuntime (t : MetricTable) (name : String) (sample : Sample) (runtime : Int)
    (answers : HostLiteral → Float) : Prop :=
  ∃ e, t.compute name sample runtime answers = .error e ∧ endsAll e = true

/-- Computing the metrics of a table ends at one of them if the parameter is negative, or if it has
to be written and is too long. -/
theorem refusesRuntime_iff {name : String} {sample : Sample} :
    t.RefusesRuntime name sample runtime answers ↔
      (name ∈ t.names ∧ runtime < 0) ∨ ∃ text,
        t.compute name sample runtime answers =
          .error (.formula (.unreadable text .runtimeTooLong)) := by
  constructor
  · rintro ⟨e, failed, ends⟩
    cases e with
    | unknown => cases ends
    | formula e =>
      cases e with
      | negativeRuntime r =>
        obtain ⟨m, found, negative | ⟨-, fails⟩⟩ := error_of_compute failed
        · exact .inl ⟨(t.find?_isSome_iff name).1 (by rw [found]; rfl), negative⟩
        · -- Within a metric no other parameter is given.
          cases ((Context.negativeRuntime_iff rfl m.source none r).1 fails).1
      | unreadable text e =>
        cases e with
        | malformed => cases ends
        | runtimeTooLong => exact .inr ⟨text, failed⟩
      | undefined | arithmetic | cycle | usedAfterFree => cases ends
  · rintro (⟨known, negative⟩ | ⟨text, failed⟩)
    · exact ⟨_, compute_of_negative known negative, rfl⟩
    · exact ⟨_, failed, rfl⟩

/-- A parameter that is not negative is only refused if it has too many digits. -/
theorem digitLimit_lt_of_refusesRuntime (allowed : 0 ≤ runtime) {name : String} {sample : Sample}
    (refuses : t.RefusesRuntime name sample runtime answers) :
    Decimal.digitLimit < (Nat.toDigits 10 runtime.toNat).length := by
  rcases refusesRuntime_iff.1 refuses with ⟨-, negative⟩ | ⟨text, failed⟩
  · omega
  · obtain ⟨m, -, negative | ⟨-, fails⟩⟩ := error_of_compute failed
    · omega
    · obtain ⟨r, given, long, -⟩ := (Context.tooLong_iff m.source none).1 ⟨text, fails⟩
      cases given
      exact long

/-- Each metric has its own outcome, unless one of them ends all. -/
theorem outcomes_eq {sample : Sample}
    (accepted : ∀ name ∈ names, ¬t.RefusesRuntime name sample runtime answers) :
    t.outcomes names sample runtime answers =
      .ok (names.map fun name => (name, t.compute name sample runtime answers)) := by
  unfold outcomes
  apply mapM_eq_ok
  intro name mem
  cases computed : t.compute name sample runtime answers with
  | ok x => rfl
  | error e =>
    -- A metric that fails has its error as its outcome, and the other ones go on.
    have single : endsAll e = false := by
      cases ends : endsAll e with
      | false => rfl
      | true => exact absurd ⟨e, computed, ends⟩ (accepted name mem)
    simp [single]

theorem accepted_of_outcomes {sample : Sample} {found : List Outcome}
    (done : t.outcomes names sample runtime answers = .ok found) :
    ∀ name ∈ names, ¬t.RefusesRuntime name sample runtime answers := by
  rintro name mem ⟨e, failed, ends⟩
  obtain ⟨outcome, step⟩ := mapM_isOk_iff.1 ⟨found, done⟩ name mem
  rw [failed] at step
  simp [ends] at step

theorem error_of_outcomes {sample : Sample} {e : ResolveError}
    (failed : t.outcomes names sample runtime answers = .error e) :
    ∃ name ∈ names, t.compute name sample runtime answers = .error e ∧ endsAll e = true := by
  obtain ⟨name, mem, step⟩ := error_of_mapM failed
  refine ⟨name, mem, ?_⟩
  split at step
  · cases step
  · next e' computed =>
    split at step
    · next ends =>
      cases step
      exact ⟨computed, ends⟩
    · cases step

end MetricTable

/-! ## Values under names -/

namespace NameMap

variable {δ : Type}

theorem find?_foldl_set_last (entries : List (String × δ)) (m : NameMap δ) (name : String) :
    (entries.foldl (fun m entry => m.set entry.1 entry.2) m).find? name =
      ((entries.filterMap fun entry => if entry.1 = name then some entry.2 else none).getLast?).or
        (m.find? name) := by
  induction entries generalizing m with
  | nil => rfl
  | cons entry rest ih =>
    rw [List.foldl_cons, ih, find?_set, List.filterMap_cons]
    by_cases same : entry.1 = name
    · -- An entry counts only if none behind it has the same name.
      rw [if_pos same.symm, if_pos same, List.getLast?_cons]
      cases (rest.filterMap fun entry =>
        if entry.1 = name then some entry.2 else none).getLast? with
      | none => rfl
      | some d => rfl
    · rw [if_neg (Ne.symm same), if_neg same]

/-- Of several entries under one name the last one counts. -/
theorem find?_ofList_last (entries : List (String × δ)) (name : String) :
    (ofList entries).find? name =
      (entries.filterMap fun entry => if entry.1 = name then some entry.2 else none).getLast? := by
  rw [ofList, find?_foldl_set_last, find?_empty, Option.or_none]

/-- A map that is made by going through names has each of them, also if it came more than once. -/
theorem find?_ofList_map {names : List String} {name : String} (mem : name ∈ names)
    (g : String → δ) : (ofList (names.map fun n => (n, g n))).find? name = some (g name) := by
  rw [find?_ofList_last, List.filterMap_map]
  -- All entries under the name have the same datum, and there is one.
  have same : ∀ d ∈ names.filterMap (fun n => if n = name then some (g n) else none),
      d = g name := by
    intro d there
    obtain ⟨n, -, given⟩ := List.mem_filterMap.1 there
    split at given
    · next isName =>
      cases given
      rw [isName]
    · cases given
  have there : g name ∈ names.filterMap (fun n => if n = name then some (g n) else none) :=
    List.mem_filterMap.2 ⟨name, mem, if_pos rfl⟩
  obtain ⟨d, last⟩ := Option.ne_none_iff_exists'.1
    (mt List.getLast?_eq_none_iff.1 (List.ne_nil_of_mem there))
  exact last.trans (congrArg some (same d (List.mem_of_getLast? last)))

end NameMap

namespace MetricTable

variable {t : MetricTable} {names : List String} {runtime : Int} {answers : HostLiteral → Float}
  {lib : FrameLibrary} {row : List (lib.Label × Cell)} {sample : Sample}

/-- The values of some metrics for a sample, each as if it were computed alone. -/
def valuesOf (t : MetricTable) (names : List String) (runtime : Int)
    (answers : HostLiteral → Float) (sample : Sample) : List Float :=
  names.map fun name => valueOf (t.compute name sample runtime answers)

/-- What is computed for a row has each value under its name. -/
theorem computeRow_eq_ok (sampled : lib.sample row = .ok sample)
    (accepted : ∀ name ∈ names, ¬t.RefusesRuntime name sample runtime answers) :
    t.computeRow lib names runtime answers row =
      .ok (.ofList (names.map fun name =>
        (name, valueOf (t.compute name sample runtime answers)))) := by
  rw [computeRow, sampled]
  show (t.computeAll names sample runtime answers).mapError _ = _
  rw [computeAll, outcomes_eq accepted]
  show Except.ok (NameMap.ofList (List.map _ (names.map _))) = _
  rw [List.map_map]
  rfl

/-- Whatever is computed for a row, the row was one of counts, and no metric ended it. -/
theorem computeRow_inv {values : NameMap Float}
    (done : t.computeRow lib names runtime answers row = .ok values) :
    ∃ sample, lib.sample row = .ok sample ∧
      ∀ name ∈ names, ¬t.RefusesRuntime name sample runtime answers := by
  obtain ⟨sample, sampled, done⟩ := ok_of_bind done
  obtain ⟨found, done, -⟩ := ok_of_bind (mapError_eq_ok_iff.1 done)
  exact ⟨sample, mapError_eq_ok_iff.1 sampled, accepted_of_outcomes done⟩

/-- A row for which nothing is computed holds no counts, or the runtime parameter is refused. -/
theorem error_of_computeRow {e : FrameError}
    (failed : t.computeRow lib names runtime answers row = .error e) :
    (∃ cause, e = .number cause ∧ lib.sample row = .error cause) ∨
      ∃ cause sample name, e = .resolve cause ∧ lib.sample row = .ok sample ∧ name ∈ names ∧
        t.compute name sample runtime answers = .error cause ∧ endsAll cause = true := by
  rcases error_of_bind failed with failed | ⟨sample, sampled, failed⟩
  · obtain ⟨cause, unread, same⟩ := mapError_eq_error_iff.1 failed
    exact .inl ⟨cause, same.symm, unread⟩
  · obtain ⟨cause, ended, same⟩ := mapError_eq_error_iff.1 failed
    rcases error_of_bind ended with ended | ⟨found, -, ended⟩
    · obtain ⟨name, mem, refused, ends⟩ := error_of_outcomes ended
      exact .inr ⟨cause, sample, name, same.symm, mapError_eq_ok_iff.1 sampled, mem, refused, ends⟩
    · cases ended

/-- The values that were kept under their names are read back for all names, in order. -/
theorem valuesUnder_eq (t : MetricTable) (names : List String) (runtime : Int)
    (answers : HostLiteral → Float) (sample : Sample) :
    valuesUnder names (.ofList (names.map fun name =>
      (name, valueOf (t.compute name sample runtime answers)))) =
        .ok (t.valuesOf names runtime answers sample) := by
  apply mapM_eq_ok
  intro name mem
  rw [NameMap.find?_ofList_map mem fun name => valueOf (t.compute name sample runtime answers)]

end MetricTable

/-! ## Frames of numbers -/

namespace FrameLibrary

variable {lib : FrameLibrary} {names : List String}

theorem length_flatten_of_even {α : Type} {width : Nat} {rows : List (List α)}
    (even : ∀ row ∈ rows, row.length = width) : rows.flatten.length = rows.length * width := by
  induction rows with
  | nil => rw [List.flatten_nil, List.length_nil, List.length_nil, Nat.zero_mul]
  | cons row rest ih =>
    rw [List.flatten_cons, List.length_append, even row List.mem_cons_self,
      ih fun r mem => even r (List.mem_cons_of_mem row mem), List.length_cons, Nat.succ_mul,
      Nat.add_comm]

/-- Rows with a number for each name make a frame of them. -/
theorem tabulate_eq_ok (laws : lib.Laws) {index : lib.Index} {rows : List (List Float)}
    (even : ∀ row ∈ rows, row.length = names.length) (labelled : lib.size index = rows.length) :
    ∃ f, lib.tabulate rows rows.length names index = .ok f ∧ lib.index f = index ∧
      lib.columns f = names.map lib.label ∧
      lib.rows f = rows.map fun row => (names.map lib.label).zip (row.map .real) := by
  obtain ⟨a, made, values⟩ := laws.array_of_even rows names.length even
  have enough : (lib.values a).length = rows.length * names.length := by
    rw [values, length_flatten_of_even even]
  obtain ⟨b, arranged, shape, same⟩ := laws.reshape_of_length a _ _ enough
  have fits : lib.shape b = [lib.size index, (names.map lib.label).length] := by
    rw [shape, labelled, List.length_map]
  obtain ⟨f, framed, hindex, columns, cells⟩ := laws.frame_of_shape b index _ fits
  refine ⟨f, ?_, hindex, columns, ?_⟩
  · rw [tabulate, made]
    show lib.reshape a rows.length names.length >>= _ = _
    rw [arranged]
    exact framed
  · rw [cells, labelled, same, values, List.length_map, rowMajor_flatten even]

end FrameLibrary

namespace MetricTable

variable {t : MetricTable} {names : List String} {runtime : Int} {answers : HostLiteral → Float}
  {lib : FrameLibrary} {counts : lib.Frame}

/-! ## Metrics of a frame -/

/-- The cells of a row of results. -/
def cellsOf (lib : FrameLibrary) (t : MetricTable) (names : List String) (runtime : Int)
    (answers : HostLiteral → Float) (sample : Sample) : List (lib.Label × Cell) :=
  names.map fun name => (lib.label name, .real (valueOf (t.compute name sample runtime answers)))

/-- Metrics of the table are computed in three steps. -/
theorem computeFrame_of_known (known : ∀ name ∈ names, name ∈ t.names) :
    t.computeFrame lib names counts runtime answers = (do
      let found ← (lib.rows counts).mapM (t.computeRow lib names runtime answers)
      let values ← found.mapM (valuesUnder names)
      (lib.tabulate values found.length names (lib.index counts)).mapError .library) := by
  have found : (names.find? fun name => !t.contains name) = none := by
    rw [List.find?_eq_none]
    intro name mem
    simp [contains, known name mem]
  rw [computeFrame, found]

/-- Metrics of the table are computed for rows of counts, unless the runtime parameter is
refused. -/
theorem computeFrame_eq_ok (laws : lib.Laws) (known : ∀ name ∈ names, name ∈ t.names)
    {samples : List Sample} (sampled : (lib.rows counts).mapM lib.sample = .ok samples)
    (accepted : ∀ row ∈ lib.rows counts, ∀ sample, lib.sample row = .ok sample →
      ∀ name ∈ names, ¬t.RefusesRuntime name sample runtime answers) :
    ∃ result, t.computeFrame lib names counts runtime answers = .ok result ∧
      lib.index result = lib.index counts ∧ lib.columns result = names.map lib.label ∧
      lib.rows result = samples.map (t.cellsOf lib names runtime answers) := by
  have found : (lib.rows counts).mapM (t.computeRow lib names runtime answers) =
      .ok (samples.map fun sample => .ofList (names.map fun name =>
        (name, valueOf (t.compute name sample runtime answers)))) :=
    mapM_of_mapM (fun row mem sample sampled =>
      computeRow_eq_ok sampled (accepted row mem sample sampled)) sampled
  have values : (samples.map fun sample => NameMap.ofList (names.map fun name =>
      (name, valueOf (t.compute name sample runtime answers)))).mapM (valuesUnder names) =
        .ok (samples.map (t.valuesOf names runtime answers)) := by
    rw [List.mapM_map]
    exact mapM_eq_ok fun sample _ => t.valuesUnder_eq names runtime answers sample
  have even : ∀ row ∈ samples.map (t.valuesOf names runtime answers),
      row.length = names.length := by
    intro row mem
    obtain ⟨sample, -, rfl⟩ := List.mem_map.1 mem
    exact List.length_map _
  have labelled : lib.size (lib.index counts) =
      (samples.map (t.valuesOf names runtime answers)).length := by
    rw [laws.size_index, List.length_map, length_of_mapM sampled]
  obtain ⟨result, framed, index, columns, rows⟩ := lib.tabulate_eq_ok laws even labelled
  refine ⟨result, ?_, index, columns, ?_⟩
  · rw [computeFrame_of_known known, found]
    show (samples.map _).mapM (valuesUnder names) >>= _ = _
    rw [values]
    rw [List.length_map] at framed
    show (lib.tabulate _ (samples.map _).length names _).mapError _ = _
    rw [List.length_map, framed]
    rfl
  · rw [rows, List.map_map]
    refine List.map_congr_left fun sample _ => ?_
    show (names.map lib.label).zip ((names.map _).map _) = names.map _
    rw [List.map_map, List.zip_map']
    rfl

/-- Rows that hold counts, and for which the runtime parameter is not refused, have results. -/
theorem computeFrame_of_counted (laws : lib.Laws) (known : ∀ name ∈ names, name ∈ t.names)
    (counted : ∀ row ∈ lib.rows counts, ∃ sample, lib.sample row = .ok sample ∧
      ∀ name ∈ names, ¬t.RefusesRuntime name sample runtime answers) :
    ∃ samples result, (lib.rows counts).mapM lib.sample = .ok samples ∧
      t.computeFrame lib names counts runtime answers = .ok result ∧
      lib.index result = lib.index counts ∧ lib.columns result = names.map lib.label ∧
      lib.rows result = samples.map (t.cellsOf lib names runtime answers) := by
  obtain ⟨samples, sampled⟩ := mapM_isOk_iff.2 fun row mem =>
    (counted row mem).imp fun sample h => h.1
  obtain ⟨result, done⟩ := computeFrame_eq_ok laws known sampled fun row mem sample same => by
    obtain ⟨sample', sampled', accepted⟩ := counted row mem
    rw [same] at sampled'
    cases sampled'
    exact accepted
  exact ⟨samples, result, sampled, done⟩

/-- Metrics can be computed for a frame exactly if all of them are in the table and its rows hold
counts, and the runtime parameter is not refused. -/
theorem computeFrame_isOk_iff (laws : lib.Laws) :
    (∃ result, t.computeFrame lib names counts runtime answers = .ok result) ↔
      (∀ name ∈ names, name ∈ t.names) ∧ ∀ row ∈ lib.rows counts, ∃ sample,
        lib.sample row = .ok sample ∧
          ∀ name ∈ names, ¬t.RefusesRuntime name sample runtime answers := by
  constructor
  · rintro ⟨result, done⟩
    cases missing : names.find? fun name => !t.contains name with
    | some name =>
      rw [computeFrame_eq_error_of_unknown missing] at done
      cases done
    | none =>
      have known : ∀ name ∈ names, name ∈ t.names := by
        simpa [contains] using List.find?_eq_none.1 missing
      rw [computeFrame_of_known known] at done
      obtain ⟨found, done, -⟩ := ok_of_bind done
      refine ⟨known, fun row mem => ?_⟩
      obtain ⟨values, done⟩ := mapM_isOk_iff.1 ⟨found, done⟩ row mem
      exact computeRow_inv done
  · rintro ⟨known, counted⟩
    obtain ⟨samples, result, -, done, -⟩ := computeFrame_of_counted laws known counted
    exact ⟨result, done⟩

/-- Computing metrics for a frame fails for a metric that is unknown, a cell that holds no number,
or the runtime parameter, and for nothing else. -/
theorem error_of_computeFrame (laws : lib.Laws) {e : FrameError}
    (failed : t.computeFrame lib names counts runtime answers = .error e) :
    (∃ name ∈ names, name ∉ t.names ∧ e = .resolve (.unknown name)) ∨
      ∃ row ∈ lib.rows counts, t.computeRow lib names runtime answers row = .error e := by
  cases missing : names.find? fun name => !t.contains name with
  | some name =>
    rw [computeFrame_eq_error_of_unknown missing] at failed
    cases failed
    have absent : name ∉ t.names := by simpa [contains] using List.find?_some missing
    exact .inl ⟨name, List.mem_of_find?_eq_some missing, absent, rfl⟩
  | none =>
    have known : ∀ name ∈ names, name ∈ t.names := by
      simpa [contains] using List.find?_eq_none.1 missing
    cases found : (lib.rows counts).mapM (t.computeRow lib names runtime answers) with
    | error e' =>
      rw [computeFrame_of_known known, found] at failed
      cases failed
      exact .inr (error_of_mapM found)
    | ok values =>
      -- Once all rows are computed, nothing can fail any more.
      obtain ⟨result, done⟩ := (computeFrame_isOk_iff laws).2 ⟨known, fun row mem => by
        obtain ⟨_, done⟩ := mapM_isOk_iff.1 ⟨values, found⟩ row mem
        exact computeRow_inv done⟩
      rw [done] at failed
      cases failed

end MetricTable

/-! ## Counts of a row -/

/-- Numbers, and cells that are missing. -/
inductive Cell.IsCount : Cell → Prop where
  | missing : IsCount .missing
  | real (x : Float) : IsCount (.real x)

instance (cell : Cell) : Decidable cell.IsCount :=
  match cell with
  | .missing => .isTrue .missing
  | .real x => .isTrue (.real x)
  | .truth _ | .whole _ _ | .text _ => .isFalse fun h => by cases h

/-- The count in a cell, if there is one: what is not a number counts as missing. -/
def Cell.count? : Cell → Option Float
  | .real x => if x.isNaN then none else some x
  | _ => none

namespace FrameLibrary

variable {lib : FrameLibrary}

/-- A frame whose cells hold numbers or are missing. -/
def HoldsCounts (lib : FrameLibrary) (counts : lib.Frame) : Prop :=
  ∀ row ∈ lib.rows counts, ∀ cell ∈ row, cell.2.IsCount

/-- The counts of a row, each under the text of its label. -/
def counts (lib : FrameLibrary) (row : List (lib.Label × Cell)) : Sample :=
  .ofList (row.filterMap fun cell => cell.2.count?.map fun x => (lib.text cell.1, x))

/-- The cells of a row that hold counts. -/
def present (lib : FrameLibrary) (row : List (lib.Label × Cell)) : List (lib.Label × Cell) :=
  row.filter fun cell => cell.2.count?.isSome

/-- The last count under a name in a row, if there is one. -/
def lastCount? (lib : FrameLibrary) (row : List (lib.Label × Cell)) (name : String) :
    Option Float :=
  (row.filterMap fun cell => if lib.text cell.1 = name then cell.2.count? else none).getLast?

/-- The counts of a row are the last ones under each name. -/
theorem find?_counts (row : List (lib.Label × Cell)) (name : String) :
    (lib.counts row).find? name = lib.lastCount? row name := by
  rw [counts, NameMap.find?_ofList_last, List.filterMap_filterMap, lastCount?]
  congr 2
  funext cell
  cases cell.2.count? with
  | none => simp
  | some x => rfl

theorem present_present (row : List (lib.Label × Cell)) :
    lib.present (lib.present row) = lib.present row := by
  simp [present, List.filter_filter]

/-- A missing cell is no different from a column that is not there. -/
theorem counts_of_present {row row' : List (lib.Label × Cell)}
    (same : lib.present row' = lib.present row) : lib.counts row' = lib.counts row := by
  have only (row : List (lib.Label × Cell)) : lib.counts (lib.present row) = lib.counts row := by
    rw [counts, counts, present, List.filterMap_filter]
    congr 2
    funext cell
    cases cell.2.count? <;> rfl
  rw [← only row', same, only row]

/-- Numbers and missing cells are the counts of a row. -/
theorem sample_eq_counts (laws : lib.Laws) {row : List (lib.Label × Cell)}
    (isCount : ∀ cell ∈ row, cell.2.IsCount) : lib.sample row = .ok (lib.counts row) := by
  have there : ∀ cell ∈ row, lib.notMissing cell.2 = cell.2.count?.isSome := by
    rintro ⟨label, cell⟩ mem
    cases isCount _ mem with
    | missing => exact laws.notMissing_missing
    | real x =>
      refine (laws.notMissing_real x).trans ?_
      show (!x.isNaN) = (if x.isNaN then none else some x : Option Float).isSome
      cases x.isNaN <;> rfl
  have read : (lib.present row).mapM (fun cell => cell.2.number.map fun x => (lib.text cell.1, x)) =
      .ok (row.filterMap fun cell => cell.2.count?.map fun x => (lib.text cell.1, x)) := by
    unfold present
    induction row with
    | nil => rfl
    | cons cell rest ih =>
      have others := ih (fun c mem => isCount c (List.mem_cons_of_mem cell mem))
        fun c mem => there c (List.mem_cons_of_mem cell mem)
      rw [List.filter_cons, List.filterMap_cons]
      obtain ⟨label, cell⟩ := cell
      cases isCount _ List.mem_cons_self with
      | missing => exact others
      | real x =>
        cases number : x.isNaN with
        | true =>
          have none : (Cell.real x).count? = none := if_pos number
          simp only [none]
          exact others
        | false =>
          have one : (Cell.real x).count? = some x := if_neg (by rw [number]; decide)
          simp only [one, Option.isSome_some, if_true, Option.map_some, List.mapM_cons]
          rw [others]
          rfl
  unfold sample
  rw [List.filter_congr there]
  show Except.map _ (List.mapM _ (lib.present row)) = _
  rw [read]
  rfl

end FrameLibrary

namespace MetricTable

variable {t : MetricTable} {names : List String} {runtime : Int} {answers : HostLiteral → Float}
  {lib : FrameLibrary} {counts : lib.Frame}

/-! ## Cell by cell -/

/-- The runtime parameter has to be written for a metric of a frame and is too long. -/
def AsksTooLong (lib : FrameLibrary) (t : MetricTable) (names : List String) (counts : lib.Frame)
    (runtime : Int) (answers : HostLiteral → Float) : Prop :=
  ∃ row ∈ lib.rows counts, ∃ name ∈ names, ∃ text,
    t.compute name (lib.counts row) runtime answers =
      .error (.formula (.unreadable text .runtimeTooLong))

theorem computeFrame_unknown_iff (laws : lib.Laws) :
    (∃ name, t.computeFrame lib names counts runtime answers =
      .error (.resolve (.unknown name))) ↔ ∃ name ∈ names, name ∉ t.names := by
  constructor
  · rintro ⟨name, failed⟩
    rcases error_of_computeFrame laws failed with ⟨name', mem, absent, -⟩ | ⟨row, -, failed⟩
    · exact ⟨name', mem, absent⟩
    · rcases error_of_computeRow failed with ⟨_, same, -⟩ | ⟨_, _, _, same, -, -, -, ends⟩
      · cases same
      · cases same
        cases ends
  · rintro ⟨name, mem, absent⟩
    have missing : (names.find? fun name => !t.contains name).isSome := by
      rw [List.find?_isSome]
      exact ⟨name, mem, by simp [contains, absent]⟩
    -- The report blames the first name that is missing, which need not be this one.
    obtain ⟨first, found⟩ := Option.isSome_iff_exists.1 missing
    exact ⟨first, computeFrame_eq_error_of_unknown found counts runtime answers⟩

/-- Rows of counts are computed one by one, unless the parameter has to be written and is too
long. -/
theorem computeFrame_of_counts (laws : lib.Laws) (counted : lib.HoldsCounts counts)
    (allowed : 0 ≤ runtime) (known : ∀ name ∈ names, name ∈ t.names)
    (written : ¬t.AsksTooLong lib names counts runtime answers) :
    ∃ result, t.computeFrame lib names counts runtime answers = .ok result ∧
      lib.index result = lib.index counts ∧ lib.columns result = names.map lib.label ∧
      lib.rows result = (lib.rows counts).map fun row =>
        t.cellsOf lib names runtime answers (lib.counts row) := by
  have sampled : (lib.rows counts).mapM lib.sample = .ok ((lib.rows counts).map lib.counts) :=
    mapM_eq_ok fun row mem => FrameLibrary.sample_eq_counts laws (counted row mem)
  have accepted : ∀ row ∈ lib.rows counts, ∀ sample, lib.sample row = .ok sample →
      ∀ name ∈ names, ¬t.RefusesRuntime name sample runtime answers := by
    intro row mem sample same name isName refuses
    rw [FrameLibrary.sample_eq_counts laws (counted row mem)] at same
    cases same
    rcases refusesRuntime_iff.1 refuses with ⟨-, negative⟩ | ⟨text, failed⟩
    · omega
    · exact written ⟨row, mem, name, isName, text, failed⟩
  obtain ⟨result, done, index, columns, rows⟩ := computeFrame_eq_ok laws known sampled accepted
  exact ⟨result, done, index, columns, rows.trans (List.map_map ..)⟩

/-- Rows that are taken in another order, or several times or never, give their results so. -/
theorem computeFrame_of_places (laws : lib.Laws) (counted : lib.HoldsCounts counts)
    (allowed : 0 ≤ runtime) (known : ∀ name ∈ names, name ∈ t.names)
    (written : ¬t.AsksTooLong lib names counts runtime answers) {result : lib.Frame}
    (rows : lib.rows result = (lib.rows counts).map fun row =>
      t.cellsOf lib names runtime answers (lib.counts row)) {places : List Nat}
    {counts' : lib.Frame} (taken : lib.rows counts' = places.filterMap ((lib.rows counts)[·]?)) :
    ∃ result', t.computeFrame lib names counts' runtime answers = .ok result' ∧
      lib.rows result' = places.filterMap ((lib.rows result)[·]?) := by
  have chosen : ∀ row ∈ lib.rows counts', row ∈ lib.rows counts := by
    intro row mem
    rw [taken] at mem
    obtain ⟨i, -, at_i⟩ := List.mem_filterMap.1 mem
    exact List.mem_of_getElem? at_i
  -- No row that was taken asks for the parameter, because none of the rows does.
  have written' : ¬t.AsksTooLong lib names counts' runtime answers :=
    fun ⟨row, mem, asks⟩ => written ⟨row, chosen row mem, asks⟩
  obtain ⟨result', done', -, -, rows'⟩ := computeFrame_of_counts laws
    (fun row mem => counted row (chosen row mem)) allowed known written'
  refine ⟨result', done', ?_⟩
  rw [rows', rows, taken, List.map_filterMap]
  simp only [List.getElem?_map]

/-- Rows with the same cells that hold counts have the same results. -/
theorem computeFrame_of_present (laws : lib.Laws) (allowed : 0 ≤ runtime)
    (known : ∀ name ∈ names, name ∈ t.names)
    (written : ¬t.AsksTooLong lib names counts runtime answers) {result : lib.Frame}
    (rows : lib.rows result = (lib.rows counts).map fun row =>
      t.cellsOf lib names runtime answers (lib.counts row))
    {counts' : lib.Frame} (counted' : lib.HoldsCounts counts')
    (same : (lib.rows counts').map lib.present = (lib.rows counts).map lib.present) :
    ∃ result', t.computeFrame lib names counts' runtime answers = .ok result' ∧
      lib.rows result' = lib.rows result := by
  -- The counts of a row are made of the cells that are present and of nothing else.
  have alike : (lib.rows counts').map lib.counts = (lib.rows counts).map lib.counts := by
    have only (rows : List (List (lib.Label × Cell))) :
        rows.map lib.counts = (rows.map lib.present).map lib.counts := by
      rw [List.map_map]
      exact List.map_congr_left fun row _ =>
        FrameLibrary.counts_of_present (FrameLibrary.present_present row).symm
    rw [only, same, ← only]
  have written' : ¬t.AsksTooLong lib names counts' runtime answers := by
    rintro ⟨row, mem, asks⟩
    have there : lib.counts row ∈ (lib.rows counts).map lib.counts :=
      alike ▸ List.mem_map_of_mem mem
    obtain ⟨row', mem', sameCounts⟩ := List.mem_map.1 there
    exact written ⟨row', mem', sameCounts ▸ asks⟩
  obtain ⟨result', done', -, -, rows'⟩ :=
    computeFrame_of_counts laws counted' allowed known written'
  refine ⟨result', done', ?_⟩
  calc lib.rows result'
      = ((lib.rows counts').map lib.counts).map (t.cellsOf lib names runtime answers) := by
        rw [rows', List.map_map]
        rfl
    _ = lib.rows result := by
        rw [alike, rows, List.map_map]
        rfl

theorem computeFrame_tooLong_iff (laws : lib.Laws) (counted : lib.HoldsCounts counts)
    (allowed : 0 ≤ runtime) (known : ∀ name ∈ names, name ∈ t.names) :
    (∃ text, t.computeFrame lib names counts runtime answers =
      .error (.resolve (.formula (.unreadable text .runtimeTooLong)))) ↔
        t.AsksTooLong lib names counts runtime answers := by
  constructor
  · rintro ⟨text, failed⟩
    by_contra written
    obtain ⟨result, done, -⟩ := computeFrame_of_counts laws counted allowed known written
    rw [done] at failed
    cases failed
  · rintro ⟨row, mem, name, isName, text, failed⟩
    cases done : t.computeFrame lib names counts runtime answers with
    | ok result =>
      obtain ⟨-, each⟩ := (computeFrame_isOk_iff laws).1 ⟨result, done⟩
      obtain ⟨sample, sampled, accepted⟩ := each row mem
      rw [FrameLibrary.sample_eq_counts laws (counted row mem)] at sampled
      cases sampled
      exact absurd (refusesRuntime_iff.2 (.inr ⟨text, failed⟩)) (accepted name isName)
    | error e =>
      -- The row that fails first need not be this one, but it fails for the same parameter.
      rcases error_of_computeFrame laws done with ⟨name', isName', absent, -⟩ | ⟨row', mem', fails⟩
      · exact absurd (known name' isName') absent
      · rcases error_of_computeRow fails with ⟨_, -, unread⟩ | ⟨_, s, n, rfl, -, -, fails, ends⟩
        · rw [FrameLibrary.sample_eq_counts laws (counted row' mem')] at unread
          cases unread
        · rcases refusesRuntime_iff.1 ⟨_, fails, ends⟩ with ⟨-, negative⟩ | ⟨text', fails'⟩
          · omega
          · rw [fails] at fails'
            cases fails'
            exact ⟨text', rfl⟩

/-- Metrics are computed for a frame unless one of them is unknown, with a row for every row,
labelled alike, and a column for every name, also for one that comes twice. Each cell is the value
of its metric for the counts of its row, and not a number if the metric has no value for them. The
counts of a row are the last ones under each name, so a missing cell comes to the same as a column
that is not there. Rows that are taken in another order give their results in that order. The one
exception is a runtime parameter with too many digits: where it has to be written for a metric and a
row, nothing is computed. -/
theorem computeFrame_agrees (laws : lib.Laws) (t : MetricTable) (names : List String)
    (counted : lib.HoldsCounts counts) (allowed : 0 ≤ runtime) (answers : HostLiteral → Float) :
    ((∃ name, t.computeFrame lib names counts runtime answers =
      .error (.resolve (.unknown name))) ↔ ∃ name ∈ names, name ∉ t.names) ∧
    ((∀ name ∈ names, name ∈ t.names) →
      ((∃ text, t.computeFrame lib names counts runtime answers =
        .error (.resolve (.formula (.unreadable text .runtimeTooLong)))) ↔
          t.AsksTooLong lib names counts runtime answers) ∧
      (¬t.AsksTooLong lib names counts runtime answers → ∃ result,
        t.computeFrame lib names counts runtime answers = .ok result ∧
        lib.index result = lib.index counts ∧ lib.columns result = names.map lib.label ∧
        lib.rows result = (lib.rows counts).map (fun row => names.map fun name =>
          (lib.label name, .real (valueOf (t.compute name (lib.counts row) runtime answers)))) ∧
        (∀ places : List Nat, ∀ counts' : lib.Frame,
          lib.rows counts' = places.filterMap ((lib.rows counts)[·]?) → ∃ result',
            t.computeFrame lib names counts' runtime answers = .ok result' ∧
              lib.rows result' = places.filterMap ((lib.rows result)[·]?)) ∧
        ∀ counts' : lib.Frame, lib.HoldsCounts counts' →
          (lib.rows counts').map lib.present = (lib.rows counts).map lib.present → ∃ result',
            t.computeFrame lib names counts' runtime answers = .ok result' ∧
              lib.rows result' = lib.rows result)) ∧
    ((Nat.toDigits 10 runtime.toNat).length ≤ Decimal.digitLimit →
      ¬t.AsksTooLong lib names counts runtime answers) ∧
    ∀ row name, (lib.counts row).find? name = lib.lastCount? row name := by
  refine ⟨computeFrame_unknown_iff laws, fun known => ?_, fun short => ?_,
    FrameLibrary.find?_counts⟩
  · refine ⟨computeFrame_tooLong_iff laws counted allowed known, fun written => ?_⟩
    obtain ⟨result, done, index, columns, rows⟩ :=
      computeFrame_of_counts laws counted allowed known written
    exact ⟨result, done, index, columns, rows,
      fun _ _ taken => computeFrame_of_places laws counted allowed known written rows taken,
      fun _ counted' same => computeFrame_of_present laws allowed known written rows counted' same⟩
  · rintro ⟨row, -, name, -, text, failed⟩
    have refuses := refusesRuntime_iff.2 (.inr ⟨text, failed⟩)
    have long := digitLimit_lt_of_refusesRuntime allowed refuses
    omega

/-- Two rows of counts, with a column that comes twice and with missing cells. -/
def twoRows : Sheet where
  indexName := some "time"
  columns := [.text "cycles", .text "instructions", .text "cycles"]
  rows := [(.real 0.5, [.real 6.0, .real 4.0, .missing]),
    (.real 1.5, [.real 6.0, .missing, .real 8.0])]

theorem holdsCounts_twoRows : FrameLibrary.plain.HoldsCounts twoRows := by
  show ∀ row ∈ twoRows.rows.map fun row => twoRows.columns.zip row.2, ∀ cell ∈ row, cell.2.IsCount
  decide

/-- In the first row the first count of the cycles stands, in the second row the last one; there
the instructions are not counted. The metric was asked for twice. -/
theorem computeFrame_agrees_twoRows :
    FrameLibrary.plain.Laws ∧ FrameLibrary.plain.HoldsCounts twoRows ∧ ∃ result : Sheet,
      efficiency.computeFrame .plain ["ratio", "ratio"] twoRows 0 (fun _ => 0.0) = .ok result ∧
      result.columns = [.text "ratio", .text "ratio"] ∧
      FrameLibrary.plain.rows result =
        [List.replicate 2 (.text "ratio", .real (valueOf (efficiency.compute "ratio"
            (.ofList [("cycles", 6.0), ("instructions", 4.0)]) 0 fun _ => 0.0))),
          List.replicate 2 (.text "ratio", .real (valueOf (efficiency.compute "ratio"
            (.ofList [("cycles", 8.0)]) 0 fun _ => 0.0)))] := by
  have known : ∀ name ∈ ["ratio", "ratio"], name ∈ efficiency.names := by decide
  obtain ⟨-, computed, short, -⟩ := computeFrame_agrees FrameLibrary.laws_plain efficiency
    ["ratio", "ratio"] holdsCounts_twoRows (le_refl (0 : Int)) fun _ => 0.0
  obtain ⟨-, computed⟩ := computed known
  obtain ⟨result, done, -, columns, rows, -⟩ := computed (short (by decide))
  refine ⟨FrameLibrary.laws_plain, holdsCounts_twoRows, result, done, columns, rows.trans ?_⟩
  have last : NameMap.ofList [("cycles", (6.0 : Float)), ("cycles", 8.0)] =
      .ofList [("cycles", 8.0)] := by
    apply NameMap.eq_of_entries
    show NameMap.setEntry [("cycles", (6.0 : Float))] "cycles" 8.0 = [("cycles", 8.0)]
    exact if_pos rfl
  rw [← last]
  rfl

/-- A metric whose formula asks for the runtime parameter. -/
def asking : Metric := bare "A" "a?" (by cbv) (by decide)

theorem compute_asking (sample : Sample) (answers : HostLiteral → Float) :
    MetricTable.compute ⟨[asking], by decide⟩ "A" sample (Formula.unwritable : Nat) answers =
      .error (.formula (.unreadable "a?" .runtimeTooLong)) := by
  have found : MetricTable.find? ⟨[asking], by decide⟩ "A" = some asking := by rfl
  have checked : checkRuntime (Formula.unwritable : Nat) = .ok Formula.unwritable := by
    rw [checkRuntime, if_neg (by omega), Int.toNat_natCast]
  have long : Formula.parse asking.source Formula.unwritable = .error .runtimeTooLong :=
    (Formula.parse_eq_tooLong_iff "a?" Formula.unwritable).2
      ⟨Formula.digitLimit_lt_unwritable, Formula.asks_unwritable⟩
  unfold compute
  rw [found, checked]
  show Except.mapError _ (Context.evaluateText _ asking.source none).1 >>= _ = _
  rw [Context.evaluateText_of_unreadable (r := Formula.unwritable) rfl long]
  rfl

/-- Metrics of a table are not computed for every runtime parameter that is not negative. -/
theorem computeFrame_unwritable : ¬∀ (lib : FrameLibrary), lib.Laws → ∀ (t : MetricTable)
    (names : List String) (counts : lib.Frame) (runtime : Int) (answers : HostLiteral → Float),
    lib.HoldsCounts counts → 0 ≤ runtime → (∀ name ∈ names, name ∈ t.names) →
      ∃ result, t.computeFrame lib names counts runtime answers = .ok result := by
  intro always
  let t : MetricTable := ⟨[asking], by decide⟩
  have asks : t.AsksTooLong .plain ["A"] twoRows (Formula.unwritable : Nat) fun _ => 0.0 :=
    ⟨_, List.mem_cons_self, "A", List.mem_cons_self, "a?", compute_asking _ _⟩
  have known : ∀ name ∈ ["A"], name ∈ t.names := by decide
  obtain ⟨result, done⟩ := always .plain FrameLibrary.laws_plain t ["A"] twoRows
    (Formula.unwritable : Nat) (fun _ => 0.0) holdsCounts_twoRows (Int.natCast_nonneg _) known
  obtain ⟨text, failed⟩ := (computeFrame_tooLong_iff FrameLibrary.laws_plain holdsCounts_twoRows
    (Int.natCast_nonneg _) known).2 asks
  rw [done] at failed
  cases failed

end MetricTable
end PerfFormula
