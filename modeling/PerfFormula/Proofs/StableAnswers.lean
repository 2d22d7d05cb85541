import PerfFormula.Host.Machine

/-!
# Answers over time

The files about the processors change while a machine is asked. Whether multithreading is active is
found once, with the first question, whatever changes later. The processors online are counted from
the list that is there when the question comes, so two such questions can have different answers
though nothing but that list has changed between them.

Main statements:

* `Session.mem_answered_iff` — what was answered when.
* `Session.answers_over_time` — which answers stay the same, and what the other ones are.
* `Session.online_recounted` — the processors online are counted anew.
-/

namespace PerfFormula

/-- What a machine said to a question. -/
inductive HostAnswer where
  | smtOn (active : Bool)
  | cpus (n : Int)
  | cpusOnline (n : Int)
  deriving DecidableEq, Repr

/-- The question that an answer is for. -/
def HostAnswer.literal : HostAnswer → HostLiteral
  | .smtOn _ => .smtOn
  | .cpus _ => .cpus
  | .cpusOnline _ => .cpusOnline

/-- The value of a host literal with an answer. -/
def HostAnswer.value : HostAnswer → Float
  | .smtOn active => ofBool active
  | .cpus n | .cpusOnline n => ofWhole n

/-- What happens around a machine: its files change, or it is asked. -/
inductive HostEvent where
  | write (path : Path) (text : String)
  | remove (path : Path)
  | ask (literal : HostLiteral)

/-- Whether an event changes a file. -/
def HostEvent.Touches (path : Path) : HostEvent → Prop
  | .write p _ | .remove p => FileTree.key p = FileTree.key path
  | .ask _ => False

namespace Machine

/-- What a machine says to a question. -/
def answer (m : Machine) (tree : FileTree) : HostLiteral → HostAnswer
  | .smtOn => .smtOn (m.smtOn tree)
  | .cpus => .cpus m.cpus
  | .cpusOnline => .cpusOnline (m.cpusOnline tree)

theorem literal_answer (m : Machine) (tree : FileTree) (l : HostLiteral) :
    (m.answer tree l).literal = l := by
  cases l with
  | smtOn => rfl
  | cpus => rfl
  | cpusOnline => rfl

/-- Formulas read the values of what a machine says. -/
theorem value_answer (m : Machine) (tree : FileTree) (l : HostLiteral) :
    (m.answer tree l).value = m.answers tree l := by
  cases l with
  | smtOn => rfl
  | cpus => rfl
  | cpusOnline => rfl

/-- The count of the processors online depends on one file, and on how many processors are reported
if that file is of no use. -/
theorem cpusOnline_congr {m m' : Machine} {tree later : FileTree} (reported : m'.cpus = m.cpus)
    (same : later.files.find? (FileTree.key onlineFile) =
      tree.files.find? (FileTree.key onlineFile)) :
    m'.cpusOnline later = m.cpusOnline tree := by
  unfold cpusOnline FileTree.read FileTree.readRaw
  rw [same, reported]
  cases tree.files.find? (FileTree.key onlineFile) with
  | none => rfl
  | some text => rfl

end Machine

/-- A machine and its files. -/
structure Session where
  machine : Machine
  tree : FileTree

namespace Session

variable {s : Session} {events : List HostEvent}

/-- What a machine says now. -/
def answer (s : Session) (l : HostLiteral) : HostAnswer := s.machine.answer s.tree l

/-- What an event leaves. -/
def after (s : Session) : HostEvent → Session
  | .write path text => { s with tree := s.tree.write path text }
  | .remove path => { s with tree := s.tree.remove path }
  | .ask l => { s with machine := s.machine.afterAsking s.tree [l] }

/-- What some events leave, one after another. -/
def run (s : Session) (events : List HostEvent) : Session := events.foldl after s

/-- What a machine says when an event happens. -/
def said (s : Session) : HostEvent → List HostAnswer
  | .ask l => [s.answer l]
  | _ => []

/-- All that a machine says in the course of some events. -/
def answered (s : Session) : List HostEvent → List HostAnswer
  | [] => []
  | event :: rest => s.said event ++ (s.after event).answered rest

theorem run_append (s : Session) (before behind : List HostEvent) :
    s.run (before ++ behind) = (s.run before).run behind :=
  List.foldl_append

/-- What every event keeps, a run of them keeps. -/
theorem run_induction (P : Session → Prop) (start : P s)
    (step : ∀ s, ∀ event ∈ events, P s → P (s.after event)) : P (s.run events) := by
  induction events generalizing s with
  | nil => exact start
  | cons event rest ih =>
    refine ih (step s event List.mem_cons_self start) ?_
    intro s later mem
    exact step s later (List.mem_cons_of_mem event mem)

/-! ## What an event leaves -/

theorem cpus_after (s : Session) (event : HostEvent) :
    (s.after event).machine.cpus = s.machine.cpus := by
  cases event with
  | write path text => rfl
  | remove path => rfl
  | ask l =>
    cases l with
    | smtOn => rfl
    | cpus => rfl
    | cpusOnline => rfl

/-- An answer to `#smt_on` that was found is kept. -/
theorem smt_after {active : Bool} (found : s.machine.smt = some active) (event : HostEvent) :
    (s.after event).machine.smt = some active := by
  cases event with
  | write path text => exact found
  | remove path => exact found
  | ask l =>
    cases l with
    | smtOn =>
      -- The question is answered from what was found, and that is kept again.
      show some (s.machine.smt.getD _) = _
      rw [found]
      rfl
    | cpus => exact found
    | cpusOnline => exact found

/-- A file that an event does not touch stays as it is. -/
theorem file_after {path : Path} {event : HostEvent} (untouched : ¬event.Touches path)
    (s : Session) :
    (s.after event).tree.files.find? (FileTree.key path) =
      s.tree.files.find? (FileTree.key path) := by
  cases event with
  | write p text =>
    show (s.tree.files.set _ _).find? _ = _
    rw [NameMap.find?_set, if_neg (Ne.symm untouched)]
  | remove p =>
    show (s.tree.files.erase _).find? _ = _
    rw [NameMap.find?_erase, if_neg (Ne.symm untouched)]
  | ask l => rfl

/-! ## What a run leaves -/

theorem cpus_run (s : Session) (events : List HostEvent) :
    (s.run events).machine.cpus = s.machine.cpus := by
  apply run_induction fun later => later.machine.cpus = s.machine.cpus
  · rfl
  · intro later event _ kept
    rw [cpus_after, kept]

theorem smt_run {active : Bool} (found : s.machine.smt = some active) (events : List HostEvent) :
    (s.run events).machine.smt = some active := by
  apply run_induction fun later => later.machine.smt = some active
  · exact found
  · intro later event _ kept
    exact smt_after kept event

theorem file_run {path : Path} (untouched : ∀ event ∈ events, ¬event.Touches path) (s : Session) :
    (s.run events).tree.files.find? (FileTree.key path) =
      s.tree.files.find? (FileTree.key path) := by
  apply run_induction fun later =>
    later.tree.files.find? (FileTree.key path) = s.tree.files.find? (FileTree.key path)
  · rfl
  · intro later event mem kept
    rw [file_after (untouched event mem), kept]

/-- Once `#smt_on` was asked, its answer is known. -/
theorem smt_run_of_asked (asked : .ask .smtOn ∈ events) (s : Session) :
    ∃ active, (s.run events).machine.smt = some active := by
  obtain ⟨before, behind, rfl⟩ := List.append_of_mem asked
  rw [run_append]
  exact ⟨(s.run before).machine.smtOn (s.run before).tree, smt_run rfl behind⟩

/-! ## What was answered -/

theorem mem_said_iff {event : HostEvent} {a : HostAnswer} :
    a ∈ s.said event ↔ event = .ask a.literal ∧ a = s.answer a.literal := by
  cases event with
  | write path text => simp [said]
  | remove path => simp [said]
  | ask l =>
    rw [said, List.mem_singleton]
    constructor
    · rintro rfl
      rw [answer, Machine.literal_answer]
      exact ⟨rfl, rfl⟩
    · rintro ⟨isAsked, a_eq⟩
      rw [HostEvent.ask.inj isAsked]
      exact a_eq

/-- Each answer is what the machine says after the events before the question. -/
theorem mem_answered_iff {a : HostAnswer} :
    a ∈ s.answered events ↔
      ∃ before behind, events = before ++ .ask a.literal :: behind ∧
        a = (s.run before).answer a.literal := by
  induction events generalizing s with
  | nil => simp [answered]
  | cons event rest ih =>
    rw [answered, List.mem_append, mem_said_iff, ih]
    -- The question is the first event, or it stands behind it.
    constructor
    · rintro (⟨rfl, a_eq⟩ | ⟨before, behind, rfl, a_eq⟩)
      · exact ⟨[], rest, rfl, a_eq⟩
      · exact ⟨event :: before, behind, rfl, a_eq⟩
    · rintro ⟨before, behind, split, a_eq⟩
      cases before with
      | nil =>
        cases split
        exact .inl ⟨rfl, a_eq⟩
      | cons first before =>
        cases split
        exact .inr ⟨before, behind, rfl, a_eq⟩

/-- An answer to `#smt_on` that was found is given to all later questions. -/
theorem smtOn_answered_of_found {active a : Bool} (found : s.machine.smt = some active)
    (mem : .smtOn a ∈ s.answered events) : a = active := by
  obtain ⟨before, behind, -, answer_eq⟩ := mem_answered_iff.1 mem
  have a_eq : a = (s.run before).machine.smt.getD _ := HostAnswer.smtOn.inj answer_eq
  rw [a_eq, smt_run found before]
  rfl

/-- All questions for `#smt_on` have the answer that the first of them found. -/
theorem smtOn_answered (s : Session) (events : List HostEvent) :
    ∃ active, ∀ a, .smtOn a ∈ s.answered events → a = active := by
  induction events generalizing s with
  | nil => exact ⟨false, fun a mem => by cases mem⟩
  | cons event rest ih =>
    -- What the first question finds is kept; the events before it have no answers to `#smt_on`.
    by_cases asked : event = .ask .smtOn
    · refine ⟨s.machine.smtOn s.tree, ?_⟩
      intro a mem
      rcases List.mem_append.1 mem with now | later
      · exact HostAnswer.smtOn.inj (mem_said_iff.1 now).2
      · rw [asked] at later
        exact smtOn_answered_of_found rfl later
    · obtain ⟨active, same⟩ := ih (s.after event)
      refine ⟨active, ?_⟩
      intro a mem
      rcases List.mem_append.1 mem with now | later
      · exact absurd (mem_said_iff.1 now).1 asked
      · exact same a later

theorem cpus_answered {n : Int} (mem : .cpus n ∈ s.answered events) : n = s.machine.cpus := by
  obtain ⟨before, behind, -, answer_eq⟩ := mem_answered_iff.1 mem
  have n_eq : n = (s.run before).machine.cpus := HostAnswer.cpus.inj answer_eq
  rw [n_eq, cpus_run]

/-- The processors online are counted anew for every question. -/
theorem cpusOnline_answered_iff {n : Int} :
    .cpusOnline n ∈ s.answered events ↔
      ∃ before behind, events = before ++ .ask .cpusOnline :: behind ∧
        n = s.machine.cpusOnline (s.run before).tree := by
  rw [mem_answered_iff]
  refine exists_congr fun before => exists_congr fun behind => and_congr_right fun _ => ?_
  have count_eq : (s.run before).machine.cpusOnline (s.run before).tree =
      s.machine.cpusOnline (s.run before).tree :=
    Machine.cpusOnline_congr (cpus_run s before) rfl
  rw [← count_eq]
  exact ⟨HostAnswer.cpusOnline.inj, congrArg HostAnswer.cpusOnline⟩

/-! ## Which answers are stable -/

/-- The answer to each question stays the same once `#smt_on` was asked, as long as the list of the
processors online is left alone. -/
theorem answer_kept (asked : .ask .smtOn ∈ events) {later : List HostEvent}
    (untouched : ∀ event ∈ later, ¬event.Touches Machine.onlineFile) (s : Session)
    (l : HostLiteral) : (s.run (events ++ later)).answer l = (s.run events).answer l := by
  obtain ⟨active, found⟩ := smt_run_of_asked asked s
  rw [run_append]
  cases l with
  | smtOn =>
    -- Both answers are what was found before, so the files are not read.
    apply congrArg HostAnswer.smtOn
    show Option.getD _ _ = Option.getD _ _
    rw [smt_run found, found]
    rfl
  | cpus => exact congrArg HostAnswer.cpus (cpus_run _ later)
  | cpusOnline =>
    exact congrArg HostAnswer.cpusOnline
      (Machine.cpusOnline_congr (cpus_run _ later) (file_run untouched _))

/-- All answers to `#smt_on` are the same, whatever happens to the files, and so are the answers to
`#num_cpus`. An answer to `#num_cpus_online` is the count for the files that are there when the
question comes; it stays the same as long as nothing touches the list of the processors online. So
formulas read the same host literals before and after some events if `#smt_on` was asked first and
the events leave that list alone. -/
theorem answers_over_time (s : Session) (events : List HostEvent) :
    (∀ a b, .smtOn a ∈ s.answered events → .smtOn b ∈ s.answered events → a = b) ∧
    (∀ n, .cpus n ∈ s.answered events → n = s.machine.cpus) ∧
    (∀ n, .cpusOnline n ∈ s.answered events ↔
      ∃ before behind, events = before ++ .ask .cpusOnline :: behind ∧
        n = s.machine.cpusOnline (s.run before).tree) ∧
    ((∀ event ∈ events, ¬event.Touches Machine.onlineFile) →
      ∀ n, .cpusOnline n ∈ s.answered events → n = s.machine.cpusOnline s.tree) ∧
    ∀ later : List HostEvent, .ask .smtOn ∈ events →
      (∀ event ∈ later, ¬event.Touches Machine.onlineFile) →
        (s.run (events ++ later)).machine.answers (s.run (events ++ later)).tree =
          (s.run events).machine.answers (s.run events).tree := by
  refine ⟨?_, fun n => cpus_answered, fun n => cpusOnline_answered_iff, ?_, ?_⟩
  · intro a b first second
    obtain ⟨active, same⟩ := smtOn_answered s events
    rw [same a first, same b second]
  · intro untouched n mem
    -- No event before the question touches the list, so it is the one of the beginning.
    obtain ⟨before, behind, rfl, n_eq⟩ := cpusOnline_answered_iff.1 mem
    rw [n_eq]
    apply Machine.cpusOnline_congr rfl
    apply file_run
    intro event early
    exact untouched event (List.mem_append_left _ early)
  · intro later asked untouched
    funext l
    rw [← Machine.value_answer, ← Machine.value_answer]
    exact congrArg HostAnswer.value (answer_kept asked untouched s l)

/-- A machine with eight processors, of which four are online, with multithreading. -/
def halfOnline : Session where
  machine := .new (some 8)
  tree := (FileTree.empty.write Machine.onlineFile "0-3\n").write Machine.activeFile "1\n"

/-- The file that says whether multithreading is active is changed and then removed. -/
def threadsOff : List HostEvent :=
  [.write Machine.activeFile "0\n", .remove Machine.activeFile]

/-- A formula still reads what the machine found when it was asked before. -/
theorem answers_over_time_threadsOff :
    (∀ event ∈ threadsOff, ¬event.Touches Machine.onlineFile) ∧
    let later := halfOnline.run ([.ask .smtOn] ++ threadsOff)
    later.machine.answers later.tree .smtOn = ofBool true ∧
      later.machine.answers later.tree .cpusOnline = ofWhole 4 := by
  have other : FileTree.key Machine.activeFile ≠ FileTree.key Machine.onlineFile := by
    decide +kernel
  have untouched : ∀ event ∈ threadsOff, ¬event.Touches Machine.onlineFile := by
    simp [threadsOff, HostEvent.Touches, other]
  obtain ⟨-, -, -, -, kept⟩ := answers_over_time halfOnline [.ask .smtOn]
  have active : halfOnline.machine.smtOn halfOnline.tree = true := by decide +kernel
  have count : halfOnline.machine.cpusOnline halfOnline.tree = 4 := by decide +kernel
  refine ⟨untouched, ?_⟩
  show Machine.answers _ _ _ = _ ∧ Machine.answers _ _ _ = _
  rw [kept threadsOff List.mem_cons_self untouched]
  exact ⟨congrArg ofBool active, congrArg ofWhole count⟩

/-- Two processors go offline between two questions for the count of those online. -/
def goingOffline : List HostEvent :=
  [.ask .cpusOnline, .write Machine.onlineFile "0-1\n", .ask .cpusOnline]

theorem answered_goingOffline :
    halfOnline.answered goingOffline = [.cpusOnline 4, .cpusOnline 2] := by
  decide +kernel

/-- Answers to `#num_cpus_online` differ though it is the same machine that was asked. -/
theorem online_recounted :
    ¬∀ (s : Session) (events : List HostEvent) (a b : Int),
      .cpusOnline a ∈ s.answered events → .cpusOnline b ∈ s.answered events → a = b := by
  intro same
  have equal : (4 : Int) = 2 := by
    apply same halfOnline goingOffline
    · rw [answered_goingOffline]
      decide
    · rw [answered_goingOffline]
      decide
  omega

end Session
end PerfFormula
