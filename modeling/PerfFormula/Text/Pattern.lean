import PerfFormula.Text.Blank
import PerfFormula.Text.Longest

/-!
# Patterns

A pattern reads the beginning of a text. Often it can do so in several ways, which are tried one
after another. A greedy run takes as many characters as it can and gives them back one by one, a
lazy run takes as few as it can and more of them one by one, and an optional part is left out only
after everything else was tried. What counts is the first way in which each part of the pattern can
read what the parts before it have left.

Main statements:

* `Pattern.eq_append_of_mem` — what is read and what is left are the text.
* `Pattern.readings_many`, `Pattern.readings_few` — where a run ends in the first place, and what is
  tried before or after that.
* `Pattern.readings_eq_nil` — there is no way to read a text that begins with nothing of the kind.
* `Pattern.best?_andThen`, `Pattern.best?_andThen_of_failing` — the first way through two parts.
-/

namespace PerfFormula.Text

/-- A pattern of characters. -/
inductive Pattern where
  /-- One character that passes a test. -/
  | one (test : Char → Bool)
  /-- A run of characters that pass a test, the longer the better. -/
  | many (test : Char → Bool)
  /-- A run of characters that pass a test, the shorter the better. -/
  | few (test : Char → Bool)
  /-- The end of the text, or the place in front of a line feed that ends it. -/
  | atEnd
  | andThen (first second : Pattern)
  /-- What may be left out, but is read if it can be. -/
  | maybe (inner : Pattern)
  /-- A part that can be asked for by its number. -/
  | group (number : Nat) (inner : Pattern)

/-- One way to read the beginning of a text: what is taken, the parts with numbers in it, and what
is left. -/
structure Reading where
  taken : List Char
  groups : List (Nat × List Char)
  rest : List Char

namespace Reading

/-- Nothing is taken of a text. -/
def nothing (cs : List Char) : Reading := ⟨[], [], cs⟩

/-- A reading and one of what it left. -/
def followedBy (r s : Reading) : Reading := ⟨r.taken ++ s.taken, r.groups ++ s.groups, s.rest⟩

end Reading

namespace Pattern

/-- The beginnings of a text that consist of characters that pass a test, the shortest first. -/
def runs (test : Char → Bool) : List Char → List Reading
  | [] => [.nothing []]
  | c :: cs =>
    .nothing (c :: cs) ::
      if test c then (runs test cs).map (Reading.followedBy ⟨[c], [], cs⟩) else []

/-- All ways to read the beginning of a text, the best first. -/
def readings : Pattern → List Char → List Reading
  | one _, [] => []
  | one test, c :: cs => if test c then [⟨[c], [], cs⟩] else []
  | many test, cs => (runs test cs).reverse
  | few test, cs => runs test cs
  | atEnd, cs => if cs = [] ∨ cs = ['\n'] then [.nothing cs] else []
  | andThen p q, cs => (p.readings cs).flatMap fun r => (q.readings r.rest).map r.followedBy
  | maybe p, cs => p.readings cs ++ [.nothing cs]
  | group n p, cs => (p.readings cs).map fun r => { r with groups := (n, r.taken) :: r.groups }

/-- The best way to read the beginning of a text. -/
def best? (p : Pattern) (cs : List Char) : Option Reading := (p.readings cs).head?

/-- A text can be read to its end. -/
def Accepts (p : Pattern) (cs : List Char) : Prop := ∃ r ∈ p.readings cs, r.rest = []

variable {p q : Pattern} {test : Char → Bool} {cs : List Char} {r : Reading}

/-! ## Ways to read -/

theorem mem_one (h : r ∈ (one test).readings cs) :
    ∃ c, cs = c :: r.rest ∧ r.taken = [c] ∧ test c = true := by
  cases cs with
  | nil => cases h
  | cons c cs =>
    rw [readings] at h
    split at h
    · next passes =>
      obtain rfl := List.mem_singleton.1 h
      exact ⟨c, rfl, rfl, passes⟩
    · cases h

theorem mem_runs (h : r ∈ runs test cs) :
    cs = r.taken ++ r.rest ∧ RunOf test r.taken := by
  induction cs generalizing r with
  | nil =>
    obtain rfl := List.mem_singleton.1 h
    exact ⟨rfl, by simp [Reading.nothing, RunOf]⟩
  | cons c cs ih =>
    rcases List.mem_cons.1 h with rfl | h
    · exact ⟨rfl, by simp [Reading.nothing, RunOf]⟩
    · split at h
      · next passes =>
        obtain ⟨behind, mem, rfl⟩ := List.mem_map.1 h
        obtain ⟨split, run⟩ := ih mem
        refine ⟨congrArg (c :: ·) split, ?_⟩
        intro d hd
        rcases List.mem_cons.1 hd with rfl | hd
        · exact passes
        · exact run d hd
      · cases h

theorem mem_many (h : r ∈ (many test).readings cs) :
    cs = r.taken ++ r.rest ∧ RunOf test r.taken :=
  mem_runs (List.mem_reverse.1 h)

theorem mem_andThen_iff :
    r ∈ (andThen p q).readings cs ↔
      ∃ first ∈ p.readings cs, ∃ second ∈ q.readings first.rest, first.followedBy second = r := by
  simp [readings]

theorem mem_maybe_iff : r ∈ (maybe p).readings cs ↔ r ∈ p.readings cs ∨ r = .nothing cs := by
  simp [readings]

theorem mem_group_iff {n : Nat} :
    r ∈ (group n p).readings cs ↔
      ∃ inner ∈ p.readings cs, { inner with groups := (n, inner.taken) :: inner.groups } = r := by
  simp [readings]

theorem mem_atEnd (h : r ∈ atEnd.readings cs) : r = .nothing cs ∧ (cs = [] ∨ cs = ['\n']) := by
  rw [readings] at h
  split at h
  · next ends => exact ⟨List.mem_singleton.1 h, ends⟩
  · cases h

/-- What is read and what is left are the text. -/
theorem eq_append_of_mem (h : r ∈ p.readings cs) : cs = r.taken ++ r.rest := by
  induction p generalizing cs r with
  | one =>
    obtain ⟨c, split, taken, -⟩ := mem_one h
    rw [taken]
    exact split
  | many => exact (mem_many h).1
  | few => exact (mem_runs h).1
  | atEnd =>
    obtain ⟨rfl, -⟩ := mem_atEnd h
    rfl
  | andThen p q ihp ihq =>
    obtain ⟨first, mem, second, mem', rfl⟩ := mem_andThen_iff.1 h
    show cs = (first.taken ++ second.taken) ++ second.rest
    rw [List.append_assoc, ← ihq mem', ← ihp mem]
  | maybe p ih =>
    rcases mem_maybe_iff.1 h with h | rfl
    · exact ih h
    · rfl
  | group n p ih =>
    obtain ⟨inner, mem, rfl⟩ := mem_group_iff.1 h
    exact @ih cs inner mem

/-- There is no way to read a text if none of its beginnings is of the class of what is read. -/
theorem readings_eq_nil {C : List Char → Prop} (sound : ∀ r ∈ p.readings cs, C r.taken)
    (none : ∀ other, other <+: cs → ¬C other) : p.readings cs = [] := by
  rw [List.eq_nil_iff_forall_not_mem]
  intro r mem
  exact none r.taken ⟨r.rest, (eq_append_of_mem mem).symm⟩ (sound r mem)

/-! ## Runs -/

/-- A run gives back what stands behind some of its characters, before the text behind all of
them. -/
theorem runs_append {run : List Char} (h : RunOf test run) (rest : List Char) :
    ∃ shorter, runs test (run ++ rest) =
        shorter ++ (runs test rest).map (Reading.followedBy ⟨run, [], rest⟩) ∧
      ∀ r ∈ shorter, ∃ back, back ≠ [] ∧ run = r.taken ++ back ∧ r.rest = back ++ rest := by
  induction run with
  | nil =>
    refine ⟨[], ?_, by simp⟩
    show _ = (runs test rest).map id
    rw [List.map_id]
    rfl
  | cons c run ih =>
    obtain ⟨shorter, tried, behind⟩ := ih fun d hd => h d (List.mem_cons_of_mem c hd)
    refine ⟨.nothing (c :: (run ++ rest)) ::
      shorter.map (Reading.followedBy ⟨[c], [], run ++ rest⟩), ?_, ?_⟩
    · rw [List.cons_append, runs, if_pos (h c List.mem_cons_self), tried, List.map_append,
        List.map_map]
      rfl
    · intro r mem
      rcases List.mem_cons.1 mem with rfl | mem
      · exact ⟨c :: run, List.cons_ne_nil c run, rfl, rfl⟩
      · obtain ⟨inner, tried, rfl⟩ := List.mem_map.1 mem
        obtain ⟨back, ne, taken, left⟩ := behind inner tried
        exact ⟨back, ne, congrArg (c :: ·) taken, left⟩

theorem runs_of_stop {rest : List Char} (stop : ∀ c ∈ rest.head?, test c = false) :
    runs test rest = [.nothing rest] := by
  cases rest with
  | nil => rfl
  | cons c rest => rw [runs, if_neg (by simp [stop c rfl])]

/-- A lazy run tries to end within a run that passes before it ends behind it. -/
theorem readings_few {run : List Char} (h : RunOf test run) (rest : List Char) :
    ∃ shorter longer, (few test).readings (run ++ rest) = shorter ++ ⟨run, [], rest⟩ :: longer ∧
      ∀ r ∈ shorter, ∃ back, back ≠ [] ∧ run = r.taken ++ back ∧ r.rest = back ++ rest := by
  obtain ⟨shorter, tried, behind⟩ := runs_append h rest
  obtain ⟨longer, first⟩ : ∃ longer, runs test rest = .nothing rest :: longer := by
    cases rest with
    | nil => exact ⟨[], rfl⟩
    | cons c rest => exact ⟨_, rfl⟩
  refine ⟨shorter, longer.map (Reading.followedBy ⟨run, [], rest⟩), ?_, behind⟩
  rw [readings, tried, first, List.map_cons]
  simp [Reading.followedBy, Reading.nothing]

/-- The same of a lazy run with a number. -/
theorem readings_group_few (n : Nat) {run : List Char} (h : RunOf test run) (rest : List Char) :
    ∃ shorter longer, (group n (few test)).readings (run ++ rest) =
        shorter ++ ⟨run, [(n, run)], rest⟩ :: longer ∧
      ∀ r ∈ shorter, ∃ back, back ≠ [] ∧ run = r.taken ++ back ∧ r.rest = back ++ rest := by
  obtain ⟨shorter, longer, tried, behind⟩ := readings_few h rest
  let numbered (r : Reading) : Reading := { r with groups := (n, r.taken) :: r.groups }
  refine ⟨shorter.map numbered, longer.map numbered, ?_, ?_⟩
  · rw [readings, tried, List.map_append, List.map_cons]
  · intro r mem
    obtain ⟨inner, tried, rfl⟩ := List.mem_map.1 mem
    exact behind inner tried

/-- A greedy run ends first where no character passes, and then in front of its last character. -/
theorem readings_many {run : List Char} (h : RunOf test run) {rest : List Char}
    (stop : ∀ c ∈ rest.head?, test c = false) :
    ∃ shorter, (many test).readings (run ++ rest) = ⟨run, [], rest⟩ :: shorter := by
  obtain ⟨shorter, tried, -⟩ := runs_append h rest
  rw [readings, tried, runs_of_stop stop]
  exact ⟨shorter.reverse, by simp [Reading.followedBy, Reading.nothing]⟩

theorem readings_many_last {run : List Char} (h : RunOf test run) {c : Char}
    (passes : test c = true) {rest : List Char} (stop : ∀ c ∈ rest.head?, test c = false) :
    ∃ shorter, (many test).readings (run ++ c :: rest) =
      ⟨run ++ [c], [], rest⟩ :: ⟨run, [], c :: rest⟩ :: shorter := by
  obtain ⟨shorter, tried, -⟩ := runs_append h (c :: rest)
  rw [readings, tried, runs, if_pos passes, runs_of_stop stop]
  exact ⟨shorter.reverse, by simp [Reading.followedBy, Reading.nothing]⟩

/-! ## The best way -/

/-- The first way through two parts, if the best one through the first part leads on. -/
theorem best?_andThen {s : Reading} (first : p.best? cs = some r)
    (second : q.best? r.rest = some s) : (andThen p q).best? cs = some (r.followedBy s) := by
  obtain ⟨others, first⟩ := List.head?_eq_some_iff.1 first
  obtain ⟨others', second⟩ := List.head?_eq_some_iff.1 second
  simp [best?, readings, first, second]

/-- The first way through two parts, if better ones through the first part lead nowhere. -/
theorem best?_andThen_of_failing {s : Reading} {failing others : List Reading}
    (first : p.readings cs = failing ++ r :: others)
    (fails : ∀ f ∈ failing, q.readings f.rest = []) (second : q.best? r.rest = some s) :
    (andThen p q).best? cs = some (r.followedBy s) := by
  obtain ⟨others', second⟩ := List.head?_eq_some_iff.1 second
  have nothing : failing.flatMap (fun r => (q.readings r.rest).map r.followedBy) = [] := by
    rw [List.flatMap_eq_nil_iff]
    intro f mem
    rw [fails f mem, List.map_nil]
  simp [best?, readings, first, second, nothing]

theorem best?_many {run : List Char} (h : RunOf test run) {rest : List Char}
    (stop : ∀ c ∈ rest.head?, test c = false) :
    (many test).best? (run ++ rest) = some ⟨run, [], rest⟩ := by
  obtain ⟨shorter, tried⟩ := readings_many h stop
  rw [best?, tried]
  rfl

theorem best?_many_takeWhile (test : Char → Bool) (cs : List Char) :
    (many test).best? cs = some ⟨cs.takeWhile test, [], cs.dropWhile test⟩ := by
  have read := best?_many (run_takeWhile test cs) (head?_dropWhile_kept test cs)
  rwa [List.takeWhile_append_dropWhile] at read

theorem best?_one {c : Char} (passes : test c = true) (rest : List Char) :
    (one test).best? (c :: rest) = some ⟨[c], [], rest⟩ := by
  rw [best?, readings, if_pos passes]
  rfl

theorem best?_maybe (h : p.best? cs = some r) : (maybe p).best? cs = some r := by
  obtain ⟨others, tried⟩ := List.head?_eq_some_iff.1 h
  rw [best?, readings, tried]
  rfl

theorem best?_maybe_of_nil (h : p.readings cs = []) : (maybe p).best? cs = some (.nothing cs) := by
  rw [best?, readings, h]
  rfl

theorem best?_group {n : Nat} (h : p.best? cs = some r) :
    (group n p).best? cs = some { r with groups := (n, r.taken) :: r.groups } := by
  obtain ⟨others, tried⟩ := List.head?_eq_some_iff.1 h
  rw [best?, readings, tried]
  rfl

theorem readings_one_of_stop (stop : ∀ c ∈ cs.head?, test c = false) :
    (one test).readings cs = [] := by
  cases cs with
  | nil => rfl
  | cons c cs => rw [readings, if_neg (by simp [stop c rfl])]

theorem readings_group_of_nil {n : Nat} (h : p.readings cs = []) :
    (group n p).readings cs = [] := by
  rw [readings, h]
  rfl

end Pattern
end PerfFormula.Text
