import Mathlib
import PerfFormula.Host.CpuSpan
import PerfFormula.Host.Machine
import PerfFormula.Text.Longest

/-!
# Listed processors

A list names a set of processors if its spans are apart and name the processors of the set between
them. The count of the list is then the size of the set: every processor is counted once, in the
only span that names it, whatever the order of the spans and the blanks around the list.

There is one limit. The ends of a span are read as numbers, and a number has at most `digitLimit`
digits; a list with a longer end is refused. A machine without `smt/active` looks for a list of
thread siblings that names at least two processors, and passes over the lists that are refused.

Main statements:

* `CpuList.Lists.count_of_short`, `CpuList.Lists.count_of_long` — what the count of a list is.
* `CpuList.exists_lists` — every finite set of processors can be listed.
* `Machine.isSiblingsFile_siblingsFile` — a processor of any number has a list of thread siblings.
* `Machine.siblings_are_counted` — the counts of listed sets, and what a machine finds by them.
-/

namespace PerfFormula

open PerfFormula.Decimal PerfFormula.Text

namespace CpuSpan

theorem nodup_numbers (s : CpuSpan) : s.numbers.Nodup := by
  cases s with
  | one n => exact List.nodup_singleton n
  | span low high => exact List.nodup_range'

/-- Spans that name no processor twice. -/
def Apart (a b : CpuSpan) : Prop := List.Disjoint a.numbers b.numbers

end CpuSpan

namespace CpuList

/-! ## Lists of sets -/

/-- A text lists the processors of a set by some spans, with blanks around the whole. -/
structure Lists (text : String) (spans : List CpuSpan) (processors : Finset ℕ) : Prop where
  surrounded : ∃ front back, RunOf isBlank front ∧ RunOf isBlank back ∧
    text.toList = front ++ write spans ++ back
  ordered : ∀ s ∈ spans, s.IsOrdered
  apart : spans.Pairwise CpuSpan.Apart
  named : ∀ n, n ∈ processors ↔ ∃ s ∈ spans, n ∈ s.numbers

/-- Spans that are apart list the processors that they name. -/
theorem lists_write {spans : List CpuSpan} {front back : List Char} (hf : RunOf isBlank front)
    (hb : RunOf isBlank back) (ordered : ∀ s ∈ spans, s.IsOrdered)
    (apart : spans.Pairwise CpuSpan.Apart) :
    Lists (.ofList (front ++ write spans ++ back)) spans
      (spans.flatMap CpuSpan.numbers).toFinset where
  surrounded := ⟨front, back, hf, hb, String.toList_ofList⟩
  ordered := ordered
  apart := apart
  named := by simp

/-- Every finite set of processors is listed by the text of its numbers. -/
theorem exists_lists (processors : Finset ℕ) :
    ∃ text spans, Lists text spans processors ∧ ∀ s ∈ spans, s.IsShort := by
  have apart : (processors.toList.map CpuSpan.one).Pairwise CpuSpan.Apart := by
    rw [List.pairwise_map]
    refine processors.nodup_toList.imp ?_
    intro a b ne
    simpa [CpuSpan.Apart, CpuSpan.numbers] using Ne.symm ne
  have short : ∀ s ∈ processors.toList.map CpuSpan.one, s.IsShort := by
    intro s mem
    obtain ⟨n, -, rfl⟩ := List.mem_map.1 mem
    trivial
  have same : ((processors.toList.map CpuSpan.one).flatMap CpuSpan.numbers).toFinset =
      processors := by
    ext n
    simp [CpuSpan.numbers]
  have blank : RunOf isBlank [] := by simp [RunOf]
  have listed := lists_write blank blank (by simp [CpuSpan.IsOrdered]) apart
  rw [same] at listed
  exact ⟨_, _, listed, short⟩

/-! ## The count of a list -/

/-- A list with a span that is too long is refused, whatever its other spans are. -/
theorem total_of_long {spans : List CpuSpan} (ordered : ∀ s ∈ spans, s.IsOrdered)
    (long : ∃ s ∈ spans, ¬s.IsShort) :
    ∃ k, digitLimit < k ∧ total (spans.map CpuSpan.write) = .error (.tooLong k) := by
  induction spans with
  | nil =>
    obtain ⟨s, mem, -⟩ := long
    cases mem
  | cons s rest ih =>
    have first := ordered s List.mem_cons_self
    have ordered : ∀ s ∈ rest, s.IsOrdered := fun s hs => ordered s (List.mem_cons_of_mem _ hs)
    rw [List.map_cons, total]
    by_cases short : s.IsShort
    · -- The first span is counted, so the long one is behind it.
      have behind : ∃ s ∈ rest, ¬s.IsShort := by
        obtain ⟨t, mem, tooLong⟩ := long
        rcases List.mem_cons.1 mem with rfl | mem
        · exact absurd short tooLong
        · exact ⟨t, mem, tooLong⟩
      obtain ⟨k, above, refused⟩ := ih ordered behind
      refine ⟨k, above, ?_⟩
      rw [CpuSpan.entryCount_write first short, refused]
      rfl
    · obtain ⟨k, above, refused⟩ := CpuSpan.entryCount_write_of_long first short
      refine ⟨k, above, ?_⟩
      rw [refused]
      rfl

namespace Lists

variable {text : String} {spans : List CpuSpan} {processors : Finset ℕ}

theorem trim_eq (h : Lists text spans processors) : trim text.toList = write spans := by
  obtain ⟨front, back, hf, hb, split⟩ := h.surrounded
  rw [split, trim_append hf hb]
  exact trimBy_eq_self fun c hc => isBlank_of_isTyped (isTyped_of_mem_write hc)

/-- The processors of the spans are those of the set, each of them once. -/
theorem length_numbers (h : Lists text spans processors) :
    (spans.flatMap CpuSpan.numbers).length = processors.card := by
  have nodup : (spans.flatMap CpuSpan.numbers).Nodup :=
    List.nodup_flatMap.2 ⟨fun s _ => s.nodup_numbers, h.apart⟩
  have same : (spans.flatMap CpuSpan.numbers).toFinset = processors := by
    ext n
    rw [h.named, List.mem_toFinset, List.mem_flatMap]
  rw [← same, List.toFinset_card_of_nodup nodup]

/-- The count of a list is the size of the set that it lists. -/
theorem count_of_short (h : Lists text spans processors) (short : ∀ s ∈ spans, s.IsShort) :
    count text = .ok (processors.card : ℤ) := by
  rw [count_eq_length h.trim_eq h.ordered short, h.length_numbers]

/-- A list with an end of too many digits is refused. -/
theorem count_of_long (h : Lists text spans processors) (long : ∃ s ∈ spans, ¬s.IsShort) :
    ∃ k, digitLimit < k ∧ count text = .error (.tooLong k) := by
  have some : spans ≠ [] := by
    rintro rfl
    obtain ⟨s, mem, -⟩ := long
    cases mem
  rw [count, entries, h.trim_eq, splitOnP_write some]
  exact total_of_long h.ordered long

end Lists

/-! ## Ends of too many digits -/

/-- A processor with so large a number that the ends of a span around it are too long. -/
def tooLarge : ℕ := 10 ^ digitLimit

theorem not_isShort_tooLarge : ¬(CpuSpan.span tooLarge tooLarge).IsShort := by
  rintro ⟨short, -⟩
  exact Nat.lt_irrefl _ ((Nat.length_toDigits_le_iff (by decide) (by decide)).1 short)

/-- A list of one processor that is refused. -/
theorem count_tooLarge :
    ¬∀ text spans processors, Lists text spans processors →
      count text = .ok (processors.card : ℤ) := by
  intro counts
  have blank : RunOf isBlank [] := by simp [RunOf]
  have ordered : ∀ s ∈ [CpuSpan.span tooLarge tooLarge], s.IsOrdered := by simp [CpuSpan.IsOrdered]
  have listed := lists_write blank blank ordered (List.pairwise_singleton _ _)
  obtain ⟨k, -, refused⟩ := listed.count_of_long ⟨_, List.mem_cons_self, not_isShort_tooLarge⟩
  rw [counts _ _ _ listed] at refused
  cases refused

end CpuList

/-! ## Thread siblings -/

namespace Machine

/-- The list of the thread siblings of a processor. -/
def siblingsFile (n : ℕ) : Path :=
  ⟨"", ["cpu" ++ String.ofList (Nat.toDigits 10 n), "topology", "thread_siblings_list"]⟩

theorem parts_siblingsFile (n : ℕ) :
    FileTree.resolve (siblingsFile n) = (siblingsFile n).parts := by
  have named : "cpu" ++ String.ofList (Nat.toDigits 10 n) ≠ ".." := by
    intro same
    have first := congrArg (fun s : String => s.toList.head?) same
    simp at first
  simp [FileTree.resolve, siblingsFile, named]

/-- A processor of any number has a list of thread siblings. -/
theorem isSiblingsFile_siblingsFile (n : ℕ) :
    isSiblingsFile (FileTree.key (siblingsFile n)) = true := by
  obtain ⟨d, rest, digits⟩ := List.exists_cons_of_ne_nil (@Nat.toDigits_ne_nil n 10)
  have digit : isDigit d = true := isDigit_of_mem_toDigits (n := n) (digits ▸ List.mem_cons_self)
  have slashless : '/' ∉ Nat.toDigits 10 n :=
    fun mem => absurd (isDigit_of_mem_toDigits mem) (by decide)
  -- The key is the three names of the path, and none of them holds a slash.
  have key : (FileTree.key (siblingsFile n)).toList = ['/'].intercalate
      [['c', 'p', 'u'] ++ Nat.toDigits 10 n, "topology".toList, "thread_siblings_list".toList] := by
    rw [FileTree.key, parts_siblingsFile]
    simp [siblingsFile, String.intercalate_cons_cons, List.intercalate]
  have names := @List.splitOn_intercalate _ [['c', 'p', 'u'] ++ Nat.toDigits 10 n,
    "topology".toList, "thread_siblings_list".toList] _ _ '/' (by simp [slashless]) (by simp)
  rw [List.splitOn, ← key] at names
  rw [isSiblingsFile, names]
  simp [digits, digit]

/-- Every list of thread siblings in a tree lists some set of processors. -/
def ListsSiblings (tree : FileTree) : Prop :=
  ∀ file ∈ tree.files.entries, isSiblingsFile file.1 = true →
    ∃ spans processors, CpuList.Lists file.2 spans processors

/-- A list names at least two processors, and is not refused for an end of too many digits. -/
def NamesSeveral (text : String) : Prop :=
  ∃ spans processors, CpuList.Lists text spans processors ∧ (∀ s ∈ spans, s.IsShort) ∧
    2 ≤ processors.card

/-- A listed set counts as more than one processor if it has several and its list is not refused. -/
theorem count_iff_namesSeveral {text : String} {spans : List CpuSpan} {processors : Finset ℕ}
    (listed : CpuList.Lists text spans processors) :
    (∃ n, CpuList.count text = .ok n ∧ 1 < n) ↔ NamesSeveral text := by
  constructor
  · rintro ⟨n, counted, several⟩
    by_cases long : ∃ s ∈ spans, ¬s.IsShort
    · obtain ⟨k, -, refused⟩ := listed.count_of_long long
      rw [refused] at counted
      cases counted
    · have short : ∀ s ∈ spans, s.IsShort := by
        intro s mem
        by_contra tooLong
        exact long ⟨s, mem, tooLong⟩
      rw [listed.count_of_short short] at counted
      cases counted
      exact ⟨spans, processors, listed, short, by exact_mod_cast several⟩
  · rintro ⟨spans', processors', listed', short, several⟩
    exact ⟨_, listed'.count_of_short short, by exact_mod_cast several⟩

theorem hasSiblings_iff {tree : FileTree} (lists : ListsSiblings tree) :
    hasSiblings tree = true ↔
      ∃ file ∈ tree.files.entries, isSiblingsFile file.1 = true ∧ NamesSeveral file.2 := by
  rw [hasSiblings, List.any_eq_true]
  refine exists_congr fun file => and_congr_right fun mem => ?_
  rw [Bool.and_eq_true]
  refine and_congr_right fun isList => ?_
  obtain ⟨spans, processors, listed⟩ := lists file mem isList
  rw [← count_iff_namesSeveral listed]
  cases CpuList.count file.2 with
  | ok n => simp
  | error e => simp

/-- A machine that was not asked yet and finds no `smt/active` looks for siblings. -/
theorem smtOn_new {tree : FileTree} (absent : FileTree.key activeFile ∉ tree.files.keys)
    (reported : Option ℤ) : (new reported).smtOn tree = hasSiblings tree := by
  have missing : tree.files.find? (FileTree.key activeFile) = none :=
    NameMap.find?_eq_none_iff.2 absent
  simp [new, smtOn, readSmt, readActive, FileTree.read, FileTree.readRaw, missing, Except.map]

/-- A list of processors is counted exactly: its count is the size of the set that it lists, unless
an end of one of its spans has too many digits, and then it is refused. So a machine that is asked
for the first time and finds no `smt/active` says that multithreading is active exactly if one of
its lists of thread siblings names at least two processors and is not refused. -/
theorem siblings_are_counted :
    (∀ text spans processors, CpuList.Lists text spans processors →
      ((∀ s ∈ spans, s.IsShort) → CpuList.count text = .ok (processors.card : ℤ)) ∧
      ((∃ s ∈ spans, ¬s.IsShort) →
        ∃ k, digitLimit < k ∧ CpuList.count text = .error (.tooLong k))) ∧
    ∀ (reported : Option ℤ) (tree : FileTree), FileTree.key activeFile ∉ tree.files.keys →
      ListsSiblings tree →
        ((new reported).smtOn tree = true ↔
          ∃ file ∈ tree.files.entries, isSiblingsFile file.1 = true ∧ NamesSeveral file.2) := by
  constructor
  · intro text spans processors listed
    exact ⟨listed.count_of_short, listed.count_of_long⟩
  · intro reported tree absent lists
    rw [smtOn_new absent]
    exact hasSiblings_iff lists

/-- Two processors, the first of which has three threads. -/
def threeThreads : FileTree :=
  (FileTree.empty.write (siblingsFile 0) " 4-5,0\n").write (siblingsFile 1) "1\n"

theorem lists_threeThreads : CpuList.Lists " 4-5,0\n" [.span 4 5, .one 0] {4, 5, 0} where
  surrounded := ⟨[' '], ['\n'], by decide, by decide, by decide +kernel⟩
  ordered := by simp [CpuSpan.IsOrdered]
  apart := by simp [CpuSpan.Apart, CpuSpan.numbers, List.range']
  named := by simp [CpuSpan.numbers, List.range', or_assoc]

theorem lists_oneThread : CpuList.Lists "1\n" [.one 1] {1} where
  surrounded := ⟨[], ['\n'], by decide, by decide, by decide +kernel⟩
  ordered := by simp [CpuSpan.IsOrdered]
  apart := List.pairwise_singleton _ _
  named := by simp [CpuSpan.numbers]

theorem siblings_are_counted_threeThreads :
    CpuList.count " 4-5,0\n" = .ok 3 ∧ (new (some 8)).smtOn threeThreads = true := by
  have first := lists_threeThreads
  have short : ∀ s ∈ [CpuSpan.span 4 5, .one 0], s.IsShort := by decide
  have files : threeThreads.files.entries =
      [(FileTree.key (siblingsFile 0), " 4-5,0\n"), (FileTree.key (siblingsFile 1), "1\n")] := by
    decide +kernel
  have absent : FileTree.key activeFile ∉ threeThreads.files.keys := by decide +kernel
  obtain ⟨counts, finds⟩ := siblings_are_counted
  constructor
  · exact (counts _ _ _ first).1 short
  · refine (finds (some 8) threeThreads absent ?_).2 ?_
    · intro file mem _
      rw [files] at mem
      rcases List.mem_cons.1 mem with rfl | mem
      · exact ⟨_, _, first⟩
      · obtain rfl := List.mem_singleton.1 mem
        exact ⟨_, _, lists_oneThread⟩
    · refine ⟨(FileTree.key (siblingsFile 0), " 4-5,0\n"), ?_, ?_, ?_⟩
      · rw [files]
        exact List.mem_cons_self
      · exact isSiblingsFile_siblingsFile 0
      · exact ⟨_, _, first, short, by decide⟩

end Machine
end PerfFormula
