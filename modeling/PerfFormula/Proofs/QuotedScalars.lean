import PerfFormula.Proofs.HexDigits
import PerfFormula.Proofs.WrittenLines

/-!
# Quoted scalars of written YAML

A text that is written between quotes is read back up to its closing quote. Between single quotes,
quotes are doubled and line feeds are written once more than they are there. Between double quotes,
all but printable ASCII is escaped, and a line break is escaped, too, so that it stands for nothing;
a space at the start of the next line is escaped then.

Main statements:

* `Yaml.ReadsQuoted` — whether a quoted scalar has a text; its lemmas read one part after the other.
* `Yaml.readsQuoted_runs` — a text that is written between single quotes is read from its runs.
* `Yaml.escaped_writeEscaped` — a text between double quotes is read from its escapes.
* `Yaml.readsQuoted_writeText` — a text that is written between quotes is read back.
-/

namespace PerfFormula
namespace Yaml

open PerfFormula.Text (nibbles length_nibbles lt_of_mem_nibbles foldl_nibbles hex_eq_nibbles
  toNat_bounds toNat_lt_pow)

/-! ## Between quotes -/

/-- Whether a quoted scalar whose first character stands in front of `shown` has the text `cs`, and
leaves `tail`. -/
def ReadsQuoted (mark : Char) (shown cs tail : List Char) : Prop :=
  ∀ l k i fuel, shown.length < fuel → ∃ l' k' i', l ≤ l' ∧
    quotedScalar mark fuel ⟨shown, l, k, i⟩ = .ok (cs, ⟨tail, l', k', i'⟩)

namespace ReadsQuoted

variable {mark : Char} {shown shown' p cs tail : List Char}

theorem quotedScalar_of_part {c after : Cursor} (h : quotedPart mark c = .ok (p, after))
    (moved : (p.isEmpty && after.index == c.index) = false) (fuel : Nat) :
    quotedScalar mark (fuel + 1) c =
      (quotedScalar mark fuel after).map fun (more, c) => (p ++ more, c) := by
  rw [quotedScalar, h]
  simp only [bind, Except.bind, moved]
  rfl

/-- A part of the text is read in front of the others. -/
theorem of_part (later : ReadsQuoted mark shown' cs tail)
    (shorter : shown'.length < shown.length)
    (h : ∀ l k i, ∃ l' k' i', l ≤ l' ∧ i < i' ∧
      quotedPart mark ⟨shown, l, k, i⟩ = .ok (p, ⟨shown', l', k', i'⟩)) :
    ReadsQuoted mark shown (p ++ cs) tail := by
  intro l k i fuel enough
  obtain ⟨fuel, rfl⟩ := Nat.exists_eq_succ_of_ne_zero (by omega : fuel ≠ 0)
  obtain ⟨l₁, k₁, i₁, after, moved, hpart⟩ := h l k i
  obtain ⟨l₂, k₂, i₂, behind, read⟩ := later l₁ k₁ i₁ fuel (by omega)
  have goesOn : (p.isEmpty && i₁ == i) = false := by
    have : (i₁ == i) = false := by simpa using Nat.ne_of_gt moved
    simp [this]
  refine ⟨l₂, k₂, i₂, Nat.le_trans after behind, ?_⟩
  rw [quotedScalar_of_part hpart goesOn, read]
  rfl

theorem close (isMark : isPlainAscii mark = true ∧ isGap mark = false ∧ mark ≠ '\\')
    (single : mark = '\'' → tail.head? ≠ some mark) : ReadsQuoted mark (mark :: tail) [] tail := by
  intro l k i fuel enough
  obtain ⟨fuel, rfl⟩ := Nat.exists_eq_succ_of_ne_zero (by omega : fuel ≠ 0)
  obtain ⟨ascii, solid, noEscape⟩ := isMark
  have twice : (mark == '\'' && tail.head? == some mark) = false := by
    by_cases h : mark = '\''
    · simpa [h] using single h
    · simp [h]
  have ends : quotedPart mark ⟨mark :: tail, l, k, i⟩ = .ok ([], ⟨mark :: tail, l, k, i⟩) := by
    simp [quotedPart, solid, noEscape, twice]
  refine ⟨l, k + 1, i + 1, Nat.le_refl l, ?_⟩
  rw [quotedScalar, ends]
  simp only [bind, Except.bind, Cursor.next_plainAscii ascii]
  simp
  rfl

theorem char {c : Char} (ascii : isPlainAscii c = true) (noSpace : c ≠ ' ') (noMark : c ≠ mark)
    (noEscape : mark = '"' → c ≠ '\\') (later : ReadsQuoted mark shown cs tail) :
    ReadsQuoted mark (c :: shown) (c :: cs) tail := by
  have solid : isGap c = false := by
    rw [isGap_of_isPlainAscii ascii]
    simpa using noSpace
  refine of_part (p := [c]) later (Nat.lt_succ_self _) fun l k i => ?_
  refine ⟨l, k + 1, i + 1, Nat.le_refl l, Nat.lt_succ_self i, ?_⟩
  have noEscape' : (c == '\\' && mark == '"') = false := by
    rw [Bool.and_eq_false_iff, beq_eq_false_iff_ne, beq_eq_false_iff_ne]
    by_cases h : mark = '"'
    · exact .inl (noEscape h)
    · exact .inr h
  simp [quotedPart, solid, noEscape', noMark, Cursor.next_plainAscii ascii]

theorem quotedPart_spaces (mark : Char) {more : List Char}
    (inside : ∀ c ∈ more.head?, isGap c = false) (m l k i : Nat) :
    quotedPart mark ⟨List.replicate (m + 1) ' ' ++ more, l, k, i⟩ =
      .ok (List.replicate (m + 1) ' ', ⟨more, l, k + (m + 1), i + (m + 1)⟩) := by
  have spaces : (List.replicate (m + 1) ' ' ++ more).takeWhile (fun c => c == ' ' || c == '\t') =
      List.replicate (m + 1) ' ' :=
    takeWhile_spaces (p := fun c => c == ' ' || c == '\t') rfl (m + 1) fun c hc => by
      have kept := inside c hc
      rw [isGap, Bool.or_eq_false_iff] at kept
      exact kept.1
  have noBreak : ∀ c ∈ more.head?, isBreak c = false := fun c hc => isBreak_of_isGap (inside c hc)
  have gap : quotedGap ⟨List.replicate (m + 1) ' ' ++ more, l, k, i⟩ =
      .ok (List.replicate (m + 1) ' ', ⟨more, l, k + (m + 1), i + (m + 1)⟩) := by
    simp only [quotedGap, spaces, List.length_replicate, skip_spaces,
      Cursor.lineBreak?_of_head noBreak]
  rw [← gap]
  rfl

/-- A space is kept, also in front of others, unless a line ends behind them. -/
theorem space (later : ReadsQuoted mark shown cs tail)
    (inside : ∀ c ∈ (shown.dropWhile (· == ' ')).head?, isGap c = false) :
    ReadsQuoted mark (' ' :: shown) (' ' :: cs) tail := by
  obtain ⟨m, more, rfl, kept⟩ : ∃ m more, shown = List.replicate m ' ' ++ more ∧
      ∀ c ∈ more.head?, isGap c = false := by
    refine ⟨(shown.takeWhile (· == ' ')).length, shown.dropWhile (· == ' '), ?_, inside⟩
    have spaces : shown.takeWhile (· == ' ') =
        List.replicate (shown.takeWhile (· == ' ')).length ' ' :=
      List.eq_replicate_of_mem fun c hc => by
        simpa using List.all_eq_true.1 List.all_takeWhile c hc
    rw [← spaces, List.takeWhile_append_dropWhile]
  -- a gap is read as a whole, so that the spaces are counted
  cases m with
  | zero =>
    refine of_part (p := [' ']) later (Nat.lt_succ_self _) fun l k i => ?_
    exact ⟨l, _, _, Nat.le_refl l, Nat.lt_succ_self i, quotedPart_spaces mark kept 0 l k i⟩
  | succ m =>
    -- the spaces behind this one are read together with it
    intro l k i fuel enough
    obtain ⟨fuel, rfl⟩ := Nat.exists_eq_succ_of_ne_zero (by omega : fuel ≠ 0)
    obtain ⟨l', k', i', after, read⟩ := later l (k + 1) (i + 1) (fuel + 1) (by
      rw [List.length_cons] at enough
      omega)
    refine ⟨l', k', i', after, ?_⟩
    have others := quotedPart_spaces mark kept m l (k + 1) (i + 1)
    have all := quotedPart_spaces mark kept (m + 1) l k i
    rw [quotedScalar_of_part others rfl] at read
    rw [List.replicate_succ, List.cons_append] at all
    rw [Nat.add_right_comm k, Nat.add_right_comm i] at read
    rw [quotedScalar_of_part all rfl, ← Nat.add_assoc k, ← Nat.add_assoc i]
    cases hmore : quotedScalar mark fuel ⟨more, l, k + (m + 1) + 1, i + (m + 1) + 1⟩ with
    | error e =>
      rw [hmore] at read
      cases read
    | ok found =>
      rw [hmore] at read
      obtain ⟨rfl, hplace⟩ := Prod.mk.inj (Except.ok.inj read)
      exact congrArg (fun c => Except.ok (_, c)) hplace

theorem quotedLines_lineFeeds {more : List Char} (inside : ∀ c ∈ more.head?, isGap c = false)
    {n : Nat} (deep : 0 < n) {a fuel : Nat} (enough : a < fuel) (l k i : Nat) :
    ∃ l' k' i', l ≤ l' ∧ i ≤ i' ∧
      quotedLines fuel ⟨List.replicate a '\n' ++ (List.replicate n ' ' ++ more), l, k, i⟩ =
        .ok (List.replicate a '\n', ⟨more, l', k', i'⟩) := by
  have blank (c : Char) (h : isGap c = false) : (c == ' ' || c == '\t') = false := by
    rw [isGap, Bool.or_eq_false_iff] at h
    exact h.1
  -- by induction on the empty lines; the spaces in front of the next word end them
  induction a generalizing fuel l k i with
  | zero =>
    obtain ⟨fuel, rfl⟩ := Nat.exists_eq_succ_of_ne_zero (by omega : fuel ≠ 0)
    have noBreak : ∀ c ∈ more.head?, isBreak c = false := fun c hc => isBreak_of_isGap (inside c hc)
    have spaces : (List.replicate n ' ' ++ more).takeWhile (fun c => c == ' ' || c == '\t') =
        List.replicate n ' ' :=
      takeWhile_spaces (p := fun c => c == ' ' || c == '\t') rfl n fun c hc =>
        blank c (inside c hc)
    refine ⟨l, k + n, i + n, Nat.le_refl l, Nat.le_add_right i n, ?_⟩
    rw [quotedLines, List.replicate_zero, List.nil_append, atSeparator_of_indented deep]
    simp only [Cursor.skipWhile, spaces, List.length_replicate, skip_spaces,
      Cursor.lineBreak?_of_head noBreak]
    rfl
  | succ a ih =>
    obtain ⟨fuel, rfl⟩ := Nat.exists_eq_succ_of_ne_zero (by omega : fuel ≠ 0)
    obtain ⟨l', k', i', after, moved, read⟩ := ih (by omega : a < fuel) (l + 1) 0 (i + 1)
    refine ⟨l', k', i', by omega, by omega, ?_⟩
    rw [quotedLines, List.replicate_succ, List.cons_append, atSeparator_of_isGap (by decide)]
    have stays : Cursor.skipWhile (fun ch => ch == ' ' || ch == '\t')
        ⟨'\n' :: (List.replicate a '\n' ++ (List.replicate n ' ' ++ more)), l, k, i⟩ =
        ⟨'\n' :: (List.replicate a '\n' ++ (List.replicate n ' ' ++ more)), l, k, i⟩ := rfl
    simp only [stays, Cursor.lineBreak?_lineFeed, read]
    rfl

/-- The end of a line counts as a space, and each further one as itself. -/
theorem lineFeeds (later : ReadsQuoted mark shown cs tail)
    (inside : ∀ c ∈ shown.head?, isGap c = false) {n : Nat} (deep : 0 < n) (a : Nat) :
    ReadsQuoted mark ('\n' :: (List.replicate a '\n' ++ (List.replicate n ' ' ++ shown)))
      (foldBreak '\n' (List.replicate a '\n') ++ cs) tail := by
  refine of_part later (by simp; omega) fun l k i => ?_
  have enough : a < (List.replicate a '\n' ++ (List.replicate n ' ' ++ shown)).length + 1 := by
    rw [List.length_append, List.length_replicate]
    omega
  obtain ⟨l', k', i', after, moved, read⟩ :=
    quotedLines_lineFeeds inside deep enough (l + 1) 0 (i + 1)
  refine ⟨l', k', i', by omega, by omega, ?_⟩
  have noSpace : ('\n' :: (List.replicate a '\n' ++ (List.replicate n ' ' ++ shown))).takeWhile
      (fun ch => ch == ' ' || ch == '\t') = [] := rfl
  have gap :
      quotedGap ⟨'\n' :: (List.replicate a '\n' ++ (List.replicate n ' ' ++ shown)), l, k, i⟩ =
      .ok (foldBreak '\n' (List.replicate a '\n'), ⟨shown, l', k', i'⟩) := by
    simp only [quotedGap, noSpace, List.length_nil, Cursor.skip, Cursor.lineBreak?_lineFeed, read]
    rfl
  rw [← gap]
  rfl

theorem spaces (later : ReadsQuoted mark shown cs tail)
    (inside : ∀ c ∈ shown.head?, isGap c = false) (m : Nat) :
    ReadsQuoted mark (List.replicate (m + 1) ' ' ++ shown) (List.replicate (m + 1) ' ' ++ cs)
      tail := by
  refine of_part later (by simp) fun l k i => ?_
  exact ⟨l, _, _, Nat.le_refl l, by omega, quotedPart_spaces mark inside m l k i⟩

/-- Two single quotes are read as one. -/
theorem twice (later : ReadsQuoted '\'' shown cs tail) :
    ReadsQuoted '\'' ('\'' :: '\'' :: shown) ('\'' :: cs) tail := by
  refine of_part (p := ['\'']) later (Nat.lt_succ_of_lt (Nat.lt_succ_self _)) fun l k i => ?_
  exact ⟨l, k + 2, i + 2, Nat.le_refl l, by omega, rfl⟩

theorem word (later : ReadsQuoted '\'' shown cs tail) {word : List Char}
    (ascii : ∀ c ∈ word, isPlainAscii c = true) (noSpace : ∀ c ∈ word, c ≠ ' ') :
    ReadsQuoted '\'' (doubleQuotes word ++ shown) (word ++ cs) tail := by
  induction word with
  | nil => exact later
  | cons c word ih =>
    have rest := ih (fun d hd => ascii d (List.mem_cons_of_mem _ hd))
      fun d hd => noSpace d (List.mem_cons_of_mem _ hd)
    rw [doubleQuotes, List.flatMap_cons, List.append_assoc]
    by_cases quote : c = '\''
    · subst quote
      exact twice rest
    · rw [if_neg (by simpa using quote)]
      exact char (ascii c List.mem_cons_self) (noSpace c List.mem_cons_self) quote
        (fun h => absurd h (by decide)) rest

end ReadsQuoted

/-! ### The single-quoted style -/

theorem hasPair_suffix {p q : Char → Bool} {cs : List Char} (h : hasPair p q cs = false)
    {a b : Char} {rest : List Char} (suffix : a :: b :: rest <:+ cs) : (p a && q b) = false := by
  induction cs with
  | nil => simp at suffix
  | cons c cs ih =>
    rcases List.suffix_cons_iff.1 suffix with whole | later
    · obtain ⟨rfl, rfl⟩ := List.cons.inj whole
      rw [hasPair, Bool.or_eq_false_iff] at h
      exact h.1
    · apply ih _ later
      cases cs with
      | nil => rfl
      | cons d cs =>
        rw [hasPair, Bool.or_eq_false_iff] at h
        exact h.2

/-- What a text has to be like so that it can be written between single quotes. -/
structure Quotable (cs : List Char) : Prop where
  ascii : ∀ c ∈ cs, c = '\n' ∨ isPlainAscii c = true
  /-- No space and line feed are next to each other. -/
  apart : ∀ a b rest, a :: b :: rest <:+ cs → ¬(a = '\n' ∧ b = ' ') ∧ ¬(a = ' ' ∧ b = '\n')

theorem Quotable.of_append {front cs : List Char} (h : Quotable (front ++ cs)) : Quotable cs where
  ascii c hc := h.ascii c (List.mem_append_right front hc)
  apart a b rest hrest := h.apart a b rest (hrest.trans (List.suffix_append front cs))

theorem quotable_of_singleQuoted {cs : List Char} (h : chooseStyle cs = .singleQuoted) :
    Quotable cs := by
  unfold chooseStyle at h
  simp only at h
  split_ifs at h with plain single
  simp only [analyse, Bool.not_eq_true', Bool.or_eq_false_iff] at single
  obtain ⟨⟨special, breakThenSpace⟩, spaceThenBreak⟩ := single
  refine ⟨?_, ?_⟩
  -- only line feeds and printable ASCII count as no special characters
  · intro c hc
    have kept := List.any_eq_false.1 special c hc
    by_cases feed : c = '\n'
    · exact .inl feed
    · exact .inr (by simpa [feed] using kept)
  · intro a b rest suffix
    have first := hasPair_suffix breakThenSpace suffix
    have second := hasPair_suffix spaceThenBreak suffix
    constructor
    · rintro ⟨rfl, rfl⟩
      exact absurd first (by decide)
    · rintro ⟨rfl, rfl⟩
      exact absurd second (by decide)

/-- Behind a run of spaces or line feeds stands a word or the closing quote. -/
theorem head_behind_gap {kind : RunKind} {run : List Char} {more : List (List Char)}
    (isRun : IsRun kind run) (gap : kind ≠ .word) (divided : Divided (some kind) more)
    (quotable : Quotable (run ++ more.flatten)) (indent column : Nat) (first : Bool)
    (tail : List Char) :
    ∀ c ∈ (writeRuns indent first true column more ++ '\'' :: tail).head?, isGap c = false := by
  cases divided with
  | nil => exact forall_head (by decide)
  | @cons _ kind' next more isRun' other later =>
    obtain ⟨d, next, rfl⟩ := List.exists_cons_of_ne_nil isRun'.ne
    cases kind' with
    | word =>
      obtain ⟨column', shown⟩ := writeRuns_word isRun' indent column first true more
      obtain ⟨noSpace, noFeed⟩ := isRun'.of_word List.mem_cons_self
      have ascii : isPlainAscii d = true :=
        (quotable.ascii d (by simp)).resolve_left noFeed
      intro c hc
      have quoted : c = d := by
        rw [shown, if_pos rfl, doubleQuotes, List.flatMap_cons] at hc
        split_ifs at hc with quote
        · rw [beq_iff_eq.1 quote]
          exact (Option.some.inj hc).symm
        · exact (Option.some.inj hc).symm
      rw [quoted, isGap_of_isPlainAscii ascii]
      simpa using noSpace
    | spaces =>
      cases kind with
      | word => exact absurd rfl gap
      | spaces => exact absurd rfl other
      | lineFeeds =>
        obtain ⟨m, rfl⟩ := isRun.eq_lineFeeds
        obtain ⟨m', hm'⟩ := isRun'.eq_spaces
        -- a text in which a space follows a line feed is not written in this style
        refine absurd ⟨rfl, rfl⟩ (quotable.apart '\n' ' ' (List.replicate m' ' ' ++ more.flatten)
          ⟨List.replicate m '\n', ?_⟩).1
        rw [hm', List.replicate_succ' (n := m)]
        simp [List.replicate_succ]
    | lineFeeds =>
      cases kind with
      | word => exact absurd rfl gap
      | lineFeeds => exact absurd rfl other
      | spaces =>
        obtain ⟨m, rfl⟩ := isRun.eq_spaces
        obtain ⟨m', hm'⟩ := isRun'.eq_lineFeeds
        refine absurd ⟨rfl, rfl⟩ (quotable.apart ' ' '\n' (List.replicate m' '\n' ++ more.flatten)
          ⟨List.replicate m ' ', ?_⟩).2
        rw [hm', List.replicate_succ' (n := m)]
        simp [List.replicate_succ]

section

variable {indent : Nat} {tail : List Char}

theorem readsQuoted_runs (deep : 0 < indent) (closed : tail.head? ≠ some '\'')
    {before : Option RunKind} {rs : List (List Char)} (divided : Divided before rs)
    (quotable : Quotable rs.flatten) (first : Bool) (column : Nat) :
    ReadsQuoted '\'' (writeRuns indent first true column rs ++ '\'' :: tail) rs.flatten tail := by
  induction divided generalizing first column with
  | nil => exact .close (by decide) fun _ => closed
  | @cons before kind run more isRun other later ih =>
    have rest := fun column => ih quotable.of_append false column
    cases kind with
    | word =>
      obtain ⟨column', shown⟩ := writeRuns_word isRun indent column first true more
      rw [if_pos rfl] at shown
      rw [shown, List.append_assoc]
      have ascii : ∀ c ∈ run, isPlainAscii c = true := fun c hc =>
        (quotable.ascii c (List.mem_append_left _ hc)).resolve_left (isRun.of_word hc).2
      exact (rest column').word ascii fun c hc => (isRun.of_word hc).1
    | spaces =>
      have head := fun column =>
        head_behind_gap isRun (by decide) later quotable indent column false tail
      obtain ⟨m, rfl⟩ := isRun.eq_spaces
      obtain ⟨gap, column', shown, hgap⟩ := writeRuns_spaces m indent column first true more
      rw [shown, List.append_assoc]
      rcases hgap with rfl | ⟨rfl, rfl, -⟩
      · exact (rest column').spaces (head column') m
      · exact (rest column').lineFeeds (head column') deep 0
    -- one line feed more than in the text, as the first one counts as a space
    | lineFeeds =>
      have head := fun column =>
        head_behind_gap isRun (by decide) later quotable indent column false tail
      obtain ⟨m, rfl⟩ := isRun.eq_lineFeeds
      rw [writeRuns_lineFeeds]
      have read := (rest indent).lineFeeds (head indent) deep (m + 1)
      simpa [foldBreak] using read

end

/-! ### Escapes -/

/-- The characters that are escaped by a letter. -/
def lettered : List Char :=
  ['"', '\\', '\x00', '\x07', '\x08', '\t', '\n', '\x0b', '\x0c', '\r', '\x1b', '\u0085', '\u00a0',
    '\u2028', '\u2029']

theorem escapeLetter?_of_notMem {c : Char} (h : c ∉ lettered) : escapeLetter? c = none := by
  simp only [lettered, List.mem_cons, List.not_mem_nil, or_false, not_or] at h
  simp [escapeLetter?, h]

theorem letterEscape?_of_mem : ∀ c ∈ lettered, (escapeLetter? c).any
    (fun letter => isPlainAscii letter && letterEscape? letter == some c) = true :=
  List.all_eq_true.1 (by decide)

/-- An escape by a letter is read as the character that is escaped. -/
theorem letterEscape?_escapeLetter {c letter : Char} (h : escapeLetter? c = some letter) :
    isPlainAscii letter = true ∧ letterEscape? letter = some c := by
  by_cases mem : c ∈ lettered
  · have reads := letterEscape?_of_mem c mem
    rw [h, Option.any_some, Bool.and_eq_true, beq_iff_eq] at reads
    exact reads
  · rw [escapeLetter?_of_notMem mem] at h
    cases h

section

variable {width n : Nat} (fits : n < Nat.pow 16 (width + 1))

include fits

theorem length_upperHex : (upperHex (width + 1) n).length = width + 1 := by
  rw [upperHex, hex_eq_nibbles fits, List.length_map, List.length_map, length_nibbles]

theorem hexNumber?_upperHex : hexNumber? (upperHex (width + 1) n) = some n := by
  rw [hexNumber?, upperHex, hex_eq_nibbles fits,
    (Json.mapM_hexValue? fun d hd => lt_of_mem_nibbles hd).2, Option.map_some, foldl_nibbles fits]

theorem isPlainAscii_upperHex : ∀ c ∈ upperHex (width + 1) n, isPlainAscii c = true := by
  have digit : ∀ d < 16, isPlainAscii d.digitChar.toUpper = true := by decide
  intro c hc
  rw [upperHex, hex_eq_nibbles fits, List.map_map] at hc
  obtain ⟨d, hd, rfl⟩ := List.mem_map.1 hc
  exact digit d (lt_of_mem_nibbles hd)

end

theorem ofCodePoint_toNat (c : Char) : ofCodePoint c.toNat = .ok c := by
  have valid : c.toNat.isValidChar := c.valid
  have small : c.toNat < 0x110000 := by
    have bounds := toNat_bounds c
    omega
  rw [ofCodePoint, if_pos small, if_pos valid, Char.ofNat_toNat]

namespace ReadsQuoted

variable {shown cs tail : List Char}

/-- A part that starts with a backslash is read as an escape. -/
theorem of_escape {shown' p : List Char} (later : ReadsQuoted '"' shown' cs tail)
    (shorter : shown'.length < shown.length)
    (h : ∀ l k i, ∃ l' k' i', l ≤ l' ∧ i ≤ i' ∧
      quotedEscape ⟨shown, l, k, i⟩ = .ok (p, ⟨shown', l', k', i'⟩)) :
    ReadsQuoted '"' ('\\' :: shown) (p ++ cs) tail := by
  refine of_part later (by rw [List.length_cons]; omega) fun l k i => ?_
  obtain ⟨l', k', i', after, moved, read⟩ := h l (k + 1) (i + 1)
  exact ⟨l', k', i', after, by omega, by rw [← read]; rfl⟩

/-- An escape by digits is read as the character of the code point. -/
theorem codePoint {letter c : Char} {width : Nat} (ascii : isPlainAscii letter = true)
    (noLetter : letterEscape? letter = none) (digits : codeDigits? letter = some (width + 1))
    (fits : c.toNat < Nat.pow 16 (width + 1)) (later : ReadsQuoted '"' shown cs tail) :
    ReadsQuoted '"' ('\\' :: letter :: (upperHex (width + 1) c.toNat ++ shown)) (c :: cs) tail := by
  have length := length_upperHex fits
  have shorter : shown.length <
      (letter :: (upperHex (width + 1) c.toNat ++ shown)).length := by
    rw [List.length_cons, List.length_append, length]
    omega
  refine of_escape (p := [c]) later shorter fun l k i => ?_
  have number : (upperHex (width + 1) c.toNat ++ shown).take (width + 1) =
      upperHex (width + 1) c.toNat := List.take_left' length
  have printed : ∀ d ∈ letter :: upperHex (width + 1) c.toNat, isPlainAscii d = true :=
    List.forall_mem_cons.2 ⟨ascii, isPlainAscii_upperHex fits⟩
  have skipped := Cursor.skip_plainAscii printed shown l k i
  rw [List.length_cons, length, List.cons_append] at skipped
  refine ⟨l, k + (width + 1 + 1), i + (width + 1 + 1), Nat.le_refl l, Nat.le_add_right i _, ?_⟩
  unfold quotedEscape
  simp only [noLetter, digits, number, hexNumber?_upperHex fits, ofCodePoint_toNat, skipped]
  rw [if_neg (by rw [List.length_append, length]; omega)]
  rfl

theorem letter {letter c : Char} (h : escapeLetter? c = some letter)
    (later : ReadsQuoted '"' shown cs tail) :
    ReadsQuoted '"' ('\\' :: letter :: shown) (c :: cs) tail := by
  obtain ⟨ascii, found⟩ := letterEscape?_escapeLetter h
  refine of_escape (p := [c]) later (Nat.lt_succ_self _) fun l k i => ?_
  refine ⟨l, k + 1, i + 1, Nat.le_refl l, Nat.le_succ i, ?_⟩
  simp only [quotedEscape, found, Cursor.next_plainAscii ascii]

theorem escape {c : Char} (long : (Yaml.escape c).length ≠ 1)
    (later : ReadsQuoted '"' shown cs tail) :
    ReadsQuoted '"' (Yaml.escape c ++ shown) (c :: cs) tail := by
  unfold Yaml.escape at long ⊢
  -- by a letter, or else by as many digits as the code point needs
  split at long
  · next l hl => exact letter hl later
  · next none =>
    simp only at long ⊢
    split_ifs at long ⊢ with ascii small middle
    · exact absurd rfl long
    · exact codePoint (by decide) (by decide) (by decide) small later
    · exact codePoint (by decide) (by decide) (by decide) middle later
    · exact codePoint (by decide) (by decide) (by decide) (toNat_lt_pow c) later

theorem escapedSpace (later : ReadsQuoted '"' shown cs tail) :
    ReadsQuoted '"' ('\\' :: ' ' :: shown) (' ' :: cs) tail := by
  refine of_escape (p := [' ']) later (Nat.lt_succ_self _) fun l k i => ?_
  exact ⟨l, k + 1, i + 1, Nat.le_refl l, Nat.le_succ i, rfl⟩

/-- An escaped end of a line stands for nothing. -/
theorem escapedBreak {indent : Nat} (deep : 0 < indent) (later : ReadsQuoted '"' shown cs tail)
    (inside : ∀ c ∈ shown.head?, isGap c = false) :
    ReadsQuoted '"' ('\\' :: (newLine indent ++ shown)) cs tail := by
  have shorter : shown.length < (newLine indent ++ shown).length := by
    rw [newLine, List.cons_append, List.length_cons, List.length_append]
    omega
  refine of_escape (p := []) later shorter fun l k i => ?_
  obtain ⟨l', k', i', after, moved, read⟩ := quotedLines_lineFeeds inside deep
    (Nat.succ_pos (List.replicate indent ' ' ++ shown).length) (l + 1) 0 (i + 1)
  refine ⟨l', k', i', by omega, by omega, ?_⟩
  exact read

end ReadsQuoted

/-! ### The double-quoted style -/

/-- What is written of a text between double quotes, in front of the closing one. -/
structure Escaped (shown cs tail : List Char) : Prop where
  reads : ReadsQuoted '"' (shown ++ '"' :: tail) cs tail
  /-- Spaces stand in front of something on the same line. -/
  inside : ∀ c ∈ ((shown ++ '"' :: tail).dropWhile (· == ' ')).head?, isGap c = false
  /-- A gap comes first only if it does so in the text. -/
  head : ∀ c ∈ (shown ++ '"' :: tail).head?, isGap c = true → cs.head? = some ' '

namespace Escaped

variable {shown cs tail : List Char} {c : Char}

theorem nil (tail : List Char) : Escaped [] [] tail where
  reads := .close (by decide) fun h => absurd h (by decide)
  inside := forall_head (by decide)
  head := forall_head fun gap => absurd gap (by decide)

/-- A character that stands for itself. -/
theorem char (h : Escaped shown cs tail) (ascii : isPlainAscii c = true) (noQuote : c ≠ '"')
    (noEscape : c ≠ '\\') : Escaped (c :: shown) (c :: cs) tail := by
  by_cases space : c = ' '
  · subst space
    exact ⟨h.reads.space h.inside, h.inside, fun _ _ _ => rfl⟩
  · have solid : isGap c = false := by
      rw [isGap_of_isPlainAscii ascii]
      simpa using space
    refine ⟨h.reads.char ascii space noQuote fun _ => noEscape, ?_, ?_⟩
    · intro d hd
      rw [List.cons_append, List.dropWhile_cons_of_neg (by simpa using space)] at hd
      exact forall_head (p := fun d => isGap d = false) solid d hd
    · exact forall_head fun gap => by simp [solid] at gap

/-- What starts with a backslash starts with no gap. -/
theorem of_backslash {more : List Char}
    (reads : ReadsQuoted '"' ('\\' :: (more ++ '"' :: tail)) cs tail) :
    Escaped ('\\' :: more) cs tail where
  reads := reads
  inside := forall_head (by decide)
  head := forall_head fun gap => absurd gap (by decide)

end Escaped

theorem escape_cases (c : Char) :
    (escape c = [c] ∧ isPlainAscii c = true ∧ c ≠ '"' ∧ c ≠ '\\') ∨
      ((escape c).length ≠ 1 ∧ ∃ more, escape c = '\\' :: more) := by
  unfold escape
  split
  · exact .inr ⟨by simp, _, rfl⟩
  · next none =>
    simp only
    split_ifs with ascii small middle
    · refine .inl ⟨rfl, ascii, ?_, ?_⟩ <;>
      · rintro rfl
        exact absurd none (by decide)
    · exact .inr ⟨by simp, _, rfl⟩
    · exact .inr ⟨by simp, _, rfl⟩
    · exact .inr ⟨by simp, _, rfl⟩

section

variable {indent : Nat} {tail : List Char}

theorem Escaped.escape {shown cs : List Char} {c : Char} (long : (escape c).length ≠ 1)
    (backslash : ∃ more, Yaml.escape c = '\\' :: more)
    (reads : ReadsQuoted '"' (shown ++ '"' :: tail) cs tail) :
    Escaped (Yaml.escape c ++ shown) (c :: cs) tail := by
  have whole := reads.escape long
  obtain ⟨more, hmore⟩ := backslash
  rw [hmore] at whole ⊢
  exact .of_backslash (by simpa using whole)

/-- A line break in front of a space, which is escaped then. -/
theorem Escaped.breakSpace (deep : 0 < indent) {shown cs : List Char}
    (h : Escaped shown cs tail) :
    Escaped ('\\' :: newLine indent ++ ['\\'] ++ ' ' :: shown) (' ' :: cs) tail := by
  have read := h.reads.escapedSpace.escapedBreak deep (forall_head (by decide))
  rw [List.cons_append, List.cons_append]
  exact .of_backslash (by simpa using read)

/-- A line break in front of anything else. -/
theorem Escaped.break (deep : 0 < indent) {shown cs : List Char} (h : Escaped shown cs tail)
    (noSpace : cs.head? ≠ some ' ') :
    Escaped ('\\' :: newLine indent ++ shown) cs tail := by
  have read := h.reads.escapedBreak deep fun d hd => by
    rw [Bool.eq_false_iff]
    exact fun gap => noSpace (h.head d hd gap)
  rw [List.cons_append]
  exact .of_backslash (by simpa using read)

theorem writeEscaped_space (narrow : indent < lineWidth) (cs : List Char) :
    writeEscaped indent false (indent + 1) [] (' ' :: cs) =
      writeEscaped indent false (indent + 1) [' '] cs := by
  have short : decide (lineWidth < indent + 1) = false := by
    rw [decide_eq_false_iff_not]
    omega
  rw [writeEscaped, if_pos (by decide)]
  simp only [short, Bool.and_false, Bool.false_eq_true, if_false, List.length_nil, Nat.add_zero,
    Nat.sub_zero]

/-- A text between double quotes is written behind the characters that are pending, with line breaks
only where they are escaped. -/
theorem escaped_writeEscaped (deep : 0 < indent) (narrow : indent < lineWidth)
    (tail cs : List Char) (first : Bool) (column : Nat) (pending : List Char) :
    ∃ shown, writeEscaped indent first column pending cs = pending.reverse ++ shown ∧
      Escaped shown cs tail := by
  match cs with
  | [] => exact ⟨[], by rw [writeEscaped, List.append_nil], .nil tail⟩
  | c :: rest =>
    rw [writeEscaped]
    -- a character that stands for itself is pending until the line is broken or an escape follows
    rcases escape_cases c with ⟨single, ascii, noQuote, noEscape⟩ | ⟨long, backslash⟩
    · rw [if_pos (by simp [single])]
      split_ifs with breaks
      · -- the line is broken in front of the character
        by_cases space : c = ' '
        · subst space
          obtain ⟨shown, hshown, escaped⟩ :=
            escaped_writeEscaped deep narrow tail rest false (indent + 1) [' ']
          refine ⟨_, ?_, escaped.breakSpace deep⟩
          simp only [breakQuoted, beq_self_eq_true, if_true, hshown]
          simp
        · obtain ⟨shown, hshown, escaped⟩ :=
            escaped_writeEscaped deep narrow tail rest false indent [c]
          refine ⟨_, ?_, (escaped.char ascii noQuote noEscape).break deep (by simpa using space)⟩
          have other : (c == ' ') = false := by simpa using space
          simp only [breakQuoted, other, Bool.false_eq_true, if_false, hshown]
          simp
      · obtain ⟨shown, hshown, escaped⟩ := escaped_writeEscaped deep narrow tail rest false
          (column + pending.length - pending.length) (c :: pending)
        refine ⟨c :: shown, ?_, escaped.char ascii noQuote noEscape⟩
        rw [hshown, List.reverse_cons, List.append_assoc, List.singleton_append]
    · rw [if_neg (by simpa using long)]
      simp only
      split_ifs with breaks
      · -- the line is broken behind the escape
        by_cases space : rest.head? = some ' '
        · obtain ⟨rest, rfl⟩ := List.head?_eq_some_iff.1 space
          obtain ⟨shown, hshown, escaped⟩ :=
            escaped_writeEscaped deep narrow tail rest false (indent + 1) [' ']
          refine ⟨_, ?_, .escape long backslash (escaped.breakSpace deep).reads⟩
          simp only [breakQuoted, List.head?_cons, beq_self_eq_true, if_true,
            writeEscaped_space narrow, hshown]
          simp
        · obtain ⟨shown, hshown, escaped⟩ :=
            escaped_writeEscaped deep narrow tail rest false indent []
          refine ⟨_, ?_, .escape long backslash (escaped.break deep space).reads⟩
          have other : (rest.head? == some ' ') = false := by simpa using space
          simp only [breakQuoted, other, Bool.false_eq_true, if_false, hshown]
          simp
      · obtain ⟨shown, hshown, escaped⟩ := escaped_writeEscaped deep narrow tail rest false
          (column + pending.length + (Yaml.escape c).length) []
        refine ⟨_, ?_, .escape long backslash escaped.reads⟩
        simp [hshown]
termination_by cs.length

/-- A text that is written between quotes is read back up to the closing quote. -/
theorem readsQuoted_writeText (deep : 0 < indent) (narrow : indent < lineWidth) {cs : List Char}
    (closed : tail.head? ≠ some '\'') (column : Nat) (quoted : chooseStyle cs ≠ .plain) :
    ∃ mark shown, writeText indent column cs ++ tail = mark :: shown ∧
      (mark = '\'' ∨ mark = '"') ∧ ReadsQuoted mark shown cs tail := by
  rw [writeText]
  cases style : chooseStyle cs with
  | plain => exact absurd style quoted
  | singleQuoted =>
    have read := readsQuoted_runs deep closed (divided_runs cs).1
      (by rw [(divided_runs cs).2]; exact quotable_of_singleQuoted style) true (column + 1)
    rw [(divided_runs cs).2] at read
    exact ⟨'\'', _, by simp, .inl rfl, read⟩
  | doubleQuoted =>
    obtain ⟨shown, hshown, escaped⟩ :=
      escaped_writeEscaped deep narrow tail cs true (column + 1) []
    exact ⟨'"', _, by simp [hshown], .inr rfl, escaped.reads⟩

end

end Yaml
end PerfFormula
