import PerfFormula.Proofs.WrittenLines

/-!
# Plain scalars of written YAML

A text that is written without quotes is read back. No colon ends one of its words and no number
sign starts one, so that each word is read up to the gap behind it; a line break inside the text
counts as the single space for which it was written; and the scalar ends where the next token is
indented less than the scalar may be, or where the text ends.

Main statements:

* `Yaml.plainScalar_runs` — a text without such colons and number signs is read from its runs.
* `Yaml.plainScalar_writeText` — a text that is written plain is read back.
* `Yaml.IsKey.writeText_eq`, `Yaml.IsKey.plainScalar_eq` — a key is written as it is, and read up to
  its colon.
-/

namespace PerfFormula
namespace Yaml

/-! ## Plain scalars -/

theorem emptyLines_spaces {rest : List Char} (h : ∀ c ∈ rest.head?, isGap c = false) {n fuel : Nat}
    (enough : n < fuel) (l k i : Nat) :
    emptyLines fuel ⟨List.replicate n ' ' ++ rest, l, k, i⟩ =
      (some [], ⟨rest, l, k + n, i + n⟩) := by
  induction n generalizing fuel k i with
  | zero =>
    obtain ⟨fuel, rfl⟩ := Nat.exists_eq_succ_of_ne_zero (by omega : fuel ≠ 0)
    have noSpace : ∀ c ∈ rest.head?, (c == ' ') = false := fun c hc => by
      simpa using ne_space_of_isGap (h c hc)
    have noBreak : ∀ c ∈ rest.head?, isBreak c = false := fun c hc => isBreak_of_isGap (h c hc)
    rw [emptyLines, List.replicate_zero, List.nil_append, sees_head noSpace,
      Cursor.lineBreak?_of_head noBreak]
    rfl
  | succ n ih =>
    obtain ⟨fuel, rfl⟩ := Nat.exists_eq_succ_of_ne_zero (by omega : fuel ≠ 0)
    have sees : Cursor.sees ⟨' ' :: (List.replicate n ' ' ++ rest), l, k, i⟩ (· == ' ') 0 = true :=
      rfl
    rw [emptyLines, List.replicate_succ, List.cons_append, if_pos sees,
      Cursor.next_plainAscii (by decide), ih (by omega)]
    simp only [Prod.mk.injEq, Cursor.mk.injEq, true_and]
    omega

theorem plainGap_spaces {rest : List Char} (h : ∀ c ∈ rest.head?, isGap c = false)
    (n l k i : Nat) :
    plainGap ⟨List.replicate n ' ' ++ rest, l, k, i⟩ =
      ⟨List.replicate n ' ', ⟨rest, l, k + n, i + n⟩, false⟩ := by
  have spaces : (List.replicate n ' ' ++ rest).takeWhile (· == ' ') = List.replicate n ' ' :=
    takeWhile_spaces (p := (· == ' ')) rfl n fun c hc => by simpa using ne_space_of_isGap (h c hc)
  have noBreak : ∀ c ∈ rest.head?, isBreak c = false := fun c hc => isBreak_of_isGap (h c hc)
  simp only [plainGap, spaces, List.length_replicate, skip_spaces,
    Cursor.lineBreak?_of_head noBreak]

/-- The end of a line and the spaces in front of the next one count as a space. -/
theorem plainGap_lineFeed {rest : List Char} {n : Nat} (h : ∀ c ∈ rest.head?, isGap c = false)
    {l i : Nat}
    (inside : Cursor.atSeparator ⟨List.replicate n ' ' ++ rest, l + 1, 0, i + 1⟩ = false)
    (k : Nat) :
    plainGap ⟨'\n' :: (List.replicate n ' ' ++ rest), l, k, i⟩ =
      ⟨[' '], ⟨rest, l + 1, n, i + 1 + n⟩, true⟩ := by
  have noSpace : ('\n' :: (List.replicate n ' ' ++ rest)).takeWhile (· == ' ') = [] := rfl
  have enough : n < (List.replicate n ' ' ++ rest).length + 1 := by
    rw [List.length_append, List.length_replicate]
    omega
  have lines := emptyLines_spaces h enough (l + 1) 0 (i + 1)
  simp only [plainGap, noSpace, List.length_nil, Cursor.skip, Cursor.lineBreak?_lineFeed, inside,
    lines]
  simp [foldBreak]

/-! ## Plain texts -/

/-- What a text has to be like so that its words can be read one after the other without quotes. -/
structure Bare (cs : List Char) : Prop where
  ascii : ∀ c ∈ cs, isPlainAscii c = true
  /-- No colon ends a word. -/
  colons : ∀ rest, ':' :: rest <:+ cs → rest.head?.all isGap = false
  /-- No number sign starts a word, but for the first. -/
  comments : ∀ rest, ¬(' ' :: '#' :: rest <:+ cs)
  last : cs.getLast? ≠ some ' '

namespace Bare

theorem of_append {front cs : List Char} (h : Bare (front ++ cs)) : Bare cs where
  ascii c hc := h.ascii c (List.mem_append_right front hc)
  colons rest hrest := h.colons rest (hrest.trans (List.suffix_append front cs))
  comments rest hrest := h.comments rest (hrest.trans (List.suffix_append front cs))
  last := by
    intro space
    apply h.last
    rw [List.getLast?_append, space]
    rfl

theorem isGap_eq_false {cs : List Char} (h : Bare cs) {c : Char} (hc : c ∈ cs) (noSpace : c ≠ ' ') :
    isGap c = false := by
  rw [isGap_of_isPlainAscii (h.ascii c hc)]
  simpa using noSpace

end Bare

/-- A word is read up to what ends it; a colon at its end must not stand in front of a gap. -/
theorem plainWord_append {word tail : List Char} (solid : ∀ c ∈ word, isGap c = false)
    (ends : plainWord false tail = [])
    (last : word.getLast? = some ':' → tail.head?.all isGap = false) :
    plainWord false (word ++ tail) = word := by
  induction word with
  | nil => exact ends
  | cons c word ih =>
    have first : isGap c = false := solid c List.mem_cons_self
    have later := ih (fun d hd => solid d (List.mem_cons_of_mem _ hd)) fun colon => last (by
      rw [List.getLast?_cons, colon]
      rfl)
    have noEnd : (c == ':' && colonEnds false (word ++ tail)) = false := by
      cases word with
      | nil =>
        by_cases colon : c = ':'
        · have inside := last (by rw [colon]; rfl)
          simpa [colonEnds] using fun _ => inside
        · simp [colon]
      | cons d word =>
        have : isGap d = false := solid d (by simp)
        simp [colonEnds, this]
    rw [List.cons_append, plainWord, first, noEnd, later]
    rfl

/-- A word is read up to the gap behind it. -/
theorem plainWord_word {word : List Char} (solid : ∀ c ∈ word, isGap c = false)
    (last : word.getLast? ≠ some ':') {g : Char} (h : isGap g = true) (rest : List Char) :
    plainWord false (word ++ g :: rest) = word :=
  plainWord_append solid (by simp [plainWord, h]) fun colon => absurd colon last

theorem plainScalar_stops {least fuel : Nat} {c : Cursor} {word : List Char} {gap : PlainGap}
    (hword : plainWord false c.rest = word) (hgap : plainGap (c.skip word.length) = gap)
    (stops : gap.cursor.rest = [] ∨ gap.cursor.column < least) :
    plainScalar false least (fuel + 1) c = (word, gap.cursor, gap.newLine) := by
  -- without a word that is far enough to the right the scalar ends
  have noWord : (!gap.text.isEmpty && !gap.cursor.sees (· == '#') 0
      && (false || decide (least ≤ gap.cursor.column))
      && !(plainWord false gap.cursor.rest).isEmpty) = false := by
    rcases stops with none | outside
    · simp [none, plainWord]
    · have : decide (least ≤ gap.cursor.column) = false := by simpa using outside
      simp [this]
  simp only [plainScalar, hword, hgap, noWord]
  rfl

theorem plainScalar_goesOn {least fuel : Nat} {c : Cursor} {word : List Char} {gap : PlainGap}
    (hword : plainWord false c.rest = word) (hgap : plainGap (c.skip word.length) = gap)
    (some : gap.text ≠ []) (noComment : gap.cursor.rest.head? ≠ .some '#')
    (inside : least ≤ gap.cursor.column) (next : plainWord false gap.cursor.rest ≠ [])
    {more : List Char} {c' : Cursor} {newLine : Bool}
    (later : plainScalar false least fuel gap.cursor = (more, c', newLine)) :
    plainScalar false least (fuel + 1) c = (word ++ gap.text ++ more, c', newLine) := by
  have noSign : gap.cursor.sees (· == '#') 0 = false := by
    refine sees_head (fun d hd => ?_) gap.cursor.line gap.cursor.column gap.cursor.index
    rw [beq_eq_false_iff_ne]
    rintro rfl
    exact noComment hd
  have goesOn : (!gap.text.isEmpty && !gap.cursor.sees (· == '#') 0
      && (false || decide (least ≤ gap.cursor.column))
      && !(plainWord false gap.cursor.rest).isEmpty) = true := by
    simp [some, noSign, inside, next]
  simp only [plainScalar, hword, hgap, goesOn, later]
  rfl

theorem Bare.noColon {word more : List Char} (h : Bare (word ++ more))
    (gap : more.head?.all isGap = true) : word.getLast? ≠ some ':' := by
  intro colon
  obtain ⟨front, rfl⟩ := List.getLast?_eq_some_iff.1 colon
  have inside := h.colons more ⟨front, by simp⟩
  rw [gap] at inside
  cases inside

/-- Behind a word stands a gap, be it that of the next run or the end of the line. -/
theorem gap_behind_word {more : List (List Char)} (h : Divided (some .word) more)
    (indent column : Nat) (first quoted : Bool) (tail : List Char) :
    ∃ gap cs, isGap gap = true ∧
      writeRuns indent first quoted column more ++ '\n' :: tail = gap :: cs := by
  cases h with
  -- behind the last run comes the end of the line
  | nil => exact ⟨'\n', tail, by decide, rfl⟩
  | @cons _ kind run more isRun other later =>
    cases kind with
    | word => exact absurd rfl other
    | spaces =>
      obtain ⟨n, rfl⟩ := isRun.eq_spaces
      obtain ⟨gap, column', shown, hgap⟩ := writeRuns_spaces n indent column first quoted more
      rw [shown]
      rcases hgap with rfl | ⟨rfl, -⟩
      · exact ⟨' ', _, by decide, rfl⟩
      · exact ⟨'\n', _, by decide, rfl⟩
    | lineFeeds =>
      obtain ⟨n, rfl⟩ := isRun.eq_lineFeeds
      rw [writeRuns_lineFeeds]
      exact ⟨'\n', _, by decide, rfl⟩

theorem Divided.head_gap {more : List (List Char)} (h : Divided (some .word) more) :
    more.flatten.head?.all isGap = true := by
  cases h with
  | nil => rfl
  | @cons _ kind run more isRun other later =>
    cases kind with
    | word => exact absurd rfl other
    | spaces =>
      obtain ⟨n, rfl⟩ := isRun.eq_spaces
      rfl
    | lineFeeds =>
      obtain ⟨n, rfl⟩ := isRun.eq_lineFeeds
      rfl

/-- What a word of a bare text is like. -/
structure BareWord (word : List Char) : Prop where
  ascii : ∀ c ∈ word, isPlainAscii c = true
  solid : ∀ c ∈ word, isGap c = false
  noColon : word.getLast? ≠ some ':'

theorem Bare.bareWord {word more : List Char} (h : Bare (word ++ more)) (isWord : IsRun .word word)
    (gap : more.head?.all isGap = true) : BareWord word where
  ascii _ hc := h.ascii _ (List.mem_append_left _ hc)
  solid _ hc := h.isGap_eq_false (List.mem_append_left _ hc) (isWord.of_word hc).1
  noColon := h.noColon gap

theorem IsRun.ne_lineFeeds {kind : RunKind} {run : List Char} (isRun : IsRun kind run)
    (ascii : ∀ c ∈ run, isPlainAscii c = true) : kind ≠ .lineFeeds := by
  rintro rfl
  obtain ⟨n, rfl⟩ := isRun.eq_lineFeeds
  exact absurd (ascii '\n' (by simp)) (by decide)

theorem BareWord.plainGap_behind {word : List Char} (h : BareWord word) (cs : List Char)
    (l k i : Nat) :
    plainGap (Cursor.skip word.length ⟨word ++ cs, l, k, i⟩) =
      plainGap ⟨cs, l, k + word.length, i + word.length⟩ := by
  rw [Cursor.skip_plainAscii h.ascii]

section

variable {indent least n : Nat} {rest : List Char}

/-- The last word of a bare text, up to the next token. -/
theorem plainScalar_lastWord {word : List Char} (h : BareWord word) (margin : Margin rest)
    (ends : rest = [] ∨ n < least) (fuel l k i : Nat) :
    plainScalar false least (fuel + 1) ⟨word ++ '\n' :: (List.replicate n ' ' ++ rest), l, k, i⟩ =
      (word, ⟨rest, l + 1, n, i + word.length + 1 + n⟩, true) := by
  have hword : plainWord false (word ++ '\n' :: (List.replicate n ' ' ++ rest)) = word :=
    plainWord_word h.solid h.noColon (by decide) _
  have hgap := plainGap_lineFeed (fun c hc => (margin.head c hc).1)
    (margin.atSeparator n (l + 1) 0 (i + word.length + 1)) (k + word.length)
  rw [← h.plainGap_behind] at hgap
  exact plainScalar_stops hword hgap ends

/-- Between two words a run of spaces is read as it is, and a line break as a single one. -/
theorem plainGap_between {gap cs : List Char} {m k : Nat} (deep : 0 < indent)
    (inner : least ≤ indent) (here : least ≤ k)
    (hgap : gap = List.replicate (m + 1) ' ' ∨ gap = newLine indent ∧ m = 0)
    (solid : ∀ c ∈ cs.head?, isGap c = false) (l i : Nat) :
    ∃ l' k' i' newLine', l ≤ l' ∧ least ≤ k' ∧
      plainGap ⟨gap ++ cs, l, k, i⟩ = ⟨List.replicate (m + 1) ' ', ⟨cs, l', k', i'⟩, newLine'⟩ := by
  rcases hgap with rfl | ⟨rfl, rfl⟩
  · exact ⟨l, _, _, _, Nat.le_refl l, by omega, plainGap_spaces solid (m + 1) l k i⟩
  · exact ⟨l + 1, _, _, _, Nat.le_succ l, inner,
      plainGap_lineFeed solid (atSeparator_of_indented deep cs (l + 1) 0 (i + 1)) k⟩

/-- A word of a bare text in front of a gap and another word. -/
theorem plainScalar_nextWord {word gap next cs more : List Char} {m k fuel : Nat}
    (deep : 0 < indent) (inner : least ≤ indent) (here : least ≤ k) (bareWord : BareWord word)
    (hgap : gap = List.replicate (m + 1) ' ' ∨ gap = newLine indent ∧ m = 0) (some : next ≠ [])
    (solid : ∀ c ∈ next, isGap c = false) (noComment : next.head? ≠ .some '#')
    (nextWord : plainWord false (next ++ cs) = next)
    (later : ∀ l k i, least ≤ k → ∃ l' i', l < l' ∧
      plainScalar false least fuel ⟨next ++ cs, l, k, i⟩ = (more, ⟨rest, l', n, i'⟩, true))
    (l i : Nat) :
    ∃ l' i', l < l' ∧ plainScalar false least (fuel + 1) ⟨word ++ (gap ++ (next ++ cs)), l, k, i⟩ =
      (word ++ List.replicate (m + 1) ' ' ++ more, ⟨rest, l', n, i'⟩, true) := by
  obtain ⟨c, next, rfl⟩ := List.exists_cons_of_ne_nil some
  have hword : plainWord false (word ++ (gap ++ (c :: next ++ cs))) = word := by
    rcases hgap with rfl | ⟨rfl, -⟩
    · exact plainWord_word bareWord.solid bareWord.noColon (g := ' ') (by decide) _
    · exact plainWord_word bareWord.solid bareWord.noColon (g := '\n') (by decide) _
  have first : ∀ d ∈ (c :: next ++ cs).head?, isGap d = false :=
    forall_head (solid c List.mem_cons_self)
  obtain ⟨l₁, k₁, i₁, newLine', after, inside, gapRead⟩ :=
    plainGap_between deep inner (Nat.le_add_right_of_le here : least ≤ k + word.length) hgap first l
      (i + word.length)
  obtain ⟨l₂, i₂, behind, read⟩ := later l₁ k₁ i₁ inside
  rw [← bareWord.plainGap_behind] at gapRead
  refine ⟨l₂, i₂, Nat.lt_of_le_of_lt after behind, ?_⟩
  exact plainScalar_goesOn hword gapRead (by simp [List.replicate_succ]) noComment inside
    (by rw [nextWord]; exact some) read

/-- A bare text that starts with a word is read back from its runs, up to the next token. -/
theorem plainScalar_runs (deep : 0 < indent) (inner : least ≤ indent) (margin : Margin rest)
    (ends : rest = [] ∨ n < least) (word : List Char) (more : List (List Char)) (first : Bool)
    (column l k i fuel : Nat) (isWord : IsRun .word word) (divided : Divided (some .word) more)
    (bare : Bare (word ++ more.flatten)) (here : least ≤ k)
    (enough : (writeRuns indent first false column (word :: more)).length < fuel) :
      ∃ l' i', l < l' ∧ plainScalar false least fuel
          ⟨writeRuns indent first false column (word :: more) ++
            '\n' :: (List.replicate n ' ' ++ rest), l, k, i⟩ =
        (word ++ more.flatten, ⟨rest, l', n, i'⟩, true) := by
  obtain ⟨fuel, rfl⟩ := Nat.exists_eq_succ_of_ne_zero (by omega : fuel ≠ 0)
  obtain ⟨column', shown⟩ := writeRuns_word isWord indent column first false more
  rw [if_neg (by decide)] at shown
  rw [shown] at enough ⊢
  have bareWord := bare.bareWord isWord divided.head_gap
  -- behind the first word there is nothing, or a gap and another word
  cases divided with
  | nil =>
    simp only [writeRuns, List.append_nil, List.flatten_nil]
    exact ⟨_, _, Nat.lt_succ_self l, plainScalar_lastWord bareWord margin ends fuel l k i⟩
  | @cons _ kind run more isRun other later =>
    obtain rfl : kind = .spaces := by
      cases kind with
      | spaces => rfl
      | word => exact absurd rfl other
      | lineFeeds => exact absurd rfl (isRun.ne_lineFeeds fun c hc => bare.ascii c (by simp [hc]))
    obtain ⟨m, rfl⟩ := isRun.eq_spaces
    cases later with
    -- a text that is written plain does not end with a space
    | nil => exact absurd (by simp [List.replicate_succ']) bare.last
    | @cons _ kind next more isRun' other' later =>
      have bare' : Bare (next ++ more.flatten) := by
        have := bare
        rw [List.flatten_cons, List.flatten_cons, ← List.append_assoc] at this
        exact this.of_append
      obtain rfl : kind = .word := by
        cases kind with
        | word => rfl
        | spaces => exact absurd rfl other'
        | lineFeeds =>
          exact absurd rfl (isRun'.ne_lineFeeds fun c hc => bare'.ascii c (by simp [hc]))
      have bareNext := bare'.bareWord isRun' later.head_gap
      -- a number sign behind the gap would start a comment
      have noComment : next.head? ≠ some '#' := by
        intro sign
        obtain ⟨next, rfl⟩ := List.head?_eq_some_iff.1 sign
        exact bare.comments (next ++ more.flatten)
          ⟨word ++ List.replicate m ' ', by simp [List.replicate_succ']⟩
      obtain ⟨gap, column'', shownGap, hgap⟩ :=
        writeRuns_spaces m indent column' false false (next :: more)
      obtain ⟨column₃, shownNext⟩ := writeRuns_word isRun' indent column'' false false more
      rw [if_neg (by decide)] at shownNext
      obtain ⟨g, cs, isGap, behind⟩ := gap_behind_word later indent column₃ false false
        (List.replicate n ' ' ++ rest)
      have later' (l k i : Nat) (here : least ≤ k) : ∃ l' i', l < l' ∧
          plainScalar false least fuel ⟨next ++ g :: cs, l, k, i⟩ =
            (next ++ more.flatten, ⟨rest, l', n, i'⟩, true) := by
        have step := plainScalar_runs deep inner margin ends next more false column'' l k i fuel
          isRun' later bare' here (by
            rw [shownGap] at enough
            have := List.length_pos_iff.2 isWord.ne
            simp only [List.length_append] at enough
            omega)
        rwa [shownNext, List.append_assoc, behind] at step
      have read := plainScalar_nextWord deep inner here bareWord
        (hgap.imp_right fun h => ⟨h.1, h.2.1⟩) isRun'.ne bareNext.solid noComment
        (plainWord_word bareNext.solid bareNext.noColon isGap cs) later' l i
      rw [shownGap, shownNext, List.append_assoc, List.append_assoc, List.append_assoc, behind]
      simpa using read
termination_by more.length

end

/-! ### The plain style -/

theorem analyse_of_plain {cs : List Char} (h : chooseStyle cs = .plain) :
    startsWithIndicator cs = false ∧ hasInnerIndicator cs = false ∧
      (∀ c ∈ cs, isPlainAscii c = true) ∧ cs.head? ≠ some ' ' ∧ cs.getLast? ≠ some ' ' := by
  unfold chooseStyle at h
  simp only at h
  split_ifs at h with plain
  simp only [analyse, Bool.and_eq_true, Bool.not_eq_true', Bool.or_eq_false_iff] at plain
  obtain ⟨-, ⟨⟨⟨start, inner⟩, special⟩, lineFeed⟩, head, last⟩ := plain
  refine ⟨start, inner, ?_, ?_, ?_⟩
  · intro c hc
    have kept := List.any_eq_false.1 special c hc
    have noFeed : c ≠ '\n' := by
      rintro rfl
      simp [hc] at lineFeed
    simpa [noFeed] using kept
  · intro space
    simp [space] at head
  · intro space
    simp [space] at last

theorem hasInnerIndicator_suffix {cs : List Char} (h : hasInnerIndicator cs = false) {a b : Char}
    {rest : List Char} (suffix : a :: b :: rest <:+ cs) :
    (b == ':' && rest.head?.all isGap) = false ∧ (b == '#' && isGap a) = false := by
  induction cs with
  | nil => simp at suffix
  | cons c cs ih =>
    rcases List.suffix_cons_iff.1 suffix with whole | later
    · obtain ⟨rfl, rfl⟩ := List.cons.inj whole
      rw [hasInnerIndicator, Bool.or_eq_false_iff, Bool.or_eq_false_iff] at h
      exact h.1
    · apply ih _ later
      cases cs with
      | nil => rfl
      | cons d cs =>
        rw [hasInnerIndicator, Bool.or_eq_false_iff] at h
        exact h.2

theorem bare_of_plain {cs : List Char} (h : chooseStyle cs = .plain) : Bare cs := by
  obtain ⟨start, inner, ascii, -, last⟩ := analyse_of_plain h
  refine ⟨ascii, ?_, ?_, last⟩
  · rintro rest ⟨front, rfl⟩
    -- whether the colon is the first character decides where the style looks at it
    rcases List.eq_nil_or_concat front with rfl | ⟨front, c, rfl⟩
    · simp only [List.nil_append, startsWithIndicator, Bool.or_eq_false_iff] at start
      simpa using start.1.1.2
    · have suffix : c :: ':' :: rest <:+ front.concat c ++ ':' :: rest := ⟨front, by simp⟩
      simpa using (hasInnerIndicator_suffix inner suffix).1
  · intro rest suffix
    have := (hasInnerIndicator_suffix inner suffix).2
    exact absurd this (by decide)

theorem ne_nil_of_plain {cs : List Char} (plain : chooseStyle cs = .plain) : cs ≠ [] := by
  rintro rfl
  have typed := chooseStyle_plain plain
  simp [resolve, nullWords] at typed

/-- The first run of a text that is written plain is a word. -/
theorem runs_of_plain {cs : List Char} (plain : chooseStyle cs = .plain) :
    ∃ word more, runs cs = word :: more ∧ IsRun .word word ∧ Divided (some .word) more ∧
      word ++ more.flatten = cs := by
  obtain ⟨-, -, ascii, head, -⟩ := analyse_of_plain plain
  obtain ⟨divided, whole⟩ := divided_runs cs
  generalize runs cs = rs at *
  cases divided with
  | nil => exact absurd whole.symm (ne_nil_of_plain plain)
  | @cons _ kind run more isRun _ later =>
    obtain rfl : run ++ more.flatten = cs := whole
    obtain rfl : kind = .word := by
      cases kind with
      | word => rfl
      | spaces =>
        obtain ⟨m, rfl⟩ := isRun.eq_spaces
        exact absurd rfl head
      | lineFeeds => exact absurd rfl (isRun.ne_lineFeeds fun c hc => ascii c (by simp [hc]))
    exact ⟨run, more, rfl, isRun, later, rfl⟩

section

variable {indent least n : Nat} {rest : List Char}

/-- A text that is written plain is read back, up to the next token. -/
theorem plainScalar_writeText {cs : List Char} (plain : chooseStyle cs = .plain) (deep : 0 < indent)
    (inner : least ≤ indent) (margin : Margin rest) (ends : rest = [] ∨ n < least) {k : Nat}
    (here : least ≤ k) (column l i : Nat) {fuel : Nat}
    (enough : (writeText indent column cs).length < fuel) :
    ∃ l' i', l < l' ∧ plainScalar false least fuel
        ⟨writeText indent column cs ++ '\n' :: (List.replicate n ' ' ++ rest), l, k, i⟩ =
      (cs, ⟨rest, l', n, i'⟩, true) := by
  have bare := bare_of_plain plain
  obtain ⟨word, more, divided, isWord, later, rfl⟩ := runs_of_plain plain
  rw [writeText, plain] at enough ⊢
  simp only [divided] at enough ⊢
  exact plainScalar_runs deep inner margin ends word more true column l k i fuel isWord later bare
    here enough

end

/-! ### First words -/

theorem startsWithIndicator_of_append {word tail : List Char} (ne : word ≠ [])
    (h : startsWithIndicator (word ++ tail) = false) (gap : tail.head?.all isGap = true) :
    startsWithIndicator word = false := by
  obtain ⟨c, word, rfl⟩ := List.exists_cons_of_ne_nil ne
  simp only [List.cons_append, startsWithIndicator, Bool.or_eq_false_iff] at h ⊢
  obtain ⟨⟨⟨leading, lone⟩, dashes⟩, points⟩ := h
  have short {mark : List Char} (h : mark.isPrefixOf (c :: (word ++ tail)) = false) :
      mark.isPrefixOf (c :: word) = false := by
    rw [Bool.eq_false_iff, ne_eq, List.isPrefixOf_iff_prefix] at h ⊢
    exact fun start => h (start.trans (List.prefix_append (c :: word) tail))
  refine ⟨⟨⟨leading, ?_⟩, short dashes⟩, short points⟩
  cases word with
  | nil => rwa [List.nil_append, gap] at lone
  | cons d word => exact lone

theorem ne_numberSign_of_start {c : Char} {word : List Char}
    (h : startsWithIndicator (c :: word) = false) : c ≠ '#' := by
  rintro rfl
  exact absurd h (by simp [startsWithIndicator, leadingIndicators])

theorem IsRun.isGap_eq_false {run : List Char} (isWord : IsRun .word run)
    (ascii : ∀ c ∈ run, isPlainAscii c = true) : ∀ c ∈ run, isGap c = false := by
  intro c hc
  rw [isGap_of_isPlainAscii (ascii c hc)]
  simpa using (isWord.of_word hc).1

/-- A text that is written plain starts with a word that means nothing else. -/
theorem firstWord_of_plain {cs : List Char} (plain : chooseStyle cs = .plain)
    (indent column : Nat) (tail : List Char) :
    ∃ word g more, writeText indent column cs ++ '\n' :: tail = word ++ g :: more ∧
      isGap g = true ∧ word ≠ [] ∧ (∀ c ∈ word, isGap c = false) ∧
      startsWithIndicator word = false := by
  obtain ⟨start, -, ascii, -, -⟩ := analyse_of_plain plain
  obtain ⟨word, more, divided, isWord, later, rfl⟩ := runs_of_plain plain
  have isAscii : ∀ c ∈ word, isPlainAscii c = true := fun c hc => ascii c (by simp [hc])
  obtain ⟨column', shown⟩ := writeRuns_word isWord indent column true false more
  obtain ⟨g, cs, isGap, behind⟩ := gap_behind_word later indent column' false false tail
  refine ⟨word, g, cs, ?_, isGap, isWord.ne, isWord.isGap_eq_false isAscii,
    startsWithIndicator_of_append isWord.ne start later.head_gap⟩
  rw [if_neg (by decide)] at shown
  rw [writeText, plain]
  simp only [divided, shown, List.append_assoc, behind]

/-- A word that does not start like the mark of a document is no such mark with more behind it. -/
theorem take_ne_of_isPrefixOf {word : List Char} {mark g : Char}
    (noPrefix : List.isPrefixOf [mark, mark, mark] word = false) (other : g ≠ mark)
    (more : List Char) : (word ++ g :: more).take 3 ≠ [mark, mark, mark] := by
  intro marked
  match word with
  | [] | [_] | [_, _] | _ :: _ :: _ :: _ => simp_all

/-! ### Keys -/

/-- What a text has to be like so that it is written as a key in one word. -/
structure IsKey (key : List Char) : Prop where
  plain : chooseStyle key = .plain
  oneWord : ' ' ∉ key
  /-- A key ends within so many characters. -/
  short : key.length ≤ 1024

instance (key : List Char) : Decidable (IsKey key) :=
  decidable_of_decidable_of_iff (p := chooseStyle key = .plain ∧ ' ' ∉ key ∧ key.length ≤ 1024)
    ⟨fun h => ⟨h.1, h.2.1, h.2.2⟩, fun h => ⟨h.plain, h.oneWord, h.short⟩⟩

namespace IsKey

variable {key : List Char}

theorem ascii (h : IsKey key) : ∀ c ∈ key, isPlainAscii c = true := (analyse_of_plain h.plain).2.2.1

theorem isRun (h : IsKey key) : IsRun .word key where
  ne := ne_nil_of_plain h.plain
  all c hc := by
    have noSpace : c ≠ ' ' := fun space => h.oneWord (space ▸ hc)
    have noFeed : c ≠ '\n' := by
      rintro rfl
      exact absurd (h.ascii _ hc) (by decide)
    rw [RunKind.of, if_neg noSpace, if_neg noFeed]

theorem solid (h : IsKey key) : ∀ c ∈ key, isGap c = false := h.isRun.isGap_eq_false h.ascii

theorem start (h : IsKey key) : startsWithIndicator key = false := (analyse_of_plain h.plain).1

/-- A key and its colon stand where a token may start. -/
theorem margin (h : IsKey key) (more : List Char) : Margin (key ++ ':' :: more) := by
  have start := h.start
  obtain ⟨c, w, rfl⟩ := List.exists_cons_of_ne_nil h.isRun.ne
  simp only [startsWithIndicator, Bool.or_eq_false_iff, decide_eq_false_iff_not] at start
  obtain ⟨⟨-, dashes⟩, points⟩ := start
  exact ⟨forall_head ⟨h.solid c List.mem_cons_self, ne_numberSign_of_start h.start⟩,
    take_ne_of_isPrefixOf dashes (by decide) more, take_ne_of_isPrefixOf points (by decide) more⟩

/-- A key is written as it is. -/
theorem writeText_eq (h : IsKey key) (indent column : Nat) : writeText indent column key = key := by
  obtain ⟨word, more, divided, isWord, later, rfl⟩ := runs_of_plain h.plain
  rw [writeText, h.plain]
  cases later with
  | nil =>
    obtain ⟨column', shown⟩ := writeRuns_word isWord indent column true false []
    rw [if_neg (by decide), writeRuns, List.append_nil] at shown
    simp only [divided, shown]
    exact (List.append_nil word).symm
  | @cons _ kind run _ isRun other =>
    -- another run would be a word, too
    obtain ⟨c, run, rfl⟩ := List.exists_cons_of_ne_nil isRun.ne
    have same : kind = .word := by
      rw [← isRun.all c List.mem_cons_self, h.isRun.all c (by simp)]
    exact absurd (congrArg some same.symm) other

/-- A key is read up to its colon. -/
theorem plainScalar_eq (h : IsKey key) {more : List Char} (gap : more.head?.all isGap = true)
    (least fuel l k i : Nat) :
    plainScalar false least (fuel + 1) ⟨key ++ ':' :: more, l, k, i⟩ =
      (key, ⟨':' :: more, l, k + key.length, i + key.length⟩, false) := by
  have colon : plainWord false (':' :: more) = [] := by simp [plainWord, colonEnds, gap]
  have word : plainWord false (key ++ ':' :: more) = key :=
    plainWord_append h.solid colon fun _ => rfl
  have noGap : ∀ c ∈ (':' :: more).head?, isGap c = false := forall_head (by decide)
  have gapRead := plainGap_spaces noGap 0 l (k + key.length) (i + key.length)
  rw [List.replicate_zero, List.nil_append] at gapRead
  simp only [plainScalar, word, Cursor.skip_plainAscii h.ascii, gapRead]
  rfl

end IsKey

end Yaml
end PerfFormula
