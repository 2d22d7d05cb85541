import PerfFormula.Proofs.PlainScalars
import PerfFormula.Proofs.QuotedScalars

/-!
# Scanning written YAML

One token after the other of a text that the writer has written, outside brackets and where no key
may have started, unless one is just read. From there reading on leads to such a state again: behind
a line, at the next token, once the blocks that are indented further are closed; behind a key and
its colon, with the key and perhaps a new mapping put in front; behind the mark of an item; behind a
text; and behind empty brackets or braces.

Main statements:

* `Yaml.Scanner.leads_of_skipGaps` — gaps lead to the next token.
* `Yaml.Scanner.leads_key`, `Yaml.Scanner.leads_entry` — a key and its colon, and the mark of an
  item.
* `Yaml.Scanner.reaches_text`, `Yaml.Scanner.reaches_brackets` — a text, and what has no parts.
-/

namespace PerfFormula
namespace Yaml

theorem atMarker_of_take {mark : Char} {rest : List Char} (h : rest.take 3 ≠ [mark, mark, mark])
    (l k i : Nat) : Cursor.atMarker ⟨rest, l, k, i⟩ mark = false := by
  simp [Cursor.atMarker, h]

namespace Scanner

/-! ## States -/

/-- A state outside brackets in which no key may have started. -/
def idle (c : Cursor) (tokens : List Token) (blocks : List Nat) (keyAllowed : Bool) : Scanner :=
  ⟨c, tokens, blocks, 0, keyAllowed, [none]⟩

/-- Whether reading on from a state gives some tokens. -/
def Yields (s : Scanner) (ts : List Token) : Prop :=
  ∀ fuel, s.cursor.rest.length < fuel → readAll fuel s = .ok ts

/-- Whether reading on from one state gives the tokens that reading on from another gives. -/
def Leads (s s' : Scanner) : Prop := ∀ ts, s'.Yields ts → s.Yields ts

theorem Leads.trans {s s' s'' : Scanner} (first : Leads s s') (second : Leads s' s'') :
    Leads s s'' :=
  fun ts later => first ts (second ts later)

/-- A token leads to the state behind it. -/
theorem leads_of_readNext {s s' : Scanner} (h : s.readNext = .ok (some s'))
    (shorter : s'.cursor.rest.length < s.cursor.rest.length) : Leads s s' := by
  intro ts later fuel enough
  obtain ⟨fuel, rfl⟩ := Nat.exists_eq_succ_of_ne_zero (by omega : fuel ≠ 0)
  rw [readAll, h]
  exact later fuel (by omega)

/-! ## Gaps -/

theorem skipGaps_spaces {s : Scanner} {rest : List Char}
    (head : ∀ c ∈ rest.head?, isGap c = false ∧ c ≠ '#') {n l k i : Nat}
    (place : s.cursor = ⟨List.replicate n ' ' ++ rest, l, k, i⟩) (fuel : Nat) :
    skipGaps (fuel + 1) s = { s with cursor := ⟨rest, l, k + n, i + n⟩ } := by
  have spaces : (List.replicate n ' ' ++ rest).takeWhile (· == ' ') = List.replicate n ' ' :=
    takeWhile_spaces (p := (· == ' ')) rfl n fun c hc => by
      simpa using ne_space_of_isGap (head c hc).1
  have noComment : skipComment ⟨rest, l, k + n, i + n⟩ = ⟨rest, l, k + n, i + n⟩ := by
    rw [skipComment, sees_head fun c hc => by simpa using (head c hc).2]
    rfl
  have noBreak : ∀ c ∈ rest.head?, isBreak c = false := fun c hc => isBreak_of_isGap (head c hc).1
  simp only [skipGaps, place, Cursor.skipWhile, spaces, List.length_replicate, skip_spaces,
    noComment, Cursor.lineBreak?_of_head noBreak]

theorem skipGaps_lineFeed {s : Scanner} {cs : List Char} {l k i : Nat}
    (place : s.cursor = ⟨'\n' :: cs, l, k, i⟩) (flow : s.flow = 0) (fuel : Nat) :
    skipGaps (fuel + 1) s =
      skipGaps fuel { s with cursor := ⟨cs, l + 1, 0, i + 1⟩, keyAllowed := true } := by
  have noSpace : ('\n' :: cs).takeWhile (· == ' ') = [] := rfl
  have noComment : skipComment ⟨'\n' :: cs, l, k, i⟩ = ⟨'\n' :: cs, l, k, i⟩ := rfl
  rw [skipGaps]
  simp only [place, Cursor.skipWhile, noSpace, List.length_nil, Cursor.skip, noComment,
    Cursor.lineBreak?_lineFeed, flow]
  simp

theorem closeBlocks_of_head {s : Scanner} {column : Nat}
    (h : s.flow ≠ 0 ∨ ∀ b ∈ s.blocks.head?, b ≤ column) : s.closeBlocks column = s := by
  unfold closeBlocks
  split_ifs with flow
  · rfl
  · have inner := h.resolve_left (by simpa using flow)
    have none : s.blocks.takeWhile (column < ·) = [] := by
      cases hb : s.blocks with
      | nil => rfl
      | cons b blocks =>
        have : b ≤ column := inner b (by rw [hb]; rfl)
        rw [List.takeWhile_cons_of_neg (by simpa using this)]
    simp [none]

/-- What is skipped, given up and closed comes in front of the next token. -/
theorem readNext_of_closed {s d s' : Scanner} {ch : Char} {rest : List Char}
    (dropped : (skipGaps (s.cursor.rest.length + 1) s).dropStale = .ok d)
    (closed : d.closeBlocks d.cursor.column = s') (place : s'.cursor.rest = ch :: rest) :
    s.readNext = (s'.readToken ch).map some := by
  rw [readNext, dropped]
  simp only [bind, Except.bind, closed, place, List.head?_cons]
  cases s'.readToken ch <;> rfl

/-- At the first character of a token there is nothing to skip, to give up or to close. -/
theorem readNext_of_head {s : Scanner} {ch : Char} {rest : List Char}
    (place : s.cursor.rest = ch :: rest) (solid : isGap ch = false) (noComment : ch ≠ '#')
    (fresh : ∀ k, some k ∈ s.candidates → isStale s.cursor k = false)
    (inner : s.flow ≠ 0 ∨ ∀ b ∈ s.blocks.head?, b ≤ s.cursor.column) :
    s.readNext = (s.readToken ch).map some := by
  have skipped : skipGaps (s.cursor.rest.length + 1) s = s := by
    have head : ∀ c ∈ s.cursor.rest.head?, isGap c = false ∧ c ≠ '#' := by
      rw [place]
      exact forall_head ⟨solid, noComment⟩
    have here : s.cursor = ⟨List.replicate 0 ' ' ++ s.cursor.rest, s.cursor.line, s.cursor.column,
      s.cursor.index⟩ := rfl
    exact (skipGaps_spaces head here _).trans rfl
  have kept : ∀ k ∈ s.candidates, k.any (isStale s.cursor) = false := by
    intro k hk
    cases k with
    | none => rfl
    | some k => exact fresh k hk
  have dropped : s.dropStale = .ok s := by
    have noLoss : (s.candidates.any fun k =>
        k.any (isStale s.cursor) && k.any (·.required)) = false :=
      List.any_eq_false.2 fun k hk => by simp [kept k hk]
    have same : (s.candidates.map fun k => if k.any (isStale s.cursor) then none else k) =
        s.candidates := by
      refine (List.map_congr_left fun k hk => ?_).trans (List.map_id s.candidates)
      rw [kept k hk]
      rfl
    simp only [dropStale, noLoss, same]
    rfl
  exact readNext_of_closed (by rw [skipped, dropped]) (closeBlocks_of_head inner) place

/-! ## Blocks -/

/-- A block that is indented further is closed in front of the others. -/
theorem closeBlocks_cons (c : Cursor) (tokens : List Token) {b n : Nat} (deeper : n < b)
    (blocks : List Nat) (a : Bool) :
    (idle c tokens (b :: blocks) a).closeBlocks n =
      (idle c (.blockEnd :: tokens) blocks a).closeBlocks n := by
  have first : (b :: blocks).takeWhile (n < ·) = b :: blocks.takeWhile (n < ·) :=
    List.takeWhile_cons_of_pos (decide_eq_true deeper)
  simp only [closeBlocks, idle, first, List.length_cons, List.drop_succ_cons, List.map_const',
    List.replicate_succ']
  simp

/-- Once the blocks that are indented further are closed, none is left, and closing the others gives
what closing all at once would have given. -/
theorem closeBlocks_idle (c : Cursor) (n : Nat) (a : Bool) (blocks : List Nat)
    (tokens : List Token) :
    ∃ tokens' blocks', (idle c tokens blocks a).closeBlocks n = idle c tokens' blocks' a ∧
      (∀ b ∈ blocks'.head?, b ≤ n) ∧
      List.replicate blocks'.length .blockEnd ++ tokens' =
        List.replicate blocks.length .blockEnd ++ tokens := by
  induction blocks generalizing tokens with
  | nil => exact ⟨tokens, [], rfl, by simp, rfl⟩
  | cons b blocks ih =>
    by_cases deeper : n < b
    · obtain ⟨tokens', blocks', closed, inner, ends⟩ := ih (.blockEnd :: tokens)
      refine ⟨tokens', blocks', by rw [closeBlocks_cons c tokens deeper, closed], inner, ?_⟩
      rw [ends, List.length_cons, List.replicate_succ']
      simp
    · have inner : ∀ d ∈ (b :: blocks).head?, d ≤ n := forall_head (Nat.le_of_not_lt deeper)
      exact ⟨tokens, b :: blocks, closeBlocks_of_head (.inr inner), inner, rfl⟩

theorem readAll_end {s : Scanner} (h : s.readNext = .ok none) (flow : s.flow = 0)
    {candidate : Option Candidate} (one : s.candidates = [candidate])
    (optional : ∀ k ∈ candidate, k.required = false) (fuel : Nat) :
    readAll (fuel + 1) s =
      .ok (List.replicate s.blocks.length Token.blockEnd ++ s.tokens).reverse := by
  have closed : s.closeAll.dropCandidate = .ok ⟨s.cursor,
      List.replicate s.blocks.length .blockEnd ++ s.tokens, [], 0, s.keyAllowed, [none]⟩ := by
    cases candidate with
    | none => simp [closeAll, flow, dropCandidate, Scanner.candidate, one, List.map_const']
    | some k =>
      simp [closeAll, flow, dropCandidate, Scanner.candidate, one, List.map_const',
        optional k rfl, setCandidate]
  rw [readAll, h]
  simp only [closed]

/-- Gaps lead to the next token, once a possible key in an earlier line is given up and the blocks
that are indented further are closed. -/
theorem leads_of_skipGaps {s : Scanner} {candidate : Option Candidate} {rest : List Char}
    {l n i : Nat} {a : Bool} (flow : s.flow = 0) (one : s.candidates = [candidate])
    (past : ∀ k ∈ candidate, k.required = false ∧ k.line < l)
    (skipped : skipGaps (s.cursor.rest.length + 1) s =
      { s with cursor := ⟨rest, l, n, i⟩, keyAllowed := a })
    (head : ∀ c ∈ rest.head?, isGap c = false ∧ c ≠ '#')
    (shorter : rest.length ≤ s.cursor.rest.length) :
    Leads s ((idle ⟨rest, l, n, i⟩ s.tokens s.blocks a).closeBlocks n) := by
  have dropped : ({ s with cursor := ⟨rest, l, n, i⟩, keyAllowed := a } : Scanner).dropStale =
      .ok (idle ⟨rest, l, n, i⟩ s.tokens s.blocks a) := by
    cases candidate with
    | none => simp [dropStale, idle, one, flow]
    | some k =>
      obtain ⟨optional, earlier⟩ := past k rfl
      simp [dropStale, idle, one, flow, isStale, optional, Nat.ne_of_lt earlier]
  obtain ⟨tokens', blocks', closed, inner, ends⟩ :=
    closeBlocks_idle ⟨rest, l, n, i⟩ n a s.blocks s.tokens
  have column : (idle ⟨rest, l, n, i⟩ s.tokens s.blocks a).cursor.column = n := rfl
  rw [closed]
  -- reading goes on alike from both states, which differ only in what is still to be given up
  intro ts later fuel enough
  have same := later fuel (Nat.lt_of_le_of_lt shorter enough)
  obtain ⟨fuel, rfl⟩ := Nat.exists_eq_succ_of_ne_zero (by omega : fuel ≠ 0)
  cases rest with
  | nil =>
    have next : s.readNext = .ok none := by
      rw [readNext, skipped, dropped]
      simp only [bind, Except.bind]
      rw [column, closed]
      rfl
    have optional : ∀ k ∈ (none : Option Candidate), k.required = false := by simp
    -- at the end of the text the blocks that are left are closed, too
    rw [readAll_end rfl rfl rfl optional] at same
    rw [readAll_end next flow one fun k hk => (past k hk).1, ← ends]
    exact same
  | cons ch rest =>
    have next := readNext_of_closed (by rw [skipped, dropped]) closed rfl
    have next' := readNext_of_head (s := idle ⟨ch :: rest, l, n, i⟩ tokens' blocks' a) rfl
      (head ch rfl).1 (head ch rfl).2 (by simp [idle]) (.inr inner)
    rw [readAll] at same ⊢
    rw [next'] at same
    rw [next]
    cases h : readToken (idle ⟨ch :: rest, l, n, i⟩ tokens' blocks' a) ch with
    -- a fault at the next token gives no tokens from either state
    | error e =>
      rw [h] at same
      cases same
    | ok s' =>
      rw [h] at same
      exact same

/-! ## Between two tokens -/

/-- Whether reading on from a state gets to the next token, in the column `n`, with the given tokens
and open blocks once those that are indented further are closed. -/
def Reaches (s : Scanner) (rest : List Char) (n : Nat) (tokens : List Token)
    (blocks : List Nat) : Prop :=
  ∃ l i, Leads s ((idle ⟨rest, l, n, i⟩ tokens blocks true).closeBlocks n)

namespace Reaches

variable {s s' : Scanner} {rest rest' : List Char} {n n' b : Nat} {tokens tokens' : List Token}
  {blocks blocks' : List Nat}

theorem of_leads (first : Leads s s') (h : Reaches s' rest n tokens blocks) :
    Reaches s rest n tokens blocks := by
  obtain ⟨l, i, later⟩ := h
  exact ⟨l, i, first.trans later⟩

theorem close (h : Reaches s rest n tokens (b :: blocks)) (deeper : n < b) :
    Reaches s rest n (.blockEnd :: tokens) blocks := by
  obtain ⟨l, i, leads⟩ := h
  rw [closeBlocks_cons _ tokens deeper] at leads
  exact ⟨l, i, leads⟩

/-- A token that closes no block is read next. -/
theorem goOn (h : Reaches s rest n tokens blocks) (inner : ∀ b ∈ blocks.head?, b ≤ n)
    (later : ∀ l i, Reaches (idle ⟨rest, l, n, i⟩ tokens blocks true) rest' n' tokens' blocks') :
    Reaches s rest' n' tokens' blocks' := by
  obtain ⟨l, i, leads⟩ := h
  rw [closeBlocks_of_head (.inr inner)] at leads
  exact of_leads leads (later l i)

end Reaches

section

variable {rest : List Char} {n : Nat}

/-- Behind the line of a token stands the next one. -/
theorem reaches_of_lineFeed (margin : Margin rest) {s : Scanner} {candidate : Option Candidate}
    {l k i : Nat} (place : s.cursor = ⟨'\n' :: (List.replicate n ' ' ++ rest), l, k, i⟩)
    (flow : s.flow = 0) (one : s.candidates = [candidate])
    (past : ∀ k ∈ candidate, k.required = false ∧ k.line ≤ l) :
    Reaches s rest n s.tokens s.blocks := by
  refine ⟨l + 1, i + 1 + n, leads_of_skipGaps flow one ?_ ?_ margin.head ?_⟩
  -- a key must end on its own line
  · intro k hk
    exact ⟨(past k hk).1, Nat.lt_succ_of_le (past k hk).2⟩
  · obtain ⟨fuel, hfuel⟩ : ∃ fuel, s.cursor.rest.length = fuel + 1 := by
      rw [place]
      exact ⟨_, List.length_cons⟩
    rw [hfuel, skipGaps_lineFeed place flow, skipGaps_spaces margin.head rfl]
    simp
  · rw [place, List.length_cons, List.length_append]
    omega

/-- The next token may also be reached already. -/
theorem reaches_of_margin (margin : Margin rest) {s : Scanner} {candidate : Option Candidate}
    {l i : Nat} (place : s.cursor = ⟨rest, l, n, i⟩) (allowed : s.keyAllowed = true)
    (flow : s.flow = 0) (one : s.candidates = [candidate])
    (past : ∀ k ∈ candidate, k.required = false ∧ k.line < l) :
    Reaches s rest n s.tokens s.blocks := by
  refine ⟨l, i, leads_of_skipGaps flow one past ?_ margin.head ?_⟩
  · have here : s.cursor = ⟨List.replicate 0 ' ' ++ rest, l, n, i⟩ := place
    rw [skipGaps_spaces margin.head here, ← allowed]
    rfl
  · exact Nat.le_of_eq (by rw [place])

end

/-- A space leads to the token behind it. -/
theorem leads_of_space {rest : List Char} (head : ∀ c ∈ rest.head?, isGap c = false ∧ c ≠ '#')
    {blocks : List Nat} {k : Nat} (inner : ∀ b ∈ blocks.head?, b ≤ k) (l i : Nat)
    (tokens : List Token) (a : Bool) :
    Leads (idle ⟨' ' :: rest, l, k, i⟩ tokens blocks a)
      (idle ⟨rest, l, k + 1, i + 1⟩ tokens blocks a) := by
  have here : (idle ⟨' ' :: rest, l, k, i⟩ tokens blocks a).cursor =
    ⟨List.replicate 1 ' ' ++ rest, l, k, i⟩ := rfl
  have leads := leads_of_skipGaps (s := idle ⟨' ' :: rest, l, k, i⟩ tokens blocks a) rfl rfl
    (by simp) (skipGaps_spaces head here _) head (Nat.le_succ _)
  have within : ∀ b ∈ blocks.head?, b ≤ k + 1 := fun b hb => Nat.le_succ_of_le (inner b hb)
  rwa [closeBlocks_of_head (.inr within)] at leads

/-! ## Keys -/

section

variable {ch : Char} {w : List Char}

/-- A word that means nothing else starts a plain scalar. -/
theorem readToken_word {s : Scanner} {g : Char} {more : List Char}
    (place : s.cursor.rest = ch :: (w ++ g :: more)) (flow : s.flow = 0)
    (start : startsWithIndicator (ch :: w) = false) (solid : ∀ c ∈ ch :: w, isGap c = false)
    (noMark : g ≠ '-' ∧ g ≠ '.') : s.readToken ch = s.readPlain := by
  have first : isGap ch = false := solid ch List.mem_cons_self
  simp only [startsWithIndicator, Bool.or_eq_false_iff, decide_eq_false_iff_not] at start
  obtain ⟨⟨⟨leading, lone⟩, dashes⟩, points⟩ := start
  -- a mark that needs a gap behind it has none
  have noGap (mark : ch = '?' ∨ ch = ':' ∨ ch = '-') : s.cursor.gapAt 1 = false := by
    cases w with
    | nil =>
      rcases mark with rfl | rfl | rfl <;> exact absurd lone (by decide)
    | cons d w => simpa [Cursor.gapAt, place] using solid d (by simp)
  have noMarker (mark : Char) (other : g ≠ mark)
      (noPrefix : List.isPrefixOf [mark, mark, mark] (ch :: w) = false) :
      s.cursor.atMarker mark = false := by
    have noTake : s.cursor.rest.take 3 ≠ [mark, mark, mark] := by
      rw [place]
      exact take_ne_of_isPrefixOf noPrefix other more
    exact atMarker_of_take noTake s.cursor.line s.cursor.column s.cursor.index
  have plain : s.startsPlain ch = true := by
    rw [startsPlain, first, if_neg (by decide)]
    split_ifs with indicator
    · have mark : ch = '?' ∨ ch = ':' ∨ ch = '-' := by
        simp only [leadingIndicators, indicators, List.mem_cons, List.not_mem_nil, or_false]
          at leading indicator
        grind
      rw [noGap mark, flow]
      rcases mark with rfl | rfl | rfl <;> rfl
    · rfl
  simp only [leadingIndicators, List.mem_cons, List.not_mem_nil, or_false, not_or] at leading
  by_cases mark : ch = '?' ∨ ch = ':' ∨ ch = '-'
  · simp [readToken, leading, noGap mark, noMarker '-' noMark.1 dashes,
      noMarker '.' noMark.2 points, flow, plain]
  · simp only [not_or] at mark
    simp [readToken, leading, mark, noMarker '-' noMark.1 dashes, noMarker '.' noMark.2 points,
      plain]

end

/-- What a token in a column opens: nothing if the innermost block starts there, else a block if
that one starts further to the left. -/
inductive Opens (t : Token) (column : Nat) : List Nat → List Token → List Nat → Prop
  | inside (outer : List Nat) : Opens t column (column :: outer) [] (column :: outer)
  | deeper {outer : List Nat} (h : ∀ b ∈ outer.head?, b < column) :
    Opens t column outer [t] (column :: outer)

namespace Opens

variable {t : Token} {column : Nat} {blocks blocks' : List Nat} {opening : List Token}

theorem inner (h : Opens t column blocks opening blocks') : ∀ b ∈ blocks.head?, b ≤ column := by
  cases h with
  | inside => exact forall_head (Nat.le_refl column)
  | deeper h => exact fun b hb => Nat.le_of_lt (h b hb)

theorem openBlock_eq (h : Opens t column blocks opening blocks') {s : Scanner} (flow : s.flow = 0)
    (same : s.blocks = blocks) : s.openBlock t column = (opening, blocks') := by
  cases h with
  | inside => simp [openBlock, flow, same]
  | deeper h =>
    have further : blocks.head?.all (· < column) = true := by
      cases blocks with
      | nil => rfl
      | cons b blocks => simpa using h b rfl
    simp [openBlock, flow, further, same]

end Opens

theorem saveCandidate_idle (c : Cursor) (tokens : List Token) (blocks : List Nat) :
    (idle c tokens blocks true).saveCandidate = .ok ⟨c, tokens, blocks, 0, true,
      [some ⟨tokens.length, c.line, c.column, c.index, blocks.head? == some c.column⟩]⟩ := rfl

theorem gapAt_one {c : Cursor} {ch : Char} {more : List Char} (place : c.rest = ch :: more) :
    c.gapAt 1 = more.head?.all isGap := by
  cases more <;> simp [Cursor.gapAt, place]

theorem atMarker_of_ne {c : Cursor} {ch mark : Char} {more : List Char}
    (place : c.rest = ch :: more) (other : ch ≠ mark) : c.atMarker mark = false := by
  simp [Cursor.atMarker, place, other]

theorem readToken_colon {s : Scanner} {more : List Char} (place : s.cursor.rest = ':' :: more)
    (gap : more.head?.all isGap = true) : s.readToken ':' = s.readValue := by
  have gapFollows : s.cursor.gapAt 1 = true := (gapAt_one place).trans gap
  simp [readToken, gapFollows, atMarker_of_ne place]

theorem readValue_eq {s : Scanner} {k : Candidate} (possible : s.candidate = some k)
    {opening : List Token} {blocks : List Nat}
    (opens : s.openBlock .blockMapping k.column = (opening, blocks)) :
    s.readValue = .ok { (({ s with
      tokens := Token.insertAt k.place (.key :: opening) s.tokens
      blocks := blocks } : Scanner).setCandidate none).push .value s.cursor.next with
        keyAllowed := false } := by
  rw [readValue]
  simp only [possible, opens]

theorem readPlain_eq {s s' : Scanner} (saved : s.saveCandidate = .ok s') (flow : s'.flow = 0)
    {text : List Char} {c : Cursor} {a : Bool}
    (read : plainScalar false s'.innerColumn (s'.cursor.rest.length + 1) s'.cursor = (text, c, a)) :
    s.readPlain = .ok { s'.push (.scalar text true) c with keyAllowed := a } := by
  have outside : (s'.flow != 0) = false := by simp [flow]
  rw [readPlain, saved]
  simp only [bind, Except.bind, outside, read]
  rfl

/-- A key and its colon. The key is put in front of them, and the start of a mapping if none was
open in that column. -/
theorem leads_key {key more : List Char} (isKey : IsKey key) (gap : more.head?.all isGap = true)
    {k : Nat} {blocks blocks' : List Nat} {opening : List Token}
    (opens : Opens .blockMapping k blocks opening blocks') (l i : Nat) (tokens : List Token) :
    Leads (idle ⟨key ++ ':' :: more, l, k, i⟩ tokens blocks true)
      (idle ⟨more, l, k + key.length + 1, i + key.length + 1⟩
        (.value :: .scalar key true :: .key :: (opening ++ tokens)) blocks' false) := by
  obtain ⟨ch, w, rfl⟩ := List.exists_cons_of_ne_nil isKey.isRun.ne
  -- the key itself may start a mapping
  let behindKey : Scanner := ⟨⟨':' :: more, l, k + (ch :: w).length, i + (ch :: w).length⟩,
    .scalar (ch :: w) true :: tokens, blocks, 0, false,
    [some ⟨tokens.length, l, k, i, blocks.head? == some k⟩]⟩
  have first : Leads (idle ⟨ch :: w ++ ':' :: more, l, k, i⟩ tokens blocks true) behindKey := by
    have solid : isGap ch = false := isKey.solid ch List.mem_cons_self
    have noComment : ch ≠ '#' := ne_numberSign_of_start isKey.start
    have shorter : (':' :: more).length < (ch :: w ++ ':' :: more).length := by
      rw [List.length_append, List.length_cons (a := ch)]
      omega
    refine leads_of_readNext ?_ shorter
    rw [readNext_of_head (List.cons_append) solid noComment (by simp [idle]) (.inr opens.inner),
      readToken_word rfl rfl isKey.start isKey.solid (by decide),
      readPlain_eq (saveCandidate_idle _ tokens blocks) rfl (isKey.plainScalar_eq gap _ _ l k i)]
    rfl
  refine first.trans (leads_of_readNext ?_ (by simp [behindKey, idle]))
  -- the colon is still on the line of the key, and near enough to it
  have fresh : ∀ c, some c ∈ behindKey.candidates → isStale behindKey.cursor c = false := by
    intro c hc
    obtain rfl : c = ⟨tokens.length, l, k, i, blocks.head? == some k⟩ := by
      simpa [behindKey] using hc
    have short := isKey.short
    simpa [isStale, behindKey] using short
  have inner : ∀ b ∈ blocks.head?, b ≤ k + (ch :: w).length := fun b hb =>
    Nat.le_add_right_of_le (opens.inner b hb)
  rw [readNext_of_head rfl (by decide) (by decide) fresh (.inr inner)]
  rw [readToken_colon rfl gap]
  -- the key is known as one only now, with its scalar already read
  have place : Token.insertAt tokens.length (.key :: opening)
      (.scalar (ch :: w) true :: tokens) =
      .scalar (ch :: w) true :: .key :: (opening ++ tokens) := by
    simp [Token.insertAt]
  rw [readValue_eq rfl (opens.openBlock_eq rfl rfl), place]
  rfl

/-! ## Entries -/

theorem readToken_entry {s : Scanner} {more : List Char}
    (place : s.cursor.rest = '-' :: ' ' :: more) :
    s.readToken '-' = s.readMark .entry .blockList true := by
  have gapFollows : s.cursor.gapAt 1 = true := gapAt_one place
  have noMarker : s.cursor.atMarker '-' = false := by
    simp [Cursor.atMarker, place]
  simp [readToken, gapFollows, noMarker, atMarker_of_ne place]

/-- The mark of an item, and the start of a list if none was open in that column. -/
theorem leads_entry {k : Nat} {blocks blocks' : List Nat} {opening : List Token}
    (opens : Opens .blockList k blocks opening blocks') (more : List Char) (l i : Nat)
    (tokens : List Token) :
    Leads (idle ⟨'-' :: ' ' :: more, l, k, i⟩ tokens blocks true)
      (idle ⟨' ' :: more, l, k + 1, i + 1⟩ (.entry :: (opening ++ tokens)) blocks' true) := by
  refine leads_of_readNext ?_ (Nat.lt_succ_self _)
  have here : (idle ⟨'-' :: ' ' :: more, l, k, i⟩ tokens blocks true).cursor.column = k := rfl
  have opened := opens.openBlock_eq (s := idle ⟨'-' :: ' ' :: more, l, k, i⟩ tokens blocks true)
    rfl rfl
  rw [readNext_of_head rfl (by decide) (by decide) (by simp [idle]) (.inr opens.inner),
    readToken_entry rfl, readMark, if_neg (by simp [idle])]
  simp only [here, opened]
  rfl

/-! ## Texts -/

/-- What starts further to the right than the innermost block need not be a key. -/
theorem saveCandidate_inside {c : Cursor} {b : Nat} (inside : b < c.column) (tokens : List Token)
    (blocks : List Nat) (a : Bool) :
    ∃ candidate : Option Candidate,
      (∀ k ∈ candidate, k.required = false ∧ k.line = c.line ∧ k.index = c.index) ∧
      (idle c tokens (b :: blocks) a).saveCandidate =
        .ok ⟨c, tokens, b :: blocks, 0, a, [candidate]⟩ := by
  cases a with
  | false => exact ⟨none, by simp, rfl⟩
  | true =>
    have elsewhere : (some b == some c.column) = false := by simpa using Nat.ne_of_lt inside
    refine ⟨some ⟨tokens.length, c.line, c.column, c.index, false⟩, by simp, ?_⟩
    rw [saveCandidate_idle, List.head?_cons, elsewhere]

theorem readToken_quote {s : Scanner} {mark : Char} {more : List Char}
    (isMark : mark = '\'' ∨ mark = '"') (place : s.cursor.rest = mark :: more) :
    s.readToken mark = s.readQuoted mark := by
  rcases isMark with rfl | rfl <;> simp [readToken, atMarker_of_ne place]

theorem readQuoted_eq {s s' : Scanner} (saved : s.saveCandidate = .ok s') {mark : Char}
    {text : List Char} {c : Cursor}
    (read : quotedScalar mark (s'.cursor.next.rest.length + 1) s'.cursor.next = .ok (text, c)) :
    s.readQuoted mark = .ok { s'.push (.scalar text false) c with keyAllowed := false } := by
  rw [readQuoted, saved]
  simp only [bind, Except.bind, read]
  rfl

section

variable {rest : List Char} {n b k indent : Nat}

/-- A text without quotes inside a block, up to the next token. -/
theorem reaches_plainText (margin : Margin rest) (outer : n ≤ b) (inside : b < k)
    (deep : b < indent) {cs : List Char} (plain : chooseStyle cs = .plain) (column l i : Nat)
    (tokens : List Token) (blocks : List Nat) (a : Bool) :
    Reaches (idle ⟨writeText indent column cs ++ '\n' :: (List.replicate n ' ' ++ rest), l, k, i⟩
        tokens (b :: blocks) a) rest n (.scalar cs true :: tokens) (b :: blocks) := by
  obtain ⟨word, g, more, shown, gap, ne, solid, start⟩ :=
    firstWord_of_plain plain indent column (List.replicate n ' ' ++ rest)
  obtain ⟨ch, w, rfl⟩ := List.exists_cons_of_ne_nil ne
  have enough : (writeText indent column cs).length <
      (writeText indent column cs ++ '\n' :: (List.replicate n ' ' ++ rest)).length + 1 := by
    rw [List.length_append]
    omega
  have shorter : rest.length <
      (writeText indent column cs ++ '\n' :: (List.replicate n ' ' ++ rest)).length := by
    rw [List.length_append, List.length_cons, List.length_append]
    omega
  obtain ⟨l', i', after, read⟩ := plainScalar_writeText plain (Nat.zero_lt_of_lt deep) deep margin
    (.inr (Nat.lt_succ_of_le outer)) inside column l i enough
  rw [shown] at read shorter ⊢
  obtain ⟨candidate, optional, saved⟩ :=
    saveCandidate_inside (c := ⟨ch :: w ++ g :: more, l, k, i⟩) inside tokens blocks a
  have noComment : ch ≠ '#' := ne_numberSign_of_start start
  have noMark : g ≠ '-' ∧ g ≠ '.' := by
    constructor <;>
    · rintro rfl
      exact absurd gap (by decide)
  have next := readNext_of_head
    (s := idle ⟨ch :: w ++ g :: more, l, k, i⟩ tokens (b :: blocks) a) List.cons_append
    (solid ch List.mem_cons_self) noComment (by simp [idle])
    (.inr (forall_head (Nat.le_of_lt inside)))
  rw [readToken_word rfl rfl start solid noMark, readPlain_eq saved rfl read] at next
  refine .of_leads (leads_of_readNext next shorter) ?_
  -- the next token is on a later line, so that the text can no longer be a key
  exact reaches_of_margin margin rfl rfl rfl rfl fun d hd =>
    ⟨(optional d hd).1, Nat.lt_of_le_of_lt (Nat.le_of_eq (optional d hd).2.1) after⟩

/-- A text between quotes inside a block, up to the next token. -/
theorem reaches_quotedText (margin : Margin rest) (inside : b < k) (deep : 0 < indent)
    (narrow : indent < lineWidth) {cs : List Char} (quoted : chooseStyle cs ≠ .plain)
    (column l i : Nat) (tokens : List Token) (blocks : List Nat) (a : Bool) :
    Reaches (idle ⟨writeText indent column cs ++ '\n' :: (List.replicate n ' ' ++ rest), l, k, i⟩
        tokens (b :: blocks) a) rest n (.scalar cs false :: tokens) (b :: blocks) := by
  have closed : ('\n' :: (List.replicate n ' ' ++ rest)).head? ≠ some '\'' := by simp
  obtain ⟨mark, shown, hshown, isMark, reads⟩ :=
    readsQuoted_writeText deep narrow closed column quoted
  obtain ⟨solid, noComment, ascii⟩ :
      isGap mark = false ∧ mark ≠ '#' ∧ isPlainAscii mark = true := by
    rcases isMark with rfl | rfl <;> decide
  obtain ⟨l', k', i', after, read⟩ := reads l (k + 1) (i + 1) _ (Nat.lt_succ_self _)
  have marked : 0 < (writeText indent column cs).length := by
    rw [writeText]
    cases style : chooseStyle cs with
    | plain => exact absurd style quoted
    | singleQuoted => exact Nat.succ_pos _
    | doubleQuoted => exact Nat.succ_pos _
  have shorter : ('\n' :: (List.replicate n ' ' ++ rest)).length <
      (writeText indent column cs ++ '\n' :: (List.replicate n ' ' ++ rest)).length := by
    rw [List.length_append]
    omega
  rw [hshown] at shorter ⊢
  obtain ⟨candidate, optional, saved⟩ :=
    saveCandidate_inside (c := ⟨mark :: shown, l, k, i⟩) inside tokens blocks a
  have inner : Cursor.next ⟨mark :: shown, l, k, i⟩ = ⟨shown, l, k + 1, i + 1⟩ :=
    Cursor.next_plainAscii ascii shown l k i
  have next := readNext_of_head (s := idle ⟨mark :: shown, l, k, i⟩ tokens (b :: blocks) a) rfl
    solid noComment (by simp [idle]) (.inr (forall_head (Nat.le_of_lt inside)))
  rw [readToken_quote isMark rfl, readQuoted_eq saved (by rw [inner]; exact read)] at next
  refine .of_leads (leads_of_readNext next shorter) ?_
  -- the end of the line is still to be read, and with it the text is no longer a key
  exact reaches_of_lineFeed margin rfl rfl rfl fun d hd =>
    ⟨(optional d hd).1, Nat.le_trans (Nat.le_of_eq (optional d hd).2.1) after⟩

/-- A text inside a block, up to the next token. -/
theorem reaches_text (margin : Margin rest) (outer : n ≤ b) (inside : b < k) (deep : b < indent)
    (narrow : indent < lineWidth) (cs : List Char) (column l i : Nat) (tokens : List Token)
    (blocks : List Nat) (a : Bool) :
    Reaches (idle ⟨writeText indent column cs ++ '\n' :: (List.replicate n ' ' ++ rest), l, k, i⟩
        tokens (b :: blocks) a) rest n (.scalar cs (chooseStyle cs == .plain) :: tokens)
      (b :: blocks) := by
  by_cases plain : chooseStyle cs = .plain
  · rw [plain]
    exact reaches_plainText margin outer inside deep plain column l i tokens blocks a
  · rw [beq_eq_false_iff_ne.2 plain]
    exact reaches_quotedText margin inside (Nat.zero_lt_of_lt deep) narrow plain column l i tokens
      blocks a

/-- The brackets and the braces, with their tokens. -/
inductive Brackets : Char → Char → Token → Token → Prop
  | square : Brackets '[' ']' .flowList .flowListEnd
  | curly : Brackets '\x7b' '\x7d' .flowMapping .flowMappingEnd

namespace Brackets

variable {opening closing : Char} {t t' : Token}

theorem solid (h : Brackets opening closing t t') :
    isGap opening = false ∧ opening ≠ '#' ∧ isGap closing = false ∧ closing ≠ '#' := by
  cases h <;> decide

theorem readToken_opening (h : Brackets opening closing t t') {s : Scanner} {more : List Char}
    (place : s.cursor.rest = opening :: more) : s.readToken opening = s.readFlowStart t := by
  cases h <;> simp [readToken, atMarker_of_ne place]

theorem readToken_closing (h : Brackets opening closing t t') {s : Scanner} {more : List Char}
    (place : s.cursor.rest = closing :: more) : s.readToken closing = s.readFlowEnd t' := by
  cases h <;> simp [readToken, atMarker_of_ne place]

theorem next (h : Brackets opening closing t t') (more : List Char) (l k i : Nat) :
    Cursor.next ⟨opening :: more, l, k, i⟩ = ⟨more, l, k + 1, i + 1⟩ ∧
      Cursor.next ⟨closing :: more, l, k, i⟩ = ⟨more, l, k + 1, i + 1⟩ := by
  cases h <;> exact ⟨rfl, rfl⟩

end Brackets

/-- Empty brackets or braces inside a block, up to the next token. -/
theorem reaches_brackets {opening closing : Char} {t t' : Token}
    (brackets : Brackets opening closing t t') (margin : Margin rest) (inside : b < k) (l i : Nat)
    (tokens : List Token) (blocks : List Nat) (a : Bool) :
    Reaches (idle ⟨opening :: closing :: '\n' :: (List.replicate n ' ' ++ rest), l, k, i⟩ tokens
        (b :: blocks) a) rest n (t' :: t :: tokens) (b :: blocks) := by
  generalize hmore : '\n' :: (List.replicate n ' ' ++ rest) = more
  obtain ⟨solidOpening, noComment, solidClosing, noComment'⟩ := brackets.solid
  obtain ⟨candidate, optional, saved⟩ :=
    saveCandidate_inside (c := ⟨opening :: closing :: more, l, k, i⟩) inside tokens blocks a
  have inner : ∀ d ∈ (b :: blocks).head?, d ≤ k := forall_head (Nat.le_of_lt inside)
  -- inside the brackets another key could start
  let within : Scanner := ⟨⟨closing :: more, l, k + 1, i + 1⟩, t :: tokens, b :: blocks, 1, true,
    [none, candidate]⟩
  have start : Leads (idle ⟨opening :: closing :: more, l, k, i⟩ tokens (b :: blocks) a)
      within := by
    refine leads_of_readNext ?_ (Nat.lt_succ_self _)
    rw [readNext_of_head rfl solidOpening noComment (by simp [idle]) (.inr inner),
      brackets.readToken_opening rfl, readFlowStart, saved]
    simp only [bind, Except.bind, (brackets.next _ l k i).1]
    rfl
  -- the brackets themselves may still be a key
  let behind : Scanner := ⟨⟨more, l, k + 2, i + 2⟩, t' :: t :: tokens, b :: blocks, 0, false,
    [candidate]⟩
  have ending : Leads within behind := by
    refine leads_of_readNext ?_ (Nat.lt_succ_self _)
    have fresh : ∀ c, some c ∈ within.candidates → isStale within.cursor c = false := by
      intro c hc
      have only : some c = candidate := by simpa [within] using hc
      obtain ⟨-, line, index⟩ := optional c only.symm
      simp [isStale, within, line, index]
    rw [readNext_of_head rfl solidClosing noComment' fresh (.inl (by simp [within])),
      brackets.readToken_closing rfl, readFlowEnd, show within.dropCandidate = .ok within from rfl]
    simp only [bind, Except.bind, within, (brackets.next _ _ _ _).2]
    rfl
  refine .of_leads (start.trans ending) ?_
  exact reaches_of_lineFeed margin (congrArg (Cursor.mk · l (k + 2) (i + 2)) hmore.symm) rfl rfl
    fun d hd => ⟨(optional d hd).1, Nat.le_of_eq (optional d hd).2.1⟩

end

end Scanner
end Yaml
end PerfFormula
