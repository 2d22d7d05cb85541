import Mathlib.Tactic.SplitIfs
import PerfFormula.Proofs.Entries
import PerfFormula.Proofs.HexDigits
import PerfFormula.Proofs.TextDocuments

/-!
# Tables that are written as JSON

A document of texts that is written as JSON, on one line or on many, is read back. Between quotes
every character comes back from its escape, a character beyond the first 65536 from its pair of
units; around the parts stand only spaces, which are skipped; and what is written of a part begins
with a quote, a bracket or a brace, so that no list or mapping is taken for an empty one.

A table is written in the spelling of event lists, so it is read back with the groups that come out
of one text.

Main statements:

* `Json.readString_writeText` — a text is read back, whatever follows it.
* `Json.readsBack`, `Json.read_write` — a document of texts is read back.
* `MetricTable.ofText_toJson` — what is read of a table that was written as JSON, and when it is
  that table.
-/

namespace PerfFormula

namespace Json

open PerfFormula.Text

/-! ## Units -/

theorem hex_four {n : Nat} (small : n < 0x10000) :
    hex 4 n = (nibbles 4 n).map Nat.digitChar := hex_eq_nibbles small

/-- The unit that four digits are is the one that they were written for. -/
theorem unit?_nibbles {n : Nat} (small : n < 0x10000) :
    unit? (n / 16 / 16 / 16 % 16).digitChar (n / 16 / 16 % 16).digitChar (n / 16 % 16).digitChar
      (n % 16).digitChar = some n := by
  have digit (d : Nat) : hexValue? (d % 16).digitChar = some (d % 16) :=
    (hexValue?_digitChar _ (Nat.mod_lt d (by decide))).1
  rw [unit?, digit, digit, digit, digit]
  simp
  omega

/-! ## Characters -/

/-- A character is no half of a pair of units. -/
theorem surrogates_toNat (c : Char) :
    isHighSurrogate c.toNat = false ∧ isLowSurrogate c.toNat = false := by
  have bounds := toNat_bounds c
  simp only [isHighSurrogate, isLowSurrogate, Bool.and_eq_false_iff, decide_eq_false_iff_not]
  omega

theorem ofUnit_toNat (c : Char) : ofUnit c.toNat = c := by
  obtain ⟨high, low⟩ := surrogates_toNat c
  rw [ofUnit, high, low, if_neg (by decide), Char.ofNat_toNat]

theorem ofPair_units {c : Char} (large : 0x10000 ≤ c.toNat) :
    ofPair (0xD800 + (c.toNat - 0x10000) / 0x400) (0xDC00 + (c.toNat - 0x10000) % 0x400) = c := by
  have joined : 0x10000 + (0xD800 + (c.toNat - 0x10000) / 0x400 - 0xD800) * 0x400 +
      (0xDC00 + (c.toNat - 0x10000) % 0x400 - 0xDC00) = c.toNat := by omega
  rw [ofPair, joined, Char.ofNat_toNat]

/-- The digits of a unit are read as its character, if no other unit belongs to that. -/
theorem unitEscape?_single {c : Char} (small : c.toNat < 0x10000) (more : List Char) :
    unitEscape? (hex 4 c.toNat ++ more) = some (c, more) := by
  rw [hex_four small]
  simp only [nibbles, List.nil_append, List.cons_append, List.map_cons, List.map_nil]
  rw [unitEscape?, unit?_nibbles small, Option.bind_eq_bind, Option.bind_some, ofUnit_toNat,
    (surrogates_toNat c).1]
  split <;> rfl

/-- The digits of two units that belong together are read as one character, if something follows
them. -/
theorem unitEscape?_pair {high low : Nat} (isHigh : isHighSurrogate high = true)
    (isLow : isLowSurrogate low = true) (next : Char) (more : List Char) :
    unitEscape? (hex 4 high ++ '\\' :: 'u' :: (hex 4 low ++ next :: more)) =
      some (ofPair high low, next :: more) := by
  have bounds : high < 65536 ∧ low < 65536 := by
    simp only [isHighSurrogate, isLowSurrogate, Bool.and_eq_true, decide_eq_true_eq] at isHigh isLow
    omega
  rw [hex_four bounds.1, hex_four bounds.2]
  simp only [nibbles, List.nil_append, List.cons_append, List.map_cons, List.map_nil]
  rw [unitEscape?, unit?_nibbles bounds.1]
  simp only [Option.bind_eq_bind, Option.bind_some]
  rw [if_pos isHigh, unit?_nibbles bounds.2, Option.bind_some, if_pos isLow]

/-- The units of a character beyond the first 65536 belong together. -/
theorem units_of_large {c : Char} (large : 0x10000 ≤ c.toNat) :
    ∃ high low, units c = [high, low] ∧ isHighSurrogate high = true ∧ isLowSurrogate low = true ∧
      ofPair high low = c := by
  have bounds := toNat_bounds c
  refine ⟨_, _, if_neg (by omega), ?_, ?_, ofPair_units large⟩
  · simp only [isHighSurrogate, Bool.and_eq_true, decide_eq_true_eq]
    omega
  · simp only [isLowSurrogate, Bool.and_eq_true, decide_eq_true_eq]
    omega

/-! ## Texts -/

theorem readText_unit {c : Char} {rest more : List Char} (start fuel : Nat)
    (long : 4 < rest.length) (unit : unitEscape? rest = some (c, more)) :
    readText start (fuel + 1) ('\\' :: 'u' :: rest) =
      (readText start fuel more).map fun (cs, rest) => (c :: cs, rest) := by
  rw [readText, if_neg (by omega), unit]
  rfl

theorem readText_letter {letter c : Char} (start fuel : Nat)
    (short : shortEscape? letter = some c) (more : List Char) :
    readText start (fuel + 1) ('\\' :: letter :: more) =
      (readText start fuel more).map fun (cs, rest) => (c :: cs, rest) := by
  have none : shortEscape? 'u' = .none := by decide
  have notUnit : letter ≠ 'u' := by
    rintro rfl
    rw [none] at short
    cases short
  rw [readText, short]
  · rfl
  · exact notUnit

theorem readText_plain {c : Char} (start fuel : Nat) (noControl : 0x20 ≤ c.toNat)
    (noMark : ¬(c = '"' ∨ c = '\\')) (more : List Char) :
    readText start (fuel + 1) (c :: more) =
      (readText start fuel more).map fun (cs, rest) => (c :: cs, rest) := by
  rw [not_or] at noMark
  rw [readText, if_neg (by omega)]
  · rfl
  all_goals simp_all

/-- What is written for a character is read as that character, if something follows it. -/
theorem readText_escapeChar (start fuel : Nat) (c next : Char) (more : List Char) :
    readText start (fuel + 1) (escapeChar c ++ next :: more) =
      (readText start fuel (next :: more)).map fun (cs, rest) => (c :: cs, rest) := by
  -- the digits of a unit are never the last characters, as at least the closing quote follows
  have long (n : Nat) {next : Char} (more : List Char) : 4 < (hex 4 n ++ next :: more).length := by
    have := le_length_hex 4 n
    rw [List.length_append, List.length_cons]
    omega
  unfold escapeChar
  split_ifs with mark lineFeed carriage tab backspace formFeed plain
  · exact readText_letter start fuel (by rcases mark with rfl | rfl <;> decide) _
  · exact readText_letter start fuel (by rw [lineFeed]; decide) _
  · exact readText_letter start fuel (by rw [carriage]; decide) _
  · exact readText_letter start fuel (by rw [tab]; decide) _
  · exact readText_letter start fuel (by rw [backspace]; decide) _
  · exact readText_letter start fuel (by rw [formFeed]; decide) _
  · exact readText_plain start fuel plain.1 mark _
  · by_cases small : c.toNat < 0x10000
    · rw [units, if_pos small, List.flatMap_singleton]
      exact readText_unit start fuel (long c.toNat _) (unitEscape?_single small _)
    · obtain ⟨high, low, hunits, isHigh, isLow, joined⟩ :=
        units_of_large (by omega : 0x10000 ≤ c.toNat)
      have unit := unitEscape?_pair isHigh isLow next more
      rw [joined] at unit
      have shown : [high, low].flatMap (fun u => '\\' :: 'u' :: hex 4 u) ++ next :: more =
          '\\' :: 'u' :: (hex 4 high ++ '\\' :: 'u' :: (hex 4 low ++ next :: more)) := by simp
      rw [hunits, shown]
      exact readText_unit start fuel (long high _) unit

/-- The characters of a text are read back up to the quote behind them. -/
theorem readText_flatMap (start : Nat) {fuel : Nat} {cs : List Char} (enough : cs.length < fuel)
    (rest : List Char) :
    readText start fuel (cs.flatMap escapeChar ++ '"' :: rest) = .ok (cs, rest) := by
  induction cs generalizing fuel with
  | nil =>
    obtain ⟨fuel, rfl⟩ := Nat.exists_eq_succ_of_ne_zero (by omega : fuel ≠ 0)
    exact readText_quote start fuel rest
  | cons c cs ih =>
    obtain ⟨fuel, rfl⟩ := Nat.exists_eq_succ_of_ne_zero (by omega : fuel ≠ 0)
    obtain ⟨next, more, behind⟩ :
        ∃ next more, cs.flatMap escapeChar ++ '"' :: rest = next :: more :=
      List.exists_cons_of_ne_nil (by simp)
    have later := ih (Nat.lt_of_succ_lt_succ enough)
    rw [behind] at later
    rw [List.flatMap_cons, List.append_assoc, behind, readText_escapeChar, later]
    rfl

theorem escapeChar_ne_nil (c : Char) : escapeChar c ≠ [] := by
  have shown (us : List Nat) : us ≠ [] → us.flatMap (fun u => '\\' :: 'u' :: hex 4 u) ≠ [] := by
    cases us <;> simp
  unfold escapeChar
  split_ifs
  case neg => exact shown _ (by unfold units; simp only; split_ifs <;> simp)
  all_goals simp

theorem length_le_flatMap (cs : List Char) : cs.length ≤ (cs.flatMap escapeChar).length := by
  induction cs with
  | nil => exact Nat.le_refl _
  | cons c cs ih =>
    have some := List.length_pos_iff.2 (escapeChar_ne_nil c)
    rw [List.flatMap_cons, List.length_append, List.length_cons]
    omega

/-- A text is read back, whatever follows it. -/
theorem readString_writeText (cs rest : List Char) :
    ∃ more, writeText cs ++ rest = '"' :: more ∧ readString more = .ok (cs, rest) := by
  refine ⟨cs.flatMap escapeChar ++ '"' :: rest, by simp [writeText], readText_flatMap _ ?_ rest⟩
  have := length_le_flatMap cs
  rw [List.length_append]
  omega

/-! ## Reading parts -/

theorem skip_of_head {c : Char} (h : isSpace c = false) (more : List Char) :
    skip (c :: more) = c :: more := by
  simp [skip, h]

theorem readItems_last {fuel : Nat} {cs behind rest : List Char} {item : Document}
    (first : readValue fuel cs = .ok (item, behind)) (ends : skip behind = ']' :: rest) :
    readItems (fuel + 1) cs = .ok ([item], rest) := by
  rw [readItems, first]
  simp only [bind, Except.bind]
  rw [ends]
  rfl

theorem readItems_next {fuel : Nat} {cs behind gap rest : List Char} {item : Document}
    {items : List Document} (first : readValue fuel cs = .ok (item, behind))
    (goesOn : skip behind = ',' :: gap) (later : readItems fuel (skip gap) = .ok (items, rest)) :
    readItems (fuel + 1) cs = .ok (item :: items, rest) := by
  rw [readItems, first]
  simp only [bind, Except.bind]
  rw [goesOn]
  simp only
  rw [later]
  rfl

theorem readEntries_last {fuel : Nat} {cs afterKey afterColon behind rest key : List Char}
    {value : Document} (named : readString cs = .ok (key, afterKey))
    (colon : skip afterKey = ':' :: afterColon)
    (first : readValue fuel (skip afterColon) = .ok (value, behind))
    (ends : skip behind = '\x7d' :: rest) :
    readEntries (fuel + 1) ('"' :: cs) = .ok ([(.text (.ofList key), value)], rest) := by
  rw [readEntries, named]
  simp only [bind, Except.bind]
  rw [colon]
  simp only
  rw [first]
  simp only
  rw [ends]
  rfl

theorem readEntries_next {fuel : Nat} {cs afterKey afterColon behind gap rest key : List Char}
    {value : Document} {entries : List (Document × Document)}
    (named : readString cs = .ok (key, afterKey)) (colon : skip afterKey = ':' :: afterColon)
    (first : readValue fuel (skip afterColon) = .ok (value, behind))
    (goesOn : skip behind = ',' :: gap)
    (later : readEntries fuel (skip gap) = .ok (entries, rest)) :
    readEntries (fuel + 1) ('"' :: cs) = .ok ((.text (.ofList key), value) :: entries, rest) := by
  rw [readEntries, named]
  simp only [bind, Except.bind]
  rw [colon]
  simp only
  rw [first]
  simp only
  rw [goesOn]
  simp only
  rw [later]
  rfl

theorem readValue_list {fuel : Nat} {inner more rest : List Char} {c : Char}
    {items : List Document} (start : skip inner = c :: more) (notEnd : c ≠ ']')
    (parts : readItems fuel (c :: more) = .ok (items, rest)) :
    readValue (fuel + 1) ('[' :: inner) = .ok (.list items, rest) := by
  rw [readValue, start]
  split
  · next h => exact absurd (List.cons.inj h).1 notEnd
  · rw [parts]
    rfl

theorem readValue_mapping {fuel : Nat} {inner more rest : List Char} {c : Char}
    {entries : List (Document × Document)} (start : skip inner = c :: more) (notEnd : c ≠ '\x7d')
    (parts : readEntries fuel (c :: more) = .ok (entries, rest)) :
    readValue (fuel + 1) ('\x7b' :: inner) = .ok (.ofEntries entries, rest) := by
  rw [readValue, start]
  split
  · next h => exact absurd (List.cons.inj h).1 notEnd
  · rw [parts]
    rfl

/-! ## Writing parts -/

theorem skip_lineBreak (layout : Layout) (depth : Nat) {c : Char} (h : isSpace c = false)
    (more : List Char) : skip (layout.lineBreak depth ++ c :: more) = c :: more := by
  have spaces (n : Nat) : skip (List.replicate n ' ' ++ c :: more) = c :: more := by
    induction n with
    | zero => exact skip_of_head h more
    | succ n ih => simpa [List.replicate_succ, skip, isSpace] using ih
  cases layout with
  | compact => exact skip_of_head h more
  | indented columns => simpa [Layout.lineBreak, skip, isSpace] using spaces (columns * depth)

/-- Between two parts stand a comma and spaces. -/
theorem separator_eq (layout : Layout) (depth : Nat) {c : Char} (h : isSpace c = false) :
    ∃ gap, layout.separator depth = ',' :: gap ∧ ∀ more, skip (gap ++ c :: more) = c :: more := by
  cases layout with
  | compact =>
    refine ⟨[' '], rfl, fun more => ?_⟩
    rw [List.singleton_append, skip, List.dropWhile_cons_of_pos (by decide)]
    exact skip_of_head h more
  | indented columns => exact ⟨_, rfl, skip_lineBreak (.indented columns) depth h⟩

theorem writeAt_list (layout : Layout) (depth : Nat) {items : List Document} (some : items ≠ []) :
    writeAt layout depth (.list items) =
      '[' :: (layout.lineBreak (depth + 1) ++ (writeItems layout (depth + 1) items ++
        (layout.lineBreak depth ++ [']']))) := by
  rw [writeAt]
  · simp
  · exact some

theorem writeAt_mapping (layout : Layout) (depth : Nat) {entries : List (Document × Document)}
    (some : entries ≠ []) :
    writeAt layout depth (.mapping entries) =
      '\x7b' :: (layout.lineBreak (depth + 1) ++ (writeEntries layout (depth + 1) entries ++
        (layout.lineBreak depth ++ ['\x7d']))) := by
  rw [writeAt]
  · simp
  · exact some

theorem writeItems_cons (layout : Layout) (depth : Nat) (item : Document) {rest : List Document}
    (some : rest ≠ []) :
    writeItems layout depth (item :: rest) =
      writeAt layout depth item ++ (layout.separator depth ++ writeItems layout depth rest) := by
  rw [writeItems]
  · simp
  · exact some

theorem writeEntries_single (layout : Layout) (depth : Nat) (name : String) (value : Document) :
    writeEntries layout depth [(.text name, value)] =
      writeText name.toList ++ ':' :: ' ' :: writeAt layout depth value := by
  rw [writeEntries, writeKey]

theorem writeEntries_cons (layout : Layout) (depth : Nat) (name : String) (value : Document)
    {rest : List (Document × Document)} (some : rest ≠ []) :
    writeEntries layout depth ((.text name, value) :: rest) =
      writeText name.toList ++ ':' :: ' ' :: (writeAt layout depth value ++
        (layout.separator depth ++ writeEntries layout depth rest)) := by
  rw [writeEntries, writeKey]
  · simp
  · exact some

/-- The characters with which a document of texts begins. -/
def openers : List Char := ['"', '[', '\x7b']

theorem of_mem_openers : ∀ c ∈ openers, isSpace c = false ∧ c ≠ ']' ∧ c ≠ '\uFEFF' := by
  have all : openers.all (fun c => !isSpace c && c != ']' && c != '\uFEFF') = true := by decide
  simpa [and_assoc] using all

section

variable {isKey : String → Prop} {n : Nat}

theorem writeAt_head {d : Document} (textual : d.Textual isKey n) (layout : Layout) (depth : Nat) :
    ∃ c more, writeAt layout depth d = c :: more ∧ c ∈ openers := by
  cases textual with
  | text _ s => exact ⟨'"', _, by rw [writeAt, writeText]; rfl, by decide⟩
  | @list _ items parts =>
    cases items with
    | nil => exact ⟨'[', _, by rw [writeAt], by decide⟩
    | cons item rest => exact ⟨'[', _, writeAt_list _ _ (List.cons_ne_nil _ _), by decide⟩
  | @mapping _ entries named distinct values =>
    cases entries with
    | nil => exact ⟨'\x7b', _, by rw [writeAt], by decide⟩
    | cons e rest => exact ⟨'\x7b', _, writeAt_mapping _ _ (List.cons_ne_nil _ _), by decide⟩

theorem writeItems_head {items : List Document} (some : items ≠ [])
    (textual : ∀ d ∈ items, d.Textual isKey n) (layout : Layout) (depth : Nat) :
    ∃ c more, writeItems layout depth items = c :: more ∧ c ∈ openers := by
  obtain ⟨item, rest, rfl⟩ := List.exists_cons_of_ne_nil some
  obtain ⟨c, more, shown, opens⟩ := writeAt_head (textual item List.mem_cons_self) layout depth
  cases rest with
  | nil => exact ⟨c, more, by rw [writeItems, shown], opens⟩
  | cons item' rest =>
    rw [writeItems_cons _ _ _ (List.cons_ne_nil item' rest), shown]
    exact ⟨c, _, rfl, opens⟩

theorem writeEntries_head {entries : List (Document × Document)} (some : entries ≠ [])
    (named : ∀ e ∈ entries, ∃ s, e.1 = .text s) (layout : Layout) (depth : Nat) :
    ∃ more, writeEntries layout depth entries = '"' :: more := by
  obtain ⟨⟨key, value⟩, rest, rfl⟩ := List.exists_cons_of_ne_nil some
  obtain ⟨name, hname⟩ := named _ List.mem_cons_self
  obtain rfl : key = .text name := hname
  cases rest with
  | nil => exact ⟨_, by rw [writeEntries_single, writeText]; rfl⟩
  | cons e rest =>
    exact ⟨_, by rw [writeEntries_cons _ _ _ _ (List.cons_ne_nil e rest), writeText]; rfl⟩

/-! ## Documents -/

/-- Whether a document is read back from what is written of it, at any depth, whatever follows. -/
def ReadsBack (layout : Layout) (d : Document) : Prop :=
  ∀ depth fuel rest, 2 * (writeAt layout depth d).length ≤ fuel →
    readValue fuel (writeAt layout depth d ++ rest) = .ok (d, rest)

theorem readsBack_text (layout : Layout) (s : String) : ReadsBack layout (.text s) := by
  intro depth fuel rest enough
  obtain ⟨more, shown, back⟩ := readString_writeText s.toList rest
  rw [writeAt] at enough ⊢
  have some : (writeText s.toList).length ≠ 0 := by simp [writeText]
  obtain ⟨fuel, rfl⟩ := Nat.exists_eq_succ_of_ne_zero (by omega : fuel ≠ 0)
  rw [shown, readValue, back]
  exact congrArg (fun t => Except.ok (Document.text t, rest)) String.ofList_toList

theorem readItems_writeItems {layout : Layout} {items : List Document} (some : items ≠ [])
    (textual : ∀ d ∈ items, d.Textual isKey n) (back : ∀ d ∈ items, ReadsBack layout d)
    (outer depth : Nat) {fuel : Nat} (rest : List Char)
    (enough : 2 * (writeItems layout depth items).length < fuel) :
    readItems fuel (writeItems layout depth items ++ (layout.lineBreak outer ++ ']' :: rest)) =
      .ok (items, rest) := by
  induction items generalizing fuel with
  | nil => exact absurd rfl some
  | cons item items ih =>
    obtain ⟨fuel, rfl⟩ := Nat.exists_eq_succ_of_ne_zero (by omega : fuel ≠ 0)
    have first := back item List.mem_cons_self depth fuel
    -- behind an item comes the end of the list, or a comma and another item
    by_cases last : items = []
    · subst last
      rw [writeItems] at enough ⊢
      exact readItems_last (first _ (by omega)) (skip_lineBreak layout outer (by decide) rest)
    · have textual' : ∀ d ∈ items, d.Textual isKey n := fun d hd =>
        textual d (List.mem_cons_of_mem _ hd)
      obtain ⟨c, more, shown, opens⟩ := writeItems_head last textual' layout depth
      obtain ⟨gap, separates, skipped⟩ := separator_eq layout depth (of_mem_openers c opens).1
      rw [writeItems_cons _ _ _ last, separates] at enough ⊢
      simp only [List.length_append, List.length_cons] at enough
      have later := ih last textual' (fun d hd => back d (List.mem_cons_of_mem _ hd))
        (by omega : 2 * (writeItems layout depth items).length < fuel)
      rw [shown, List.cons_append, ← skipped] at later
      rw [shown]
      simp only [List.append_assoc, List.cons_append] at later ⊢
      exact readItems_next (first _ (by omega)) (skip_of_head (by decide) _) later

theorem readsBack_list {layout : Layout} {items : List Document}
    (textual : ∀ d ∈ items, d.Textual isKey n) (back : ∀ d ∈ items, ReadsBack layout d) :
    ReadsBack layout (.list items) := by
  intro depth fuel rest enough
  by_cases none : items = []
  · subst none
    rw [writeAt] at enough ⊢
    obtain ⟨fuel, rfl⟩ := Nat.exists_eq_succ_of_ne_zero (by simp at enough; omega : fuel ≠ 0)
    rfl
  · rw [writeAt_list _ _ none] at enough ⊢
    simp only [List.length_cons, List.length_append] at enough
    obtain ⟨fuel, rfl⟩ := Nat.exists_eq_succ_of_ne_zero (by omega : fuel ≠ 0)
    obtain ⟨c, more, shown, opens⟩ := writeItems_head none textual layout (depth + 1)
    -- what comes behind the bracket is not the end of an empty list
    obtain ⟨visible, inside, -⟩ := of_mem_openers c opens
    have parts := readItems_writeItems none textual back depth (depth + 1) rest
      (by omega : 2 * (writeItems layout (depth + 1) items).length < fuel)
    rw [shown] at parts ⊢
    simp only [List.append_assoc, List.cons_append, List.nil_append] at parts ⊢
    exact readValue_list (skip_lineBreak layout (depth + 1) visible _) inside parts

theorem readEntries_writeEntries {layout : Layout} {entries : List (Document × Document)}
    (some : entries ≠ []) (named : ∀ e ∈ entries, ∃ s, e.1 = .text s)
    (textual : ∀ e ∈ entries, e.2.Textual isKey n) (back : ∀ e ∈ entries, ReadsBack layout e.2)
    (outer depth : Nat) {fuel : Nat} (rest : List Char)
    (enough : 2 * (writeEntries layout depth entries).length < fuel) :
    readEntries fuel
        (writeEntries layout depth entries ++ (layout.lineBreak outer ++ '\x7d' :: rest)) =
      .ok (entries, rest) := by
  induction entries generalizing fuel with
  | nil => exact absurd rfl some
  | cons e entries ih =>
    obtain ⟨key, value⟩ := e
    obtain ⟨fuel, rfl⟩ := Nat.exists_eq_succ_of_ne_zero (by omega : fuel ≠ 0)
    obtain ⟨name, hname⟩ := named _ List.mem_cons_self
    obtain rfl : key = .text name := hname
    obtain ⟨c, more, shownValue, opens⟩ :=
      writeAt_head (textual _ List.mem_cons_self) layout depth
    have first (rest : List Char) (enough : 2 * (writeAt layout depth value).length ≤ fuel) :
        readValue fuel (writeAt layout depth value ++ rest) = .ok (value, rest) :=
      back _ List.mem_cons_self depth fuel rest enough
    have spaced (cs : List Char) :
        skip (' ' :: (writeAt layout depth value ++ cs)) = writeAt layout depth value ++ cs := by
      rw [shownValue, skip, List.dropWhile_cons_of_pos (by decide)]
      exact skip_of_head (of_mem_openers c opens).1 _
    have colon (cs : List Char) : skip (':' :: cs) = ':' :: cs := skip_of_head (by decide) cs
    -- behind an entry comes the end of the mapping, or a comma and another entry
    by_cases last : entries = []
    · subst last
      rw [writeEntries_single] at enough ⊢
      simp only [List.length_append, List.length_cons] at enough
      simp only [List.append_assoc, List.cons_append]
      obtain ⟨behind, shownKey, hkey⟩ := readString_writeText name.toList
        (':' :: ' ' :: (writeAt layout depth value ++ (layout.lineBreak outer ++ '\x7d' :: rest)))
      have valueBack := first (layout.lineBreak outer ++ '\x7d' :: rest) (by omega)
      rw [← spaced] at valueBack
      have read := readEntries_last hkey (colon _) valueBack
        (skip_lineBreak layout outer (by decide) rest)
      rwa [String.ofList_toList, ← shownKey] at read
    · have named' : ∀ e ∈ entries, ∃ s, e.1 = .text s :=
        fun e he => named e (List.mem_cons_of_mem _ he)
      obtain ⟨more', shown⟩ := writeEntries_head last named' layout depth
      obtain ⟨gap, separates, skipped⟩ := separator_eq layout depth (c := '"') (by decide)
      rw [writeEntries_cons _ _ _ _ last, separates] at enough ⊢
      simp only [List.length_append, List.length_cons] at enough
      have later := ih last named' (fun e he => textual e (List.mem_cons_of_mem _ he))
        (fun e he => back e (List.mem_cons_of_mem _ he))
        (by omega : 2 * (writeEntries layout depth entries).length < fuel)
      rw [shown, List.cons_append, ← skipped] at later
      rw [shown]
      simp only [List.append_assoc, List.cons_append] at later ⊢
      obtain ⟨behind, shownKey, hkey⟩ := readString_writeText name.toList
        (':' :: ' ' :: (writeAt layout depth value ++ ',' :: (gap ++ '"' :: (more' ++
          (layout.lineBreak outer ++ '\x7d' :: rest)))))
      have valueBack := first (',' :: (gap ++ '"' :: (more' ++
        (layout.lineBreak outer ++ '\x7d' :: rest)))) (by omega)
      rw [← spaced] at valueBack
      have read := readEntries_next hkey (colon _) valueBack (skip_of_head (by decide) _) later
      rwa [String.ofList_toList, ← shownKey] at read

theorem readsBack_mapping {layout : Layout} {entries : List (Document × Document)}
    (named : ∀ e ∈ entries, ∃ s, e.1 = .text s) (distinct : (entries.map (·.1)).Nodup)
    (textual : ∀ e ∈ entries, e.2.Textual isKey n) (back : ∀ e ∈ entries, ReadsBack layout e.2) :
    ReadsBack layout (.mapping entries) := by
  intro depth fuel rest enough
  by_cases none : entries = []
  · subst none
    rw [writeAt] at enough ⊢
    obtain ⟨fuel, rfl⟩ := Nat.exists_eq_succ_of_ne_zero (by simp at enough; omega : fuel ≠ 0)
    rfl
  · rw [writeAt_mapping _ _ none] at enough ⊢
    simp only [List.length_cons, List.length_append] at enough
    obtain ⟨fuel, rfl⟩ := Nat.exists_eq_succ_of_ne_zero (by omega : fuel ≠ 0)
    obtain ⟨more, shown⟩ := writeEntries_head none named layout (depth + 1)
    have parts := readEntries_writeEntries none named textual back depth (depth + 1) rest
      (by omega : 2 * (writeEntries layout (depth + 1) entries).length < fuel)
    rw [shown] at parts ⊢
    simp only [List.append_assoc, List.cons_append, List.nil_append] at parts ⊢
    rw [← Document.ofEntries_of_distinct named distinct]
    exact readValue_mapping (skip_lineBreak layout (depth + 1) (by decide) _) (by decide) parts

/-- A document of texts is read back from what is written of it. -/
theorem readsBack {d : Document} (textual : d.Textual isKey n) (layout : Layout) :
    ReadsBack layout d := by
  induction textual with
  | text n s => exact readsBack_text layout s
  | list parts ih => exact readsBack_list parts ih
  | mapping named distinct values ih =>
    have texts := fun e he => (named e he).imp fun s h => h.1
    exact readsBack_mapping texts distinct values ih

theorem read_write {d : Document} (textual : d.Textual isKey n) (layout : Layout) :
    read (write layout d) = .ok d := by
  obtain ⟨c, more, shown, opens⟩ := writeAt_head textual layout 0
  obtain ⟨visible, -, noMark⟩ := of_mem_openers c opens
  have back := readsBack textual layout 0 (2 * (writeAt layout 0 d).length + 1) [] (by omega)
  rw [List.append_nil] at back
  have chars : readChars (writeAt layout 0 d) = .ok d := by
    rw [shown] at back ⊢
    rw [readChars, if_neg (by simpa using noMark), skip_of_head visible, back]
    rfl
  rw [read, write, String.toList_ofList, chars]
  rfl

end

end Json

namespace MetricTable

/-- What is read of a table that was written as JSON: the table, with the groups of each metric as
they come out of one text. -/
theorem ofText_toJson_readBack (yaml : YamlLibrary) (t : MetricTable) :
    ofText yaml none .json t.toJson = .ok (t.readBack .eventList) := by
  have textual : (t.toDocument .eventList).Textual (fun _ => True) 3 :=
    t.textual_toDocument (.inr rfl) fun _ _ => trivial
  rw [ofText, readText, toJson, Json.read_write textual]
  exact mapError_eq_ok_iff.2 (ofDocument_toDocument (.inr rfl) t)

/-- A table that was written as JSON is always read. The metrics that are read have the names,
formulas, descriptions and scale units of the metrics of the table, in order, and are those metrics
exactly when no group holds a comma or a semicolon. -/
theorem ofText_toJson (yaml : YamlLibrary) (t : MetricTable) :
    ∃ t', ofText yaml none .json t.toJson = .ok t' ∧
      t'.metrics.map (fun m => (m.name, m.source, m.description, m.scaleText)) =
        t.metrics.map (fun m => (m.name, m.source, m.description, m.scaleText)) ∧
      (t'.metrics = t.metrics ↔
        ∀ m ∈ t.metrics, ∀ g ∈ m.groups, ',' ∉ g.toList ∧ ';' ∉ g.toList) := by
  refine ⟨t.readBack .eventList, t.ofText_toJson_readBack yaml, ?_, ?_⟩
  · change (t.metrics.map (·.readBack .eventList)).map _ = _
    rw [List.map_map]
    rfl
  · have separators (g : String) :
        (∀ c ∈ g.toList, Metric.isGroupSeparator c = false) ↔ ',' ∉ g.toList ∧ ';' ∉ g.toList := by
      constructor
      · intro free
        exact ⟨fun comma => by simpa [Metric.isGroupSeparator] using free _ comma,
          fun semicolon => by simpa [Metric.isGroupSeparator] using free _ semicolon⟩
      · rintro ⟨comma, semicolon⟩ c hc
        rw [Metric.isGroupSeparator, Bool.or_eq_false_iff, beq_eq_false_iff_ne,
          beq_eq_false_iff_ne]
        exact ⟨fun h => semicolon (h ▸ hc), fun h => comma (h ▸ hc)⟩
    calc t.metrics.map (·.readBack .eventList) = t.metrics
        ↔ ∀ m ∈ t.metrics, m.readBack .eventList = m := by
          rw [← List.map_inj_left, List.map_id']
      _ ↔ ∀ m ∈ t.metrics, ∀ g ∈ m.groups, ',' ∉ g.toList ∧ ';' ∉ g.toList := by
          simp only [Metric.readBack_eventList_eq_iff, separators]

end MetricTable
end PerfFormula
