import PerfFormula.Proofs.ScannedTokens
import PerfFormula.Proofs.TextDocuments

/-!
# Blocks of written YAML

The tokens of a whole document, by its parts. What follows the colon of a key, or the dash of an
item, has to be read with the tokens of the value and nothing of what comes behind it, whichever
column that is in: so much is proved of a document from the same about its parts, in one induction
over the document.

Main statements:

* `Yaml.tokensOf` — the tokens that a document is written with.
* `Yaml.Writable` — documents of texts with plain keys, and of a limited height.
* `Yaml.scanned_of_writable` — the values and items of such documents are read as their tokens.
* `Yaml.readAll_writeEntries` — a mapping is read as its tokens.
-/

namespace PerfFormula
namespace Yaml

/-! ## Documents and their tokens -/

/-- Documents of texts whose keys are written in one word each, at most `n` lists and mappings one
inside the other. -/
abbrev Writable (n : Nat) (d : Document) : Prop := d.Textual (fun s => IsKey s.toList) n

mutual

/-- The tokens of a document. A list that stands in a mapping is no block of its own. -/
def tokensOf (inMapping : Bool) : Document → List Token
  | .text s => [.scalar s.toList (chooseStyle s.toList == .plain)]
  | .list [] => [.flowList, .flowListEnd]
  | .mapping [] => [.flowMapping, .flowMappingEnd]
  | .list items =>
    if inMapping then itemTokens items else .blockList :: itemTokens items ++ [.blockEnd]
  | .mapping entries => .blockMapping :: entryTokens entries ++ [.blockEnd]
  | _ => []

/-- The tokens of the items of a list. -/
def itemTokens : List Document → List Token
  | [] => []
  | item :: rest => .entry :: tokensOf false item ++ itemTokens rest

/-- The tokens of the entries of a mapping. -/
def entryTokens : List (Document × Document) → List Token
  | [] => []
  | (key, value) :: rest =>
    .key :: tokensOf false key ++ .value :: tokensOf true value ++ entryTokens rest

end

namespace Scanner

/-- Whether `shown`, which starts at the column `k` inside a block at the column `b`, is read as
some tokens, up to a token behind it that is indented no further than the block. -/
def Scans (b k : Nat) (keyAllowed : Bool) (shown : List Char) (ts : List Token) : Prop :=
  ∀ (rest : List Char) (n : Nat), Margin rest → n ≤ b →
    ∀ (l i : Nat) (tokens : List Token) (blocks : List Nat),
      Reaches (idle ⟨shown ++ '\n' :: (List.replicate n ' ' ++ rest), l, k, i⟩ tokens (b :: blocks)
        keyAllowed) rest n (ts.reverse ++ tokens) (b :: blocks)

/-! ## Texts and what has no parts -/

theorem head_writeText (indent column : Nat) (cs tail : List Char) :
    ∀ c ∈ (writeText indent column cs ++ '\n' :: tail).head?, isGap c = false ∧ c ≠ '#' := by
  cases style : chooseStyle cs with
  | plain =>
    obtain ⟨word, g, more, shown, -, ne, solid, start⟩ :=
      firstWord_of_plain style indent column tail
    obtain ⟨d, word, rfl⟩ := List.exists_cons_of_ne_nil ne
    rw [shown]
    exact forall_head ⟨solid d List.mem_cons_self, ne_numberSign_of_start start⟩
  | singleQuoted =>
    rw [writeText, style]
    exact forall_head (by decide)
  | doubleQuoted =>
    rw [writeText, style]
    exact forall_head (by decide)

section

variable {b k : Nat} {a : Bool} {shown : List Char} {ts : List Token}

/-- A space in front of what is read. -/
theorem scans_space (head : ∀ tail, ∀ c ∈ (shown ++ '\n' :: tail).head?, isGap c = false ∧ c ≠ '#')
    (inside : b ≤ k) (reads : Scans b (k + 1) a shown ts) : Scans b k a (' ' :: shown) ts := by
  intro rest n margin outer l i tokens blocks
  refine .of_leads (leads_of_space (head _) (forall_head inside) l i tokens a) ?_
  exact reads rest n margin outer l (i + 1) tokens blocks

/-- A new line in front of what is read. -/
theorem scans_newLine {m : Nat} (starts : ∀ tail, Margin (shown ++ tail)) (inside : b ≤ m)
    (reads : Scans b m true shown ts) : Scans b k false (newLine m ++ shown) ts := by
  intro rest n margin outer l i tokens blocks
  let s : Scanner := idle ⟨newLine m ++ shown ++ '\n' :: (List.replicate n ' ' ++ rest), l, k, i⟩
    tokens (b :: blocks) false
  have place : s.cursor = ⟨'\n' :: (List.replicate m ' ' ++
      (shown ++ '\n' :: (List.replicate n ' ' ++ rest))), l, k, i⟩ := by
    simp [s, idle, newLine]
  have line : Reaches s _ m tokens (b :: blocks) :=
    reaches_of_lineFeed (starts _) place rfl rfl (by simp)
  exact line.goOn (forall_head inside) fun l i => reads rest n margin outer l i tokens blocks

theorem scans_text (inside : b ≤ k) (narrow : b + 2 < lineWidth) (cs : List Char)
    (column : Nat) (a : Bool) :
    Scans b k a (' ' :: writeText (b + 2) column cs)
      [.scalar cs (chooseStyle cs == .plain)] := by
  refine scans_space (head_writeText (b + 2) column cs) inside ?_
  intro rest n margin outer l i tokens blocks
  exact reaches_text margin outer (Nat.lt_succ_of_le inside) (Nat.lt_add_of_pos_right (by decide))
    narrow cs column l i tokens blocks a

theorem scans_brackets {opening closing : Char} {t t' : Token}
    (brackets : Brackets opening closing t t') (inside : b ≤ k) (a : Bool) :
    Scans b k a [' ', opening, closing] [t, t'] := by
  have head (tail : List Char) : ∀ c ∈ ([opening, closing] ++ '\n' :: tail).head?,
      isGap c = false ∧ c ≠ '#' :=
    forall_head ⟨brackets.solid.1, brackets.solid.2.1⟩
  refine scans_space head inside ?_
  intro rest n margin outer l i tokens blocks
  exact reaches_brackets brackets margin (Nat.lt_succ_of_le inside) l i tokens blocks a

end

/-! ## Items -/

theorem writeItem_space (indent : Nat) (d : Document) :
    ∃ more, writeItem indent d = ' ' :: more := by
  unfold writeItem
  split <;> exact ⟨_, rfl⟩

theorem writeItems_cons_cons (indent : Nat) (item next : Document) (others : List Document)
    (tail : List Char) : writeItems indent (item :: next :: others) ++ tail =
      '-' :: (writeItem indent item ++
        '\n' :: (List.replicate indent ' ' ++ (writeItems indent (next :: others) ++ tail))) := by
  simp [writeItems, newLine]

theorem writeItems_dash (indent : Nat) {items : List Document} (some : items ≠ [])
    (tail : List Char) : ∃ more, writeItems indent items ++ tail = '-' :: ' ' :: more := by
  match items with
  | [item] =>
    obtain ⟨more, shown⟩ := writeItem_space indent item
    exact ⟨_, by rw [writeItems, shown]; rfl⟩
  | item :: next :: others =>
    obtain ⟨more, shown⟩ := writeItem_space indent item
    exact ⟨_, by rw [writeItems_cons_cons, shown]; rfl⟩

theorem margin_writeItems (indent : Nat) {items : List Document} (some : items ≠ [])
    (tail : List Char) : Margin (writeItems indent items ++ tail) := by
  obtain ⟨more, shown⟩ := writeItems_dash indent some tail
  rw [shown]
  exact ⟨forall_head (by decide), by simp, by simp⟩

section

variable {rest : List Char} {n c : Nat}

/-- The mark of an item and the item behind it, up to the next token. -/
theorem reaches_item {item : Document}
    (itemScans : Scans c (c + 1) true (writeItem c item) (tokensOf false item))
    (margin : Margin rest) (outer : n ≤ c) {blocks blocks' : List Nat} {opening : List Token}
    (opens : Opens .blockList c blocks opening (c :: blocks')) (l i : Nat) (tokens : List Token) :
    Reaches (idle ⟨'-' :: (writeItem c item ++ '\n' :: (List.replicate n ' ' ++ rest)), l, c, i⟩
        tokens blocks true) rest n
      ((tokensOf false item).reverse ++ .entry :: (opening ++ tokens)) (c :: blocks') := by
  have read := itemScans rest n margin outer l (i + 1) (.entry :: (opening ++ tokens)) blocks'
  obtain ⟨more, shown⟩ := writeItem_space c item
  rw [shown, List.cons_append] at read ⊢
  exact .of_leads (leads_entry opens _ l i tokens) read

/-- Items are read one after the other. The first may open the block of their list. -/
theorem reaches_items (margin : Margin rest) (outer : n ≤ c) {items : List Document}
    (some : items ≠ [])
    (parts : ∀ d ∈ items, Scans c (c + 1) true (writeItem c d) (tokensOf false d))
    {blocks blocks' : List Nat} {opening : List Token}
    (opens : Opens .blockList c blocks opening (c :: blocks')) (l i : Nat) (tokens : List Token) :
    Reaches (idle ⟨writeItems c items ++ '\n' :: (List.replicate n ' ' ++ rest), l, c, i⟩ tokens
        blocks true) rest n ((itemTokens items).reverse ++ (opening ++ tokens)) (c :: blocks') := by
  match items with
  | [item] =>
    have read := reaches_item (parts item List.mem_cons_self) margin outer opens l i tokens
    simpa [itemTokens, writeItems] using read
  | item :: next :: others =>
    have nextMargin := margin_writeItems c (List.cons_ne_nil next others)
      ('\n' :: (List.replicate n ' ' ++ rest))
    have read := reaches_item (parts item List.mem_cons_self) nextMargin (Nat.le_refl c) opens l i
      tokens
    rw [writeItems_cons_cons]
    -- the next mark is in the column of the list, which therefore stays open
    refine read.goOn (forall_head (Nat.le_refl c)) fun l i => ?_
    have later := reaches_items margin outer (List.cons_ne_nil next others)
      (fun d hd => parts d (List.mem_cons_of_mem _ hd)) (.inside blocks') l i
      ((tokensOf false item).reverse ++ .entry :: (opening ++ tokens))
    simpa [itemTokens] using later

end

/-! ## Entries -/

theorem writeValue_gap (indent column : Nat) (d : Document) (tail : List Char) :
    (writeValue indent column d ++ tail).head?.all isGap = true := by
  unfold writeValue
  split <;> rfl

/-- A key of an entry, its colon and its value as they are written. -/
theorem writeEntries_cons_cons {key : String} (isKey : IsKey key.toList) (indent : Nat)
    (value : Document) (next : Document × Document) (others : List (Document × Document))
    (tail : List Char) : writeEntries indent ((.text key, value) :: next :: others) ++ tail =
      key.toList ++ ':' :: (writeValue indent (indent + key.toList.length) value ++
        '\n' :: (List.replicate indent ' ' ++ (writeEntries indent (next :: others) ++ tail))) := by
  simp [writeEntries, newLine, writeScalar, isKey.writeText_eq]

theorem writeEntries_singleton {key : String} (isKey : IsKey key.toList) (indent : Nat)
    (value : Document) (tail : List Char) : writeEntries indent [(.text key, value)] ++ tail =
      key.toList ++ ':' :: (writeValue indent (indent + key.toList.length) value ++ tail) := by
  simp [writeEntries, writeScalar, isKey.writeText_eq]

theorem writeEntries_key (indent : Nat) {entries : List (Document × Document)}
    (some : entries ≠ []) (named : ∀ e ∈ entries, ∃ s, e.1 = .text s ∧ IsKey s.toList)
    (tail : List Char) :
    ∃ key more, IsKey key ∧ writeEntries indent entries ++ tail = key ++ ':' :: more := by
  match entries with
  | [(key, value)] =>
    obtain ⟨s, rfl, isKey⟩ := named _ List.mem_cons_self
    exact ⟨s.toList, _, isKey, writeEntries_singleton isKey indent value tail⟩
  | (key, value) :: next :: others =>
    obtain ⟨s, rfl, isKey⟩ := named _ List.mem_cons_self
    exact ⟨s.toList, _, isKey, writeEntries_cons_cons isKey indent value next others tail⟩

theorem margin_writeEntries (indent : Nat) {entries : List (Document × Document)}
    (some : entries ≠ []) (named : ∀ e ∈ entries, ∃ s, e.1 = .text s ∧ IsKey s.toList)
    (tail : List Char) : Margin (writeEntries indent entries ++ tail) := by
  obtain ⟨key, more, isKey, shown⟩ := writeEntries_key indent some named tail
  rw [shown]
  exact isKey.margin more

section

variable {rest : List Char} {n c : Nat}

/-- A key and its value, up to the next token. -/
theorem reaches_entry {key : String} (isKey : IsKey key.toList) {value : Document}
    (valueScans : ∀ k column, c ≤ k →
      Scans c k false (writeValue c column value) (tokensOf true value))
    (margin : Margin rest) (outer : n ≤ c) {blocks blocks' : List Nat} {opening : List Token}
    (opens : Opens .blockMapping c blocks opening (c :: blocks')) (column l i : Nat)
    (tokens : List Token) :
    Reaches (idle ⟨key.toList ++ ':' :: (writeValue c column value ++
        '\n' :: (List.replicate n ' ' ++ rest)), l, c, i⟩ tokens blocks true) rest n
      ((tokensOf true value).reverse ++
        .value :: .scalar key.toList true :: .key :: (opening ++ tokens)) (c :: blocks') := by
  have gap := writeValue_gap c column value ('\n' :: (List.replicate n ' ' ++ rest))
  refine .of_leads (leads_key isKey gap opens l i tokens) ?_
  have behind : c ≤ c + key.toList.length + 1 := Nat.le_add_right_of_le (Nat.le_add_right c _)
  exact valueScans _ column behind rest n margin outer l _ _ blocks'

/-- Entries are read one after the other. The first may open the block of their mapping. -/
theorem reaches_entries (margin : Margin rest) (outer : n ≤ c)
    {entries : List (Document × Document)} (some : entries ≠ [])
    (named : ∀ e ∈ entries, ∃ s, e.1 = .text s ∧ IsKey s.toList)
    (values : ∀ e ∈ entries, ∀ k column, c ≤ k →
      Scans c k false (writeValue c column e.2) (tokensOf true e.2))
    {blocks blocks' : List Nat} {opening : List Token}
    (opens : Opens .blockMapping c blocks opening (c :: blocks')) (l i : Nat)
    (tokens : List Token) :
    Reaches (idle ⟨writeEntries c entries ++ '\n' :: (List.replicate n ' ' ++ rest), l, c, i⟩ tokens
        blocks true) rest n ((entryTokens entries).reverse ++ (opening ++ tokens))
      (c :: blocks') := by
  match entries with
  | [(key, value)] =>
    obtain ⟨s, rfl, isKey⟩ := named _ List.mem_cons_self
    have read := reaches_entry isKey (values _ List.mem_cons_self) margin outer opens
      (c + s.toList.length) l i tokens
    rw [writeEntries_singleton isKey]
    simpa [entryTokens, tokensOf, isKey.plain] using read
  | (key, value) :: next :: others =>
    obtain ⟨s, rfl, isKey⟩ := named _ List.mem_cons_self
    have nextMargin := margin_writeEntries c (List.cons_ne_nil next others)
      (fun e he => named e (List.mem_cons_of_mem _ he)) ('\n' :: (List.replicate n ' ' ++ rest))
    have read := reaches_entry isKey (values _ List.mem_cons_self) nextMargin (Nat.le_refl c) opens
      (c + s.toList.length) l i tokens
    rw [writeEntries_cons_cons isKey]
    -- the next key is in the column of the mapping, which therefore stays open
    refine read.goOn (forall_head (Nat.le_refl c)) fun l i => ?_
    have later := reaches_entries margin outer (List.cons_ne_nil next others)
      (fun e he => named e (List.mem_cons_of_mem _ he))
      (fun e he => values e (List.mem_cons_of_mem _ he)) (.inside blocks') l i
      ((tokensOf true value).reverse ++
        .value :: .scalar s.toList true :: .key :: (opening ++ tokens))
    simpa [entryTokens, tokensOf, isKey.plain] using later

end

/-! ## Documents -/

/-- Whether the values and the items that a document is written as are read as its tokens, where
there is space for `n` more indentations. -/
structure Scanned (n : Nat) (d : Document) : Prop where
  value : ∀ b k column, b + 2 * n + 2 < lineWidth → b ≤ k →
    Scans b k false (writeValue b column d) (tokensOf true d)
  item : ∀ b, b + 2 * n + 2 < lineWidth →
    Scans b (b + 1) true (writeItem b d) (tokensOf false d)

theorem scanned_text (n : Nat) (s : String) : Scanned n (.text s) where
  value b k column narrow inside :=
    scans_text inside (by omega) s.toList (column + 2) false
  item b narrow := scans_text (Nat.le_succ b) (by omega) s.toList (b + 2) true

section

variable {b n : Nat}

theorem opens_deeper (t : Token) (b : Nat) (blocks : List Nat) :
    Opens t (b + 2) (b :: blocks) [t] ((b + 2) :: b :: blocks) :=
  .deeper (forall_head (Nat.lt_add_of_pos_right (by decide)))

/-- A list as a block of its own. -/
theorem scans_listBlock {items : List Document} (some : items ≠ [])
    (parts : ∀ d ∈ items, Scans (b + 2) (b + 2 + 1) true (writeItem (b + 2) d)
      (tokensOf false d)) :
    Scans b (b + 2) true (writeItems (b + 2) items)
      (.blockList :: itemTokens items ++ [.blockEnd]) := by
  intro rest n margin outer l i tokens blocks
  have read := reaches_items margin (Nat.le_add_right_of_le outer) some parts
    (opens_deeper .blockList b blocks) l i tokens
  -- whatever follows is further to the left and closes the list
  simpa using read.close (by omega)

/-- A mapping, which is always a block of its own. -/
theorem scans_mappingBlock {entries : List (Document × Document)} (some : entries ≠ [])
    (named : ∀ e ∈ entries, ∃ s, e.1 = .text s ∧ IsKey s.toList)
    (values : ∀ e ∈ entries, ∀ k column, b + 2 ≤ k →
      Scans (b + 2) k false (writeValue (b + 2) column e.2) (tokensOf true e.2)) :
    Scans b (b + 2) true (writeEntries (b + 2) entries)
      (.blockMapping :: entryTokens entries ++ [.blockEnd]) := by
  intro rest n margin outer l i tokens blocks
  have read := reaches_entries margin (Nat.le_add_right_of_le outer) some named values
    (opens_deeper .blockMapping b blocks) l i tokens
  simpa using read.close (by omega)

end

theorem scanned_list {n : Nat} {items : List Document} (parts : ∀ d ∈ items, Scanned n d) :
    Scanned (n + 1) (.list items) := by
  cases items with
  | nil =>
    exact ⟨fun b k _ _ inside => scans_brackets .square inside false,
      fun b _ => scans_brackets .square (Nat.le_succ b) true⟩
  | cons item others =>
    have some : item :: others ≠ [] := List.cons_ne_nil item others
    constructor
    · -- the items stand in the column of the key, without a block of their own
      intro b k column narrow inside
      refine scans_newLine (margin_writeItems b some) (Nat.le_refl b) ?_
      intro rest n margin outer l i tokens blocks
      exact reaches_items margin outer some (fun d hd => (parts d hd).item b (by omega))
        (.inside blocks) l i tokens
    · intro b narrow
      refine scans_space (fun tail => (margin_writeItems (b + 2) some _).head) (Nat.le_succ b) ?_
      exact scans_listBlock some fun d hd => (parts d hd).item (b + 2) (by omega)

theorem scanned_mapping {n : Nat} {entries : List (Document × Document)}
    (named : ∀ e ∈ entries, ∃ s, e.1 = .text s ∧ IsKey s.toList)
    (values : ∀ e ∈ entries, Scanned n e.2) : Scanned (n + 1) (.mapping entries) := by
  cases entries with
  | nil =>
    exact ⟨fun b k _ _ inside => scans_brackets .curly inside false,
      fun b _ => scans_brackets .curly (Nat.le_succ b) true⟩
  | cons entry others =>
    have some : entry :: others ≠ [] := List.cons_ne_nil entry others
    have block (b : Nat) (narrow : b + 2 * (n + 1) + 2 < lineWidth) :=
      scans_mappingBlock some named fun e he k column inside =>
        (values e he).value (b + 2) k column (by omega) inside
    constructor
    -- a value starts on the next line, an item on the line of its dash
    · intro b k column narrow inside
      exact scans_newLine (margin_writeEntries (b + 2) some named) (Nat.le_add_right b 2)
        (block b narrow)
    · intro b narrow
      exact scans_space (fun tail => (margin_writeEntries (b + 2) some named _).head)
        (Nat.le_succ b) (block b narrow)

end Scanner

/-- The values and the items of documents of texts are read as their tokens. -/
theorem scanned_of_writable {n : Nat} {d : Document} (h : Writable n d) :
    Scanner.Scanned n d := by
  induction h with
  | text n s => exact Scanner.scanned_text n s
  | list _ ih => exact Scanner.scanned_list ih
  | mapping named _ _ ih => exact Scanner.scanned_mapping named ih

/-! ## Whole documents -/

theorem start_of_plainAscii {c : Char} (h : isPlainAscii c = true) (cs : List Char) :
    Cursor.start (c :: cs) = ⟨c :: cs, 0, 0, 0⟩ := by
  unfold Cursor.start
  split
  · next heq =>
    rw [(List.cons.inj heq).1] at h
    exact absurd h (by decide)
  · rfl

/-- A mapping is read as its tokens. -/
theorem readAll_writeEntries {n : Nat} {entries : List (Document × Document)} (some : entries ≠ [])
    (named : ∀ e ∈ entries, ∃ s, e.1 = .text s ∧ IsKey s.toList)
    (values : ∀ e ∈ entries, Writable n e.2) (narrow : 2 * n + 2 < lineWidth) :
    Scanner.readAll ((writeEntries 0 entries ++ ['\n']).length + 1)
        (.start (writeEntries 0 entries ++ ['\n'])) =
      .ok (tokensOf false (.mapping entries)) := by
  have nothing : Margin [] := ⟨by simp, by simp, by simp⟩
  have opens : Scanner.Opens .blockMapping 0 [] [.blockMapping] [0] := .deeper (by simp)
  have scans : ∀ e ∈ entries, ∀ k column, 0 ≤ k →
      Scanner.Scans 0 k false (writeValue 0 column e.2) (tokensOf true e.2) :=
    fun e he k column inside =>
      (scanned_of_writable (values e he)).value 0 k column (by omega) inside
  obtain ⟨l, i, leads⟩ :=
    Scanner.reaches_entries nothing (Nat.le_refl 0) some named scans opens 0 0 []
  -- at the end of the text the mapping is closed
  have ends : (Scanner.idle ⟨[], l, 0, i⟩ ((entryTokens entries).reverse ++ [.blockMapping]) [0]
      true).Yields (tokensOf false (.mapping entries)) := by
    intro fuel enough
    obtain ⟨fuel, rfl⟩ := Nat.exists_eq_succ_of_ne_zero (by omega : fuel ≠ 0)
    have optional : ∀ k ∈ (none : Option Candidate), k.required = false := by simp
    obtain ⟨entry, others, rfl⟩ := List.exists_cons_of_ne_nil some
    rw [Scanner.readAll_end rfl rfl rfl optional]
    simp [Scanner.idle, tokensOf]
  have inner : ∀ b ∈ [0].head?, b ≤ 0 := forall_head (Nat.le_refl 0)
  rw [Scanner.closeBlocks_of_head (.inr inner)] at leads
  obtain ⟨key, more, isKey, shown⟩ := Scanner.writeEntries_key 0 some named ['\n']
  obtain ⟨c, key, rfl⟩ := List.exists_cons_of_ne_nil isKey.isRun.ne
  -- no byte order mark is in front of the first key
  have start : Scanner.start (writeEntries 0 entries ++ ['\n']) =
      Scanner.idle ⟨writeEntries 0 entries ++ ['\n'], 0, 0, 0⟩ [] [] true := by
    rw [Scanner.start, shown, List.cons_append,
      start_of_plainAscii (isKey.ascii c List.mem_cons_self)]
    rfl
  rw [start]
  exact leads _ ends _ (Nat.lt_succ_self _)

end Yaml
end PerfFormula
