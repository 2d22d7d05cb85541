import PerfFormula.Proofs.ScannedBlocks

/-!
# Nodes of written YAML

The tokens of a document of texts are read as a node without a fault whose value is the document. A
list or a mapping that is a block ends at its own mark; a list that stands in a mapping ends where
no further item follows, so that the token behind it must not be the mark of an item. No key is the
mark of merging or of a default value, because such a text is not written plain.

Main statements:

* `Yaml.Node.Stands` — whether a node has a document as its value.
* `Yaml.isRead_of_writable`, `Yaml.nodeOf_tokensOf` — the tokens of a document are read as such a
  node.
-/

namespace PerfFormula
namespace Yaml

/-! ## Values -/

namespace Node

/-- Whether a node has no fault, and a document as its value. -/
structure Stands (node : Node) (d : Document) : Prop where
  scalar : node.scalarFault? = none
  faults : node.faults.flatten = []
  document : node.document = d

theorem Stands.value {node : Node} {d : Document} (h : node.Stands d) : node.value = .ok d := by
  have noFault : node.fault? = none := by rw [fault?, h.scalar, h.faults]; rfl
  rw [value_eq_ok noFault, h.document]

theorem flatten_beside {α : Type} {left right : List (List α)} (hleft : left.flatten = [])
    (hright : right.flatten = []) : (beside left right).flatten = [] := by
  fun_induction beside left right with
  | case1 => exact hright
  | case2 => exact hleft
  | case3 a left b right ih =>
    rw [List.flatten_cons, List.append_eq_nil_iff] at hleft hright
    rw [List.flatten_cons, hleft.1, hright.1, ih hleft.2 hright.2]
    rfl

theorem scalarValue_of_style (s : String) :
    scalarValue s.toList (chooseStyle s.toList == .plain) = .ok (.text s) := by
  unfold scalarValue
  split_ifs with plain
  · rw [resolve_text (chooseStyle_plain (beq_iff_eq.1 plain)), String.ofList_toList]
  · rw [String.ofList_toList]

theorem stands_text (s : String) :
    (scalar s.toList (chooseStyle s.toList == .plain)).Stands (.text s) where
  scalar := by simp only [scalarFault?, scalarValue_of_style]
  faults := by simp only [faults, List.flatten_nil]
  document := by
    simp only [document, scalarValue_of_style]
    rfl

/-! ### Lists and mappings -/

/-- Whether nodes have documents as their values, one by one. -/
inductive StandAll : List Node → List Document → Prop
  | nil : StandAll [] []
  | cons {node : Node} {d : Document} {nodes : List Node} {items : List Document}
      (first : node.Stands d) (later : StandAll nodes items) : StandAll (node :: nodes) (d :: items)

theorem StandAll.stands {nodes : List Node} {items : List Document} (h : StandAll nodes items) :
    (list nodes).Stands (.list items) := by
  have parts : nodes.filterMap scalarFault? = [] ∧ (itemFaults nodes).flatten = [] ∧
      documents nodes = items := by
    induction h with
    | nil => exact ⟨rfl, rfl, rfl⟩
    | cons first _ ih =>
      refine ⟨?_, ?_, ?_⟩
      · rw [List.filterMap_cons, first.scalar]
        exact ih.1
      · rw [itemFaults]
        exact flatten_beside first.faults ih.2.1
      · rw [documents, first.document, ih.2.2]
  obtain ⟨scalars, inner, values⟩ := parts
  refine ⟨rfl, ?_, ?_⟩
  · rw [faults, scalars, List.flatten_cons, inner]
    rfl
  · rw [document, values]

/-- Whether keys and values of nodes have those of entries as their values, one by one. -/
inductive StandUnder : List (Node × Node) → List (Document × Document) → Prop
  | nil : StandUnder [] []
  | cons {key : String} {node : Node} {d : Document} {nodes : List (Node × Node)}
      {entries : List (Document × Document)} (isKey : IsKey key.toList) (first : node.Stands d)
      (later : StandUnder nodes entries) :
    StandUnder ((scalar key.toList true, node) :: nodes) ((.text key, d) :: entries)

/-- A key that is written plain is neither the mark of merging nor that of a default value. -/
theorem mark_of_plain {cs : List Char} (plain : chooseStyle cs = .plain) :
    (scalar cs true).isMerge = false ∧ (scalar cs true).asKey = scalar cs true := by
  have typed : isTextByType cs = true := by rw [isTextByType, chooseStyle_plain plain]
  -- a plain text is resolved as a text, and neither of the marks is
  have merge : isTextByType mergeMark = false := by decide +kernel
  have default : isTextByType defaultMark = false := by decide +kernel
  have noMerge : cs ≠ mergeMark := fun same => by simp [same, merge] at typed
  have noDefault : cs ≠ defaultMark := fun same => by simp [same, default] at typed
  simp [isMerge, asKey, noMerge, noDefault]

namespace StandUnder

variable {nodes : List (Node × Node)} {entries : List (Document × Document)}

theorem ofEntries_eq (h : StandUnder nodes entries) : ofEntries nodes = mapping nodes := by
  have own : ∀ e ∈ nodes, e.1.isMerge = false ∧ e.1.asKey = e.1 := by
    induction h with
    | nil => simp
    | cons isKey _ _ ih => exact List.forall_mem_cons.2 ⟨mark_of_plain isKey.plain, ih⟩
  have merges : nodes.filter (fun e => e.1.isMerge) = [] :=
    List.filter_eq_nil_iff.2 fun e he => by simp [(own e he).1]
  have others : nodes.filter (fun e => !e.1.isMerge) = nodes :=
    List.filter_eq_self.2 fun e he => by simp [(own e he).1]
  have keys : nodes.map (fun e => (e.1.asKey, e.2)) = nodes := by
    refine (List.map_congr_left fun e he => ?_).trans (List.map_id nodes)
    rw [(own e he).2]
    rfl
  simp only [ofEntries, List.partition_eq_filter_filter, merges, Function.comp_def, others, keys]
  rfl

theorem stands (h : StandUnder nodes entries) (distinct : (entries.map (·.1)).Nodup) :
    (mapping nodes).Stands (.mapping entries) := by
  have parts : (nodes.flatMap fun e => e.1.keyFault?.toList ++ e.2.scalarFault?.toList) = [] ∧
      (entryFaults nodes).flatten = [] ∧ entryDocuments nodes = entries ∧
      ∀ e ∈ entries, ∃ s, e.1 = .text s := by
    induction h with
    | nil => exact ⟨rfl, rfl, rfl, by simp⟩
    | @cons key node d nodes entries isKey first _ ih =>
      obtain ⟨scalars, inner, values, texts⟩ := ih (by simp at distinct; exact distinct.2)
      have own := stands_text key
      rw [isKey.plain] at own
      refine ⟨?_, ?_, ?_, List.forall_mem_cons.2 ⟨⟨key, rfl⟩, texts⟩⟩
      · rw [List.flatMap_cons, scalars, first.scalar, keyFault?]
        simpa using own.scalar
      · rw [entryFaults]
        exact flatten_beside first.faults inner
      · have keyDocument : (scalar key.toList true).document = .text key := own.document
        rw [entryDocuments, keyDocument, first.document, values]
  obtain ⟨scalars, inner, values, texts⟩ := parts
  -- entries under one key would be joined
  refine ⟨rfl, ?_, ?_⟩
  · rw [faults, scalars, List.flatten_cons, inner]
    rfl
  · rw [document, values, Document.ofEntries_of_distinct texts distinct]

end StandUnder

end Node

/-! ## Reading -/

/-- What a document is written with starts with no token that would leave an entry empty. -/
theorem endsEntry_tokensOf {n : Nat} {d : Document} (writable : Writable n d) (inMapping : Bool)
    (rest : List Token) : endsEntry (!inMapping) (tokensOf inMapping d ++ rest) = false := by
  cases writable with
  | text => rfl
  | @list _ items =>
    cases items with
    | nil => rfl
    | cons item items => cases inMapping <;> rfl
  | @mapping _ entries =>
    cases entries <;> rfl

theorem length_tokensOf_pos {n : Nat} {d : Document} (writable : Writable n d) (inMapping : Bool) :
    0 < (tokensOf inMapping d).length := by
  refine List.length_pos_iff.2 fun nothing => ?_
  have starts := endsEntry_tokensOf writable inMapping []
  rw [nothing] at starts
  cases starts

theorem readItems_item {fuel : Nat} {tokens : List Token} (some : endsEntry true tokens = false) :
    readItems (fuel + 1) (.entry :: tokens) = do
      let (item, rest) ← readNode true false fuel tokens
      let (items, rest) ← readItems fuel rest
      return (item :: items, rest) := by
  rw [readItems]
  · intro more same
    rw [same] at some
    cases some
  · intro more same
    rw [same] at some
    cases some

theorem readInnerItems_item {fuel : Nat} {tokens : List Token}
    (some : endsEntry true tokens = false) :
    readInnerItems (fuel + 1) (.entry :: tokens) = do
      let (item, rest) ← readNode true false fuel tokens
      let (items, rest) ← readInnerItems fuel rest
      return (item :: items, rest) := by
  rw [readInnerItems, some]
  rfl

theorem readInnerItems_end {fuel : Nat} {tokens : List Token}
    (last : tokens.head? ≠ some .entry) : readInnerItems (fuel + 1) tokens = .ok ([], tokens) := by
  rw [readInnerItems]
  rintro more rfl
  exact last rfl

/-- Whether the tokens of a document are read as a node of it, both inside a mapping, where the next
token must not be the mark of an item, and elsewhere. -/
structure IsRead (node : Node) (d : Document) : Prop where
  stands : node.Stands d
  reads : ∀ (inMapping : Bool) (fuel : Nat) (rest : List Token),
    2 * (tokensOf inMapping d).length ≤ fuel → (inMapping = true → rest.head? ≠ some .entry) →
    readNode true inMapping fuel (tokensOf inMapping d ++ rest) = .ok (node, rest)

/-- The items of a list are read, with the end of its block or without. -/
theorem readItems_itemTokens {n : Nat} {items : List Document}
    (writable : ∀ d ∈ items, Writable n d) (parts : ∀ d ∈ items, ∃ node, IsRead node d) :
    ∃ nodes, Node.StandAll nodes items ∧
      (∀ fuel rest, 2 * (itemTokens items).length < fuel →
        readItems fuel (itemTokens items ++ .blockEnd :: rest) = .ok (nodes, rest)) ∧
      ∀ fuel rest, 2 * (itemTokens items).length ≤ fuel + 1 → 0 < fuel →
        rest.head? ≠ some .entry →
        readInnerItems fuel (itemTokens items ++ rest) = .ok (nodes, rest) := by
  induction items with
  | nil =>
    refine ⟨[], .nil, ?_, ?_⟩
    · intro fuel rest enough
      obtain ⟨fuel, rfl⟩ := Nat.exists_eq_succ_of_ne_zero (by omega : fuel ≠ 0)
      rfl
    · intro fuel rest _ positive last
      obtain ⟨fuel, rfl⟩ := Nat.exists_eq_succ_of_ne_zero (by omega : fuel ≠ 0)
      exact readInnerItems_end last
  | cons item items ih =>
    obtain ⟨nodes, standAll, inBlock, inMapping⟩ :=
      ih (fun d hd => writable d (List.mem_cons_of_mem _ hd))
        fun d hd => parts d (List.mem_cons_of_mem _ hd)
    obtain ⟨node, stands, reads⟩ := parts item List.mem_cons_self
    have starts := endsEntry_tokensOf (writable item List.mem_cons_self) false
    have positive := length_tokensOf_pos (writable item List.mem_cons_self) false
    have length : (itemTokens (item :: items)).length =
        1 + (tokensOf false item).length + (itemTokens items).length := by
      simp [itemTokens]
      omega
    -- the items are read alike; only what ends the list differs
    refine ⟨node :: nodes, .cons stands standAll, ?_, ?_⟩
    · intro fuel rest enough
      obtain ⟨fuel, rfl⟩ := Nat.exists_eq_succ_of_ne_zero (by omega : fuel ≠ 0)
      have first := reads false fuel (itemTokens items ++ .blockEnd :: rest) (by omega) (by simp)
      have later := inBlock fuel rest (by omega)
      rw [itemTokens, List.cons_append, List.cons_append, List.append_assoc,
        readItems_item (starts _), first]
      simp only [bind, Except.bind, later]
      rfl
    · intro fuel rest enough _ last
      obtain ⟨fuel, rfl⟩ := Nat.exists_eq_succ_of_ne_zero (by omega : fuel ≠ 0)
      have first := reads false fuel (itemTokens items ++ rest) (by omega) (by simp)
      have later := inMapping fuel rest (by omega) (by omega) last
      rw [itemTokens, List.cons_append, List.cons_append, List.append_assoc,
        readInnerItems_item (starts _), first]
      simp only [bind, Except.bind, later]
      rfl

theorem readPart_some {fuel : Nat} {tokens : List Token} (some : endsEntry false tokens = false) :
    readPart (fuel + 1) tokens = readNode true true fuel tokens := by
  rw [readPart, some]
  rfl

/-- The entries of a mapping are read, with the end of its block. -/
theorem readEntries_entryTokens {n : Nat} {entries : List (Document × Document)}
    (named : ∀ e ∈ entries, ∃ s, e.1 = .text s ∧ IsKey s.toList)
    (writable : ∀ e ∈ entries, Writable n e.2)
    (values : ∀ e ∈ entries, ∃ node, IsRead node e.2) :
    ∃ nodes, Node.StandUnder nodes entries ∧
      ∀ fuel rest, 2 * (entryTokens entries).length < fuel →
        readEntries fuel (entryTokens entries ++ .blockEnd :: rest) = .ok (nodes, rest) := by
  induction entries with
  | nil =>
    refine ⟨[], .nil, fun fuel rest enough => ?_⟩
    obtain ⟨fuel, rfl⟩ := Nat.exists_eq_succ_of_ne_zero (by omega : fuel ≠ 0)
    rfl
  | cons e entries ih =>
    obtain ⟨key, value⟩ := e
    obtain ⟨s, hkey, isKey⟩ := named _ List.mem_cons_self
    obtain rfl : key = .text s := hkey
    obtain ⟨nodes, standUnder, later⟩ :=
      ih (fun e he => named e (List.mem_cons_of_mem _ he))
        (fun e he => writable e (List.mem_cons_of_mem _ he))
        fun e he => values e (List.mem_cons_of_mem _ he)
    obtain ⟨node, stands, reads⟩ := values _ List.mem_cons_self
    have starts := endsEntry_tokensOf (writable _ List.mem_cons_self) true
    refine ⟨_ :: nodes, .cons isKey stands standUnder, fun fuel rest enough => ?_⟩
    have shown : entryTokens ((.text s, value) :: entries) ++ .blockEnd :: rest =
        .key :: .scalar s.toList true :: .value :: (tokensOf true value ++
          (entryTokens entries ++ .blockEnd :: rest)) := by
      simp [entryTokens, tokensOf, isKey.plain]
    have length : (entryTokens ((.text s, value) :: entries)).length =
        3 + (tokensOf true value).length + (entryTokens entries).length := by
      simp [entryTokens, tokensOf]
      omega
    obtain ⟨fuel, rfl⟩ := Nat.exists_eq_add_of_le (by omega : 3 ≤ fuel)
    -- what follows an entry is a key or the end of the mapping
    have next : (entryTokens entries ++ .blockEnd :: rest).head? ≠ some .entry := by
      cases entries with
      | nil => simp [entryTokens]
      | cons e entries => simp [entryTokens]
    have enough' : 2 * (tokensOf true value).length ≤ fuel + 1 := by omega
    have first := reads true (fuel + 1) (entryTokens entries ++ .blockEnd :: rest) enough'
      fun _ => next
    rw [← readPart_some (starts _)] at first
    have others := later (fuel + 2) rest (by omega)
    have ownKey : readPart (fuel + 2) (.scalar s.toList true :: .value :: (tokensOf true value ++
        (entryTokens entries ++ .blockEnd :: rest))) = .ok (.scalar s.toList true, .value ::
          (tokensOf true value ++ (entryTokens entries ++ .blockEnd :: rest))) := rfl
    rw [shown, Nat.add_comm, readEntries, ownKey]
    simp only [bind, Except.bind]
    rw [first]
    simp only [others]
    rfl

theorem isRead_text (s : String) : ∃ node, IsRead node (.text s) := by
  refine ⟨_, Node.stands_text s, fun inMapping fuel rest enough _ => ?_⟩
  obtain ⟨fuel, rfl⟩ := Nat.exists_eq_add_of_le enough
  rw [Nat.add_comm]
  rfl

theorem isRead_list {n : Nat} {items : List Document} (writable : ∀ d ∈ items, Writable n d)
    (parts : ∀ d ∈ items, ∃ node, IsRead node d) : ∃ node, IsRead node (.list items) := by
  obtain ⟨nodes, standAll, inBlock, inMapping⟩ := readItems_itemTokens writable parts
  refine ⟨.list nodes, standAll.stands, fun isInner fuel rest enough last => ?_⟩
  cases items with
  | nil =>
    cases standAll
    obtain ⟨fuel, rfl⟩ := Nat.exists_eq_add_of_le enough
    rw [Nat.add_comm]
    rfl
  | cons item items =>
    cases isInner with
    | true =>
      have shown : tokensOf true (.list (item :: items)) = itemTokens (item :: items) := by
        simp [tokensOf]
      rw [shown] at enough ⊢
      have some : 0 < (itemTokens (item :: items)).length := by simp [itemTokens]
      obtain ⟨fuel, rfl⟩ := Nat.exists_eq_succ_of_ne_zero (by omega : fuel ≠ 0)
      -- the items end where no mark follows, so that nothing is left of the tokens of the list
      have inner := inMapping fuel rest (by omega) (by omega) (last rfl)
      rw [itemTokens, List.cons_append, List.cons_append] at inner ⊢
      rw [readNode, if_pos rfl, inner]
      rfl
    | false =>
      have shown : tokensOf false (.list (item :: items)) ++ rest =
          .blockList :: (itemTokens (item :: items) ++ .blockEnd :: rest) := by
        simp [tokensOf]
      have length : (tokensOf false (.list (item :: items))).length =
          (itemTokens (item :: items)).length + 2 := by
        simp [tokensOf]
      obtain ⟨fuel, rfl⟩ := Nat.exists_eq_succ_of_ne_zero (by omega : fuel ≠ 0)
      have inner := inBlock fuel rest (by omega)
      rw [shown, readNode, if_pos rfl, inner]
      rfl

theorem isRead_mapping {n : Nat} {entries : List (Document × Document)}
    (named : ∀ e ∈ entries, ∃ s, e.1 = .text s ∧ IsKey s.toList)
    (distinct : (entries.map (·.1)).Nodup) (writable : ∀ e ∈ entries, Writable n e.2)
    (values : ∀ e ∈ entries, ∃ node, IsRead node e.2) : ∃ node, IsRead node (.mapping entries) := by
  obtain ⟨nodes, standUnder, read⟩ := readEntries_entryTokens named writable values
  refine ⟨.mapping nodes, standUnder.stands distinct, fun isInner fuel rest enough last => ?_⟩
  cases entries with
  | nil =>
    cases standUnder
    obtain ⟨fuel, rfl⟩ := Nat.exists_eq_add_of_le enough
    rw [Nat.add_comm]
    rfl
  | cons entry entries =>
    have shown : tokensOf isInner (.mapping (entry :: entries)) ++ rest =
        .blockMapping :: (entryTokens (entry :: entries) ++ .blockEnd :: rest) := by
      simp [tokensOf]
    have length : (tokensOf isInner (.mapping (entry :: entries))).length =
        (entryTokens (entry :: entries)).length + 2 := by
      simp [tokensOf]
    obtain ⟨fuel, rfl⟩ := Nat.exists_eq_succ_of_ne_zero (by omega : fuel ≠ 0)
    have inner := read fuel rest (by omega)
    rw [shown, readNode, if_pos rfl, inner]
    -- no key asks for other entries to be merged
    simp only [Except.map, standUnder.ofEntries_eq]

/-- The tokens of a document of texts are read as a node with the document as its value. -/
theorem isRead_of_writable {n : Nat} {d : Document} (h : Writable n d) :
    ∃ node, IsRead node d := by
  induction h with
  | text n s => exact isRead_text s
  | list writable ih => exact isRead_list writable ih
  | mapping named distinct writable ih => exact isRead_mapping named distinct writable ih

theorem nodeOf_tokensOf {n : Nat} {d : Document} (h : Writable n d) :
    ∃ node, node.Stands d ∧ nodeOf (tokensOf false d) = .ok node := by
  obtain ⟨node, stands, reads⟩ := isRead_of_writable h
  refine ⟨node, stands, ?_⟩
  have read := reads false (2 * (tokensOf false d).length + 2) [] (by omega) (by simp)
  rw [List.append_nil] at read
  have last : readLast (2 * (tokensOf false d).length + 2) (tokensOf false d) = .ok node := by
    rw [readLast, read]
    rfl
  rw [← last]
  -- no document starts with the mark that may stand in front of one
  cases h with
  | text => rfl
  | @list _ items => cases items <;> rfl
  | @mapping _ entries => cases entries <;> rfl

end Yaml
end PerfFormula
