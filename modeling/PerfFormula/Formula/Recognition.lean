import PerfFormula.Formula.Derivation

/-!
# Recognition of formulas

Every construct of the grammar is read by its parser, with the tree of its derivation, provided that
what follows cannot go on the construct: the longest construct is taken. So the parser accepts
exactly the grammar, and a formula has one tree.

Main statements:

* `Parsing.reads_of_derives` — a construct is read up to where it ends.
* `Parsing.formula_eq_ok_iff` — the tokens that parse are those of a formula.
* `IsFormula.unique` — some lexemes are a formula in one way only.
-/

namespace PerfFormula
namespace Parsing

/-! ## Reading up to a place -/

/-- Some tokens are read up to `rest`, with the value `x`. -/
def Reads (p : Parser Formula) (ts : List Token) (x : Formula) (rest : List Token) : Prop :=
  ∃ r, p ts = .ok r ∧ r.value = x ∧ r.rest = rest

/-- Some tokens cannot go on a construct that ends in front of them. -/
def Ends (k : Construct) (rest : List Token) : Prop :=
  ∀ t ∈ rest.head?, t.lexeme ≠ .opening ∧
    match k with
    | .expression => (∀ op, t.lexeme ≠ .operator op) ∧ t.lexeme ≠ .ifWord
    | .chain rank => ∀ op, t.lexeme = .operator op → rank < op.rank
    | .signed | .operand => True

/-- The parser of a construct within some levels. -/
def reader (levels : Nat) : Construct → Parser Formula
  | .expression => expression levels
  | .chain rank => level (signed (operand (expression (levels - 1)))) rank
  | .signed => signed (operand (expression (levels - 1)))
  | .operand => operand (expression (levels - 1))

/-- A chain that is read up to `rest` goes on from there, whatever its operators are. -/
def Continues (levels rank : Nat) (ts : List Token) (x : Formula) (rest : List Token) : Prop :=
  ∃ left : Reading Formula ts, left.value = x ∧ left.rest = rest ∧
    reader levels (.chain (rank + 1)) ts =
      chain (reader levels (.chain rank)) (rank + 1) ts left

theorem ends_nil (k : Construct) : Ends k [] := by
  intro t ht
  cases ht

theorem operator?_of_ends {rank : Nat} {rest : List Token} (h : Ends (.chain rank) rest) :
    operator? rank rest = none := by
  cases hop : operator? rank rest with
  | none => rfl
  | some found =>
    obtain ⟨t, rfl, ht, hrank⟩ := operator?_eq_some hop
    have := (h t rfl).2 _ ht
    omega

theorem Continues.reads {levels rank : Nat} {ts rest : List Token} {x : Formula}
    (h : Continues levels rank ts x rest) (ends : Ends (.chain (rank + 1)) rest) :
    Reads (reader levels (.chain (rank + 1))) ts x rest := by
  obtain ⟨left, rfl, rfl, hread⟩ := h
  exact ⟨left, hread.trans (chain_stops (operator?_of_ends ends)), rfl, rfl⟩

/-! ## Chains -/

theorem continues_of_tighter {levels rank : Nat} {ts rest : List Token} {x : Formula}
    (h : Reads (reader levels (.chain rank)) ts x rest) : Continues levels rank ts x rest := by
  obtain ⟨first, hfirst, hx, hrest⟩ := h
  refine ⟨first, hx, hrest, ?_⟩
  simp only [reader] at hfirst ⊢
  rw [level_succ, hfirst]
  rfl

theorem continues_binary {levels rank : Nat} {ts us rest : List Token} {t : Token} {op : Operator}
    {l r : Formula} (left : Continues levels rank ts l (t :: us)) (ht : t.lexeme = .operator op)
    (hrank : op.rank = rank + 1) (right : Reads (reader levels (.chain rank)) us r rest) :
    Continues levels rank ts (.binary op l r) rest := by
  obtain ⟨first, rfl, hrest, hread⟩ := left
  obtain ⟨second, hsecond, rfl, rfl⟩ := right
  have hop : operator? (rank + 1) first.rest = some (op, us) := by
    obtain ⟨lexeme, position, raw⟩ := t
    obtain rfl : lexeme = .operator op := ht
    simp [hrest, operator?, hrank]
  refine ⟨first.join op second (operator?_shorter hop), rfl, rfl, hread.trans ?_⟩
  rw [chain_step hop, hsecond]
  rfl

/-! ## Signs and operands -/

theorem signed_minus {operand : Parser Formula} {ts rest : List Token} {x : Formula}
    (position : Nat) (raw : String) (h : Reads (signed operand) ts x rest) :
    Reads (signed operand) (⟨.operator .sub, position, raw⟩ :: ts) (.negate x) rest := by
  obtain ⟨r, hr, rfl, rfl⟩ := h
  exact ⟨⟨.negate r.value, r.rest, Nat.lt_succ_of_lt r.shorter⟩, by simp [signed, hr], rfl, rfl⟩

theorem signed_operand {operand : Parser Formula} {t : Token} {ts rest : List Token} {x : Formula}
    (ht : t.lexeme ≠ .operator .sub) (h : Reads operand (t :: ts) x rest) :
    Reads (signed operand) (t :: ts) x rest := by
  obtain ⟨r, hr, hx, hrest⟩ := h
  refine ⟨r, ?_, hx, hrest⟩
  rw [signed, hr]
  rintro position raw us heq
  exact ht (by rw [(List.cons.inj heq).1])

theorem closed_eq_ok {α : Type} {ts rest : List Token} {r : Reading α ts} {t : Token}
    (ht : t.lexeme = .closing) (h : r.rest = t :: rest) :
    ∃ c : Reading α ts, closed r = .ok c ∧ c.value = r.value ∧ c.rest = rest := by
  obtain ⟨lexeme, position, raw⟩ := t
  obtain rfl : lexeme = .closing := ht
  unfold closed
  split
  · next h' =>
    obtain ⟨-, rfl⟩ := List.cons.inj (h.symm.trans h')
    exact ⟨_, rfl, rfl, rfl⟩
  · next hno => exact absurd h (hno _ _ _)

/-- Some tokens are read as arguments up to `rest`, with the list `xs`. -/
def ReadsEach (argument : Parser Formula) (earlier : List Formula) (ts : List Token)
    (xs : List Formula) (rest : List Token) : Prop :=
  ∃ r, arguments argument earlier ts = .ok r ∧ r.value = xs ∧ r.rest = rest

theorem readsEach_last {argument : Parser Formula} {earlier : List Formula} {ts rest : List Token}
    {x : Formula} (h : Reads argument ts x rest) (hrest : ∀ t ∈ rest.head?, t.lexeme ≠ .comma) :
    ReadsEach argument earlier ts (x :: earlier).reverse rest := by
  obtain ⟨r, hr, rfl, rfl⟩ := h
  refine ⟨⟨(r.value :: earlier).reverse, r.rest, r.shorter⟩, ?_, rfl, rfl⟩
  unfold arguments
  simp only [hr]
  split
  · next h' => exact absurd rfl (hrest _ (by rw [h']; rfl))
  · rfl

theorem readsEach_next {argument : Parser Formula} {earlier xs : List Formula}
    {ts us rest : List Token} {comma : Token} {x : Formula} (hcomma : comma.lexeme = .comma)
    (first : Reads argument ts x (comma :: us))
    (more : ReadsEach argument (x :: earlier) us xs rest) :
    ReadsEach argument earlier ts xs rest := by
  obtain ⟨a, ha, rfl, haRest⟩ := first
  obtain ⟨all, hall, rfl, rfl⟩ := more
  obtain ⟨lexeme, position, raw⟩ := comma
  obtain rfl : lexeme = .comma := hcomma
  -- The tokens behind the comma are some of those behind the first argument.
  have fewer : us.length ≤ ts.length := by
    have := a.shorter
    simp only [haRest, List.length_cons] at this
    omega
  refine ⟨all.after fewer, ?_, rfl, rfl⟩
  unfold arguments
  simp only [ha]
  split
  · next h' =>
    obtain ⟨-, rfl⟩ := List.cons.inj (haRest.symm.trans h')
    simp [hall]
  · next hno => exact absurd haRest (hno _ _ _)

theorem operand_group {nested : Parser Formula} {opening closing : Token} {ts rest : List Token}
    {x : Formula} (hopen : opening.lexeme = .opening) (hclose : closing.lexeme = .closing)
    (h : Reads nested ts x (closing :: rest)) : Reads (operand nested) (opening :: ts) x rest := by
  obtain ⟨r, hr, rfl, hrest⟩ := h
  obtain ⟨c, hc, hvalue, hcRest⟩ := closed_eq_ok hclose hrest
  refine ⟨c.after (Nat.le_succ _), ?_, hvalue, hcRest⟩
  simp [operand, hopen, hr, hc, bind, Except.bind]

theorem operand_call {nested : Parser Formula} {name opening comma closing : Token}
    {ts us rest : List Token} {g : Builtin} {x y : Formula} (hname : name.lexeme = .function g)
    (hopen : opening.lexeme = .opening) (hcomma : comma.lexeme = .comma)
    (hclose : closing.lexeme = .closing) (first : Reads nested ts x (comma :: us))
    (second : Reads nested us y (closing :: rest)) :
    Reads (operand nested) (name :: opening :: ts) (.call g x y) rest := by
  have last : ∀ t ∈ (closing :: rest).head?, t.lexeme ≠ .comma := by
    rintro t ht
    obtain rfl : closing = t := by simpa using ht
    simp [hclose]
  -- The second argument is the last one, because no comma follows it.
  have both : ReadsEach nested [] ts [x, y] (closing :: rest) :=
    readsEach_next hcomma first (readsEach_last second last)
  obtain ⟨r, hr, hvalue, hrest⟩ := both
  obtain ⟨c, hc, hcValue, hcRest⟩ := closed_eq_ok hclose hrest
  obtain ⟨lexeme, position, raw⟩ := opening
  obtain rfl : lexeme = .opening := hopen
  have hxy : c.value = [x, y] := hcValue.trans hvalue
  exact ⟨_, by simp [operand, hname, call, hr, hc, hxy, bind, Except.bind]; rfl, rfl, hcRest⟩

/-! ## Expressions -/

theorem expression_simple {levels : Nat} {ts rest : List Token} {x : Formula}
    (h : Reads (reader (levels + 1) (.chain Operator.loosest)) ts x rest)
    (hrest : ∀ t ∈ rest.head?, t.lexeme ≠ .ifWord) : Reads (expression (levels + 1)) ts x rest := by
  obtain ⟨r, hr, rfl, rfl⟩ := h
  refine ⟨r, ?_, rfl, rfl⟩
  simp only [reader, Nat.add_sub_cancel] at hr
  simp only [expression, binary_eq_level, hr, bind, Except.bind]
  split
  · next h' => exact absurd rfl (hrest _ (by rw [h']; rfl))
  · rfl

theorem expression_choice {levels : Nat} {ts us vs rest : List Token} {ifWord elseWord : Token}
    {t c f : Formula} (hif : ifWord.lexeme = .ifWord) (helse : elseWord.lexeme = .elseWord)
    (first : Reads (reader (levels + 1) (.chain Operator.loosest)) ts t (ifWord :: us))
    (condition : Reads (reader (levels + 1) (.chain Operator.loosest)) us c (elseWord :: vs))
    (last : Reads (expression levels) vs f rest) :
    Reads (expression (levels + 1)) ts (.choice c t f) rest := by
  obtain ⟨a, ha, rfl, haRest⟩ := first
  obtain ⟨b, hb, rfl, hbRest⟩ := condition
  obtain ⟨d, hd, rfl, rfl⟩ := last
  obtain ⟨lexeme, position, raw⟩ := ifWord
  obtain rfl : lexeme = .ifWord := hif
  obtain ⟨lexeme, position', raw'⟩ := elseWord
  obtain rfl : lexeme = .elseWord := helse
  simp only [reader, Nat.add_sub_cancel] at ha hb
  have shorter : d.rest.length < ts.length := by
    have h₁ := a.shorter
    have h₂ := b.shorter
    have h₃ := d.shorter
    simp only [haRest, hbRest, List.length_cons] at h₁ h₂
    omega
  refine ⟨⟨.choice b.value a.value d.value, d.rest, shorter⟩, ?_, rfl, rfl⟩
  simp only [expression, binary_eq_level, ha, bind, Except.bind]
  split
  · next h' =>
    obtain ⟨-, rfl⟩ := List.cons.inj (haRest.symm.trans h')
    simp only [hb]
    split
    · next h'' =>
      obtain ⟨-, rfl⟩ := List.cons.inj (hbRest.symm.trans h'')
      simp [hd]
    · next hno => exact absurd hbRest (hno _ _ _)
  · next hno => exact absurd haRest (hno _ _ _)

/-! ## All constructs -/

theorem lexemes_eq_append {used : List Token} {as bs : List Lexeme} (h : lexemes used = as ++ bs) :
    ∃ us vs, used = us ++ vs ∧ lexemes us = as ∧ lexemes vs = bs :=
  List.map_eq_append_iff.1 h

theorem lexemes_eq_cons {used : List Token} {l : Lexeme} {ls : List Lexeme}
    (h : lexemes used = l :: ls) :
    ∃ t us, used = t :: us ∧ t.lexeme = l ∧ lexemes us = ls :=
  List.map_eq_cons_iff.1 h

theorem ends_cons {k : Construct} {t : Token} (rest : List Token) (hopen : t.lexeme ≠ .opening)
    (hop : ∀ op, t.lexeme ≠ .operator op) (hif : k = .expression → t.lexeme ≠ .ifWord) :
    Ends k (t :: rest) := by
  intro u hu
  obtain rfl : t = u := by simpa using hu
  refine ⟨hopen, ?_⟩
  cases k with
  | expression => exact ⟨hop, hif rfl⟩
  | chain => exact fun op h => absurd h (hop op)
  | signed | operand => trivial

theorem ends_operator {rank : Nat} {t : Token} {op : Operator} (rest : List Token)
    (ht : t.lexeme = .operator op) (hrank : op.rank = rank + 1) :
    Ends (.chain rank) (t :: rest) := by
  intro u hu
  obtain rfl : t = u := by simpa using hu
  refine ⟨by simp [ht], fun op' hop => ?_⟩
  obtain rfl := Lexeme.operator.inj (ht.symm.trans hop)
  omega

theorem Ends.chain_loosest {rest : List Token} (h : Ends .expression rest) :
    Ends (.chain Operator.loosest) rest :=
  fun t ht => ⟨(h t ht).1, fun op hop => absurd hop ((h t ht).2.1 op)⟩

theorem Ends.tighter {rank : Nat} {rest : List Token} (h : Ends (.chain (rank + 1)) rest) :
    Ends (.chain rank) rest :=
  fun t ht => ⟨(h t ht).1, fun op hop => Nat.lt_of_succ_lt ((h t ht).2 op hop)⟩

theorem Ends.operand {k : Construct} {rest : List Token} (h : Ends k rest) :
    Ends .operand rest :=
  fun t ht => ⟨(h t ht).1, trivial⟩

theorem opens_of_ends {rest : List Token} (h : Ends .operand rest) : opens rest = false := by
  rcases rest with _ | ⟨t, rest⟩
  · rfl
  · unfold opens
    split
    · next heq => exact absurd (by rw [(List.cons.inj heq).1]) (h t rfl).1
    · rfl

theorem head_of_operand {n : Nat} {ls : List Lexeme} {x : Formula} (h : Derives n .operand ls x) :
    ∃ l rest, ls = l :: rest ∧ ∀ op, l ≠ .operator op := by
  cases h <;> exact ⟨_, _, rfl, by simp⟩

/-- A construct is read up to where it ends, and a chain goes on in front of a tighter operator. -/
theorem reads_of_derives {n : Nat} {k : Construct} {ls : List Lexeme} {x : Formula}
    (h : Derives n k ls x) : ∀ used, lexemes used = ls →
      (∀ rest, Ends k rest → Reads (reader n k) (used ++ rest) x rest) ∧
      ∀ rank, k = .chain (rank + 1) → ∀ rest, Ends (.chain rank) rest →
        Continues n rank (used ++ rest) x rest := by
  induction h with
  | simple _ ih =>
    intro used hused
    refine ⟨fun rest ends => ?_, by simp⟩
    exact expression_simple ((ih used hused).1 rest ends.chain_loosest) fun t ht => (ends t ht).2.2
  | choice _ _ _ iht ihc ihf =>
    intro used hused
    refine ⟨fun rest ends => ?_, by simp⟩
    simp only [List.append_assoc, List.cons_append] at hused
    obtain ⟨us, vs, rfl, hus, hvs⟩ := lexemes_eq_append hused
    obtain ⟨ifWord, vs, rfl, hif, hvs⟩ := lexemes_eq_cons hvs
    obtain ⟨cs, fs, rfl, hcs, hfs⟩ := lexemes_eq_append hvs
    obtain ⟨elseWord, fs, rfl, helse, hfs⟩ := lexemes_eq_cons hfs
    -- Neither keyword can go on a chain, so each part is read up to the next keyword.
    have first := (iht us hus).1 (ifWord :: (cs ++ elseWord :: (fs ++ rest)))
      (ends_cons _ (by simp [hif]) (by simp [hif]) (by simp))
    have condition := (ihc cs hcs).1 (elseWord :: (fs ++ rest))
      (ends_cons _ (by simp [helse]) (by simp [helse]) (by simp))
    have last := (ihf fs hfs).1 rest ends
    simpa [reader] using expression_choice hif helse first condition last
  | tighter _ ih =>
    intro used hused
    have continues : ∀ rest, Ends (.chain _) rest → Continues _ _ (used ++ rest) _ rest :=
      fun rest ends => continues_of_tighter ((ih used hused).1 rest ends)
    refine ⟨fun rest ends => (continues rest ends.tighter).reads ends,
      fun rank hrank rest ends => ?_⟩
    obtain rfl := Nat.succ.inj (Construct.chain.inj hrank)
    exact continues rest ends
  | binary _ hop _ ihl ihr =>
    intro used hused
    obtain ⟨us, vs, rfl, hus, hvs⟩ := lexemes_eq_append hused
    obtain ⟨t, vs, rfl, ht, hvs⟩ := lexemes_eq_cons hvs
    have continues : ∀ rest, Ends (.chain _) rest →
        Continues _ _ (us ++ t :: vs ++ rest) (.binary _ _ _) rest := fun rest ends => by
      -- The left operand is a chain that goes on here: the operator in front of us has its rank.
      have left := (ihl us hus).2 _ rfl (t :: (vs ++ rest)) (ends_operator _ ht hop)
      have right := (ihr vs hvs).1 rest ends
      simpa using continues_binary left ht hop right
    refine ⟨fun rest ends => (continues rest ends.tighter).reads ends,
      fun rank hrank rest ends => ?_⟩
    obtain rfl := Nat.succ.inj (Construct.chain.inj hrank)
    exact continues rest ends
  | unchained _ ih =>
    intro used hused
    refine ⟨fun rest ends => ?_, by simp⟩
    exact (ih used hused).1 rest ends.operand
  | negate _ ih =>
    intro used hused
    obtain ⟨t, us, rfl, ht, hus⟩ := lexemes_eq_cons hused
    refine ⟨fun rest ends => ?_, by simp⟩
    obtain ⟨lexeme, position, raw⟩ := t
    obtain rfl : lexeme = .operator .sub := ht
    exact signed_minus position raw ((ih us hus).1 rest ends)
  | unsigned hd ih =>
    intro used hused
    -- An operand does not start with a minus sign, so the sign parser leaves it alone.
    obtain ⟨l, more, hls, hno⟩ := head_of_operand hd
    refine ⟨fun rest ends => ?_, by simp⟩
    have := (ih used hused).1 rest ends
    obtain ⟨t, us, rfl, ht, hus⟩ := lexemes_eq_cons (hused.trans hls)
    exact signed_operand (by rw [ht]; exact hno _) this
  | number =>
    intro used hused
    obtain ⟨t, us, rfl, ht, hus⟩ := lexemes_eq_cons hused
    obtain rfl : us = [] := List.map_eq_nil_iff.1 hus
    refine ⟨fun rest _ => ⟨⟨.number _, rest, Nat.lt_succ_self _⟩, ?_, rfl, rfl⟩, by simp⟩
    simp [reader, operand, ht]
  | name =>
    intro used hused
    obtain ⟨t, us, rfl, ht, hus⟩ := lexemes_eq_cons hused
    obtain rfl : us = [] := List.map_eq_nil_iff.1 hus
    refine ⟨fun rest ends => ⟨⟨.name _, rest, Nat.lt_succ_self _⟩, ?_, rfl, rfl⟩, by simp⟩
    simp [reader, operand, ht, opens_of_ends ends]
  | host =>
    intro used hused
    obtain ⟨t, us, rfl, ht, hus⟩ := lexemes_eq_cons hused
    obtain rfl : us = [] := List.map_eq_nil_iff.1 hus
    refine ⟨fun rest _ => ⟨⟨.host _, rest, Nat.lt_succ_self _⟩, ?_, rfl, rfl⟩, by simp⟩
    simp [reader, operand, ht, HostLiteral.ofName?_name]
  | group _ ih =>
    intro used hused
    refine ⟨fun rest ends => ?_, by simp⟩
    obtain ⟨opening, inside, rfl, hopen, hinside⟩ := lexemes_eq_cons hused
    obtain ⟨us, vs, rfl, hus, hvs⟩ := lexemes_eq_append hinside
    obtain ⟨closing, none, rfl, hclose, hnone⟩ := lexemes_eq_cons hvs
    obtain rfl : none = [] := List.map_eq_nil_iff.1 hnone
    -- A closing parenthesis goes on nothing.
    have inner := (ih us hus).1 (closing :: rest)
      (ends_cons _ (by simp [hclose]) (by simp [hclose]) (by simp [hclose]))
    simpa [reader] using operand_group hopen hclose inner
  | call _ _ iha ihb =>
    intro used hused
    refine ⟨fun rest ends => ?_, by simp⟩
    simp only [List.append_assoc, List.cons_append] at hused
    obtain ⟨name, behind, rfl, hname, hbehind⟩ := lexemes_eq_cons hused
    obtain ⟨opening, inside, rfl, hopen, hinside⟩ := lexemes_eq_cons hbehind
    obtain ⟨us, more, rfl, hus, hmore⟩ := lexemes_eq_append hinside
    obtain ⟨comma, second, rfl, hcomma, hsecond⟩ := lexemes_eq_cons hmore
    obtain ⟨vs, ws, rfl, hvs, hws⟩ := lexemes_eq_append hsecond
    obtain ⟨closing, none, rfl, hclose, hnone⟩ := lexemes_eq_cons hws
    obtain rfl : none = [] := List.map_eq_nil_iff.1 hnone
    have first := (iha us hus).1 (comma :: (vs ++ closing :: rest))
      (ends_cons _ (by simp [hcomma]) (by simp [hcomma]) (by simp [hcomma]))
    have second := (ihb vs hvs).1 (closing :: rest)
      (ends_cons _ (by simp [hclose]) (by simp [hclose]) (by simp [hclose]))
    simpa [reader] using operand_call hname hopen hcomma hclose first second

/-! ## Whole formulas -/

/-- The tokens that parse are those of a formula. -/
theorem formula_eq_ok_iff {ts : List Token} {x : Formula} :
    formula ts = .ok x ↔ IsFormula (lexemes ts) x := by
  refine ⟨isFormula_of_formula, fun h => ?_⟩
  obtain ⟨r, hr, rfl, hrest⟩ : Reads (reader depthLimit .expression) ts x [] := by
    simpa using (reads_of_derives h ts rfl).1 [] (ends_nil _)
  simp only [reader] at hr
  simp [formula, hr, hrest]

end Parsing

/-- Some lexemes are a formula in one way only. -/
theorem IsFormula.unique {ls : List Lexeme} {x y : Formula} (hx : IsFormula ls x)
    (hy : IsFormula ls y) : x = y := by
  -- Positions and spellings do not matter, so any tokens with these lexemes will do.
  have same : Parsing.lexemes (ls.map fun l => ⟨l, 0, ""⟩) = ls := by
    simp [Parsing.lexemes, Function.comp_def]
  rw [← same] at hx hy
  exact Except.ok.inj ((Parsing.formula_eq_ok_iff.2 hx).symm.trans (Parsing.formula_eq_ok_iff.2 hy))

end PerfFormula
