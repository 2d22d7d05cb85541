import PerfFormula.Proofs.Tokens

/-!
# Which lexeme stands in front of a text

The cutting tries the classes of lexemes one after another, but its result can be said without an
order: it is the longest prefix of some class, and of the classes only names have to give way, to
numbers, and a backslash to the name that it is part of. Which prefixes a text has of a class
depends on what follows the lexeme, so a lexeme stays the same where a text is cut off behind it,
and where a blank follows it.

Main statements:

* `Token.front?_eq_some_iff` — which lexeme stands in front of a text.
* `Token.front?_of_cut` — it is the same when the text ends somewhere behind it.
* `Token.front?_of_spaced` — and when blanks follow it.
-/

namespace PerfFormula
namespace Token

open PerfFormula.Text PerfFormula.Decimal

variable {cs ds raw rest : List Char} {c : Char} {kind : Kind}

/-! ## Visible characters -/

theorem bounds_of_isNameChar (h : isNameChar c = true) : 46 ≤ c.toNat ∧ c.toNat ≤ 122 := by
  simp only [isNameChar, isWordChar, Bool.or_eq_true, beq_iff_eq] at h
  rcases h with ((((letter | rfl) | rfl) | rfl) | rfl) | rfl
  · change (decide (65 ≤ c.val ∧ c.val ≤ 90) || decide (97 ≤ c.val) && decide (c.val ≤ 122) ||
      decide (48 ≤ c.val) && decide (c.val ≤ 57)) = true at letter
    simp only [Bool.or_eq_true, Bool.and_eq_true, decide_eq_true_eq,
      UInt32.le_iff_toNat_le] at letter
    change ((65 ≤ c.toNat ∧ c.toNat ≤ 90) ∨ (97 ≤ c.toNat ∧ c.toNat ≤ 122)) ∨
      (48 ≤ c.toNat ∧ c.toNat ≤ 57) at letter
    omega
  all_goals decide

theorem isBlank_eq_false (lower : 0x20 < c.toNat) (upper : c.toNat < 0x85) : isBlank c = false := by
  simp only [isBlank, Bool.or_eq_false_iff, Bool.and_eq_false_iff, decide_eq_false_iff_not,
    beq_eq_false_iff_ne]
  omega

theorem isBlank_of_isNameChar (h : isNameChar c = true) : isBlank c = false := by
  have bounds := bounds_of_isNameChar h
  exact isBlank_eq_false (by omega) (by omega)

theorem isNameChar_of_isWordChar (h : isWordChar c = true) : isNameChar c = true := by
  simp [isNameChar, h]

theorem IsNumber.ne_nil (h : IsNumber raw) : raw ≠ [] := by
  obtain ⟨mantissa, power, rfl, inM, -⟩ := h
  obtain ⟨c, rest, rfl, -⟩ := inM.cons
  simp

theorem IsNumber.visible (h : IsNumber raw) : ∀ c ∈ raw, isBlank c = false := by
  intro c hc
  rcases isNumeralChar_cases (h.isNumeralChar c hc) with digit | rfl | rfl | rfl | rfl
  · obtain ⟨lower, upper⟩ := toNat_of_isDigit digit
    exact isBlank_eq_false (by omega) (by omega)
  all_goals decide

theorem NameRun.visible (run : NameRun raw) : ∀ c ∈ raw, isBlank c = false := by
  induction run with
  | nil =>
    intro c hc
    cases hc
  | char hc _ ih => exact List.forall_mem_cons.2 ⟨isBlank_of_isNameChar hc, ih⟩
  | @escape c cs hc _ ih =>
    have visible : isBlank c = false := by
      simp only [isEscapable, Bool.or_eq_true, beq_iff_eq] at hc
      rcases hc with (rfl | rfl) | rfl <;> decide
    exact List.forall_mem_cons.2 ⟨by decide, List.forall_mem_cons.2 ⟨visible, ih⟩⟩

theorem symbol?_cases {lexeme : Lexeme} (h : symbol? c = some lexeme) :
    c ∈ ['(', ')', ',', '+', '-', '*', '/', '%', '<', '>', '|', '&'] := by
  unfold symbol? at h
  split at h
  · next same => simp [same]
  split at h
  · next same => simp [same]
  split at h
  · next same => simp [same]
  · obtain ⟨op, known, -⟩ := Option.map_eq_some_iff.1 h
    have same : op.symbol = c := by simpa using List.find?_some known
    cases op <;> simp [← same, Operator.symbol]

/-- Nothing that has a meaning is written with blanks. -/
theorem Kind.visible_of_class (inClass : kind.Class raw) (notBlank : kind ≠ .blank)
    (notEscape : kind ≠ .escape) : ∀ c ∈ raw, isBlank c = false := by
  cases kind with
  | blank => exact absurd rfl notBlank
  | number => exact inClass.visible
  | name => exact inClass.1.visible
  | escape => exact absurd rfl notEscape
  | literal =>
    obtain ⟨word, rfl, run, -⟩ := inClass
    refine List.forall_mem_cons.2 ⟨by decide, fun c hc => ?_⟩
    exact isBlank_of_isNameChar (isNameChar_of_isWordChar (run c hc))
  | symbol lexeme =>
    obtain ⟨c, rfl, found⟩ := inClass
    have visible : ['(', ')', ',', '+', '-', '*', '/', '%', '<', '>', '|', '&'].all
        fun d => !isBlank d := by decide
    have shown := List.all_eq_true.1 visible c (symbol?_cases found)
    exact List.forall_mem_singleton.2 (by simpa using shown)

/-! ## The lexeme in front -/

theorem mantissaPrefix_of_head (digit : isDigit c = false) (point : c ≠ '.') :
    mantissaPrefix (c :: cs) = [] := by
  unfold mantissaPrefix
  rw [List.takeWhile_cons_of_neg (by simp [digit]), List.dropWhile_cons_of_neg (by simp [digit])]
  split
  · next same => exact absurd (List.cons.inj same).1 point
  · rfl

theorem numberPrefix_of_head (digit : isDigit c = false) (point : c ≠ '.') :
    numberPrefix (c :: cs) = [] := by
  unfold numberPrefix
  rw [mantissaPrefix_of_head digit point]
  rfl

theorem namePrefix_of_head (char : isNameChar c = false) (backslash : c ≠ '\\') :
    namePrefix (c :: cs) = [] := by
  rw [namePrefix.eq_2 _ _ (by simp [backslash]), char]
  rfl

theorem front?_of_blank (blank : isBlank c = true) :
    front? (c :: cs) = some (.blank, c :: cs.takeWhile isBlank) := by
  rw [front?]
  simp [blank]

theorem front?_of_numberPrefix (visible : isBlank c = false) (ne : numberPrefix (c :: cs) ≠ []) :
    front? (c :: cs) = some (.number, numberPrefix (c :: cs)) := by
  rw [front?]
  simp [visible, ne]

theorem front?_of_namePrefix (visible : isBlank c = false) (noNumber : numberPrefix (c :: cs) = [])
    (ne : namePrefix (c :: cs) ≠ []) : front? (c :: cs) = some (.name, namePrefix (c :: cs)) := by
  rw [front?]
  simp [visible, noNumber, ne]

/-- What starts neither a number nor a name is told by its first character. -/
theorem front?_of_mark (visible : isBlank c = false) (noNumber : numberPrefix (c :: cs) = [])
    (noName : namePrefix (c :: cs) = []) : front? (c :: cs) =
    if c = '\\' then some (.escape, c :: (cs.take 1).filter (· ≠ '\n'))
    else if c = '#' then
      if (cs.takeWhile isWordChar).isEmpty then none
      else some (.literal, c :: cs.takeWhile isWordChar)
    else (symbol? c).map fun lexeme => (.symbol lexeme, [c]) := by
  rw [front?]
  simp only [visible, noNumber, noName]
  rfl

theorem front?_of_symbol {lexeme : Lexeme} (h : symbol? c = some lexeme) :
    front? (c :: rest) = some (.symbol lexeme, [c]) := by
  have listed := symbol?_cases h
  obtain ⟨visible, digit, point, char, backslash, mark⟩ : isBlank c = false ∧ isDigit c = false ∧
      c ≠ '.' ∧ isNameChar c = false ∧ c ≠ '\\' ∧ c ≠ '#' := by
    simp only [List.mem_cons, List.not_mem_nil, or_false] at listed
    rcases listed with rfl | rfl | rfl | rfl | rfl | rfl | rfl | rfl | rfl | rfl | rfl | rfl <;>
      decide
  rw [front?_of_mark visible (numberPrefix_of_head digit point) (namePrefix_of_head char backslash),
    if_neg backslash, if_neg mark, h]
  rfl

theorem numberPrefix_of_name (front : front? cs = some (.name, raw)) : numberPrefix cs = [] := by
  cases cs with
  | nil => cases front
  | cons c cs =>
    simp only [front?] at front
    split at front
    · cases front
    split at front
    · cases front
    · next none => simpa using none

theorem namePrefix_of_escape (front : front? cs = some (.escape, raw)) : namePrefix cs = [] := by
  cases cs with
  | nil => cases front
  | cons c cs =>
    simp only [front?] at front
    split at front
    · cases front
    split at front
    · cases front
    split at front
    · cases front
    · next none => simpa using none

/-- The class of a prefix decides on the step that is taken. -/
theorem exists_front? (longest : IsLongest kind.Class raw cs)
    (noNumber : kind = .name → numberPrefix cs = [])
    (noName : kind = .escape → namePrefix cs = []) : ∃ other, front? cs = some (kind, other) := by
  obtain ⟨rest, rfl⟩ := longest.isPrefix
  cases kind with
  | blank =>
    obtain ⟨run, ne⟩ := longest.mem
    obtain ⟨c, raw, rfl⟩ := List.exists_cons_of_ne_nil ne
    exact ⟨_, front?_of_blank (run c List.mem_cons_self)⟩
  | number =>
    obtain ⟨c, raw, rfl⟩ := List.exists_cons_of_ne_nil (IsNumber.ne_nil longest.mem)
    -- There is a number in front, so the longest one is not empty.
    have ne : numberPrefix (c :: raw ++ rest) ≠ [] := fun none =>
      absurd ((isLongest_numberPrefix _).length_le _ longest.isPrefix (.inr longest.mem))
        (by rw [none]; simp)
    exact ⟨_, front?_of_numberPrefix (IsNumber.visible longest.mem c List.mem_cons_self) ne⟩
  | name =>
    obtain ⟨run, ne⟩ := longest.mem
    obtain ⟨c, raw, rfl⟩ := List.exists_cons_of_ne_nil ne
    have ne : namePrefix (c :: raw ++ rest) ≠ [] := fun none =>
      absurd ((isLongest_namePrefix _).length_le _ longest.isPrefix run) (by rw [none]; simp)
    exact ⟨_, front?_of_namePrefix (run.visible c List.mem_cons_self) (noNumber rfl) ne⟩
  | escape =>
    -- A backslash may start a name, which is why `noName` is asked for.
    obtain ⟨raw, rfl, -⟩ := longest.mem
    have noNumber : numberPrefix ('\\' :: (raw ++ rest)) = [] :=
      numberPrefix_of_head (by decide) (by decide)
    exact ⟨_, front?_of_mark (by decide) noNumber (noName rfl)⟩
  | literal =>
    obtain ⟨word, rfl, run, ne⟩ := longest.mem
    obtain ⟨c, word, rfl⟩ := List.exists_cons_of_ne_nil ne
    have noNumber : numberPrefix ('#' :: (c :: word ++ rest)) = [] :=
      numberPrefix_of_head (by decide) (by decide)
    have front := front?_of_mark (by decide) noNumber
      (namePrefix_of_head (by decide) (by decide))
    simp only [List.cons_append, List.takeWhile_cons_of_pos (run c List.mem_cons_self)] at front
    exact ⟨_, front⟩
  | symbol lexeme =>
    obtain ⟨c, rfl, found⟩ := longest.mem
    exact ⟨[c], front?_of_symbol found⟩

/-- Which lexeme stands in front of a text: the longest of its class. Only names have to give way to
numbers, and backslashes to the names that they are part of. -/
theorem front?_eq_some_iff : front? cs = some (kind, raw) ↔
    IsLongest kind.Class raw cs ∧ (kind = .name → numberPrefix cs = []) ∧
      (kind = .escape → namePrefix cs = []) := by
  constructor
  · intro front
    refine ⟨front?_isLongest front, ?_, ?_⟩
    · rintro rfl
      exact numberPrefix_of_name front
    · rintro rfl
      exact namePrefix_of_escape front
  · rintro ⟨longest, noNumber, noName⟩
    -- Only one prefix is the longest of the class.
    obtain ⟨other, front⟩ := exists_front? longest noNumber noName
    rw [front, (front?_isLongest front).eq longest]

/-! ## Blanks in front -/

/-- A first blank leaves the rest as it is, also where it stands in a longer blank run. -/
theorem scan_blank (blank : isBlank c = true) (runtime position : Nat) (cs : List Char) :
    scan runtime position (c :: cs) = scan runtime (position + 1) cs := by
  have skipped : ∀ position (raw : List Char), scan runtime position raw =
      (scan runtime position raw).map (ofLexeme? position raw none ++ ·) := by
    intro position raw
    cases scan runtime position raw <;> rfl
  rw [scan_of_read (front?_of_blank blank) rfl]
  cases cs with
  | nil => exact (skipped _ _).symm
  | cons d cs =>
    by_cases more : isBlank d = true
    · -- Both runs of blanks are skipped in one step and end at the same place.
      rw [scan_of_read (front?_of_blank more) rfl, List.takeWhile_cons_of_pos more]
      simp only [List.length_cons, List.drop_succ_cons, Nat.add_assoc, Nat.add_comm 1]
      rfl
    · rw [List.takeWhile_cons_of_neg more]
      exact (skipped _ _).symm

/-! ## The same lexeme in front of another text -/

theorem numberPrefix_eq_nil_of_prefixes (none : numberPrefix cs = [])
    (fewer : ∀ other, other <+: ds → IsNumber other → other <+: cs) : numberPrefix ds = [] := by
  have proper : ¬IsNumber [] := fun h => h.ne_nil rfl
  have noNumber := ((isLongest_numberPrefix cs).eq_nil_iff proper).1 none
  exact ((isLongest_numberPrefix ds).eq_nil_iff proper).2 fun other pre number =>
    noNumber other (fewer other pre number) number

theorem namePrefix_eq_nil_of_prefixes (none : namePrefix cs = [])
    (fewer : ∀ other, other <+: ds → NameRun other → other <+: cs) : namePrefix ds = [] := by
  have name := isLongest_namePrefix ds
  have bound := (isLongest_namePrefix cs).length_le _ (fewer _ name.isPrefix name.mem) name.mem
  rw [none] at bound
  exact List.length_eq_zero_iff.1 (Nat.le_zero.1 bound)

/-- A lexeme stands in front of every text that begins with it and offers nothing more. -/
theorem front?_of_prefixes (front : front? cs = some (kind, raw)) (isPrefix : raw <+: ds)
    (fewer : ∀ other, other <+: ds → kind.Class other ∨ IsNumber other ∨ NameRun other →
      other <+: cs) : front? ds = some (kind, raw) := by
  obtain ⟨longest, noNumber, noName⟩ := front?_eq_some_iff.1 front
  refine front?_eq_some_iff.2 ⟨?_, fun name => ?_, fun escape => ?_⟩
  · exact longest.of_prefixes isPrefix fun other pre mem => fewer other pre (.inl mem)
  · exact numberPrefix_eq_nil_of_prefixes (noNumber name) fun other pre number =>
      fewer other pre (.inr (.inl number))
  · exact namePrefix_eq_nil_of_prefixes (noName escape) fun other pre run =>
      fewer other pre (.inr (.inr run))

/-- The lexeme in front is the same when the text ends somewhere behind it. -/
theorem front?_of_cut (front : front? (raw ++ (cs ++ rest)) = some (kind, raw)) :
    front? (raw ++ cs) = some (kind, raw) := by
  refine front?_of_prefixes front (List.prefix_append raw cs) fun other pre _ => ?_
  rw [← List.append_assoc]
  exact pre.trans (List.prefix_append _ rest)

/-- The lexeme in front is the same when blanks follow it. -/
theorem front?_of_spaced (front : front? (raw ++ rest) = some (kind, raw))
    (notBlank : kind ≠ .blank) (notEscape : kind ≠ .escape)
    (blank : ∀ c ∈ ds.head?, isBlank c = true) : front? (raw ++ ds) = some (kind, raw) := by
  -- No lexeme that could be taken instead holds a blank, so none goes past the one in front.
  have visible : ∀ other, kind.Class other ∨ IsNumber other ∨ NameRun other →
      RunOf (!isBlank ·) other := by
    intro other mem c hc
    rw [Bool.not_eq_true']
    rcases mem with mem | number | run
    · exact Kind.visible_of_class mem notBlank notEscape c hc
    · exact number.visible c hc
    · exact run.visible c hc
  have stop : ∀ c ∈ ds.head?, (!isBlank c) = false := fun c hc => by rw [blank c hc]; rfl
  have alone := visible raw (.inl (front?_isLongest front).mem)
  exact front?_of_prefixes front (List.prefix_append raw ds) fun other pre mem =>
    (isPrefix_of_stop alone stop pre (visible other mem)).trans (List.prefix_append raw rest)

end Token
end PerfFormula
