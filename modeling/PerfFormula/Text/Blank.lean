/-!
# Blank characters

Which characters separate tokens and may be trimmed from the ends of a text: the white space of the
Unicode standard together with the four information separators U+001C to U+001F. Zero-width
characters (U+200B, U+FEFF) and the Mongolian vowel separator (U+180E) are not blank.

Main statements:

* `isBlank_of_isWhitespace` — every character of core's own class is blank.
* `trim_trim` — trimming a second time changes nothing.
* `trim_append` — blanks around a text do not matter.
* `trim_eq_nil_iff` — a text trims to nothing exactly when all of it is blank.
-/

namespace PerfFormula.Text

/-- Blank characters, by code point. -/
def isBlank (c : Char) : Bool :=
  let n := c.toNat
  (0x09 ≤ n && n ≤ 0x0D) || (0x1C ≤ n && n ≤ 0x20) || n == 0x85 || n == 0xA0 || n == 0x1680
    || (0x2000 ≤ n && n ≤ 0x200A) || n == 0x2028 || n == 0x2029 || n == 0x202F || n == 0x205F
    || n == 0x3000

/-- The blank characters that may surround a number: all but the information separators. -/
def isNumberBlank (c : Char) : Bool :=
  isBlank c && !(0x1C ≤ c.toNat && c.toNat ≤ 0x1F)

/-- Core's white space (space, tab, carriage return, line feed) is blank. -/
theorem isBlank_of_isWhitespace {c : Char} (h : c.isWhitespace = true) : isBlank c = true := by
  simp only [Char.isWhitespace, Bool.or_eq_true, decide_eq_true_eq] at h
  rcases h with ((rfl | rfl) | rfl) | rfl <;> decide

/-! ## Trimming -/

/-- Drop what satisfies `p` at both ends of a text. -/
def trimBy (p : Char → Bool) (cs : List Char) : List Char :=
  ((cs.dropWhile p).reverse.dropWhile p).reverse

/-- Drop the blank characters at both ends of a text. -/
def trim (cs : List Char) : List Char := trimBy isBlank cs

/-- `trim` on strings. -/
def strip (s : String) : String := String.ofList (trim s.toList)

@[simp] theorem toList_strip (s : String) : (strip s).toList = trim s.toList := by
  simp [strip]

/-- A text whose first character is kept is left alone by `dropWhile`. -/
theorem dropWhile_eq_self {p : Char → Bool} {cs : List Char} (h : ∀ c ∈ cs.head?, p c = false) :
    cs.dropWhile p = cs := by
  cases cs with
  | nil => rfl
  | cons c cs => simp_all

/-- A text that holds nothing to drop is left alone. -/
theorem trimBy_eq_self {p : Char → Bool} {cs : List Char} (h : ∀ c ∈ cs, p c = false) :
    trimBy p cs = cs := by
  have front : cs.dropWhile p = cs := dropWhile_eq_self fun c hc => h c (List.mem_of_mem_head? hc)
  have back : cs.reverse.dropWhile p = cs.reverse :=
    dropWhile_eq_self fun c hc => h c (List.mem_reverse.1 (List.mem_of_mem_head? hc))
  rw [trimBy, front, back, List.reverse_reverse]

/-- What `dropWhile` leaves starts with a character that is kept. -/
theorem head?_dropWhile_kept (p : Char → Bool) (cs : List Char) :
    ∀ c ∈ (cs.dropWhile p).head?, p c = false := by
  induction cs with
  | nil => simp
  | cons c cs ih => by_cases h : p c = true <;> simp_all

theorem dropWhile_eq_nil_iff (p : Char → Bool) (cs : List Char) :
    cs.dropWhile p = [] ↔ ∀ c ∈ cs, p c = true := by
  induction cs with
  | nil => simp
  | cons c cs ih => by_cases h : p c = true <;> simp_all

/-- A text trims to nothing exactly when all of it is dropped. -/
theorem trimBy_eq_nil_iff (p : Char → Bool) (cs : List Char) :
    trimBy p cs = [] ↔ ∀ c ∈ cs, p c = true := by
  unfold trimBy
  rw [List.reverse_eq_nil_iff, dropWhile_eq_nil_iff]
  constructor
  · intro h
    rw [← dropWhile_eq_nil_iff]
    cases hd : cs.dropWhile p with
    | nil => rfl
    | cons c rest =>
      have kept := head?_dropWhile_kept p cs c (by simp [hd])
      have dropped := h c (by simp [hd])
      simp [kept] at dropped
  · intro h c hc
    have := (List.dropWhile_sublist p (l := cs)).subset (List.mem_reverse.1 hc)
    exact h c this

theorem trim_eq_nil_iff (cs : List Char) : trim cs = [] ↔ ∀ c ∈ cs, isBlank c = true :=
  trimBy_eq_nil_iff isBlank cs

/-- What trimming the front leaves is the trimmed text and what is dropped behind it. -/
theorem dropWhile_eq_trimBy_append (p : Char → Bool) (cs : List Char) :
    cs.dropWhile p = trimBy p cs ++ ((cs.dropWhile p).reverse.takeWhile p).reverse := by
  have split := List.takeWhile_append_dropWhile (p := p) (l := (cs.dropWhile p).reverse)
  rw [← List.reverse_inj, List.reverse_append]
  simp [trimBy]

/-- A trimmed text starts with a character that is kept, if it has one. -/
theorem head?_trimBy_kept (p : Char → Bool) (cs : List Char) :
    ∀ c ∈ (trimBy p cs).head?, p c = false := by
  intro c hc
  apply head?_dropWhile_kept p cs c
  rw [dropWhile_eq_trimBy_append p cs]
  cases ht : trimBy p cs with
  | nil => simp [ht] at hc
  | cons d rest => simpa [ht] using hc

/-- A trimmed text ends with a character that is kept, if it has one. -/
theorem getLast?_trimBy_kept (p : Char → Bool) (cs : List Char) :
    ∀ c ∈ (trimBy p cs).getLast?, p c = false := by
  intro c hc
  rw [trimBy, List.getLast?_reverse] at hc
  exact head?_dropWhile_kept p _ c hc

/-- Behind the front that is dropped stands the trimmed text, with dropped characters behind it. -/
theorem exists_dropWhile_eq (p : Char → Bool) (cs : List Char) :
    ∃ back, cs.dropWhile p = trimBy p cs ++ back ∧ ∀ c ∈ back, p c = true := by
  refine ⟨_, dropWhile_eq_trimBy_append p cs, ?_⟩
  intro c hc
  exact List.all_eq_true.1 List.all_takeWhile c (List.mem_reverse.1 hc)

/-- Characters to drop around a text do not matter. -/
theorem trimBy_append {p : Char → Bool} {front back : List Char} (hf : ∀ c ∈ front, p c = true)
    (hb : ∀ c ∈ back, p c = true) (cs : List Char) :
    trimBy p (front ++ cs ++ back) = trimBy p cs := by
  rw [trimBy, List.append_assoc, List.dropWhile_append_of_pos hf, List.dropWhile_append]
  split
  · next none =>
    -- Nothing is kept of the text, nor of what is behind it.
    have all : cs.dropWhile p = [] := List.isEmpty_iff.1 none
    have behind : back.dropWhile p = [] := (dropWhile_eq_nil_iff p back).2 hb
    rw [trimBy, all, behind]
  · have behind : ∀ c ∈ back.reverse, p c = true := fun c hc => hb c (List.mem_reverse.1 hc)
    rw [trimBy, List.reverse_append, List.dropWhile_append_of_pos behind]

/-- What is dropped in front of a text is dropped in front of a longer one, too. -/
theorem dropWhile_isPrefix {p : Char → Bool} {cs ds : List Char} (h : cs <+: ds) :
    cs.dropWhile p <+: ds.dropWhile p := by
  obtain ⟨rest, rfl⟩ := h
  rw [List.dropWhile_append]
  split
  · next none =>
    rw [List.isEmpty_iff.1 none]
    exact List.nil_prefix
  · exact List.prefix_append _ rest

theorem dropWhile_isSuffix {p : Char → Bool} {cs ds : List Char} (h : cs <:+ ds) :
    cs.dropWhile p <:+ ds.dropWhile p := by
  obtain ⟨front, rfl⟩ := h
  rw [List.dropWhile_append]
  split
  · exact List.suffix_rfl
  · exact (List.dropWhile_suffix p).trans (List.suffix_append _ cs)

/-- The end of a text trims to the end of what the text trims to. -/
theorem trimBy_isSuffix {p : Char → Bool} {cs ds : List Char} (h : cs <:+ ds) :
    trimBy p cs <:+ trimBy p ds := by
  unfold trimBy
  rw [List.reverse_suffix]
  exact dropWhile_isPrefix (List.reverse_prefix.2 (dropWhile_isSuffix h))

/-- Trimming a second time changes nothing. -/
theorem trimBy_trimBy (p : Char → Bool) (cs : List Char) :
    trimBy p (trimBy p cs) = trimBy p cs := by
  have front := dropWhile_eq_self (head?_trimBy_kept p cs)
  have back : ((trimBy p cs).reverse.dropWhile p) = (trimBy p cs).reverse := by
    apply dropWhile_eq_self
    simpa [trimBy] using head?_dropWhile_kept p (cs.dropWhile p).reverse
  rw [trimBy, front, back, List.reverse_reverse]

theorem trim_trim (cs : List Char) : trim (trim cs) = trim cs :=
  trimBy_trimBy isBlank cs

theorem strip_strip (s : String) : strip (strip s) = strip s := by
  simp [strip, trim_trim]

theorem trim_append {front back : List Char} (hf : ∀ c ∈ front, isBlank c = true)
    (hb : ∀ c ∈ back, isBlank c = true) (cs : List Char) :
    trim (front ++ cs ++ back) = trim cs :=
  trimBy_append hf hb cs

theorem trim_append_left {front : List Char} (hf : ∀ c ∈ front, isBlank c = true) (cs : List Char) :
    trim (front ++ cs) = trim cs := by
  have kept := trim_append hf (List.forall_mem_nil (isBlank · = true)) cs
  rwa [List.append_nil] at kept

theorem trim_append_right {back : List Char} (hb : ∀ c ∈ back, isBlank c = true) (cs : List Char) :
    trim (cs ++ back) = trim cs :=
  trim_append (List.forall_mem_nil (isBlank · = true)) hb cs

/-- A text without blanks around it. -/
def Trimmed (s : String) : Prop := strip s = s

instance (s : String) : Decidable (Trimmed s) := inferInstanceAs (Decidable (strip s = s))

theorem trimmed_strip (s : String) : Trimmed (strip s) := strip_strip s

end PerfFormula.Text
