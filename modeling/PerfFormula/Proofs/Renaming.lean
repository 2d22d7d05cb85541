import Mathlib
import PerfFormula.Proofs.Lockstep
import PerfFormula.Proofs.Tokens

/-!
# The runtime parameter only renames

The runtime parameter of a formula stands for `?` in names. It could do more: whether a run of
characters is a keyword, whether a name is one that can be called and where a text goes wrong are
all decided on the way from the text to the tree. But what a token is and where it stands is decided
before its name is read, and the parser never looks at a name. So a text with a runtime parameter is
parsed like the same text without one, up to the names in the tree.

There is one limit. The parameter has to be written for each `?`, and a number with too many digits
cannot be written; a text without a `?` does not mind it.

Main statements:

* `Token.scan_of_runtime` — with a runtime parameter a text has the same tokens, but for their
  names.
* `Formula.parse_of_runtime` — the tree is the one without a runtime parameter, with other names.
* `Formula.parse_eq_tooLong_iff` — when a parameter is too long for a text.
* `Formula.parse_renames` — a text is malformed in the same way with and without a parameter.
-/

namespace PerfFormula

/-! ## Renaming -/

/-- A token that means another name, and is still written as it was. -/
def Token.rename (ρ : String → String) (t : Token) : Token := { t with lexeme := t.lexeme.rename ρ }

namespace Parsing

/-- The tokens with other names. -/
def renamed (ρ : String → String) (ts : List Token) : List Token := ts.map (·.rename ρ)

def Failure.rename (ρ : String → String) (f : Failure) : Failure := ⟨f.fault, renamed ρ f.rest⟩

/-- A failure names the token to blame as it is written, so the names do not show. -/
theorem locate_rename (ρ : String → String) (ending : Token) (f : Failure) :
    (f.rename ρ).locate ending = f.locate ending := by
  rcases f with ⟨fault, _ | ⟨t, rest⟩⟩ <;> rfl

/-- Tokens with other names are parsed in step. -/
theorem formula_renamed {ρ : String → String} (ts : List Token) :
    (∃ f, formula ts = .error f ∧ formula (renamed ρ ts) = .error (f.rename ρ)) ∨
      ∃ x, formula ts = .ok x ∧ formula (renamed ρ ts) = .ok (x.rename ρ) :=
  formula_relabeled ρ id ts

end Parsing

/-! ## The same text with and without a runtime parameter -/

namespace Token

/-- Write the runtime parameter for each `?` of a name. -/
def substitute (runtime : Nat) (name : String) : String :=
  .ofList (name.toList.flatMap fun c => if c = '?' then Nat.toDigits 10 runtime else [c])

/-- A name that has a `?` is cut from the text, before anything of it is malformed. -/
inductive Asks : List Char → Prop
  | here {raw behind : List Char} {name : String} :
      front? (raw ++ behind) = some (.name, raw) → word 0 raw = .ok (.name name) → '?' ∈ raw →
      Asks (raw ++ behind)
  | behind {raw behind : List Char} {kind : Kind} {lexeme? : Option Lexeme} :
      front? (raw ++ behind) = some (kind, raw) → read 0 kind raw = .ok lexeme? → Asks behind →
      Asks (raw ++ behind)

variable {runtime : Nat} {raw cs : List Char}

/-! ### Names -/

theorem resolve_of_runtime (positive : 0 < runtime) (run : NameRun raw)
    (short : '?' ∈ raw → Decimal.writeNat? runtime ≠ none) :
    resolve runtime raw = (resolve 0 raw).map fun name =>
      name.flatMap fun c => if c = '?' then Nat.toDigits 10 runtime else [c] := by
  induction run with
  | nil => rfl
  | @char c cs hc _ ih =>
    have plain : c ≠ '\\' := by
      rintro rfl
      exact absurd hc (by decide)
    have behind := ih fun mem => short (List.mem_cons_of_mem c mem)
    by_cases question : c = '?'
    · subst question
      have written := Decimal.writeNat?_eq_some (short List.mem_cons_self)
      simp [resolve, standIn?, positive, written, behind, Function.comp_def]
    by_cases sign : c = '@'
    · subst sign
      simp [resolve, behind, Function.comp_def]
    · simp [resolve, question, plain, behind, Function.comp_def]
  | @escape c cs hc _ ih =>
    -- None of the characters that may be escaped is a question mark.
    have other : c ≠ '?' := by
      rintro rfl
      exact absurd hc (by decide)
    have behind := ih fun mem => short (List.mem_cons_of_mem _ (List.mem_cons_of_mem c mem))
    simp [resolve, other, behind, Function.comp_def]

/-- Without a runtime parameter every name can be written. -/
theorem exists_resolve_zero (raw : List Char) : ∃ name, resolve 0 raw = some name := by
  fun_induction resolve 0 raw with
  | case3 cs ih =>
    obtain ⟨name, same⟩ := ih
    exact ⟨'?' :: name, by rw [same]; rfl⟩
  | case5 => exact ⟨[], rfl⟩
  | case1 _ _ ih | case2 _ ih | case4 _ _ _ _ _ ih =>
    obtain ⟨name, same⟩ := ih
    exact ⟨_, by rw [same]; rfl⟩

/-- A parameter that is too long to be written makes no name of a run that asks for it. -/
theorem resolve_of_long (positive : 0 < runtime) (long : Decimal.writeNat? runtime = none)
    (run : NameRun raw) (asks : '?' ∈ raw) : resolve runtime raw = none := by
  induction run with
  | nil => cases asks
  | @char c cs hc _ ih =>
    have plain : c ≠ '\\' := by
      rintro rfl
      exact absurd hc (by decide)
    by_cases question : c = '?'
    · subst question
      simp [resolve, standIn?, positive, long]
    have behind := ih ((List.mem_cons.1 asks).resolve_left (Ne.symm question))
    by_cases sign : c = '@'
    · subst sign
      simp [resolve, behind]
    · simp [resolve, plain, behind]
  | @escape c cs hc _ ih =>
    have other : c ≠ '?' := by
      rintro rfl
      exact absurd hc (by decide)
    have behind : '?' ∈ cs := by simpa [other.symm] using asks
    simp [resolve, ih behind]

/-! ### Words -/

/-- What a run of characters is if it is no keyword, no function and no name that misses its end. -/
theorem word_eq_of_name {name : String} (named : word 0 raw = .ok (.name name)) (runtime : Nat) :
    word runtime raw =
      match resolve runtime raw with
      | some name => .ok (.name (String.ofList name))
      | none => .error .runtimeTooLong := by
  unfold word at named ⊢
  dsimp only at named ⊢
  split at named
  · cases named
  split at named
  · cases named
  split at named
  · cases named
  split at named
  · cases named
  next notIf notElse _ _ ended =>
    rw [if_neg notIf, if_neg notElse]
    exact if_neg ended

/-- Whether a run of characters is a name does not depend on the runtime parameter. -/
theorem word_of_runtime (positive : 0 < runtime) (run : NameRun raw)
    (short : ∀ name, word 0 raw = .ok (.name name) → '?' ∈ raw →
      Decimal.writeNat? runtime ≠ none) :
    word runtime raw = (word 0 raw).map (Lexeme.rename (substitute runtime)) := by
  obtain ⟨name, resolved⟩ := exists_resolve_zero raw
  by_cases named : word 0 raw = .ok (.name (.ofList name))
  · rw [word_eq_of_name named, resolve_of_runtime positive run (short _ named), named, resolved]
    show Except.ok (Lexeme.name (.ofList _)) = .ok ((Lexeme.name (.ofList name)).rename _)
    rw [Lexeme.rename, substitute, String.toList_ofList]
  · -- Anything else is told without looking at the runtime parameter.
    unfold word at named ⊢
    dsimp only at named ⊢
    rw [resolved] at named ⊢
    split
    · rfl
    split
    · rfl
    split
    · rfl
    split
    · rfl
    · next notIf notElse _ unknown ended =>
      rw [if_neg notIf, if_neg notElse, unknown] at named
      exact absurd (if_neg ended) named

theorem rename_of_symbol? {c : Char} {lexeme : Lexeme} (h : symbol? c = some lexeme)
    (ρ : String → String) : lexeme.rename ρ = lexeme := by
  cases lexeme with
  | name n =>
    unfold symbol? at h
    split at h
    · cases h
    split at h
    · cases h
    split at h
    · cases h
    · obtain ⟨op, -, hop⟩ := Option.map_eq_some_iff.1 h
      cases hop
  | _ => rfl

theorem read_of_runtime (positive : 0 < runtime) {kind : Kind} (mem : kind.Class raw)
    (short : ∀ name, kind = .name → word 0 raw = .ok (.name name) → '?' ∈ raw →
      Decimal.writeNat? runtime ≠ none) :
    read runtime kind raw =
      (read 0 kind raw).map (Option.map (Lexeme.rename (substitute runtime))) := by
  cases kind with
  | name =>
    show (word runtime raw).map some = ((word 0 raw).map some).map _
    rw [word_of_runtime positive mem.1 fun name => short name rfl]
    cases word 0 raw <;> rfl
  | symbol lexeme =>
    obtain ⟨c, -, hc⟩ := mem
    show Except.ok (some lexeme) = Except.ok (some (lexeme.rename _))
    rw [rename_of_symbol? hc]
  | _ => rfl

/-! ### Texts -/

/-- With a runtime parameter a text has the same tokens, but for their names, unless one of these
asks for a parameter that is too long. -/
theorem scan_of_runtime (positive : 0 < runtime) (position : Nat) (cs : List Char)
    (short : Asks cs → Decimal.writeNat? runtime ≠ none) :
    scan runtime position cs =
      (scan 0 position cs).map (Parsing.renamed (substitute runtime)) := by
  induction position, cs using scan_induction 0 with
  | ended position =>
    rw [scan_nil, scan_nil]
    rfl
  | unknown position c cs none =>
    rw [scan_of_front?_eq_none none, scan_of_front?_eq_none none]
    rfl
  | meaningless position raw behind kind e front unread =>
    have first : read runtime kind raw = _ :=
      read_of_runtime positive (front?_isLongest front).mem
        fun name isName named asks => short (.here (isName ▸ front) named asks)
    rw [unread] at first
    rw [scan_of_read_error front unread, scan_of_read_error front first]
    rfl
  | step position raw behind kind lexeme? front meant ih =>
    have first : read runtime kind raw = _ :=
      read_of_runtime positive (front?_isLongest front).mem
        fun name isName named asks => short (.here (isName ▸ front) named asks)
    rw [meant] at first
    rw [scan_append front meant, scan_append front first,
      ih fun asks => short (.behind front meant asks)]
    cases scan 0 (position + raw.length) behind with
    | error e => rfl
    | ok tokens => cases lexeme? <;> rfl

/-- A text with a name that asks for a parameter that is too long cannot be read. -/
theorem Asks.scan_eq (asks : Asks cs) (positive : 0 < runtime)
    (long : Decimal.writeNat? runtime = none) (position : Nat) :
    scan runtime position cs = .error .runtimeTooLong := by
  induction asks generalizing position with
  | @here raw behind name front named question =>
    have run : NameRun raw := (front?_isLongest front).mem.1
    have unread : read runtime .name raw = .error .runtimeTooLong := by
      show (word runtime raw).map some = _
      rw [word_eq_of_name named, resolve_of_long positive long run question]
      rfl
    rw [scan_of_read_error front unread]
    rfl
  | @behind raw behind kind lexeme? front meant _ ih =>
    -- The lexeme may ask for the parameter as well; if it does not, what is behind it does.
    by_cases first : kind = .name ∧ (∃ name, word 0 raw = .ok (.name name)) ∧ '?' ∈ raw
    · obtain ⟨rfl, ⟨name, named⟩, question⟩ := first
      have unread : read runtime .name raw = .error .runtimeTooLong := by
        show (word runtime raw).map some = _
        rw [word_eq_of_name named,
          resolve_of_long positive long (front?_isLongest front).mem.1 question]
        rfl
      rw [scan_of_read_error front unread]
      rfl
    · have read : Token.read runtime kind raw = _ :=
        read_of_runtime positive (front?_isLongest front).mem
          fun name isName named question => absurd ⟨isName, ⟨name, named⟩, question⟩ first
      rw [meant] at read
      rw [scan_append front read, ih]
      rfl

/-! ## Texts without a question mark -/

theorem resolve_of_unmarked {runtime : Nat} {raw : List Char} (unmarked : '?' ∉ raw) :
    resolve runtime raw = resolve 0 raw := by
  fun_induction resolve runtime raw with
  | case1 c cs ih =>
    rw [resolve, ih fun mem => unmarked (by simp [mem])]
  | case2 cs ih => rw [resolve, ih fun mem => unmarked (by simp [mem])]
  | case3 cs ih => exact absurd List.mem_cons_self unmarked
  | case4 c cs h₁ h₂ h₃ ih =>
    rw [resolve, ih fun mem => unmarked (by simp [mem])]
    all_goals assumption
  | case5 => rw [resolve]

theorem read_of_unmarked {runtime : Nat} {raw : List Char} (kind : Kind) (unmarked : '?' ∉ raw) :
    read runtime kind raw = read 0 kind raw := by
  cases kind with
  | name =>
    show (word runtime raw).map some = (word 0 raw).map some
    unfold word
    rw [resolve_of_unmarked unmarked]
  | _ => rfl

theorem read_zero_ne_tooLong (kind : Kind) (raw : List Char) :
    read 0 kind raw ≠ .error .runtimeTooLong := by
  cases kind with
  | name =>
    obtain ⟨name, resolved⟩ := exists_resolve_zero raw
    intro failed
    have failed : word 0 raw = .error .runtimeTooLong := map_eq_error_iff.1 failed
    unfold word at failed
    dsimp only at failed
    rw [resolved] at failed
    split at failed
    · cases failed
    split at failed
    · cases failed
    split at failed
    · cases failed
    split at failed
    · cases failed
    · cases failed
  | _ => rintro ⟨⟩

theorem scan_of_unmarked {cs : List Char} (unmarked : '?' ∉ cs) (runtime position : Nat) :
    scan runtime position cs = scan 0 position cs := by
  induction position, cs using scan_induction 0 with
  | ended position => rw [scan_nil, scan_nil]
  | unknown position c cs none =>
    rw [scan_of_front?_eq_none none, scan_of_front?_eq_none none]
  | meaningless position raw behind kind e front unread =>
    have first : read runtime kind raw = _ :=
      read_of_unmarked kind fun mem => unmarked (List.mem_append_left behind mem)
    rw [scan_of_read_error front unread, scan_of_read_error front (first.trans unread)]
  | step position raw behind kind lexeme? front meant ih =>
    have first : read runtime kind raw = _ :=
      read_of_unmarked kind fun mem => unmarked (List.mem_append_left behind mem)
    rw [scan_append front meant, scan_append front (first.trans meant),
      ih fun mem => unmarked (List.mem_append_right raw mem)]

/-- Without a runtime parameter nothing has to be written. -/
theorem scan_zero_ne_tooLong (position : Nat) (cs : List Char) :
    scan 0 position cs ≠ .error .runtimeTooLong := by
  induction position, cs using scan_induction 0 with
  | ended position =>
    rw [scan_nil]
    rintro ⟨⟩
  | unknown position c cs none =>
    rw [scan_of_front?_eq_none none]
    rintro ⟨⟩
  | meaningless position raw behind kind e front unread =>
    rw [scan_of_read_error front unread]
    cases e with
    | malformed fault => rintro ⟨⟩
    | runtimeTooLong => exact absurd unread (read_zero_ne_tooLong kind raw)
  | step position raw behind kind lexeme? front meant ih =>
    rw [scan_append front meant]
    exact fun failed => ih (map_eq_error_iff.1 failed)

end Token

/-! ## Whole formulas -/

namespace Formula

variable {source : String} {runtime : Nat}

/-- With a runtime parameter a text has the tree that it has without one, but for the names, unless
a name of it asks for a parameter that is too long. -/
theorem parse_of_runtime (positive : 0 < runtime)
    (short : Token.Asks source.toList → Decimal.writeNat? runtime ≠ none) :
    Formula.parse source runtime =
      (Formula.parse source 0).map (Formula.rename (Token.substitute runtime)) := by
  have same := Token.scan_of_runtime positive 0 source.toList short
  cases scanned : Token.scan 0 0 source.toList with
  | error e =>
    rw [scanned] at same
    rw [parse_of_tokenize_error (tokenize_eq_error_iff.2 scanned),
      parse_of_tokenize_error (tokenize_eq_error_iff.2 same)]
    rfl
  | ok tokens =>
    rw [scanned] at same
    rw [parse_of_tokenize (tokenize_append_iff.2 ⟨scanned, rfl⟩),
      parse_of_tokenize (tokenize_append_iff.2 ⟨same, rfl⟩)]
    rcases Parsing.formula_renamed (ρ := Token.substitute runtime) tokens with
      ⟨f, hf, hf'⟩ | ⟨x, hx, hx'⟩
    · rw [hf, hf']
      exact congrArg (fun e => Except.error (Unreadable.malformed e)) (Parsing.locate_rename ..)
    · rw [hx, hx']
      rfl

/-- A text without a question mark has the same tree with every runtime parameter. -/
theorem parse_of_unmarked (unmarked : '?' ∉ source.toList) (runtime : Nat) :
    Formula.parse source runtime = Formula.parse source 0 := by
  have same := Token.scan_of_unmarked unmarked runtime 0
  cases scanned : Token.scan 0 0 source.toList with
  | error e =>
    rw [parse_of_tokenize_error (tokenize_eq_error_iff.2 (same.trans scanned)),
      parse_of_tokenize_error (tokenize_eq_error_iff.2 scanned)]
  | ok tokens =>
    rw [parse_of_tokenize (tokenize_append_iff.2 ⟨same.trans scanned, rfl⟩),
      parse_of_tokenize (tokenize_append_iff.2 ⟨scanned, rfl⟩)]

/-- A runtime parameter is too long for a text exactly when it has too many digits and a name of the
text asks for it. -/
theorem parse_eq_tooLong_iff (source : String) (runtime : Nat) :
    Formula.parse source runtime = .error .runtimeTooLong ↔
      Decimal.digitLimit < (Nat.toDigits 10 runtime).length ∧ Token.Asks source.toList := by
  rw [← Decimal.writeNat?_eq_none_iff]
  have without : Formula.parse source 0 ≠ .error .runtimeTooLong := by
    intro failed
    cases lexed : tokenize source 0 with
    | error e =>
      rw [parse_of_tokenize_error lexed] at failed
      cases failed
      exact Token.scan_zero_ne_tooLong _ _ (tokenize_eq_error_iff.1 lexed)
    | ok all =>
      obtain ⟨ts, -, rfl⟩ := tokenize_eq_ok_iff.1 lexed
      rw [parse_of_tokenize lexed] at failed
      obtain ⟨f, -, same⟩ := mapError_eq_error_iff.1 failed
      cases same
  constructor
  · intro failed
    by_contra fits
    rcases Nat.eq_zero_or_pos runtime with rfl | positive
    · exact without failed
    · rw [parse_of_runtime positive fun asks long => fits ⟨long, asks⟩] at failed
      exact without (map_eq_error_iff.1 failed)
  · rintro ⟨long, asks⟩
    have positive : 0 < runtime := by
      rcases Nat.eq_zero_or_pos runtime with rfl | positive
      · cases long
      · exact positive
    exact parse_of_tokenize_error
      (tokenize_eq_error_iff.2 (asks.scan_eq positive long 0))

/-- The runtime parameter only renames, if it can be written where a name asks for it: with one a
text is a formula if it is one without, it is malformed in the same way if it is not, and its tree
differs only in that the names have the parameter for each `?`. -/
theorem parse_renames (source : String) {runtime : Nat} (positive : 0 < runtime) :
    (Formula.parse source runtime = .error .runtimeTooLong ↔
      Decimal.digitLimit < (Nat.toDigits 10 runtime).length ∧ Token.Asks source.toList) ∧
    (Formula.parse source runtime ≠ .error .runtimeTooLong →
      ((∃ x, Formula.parse source runtime = .ok x) ↔ ∃ x, Formula.parse source 0 = .ok x) ∧
      (∀ e, Formula.parse source runtime = .error e ↔ Formula.parse source 0 = .error e) ∧
      ∀ x, Formula.parse source 0 = .ok x →
        Formula.parse source runtime = .ok (x.rename (Token.substitute runtime))) := by
  refine ⟨parse_eq_tooLong_iff source runtime, fun written => ?_⟩
  rw [ne_eq, parse_eq_tooLong_iff, ← Decimal.writeNat?_eq_none_iff] at written
  rw [parse_of_runtime positive fun asks long => written ⟨long, asks⟩]
  cases Formula.parse source 0 with
  | error e =>
    refine ⟨?_, fun e' => ?_, fun x hx => by cases hx⟩
    · constructor <;> (rintro ⟨x, hx⟩; cases hx)
    · exact ⟨fun h => congrArg _ (Except.error.inj h), fun h => congrArg _ (Except.error.inj h)⟩
  | ok x =>
    refine ⟨⟨fun _ => ⟨x, rfl⟩, fun _ => ⟨_, rfl⟩⟩, fun e => ?_, fun y hy => ?_⟩
    · constructor <;> (intro h; cases h)
    · cases hy
      rfl

/-- An event with a parameter, and a text that is malformed behind one. -/
theorem parse_renames_event :
    0 < 12 ∧
      Formula.parse "EVENT\\,param\\=?@" 12 = .ok (.name "EVENT,param=12/") ∧
      Formula.parse "a? + b?)" 12 = .error (.malformed ⟨.unexpectedToken, 7, ")"⟩) := by
  have event : Formula.parse "EVENT\\,param\\=?@" 0 = .ok (.name "EVENT,param=?/") := by cbv
  have malformed : Formula.parse "a? + b?)" 0 =
      .error (.malformed ⟨.unexpectedToken, 7, ")"⟩) := by cbv
  have renamed : Token.substitute 12 "EVENT,param=?/" = "EVENT,param=12/" := by cbv
  have short : ¬Decimal.digitLimit < (Nat.toDigits 10 12).length := by decide
  have written (source : String) : Formula.parse source 12 ≠ .error .runtimeTooLong :=
    fun failed => short ((parse_renames source (by decide)).1.1 failed).1
  refine ⟨by decide, ?_,
    ((parse_renames "a? + b?)" (by decide)).2 (written _)).2.1 _ |>.2 malformed⟩
  rw [((parse_renames "EVENT\\,param\\=?@" (by decide)).2 (written _)).2.2 _ event, rename, renamed]

/-- A number with one digit more than can be written. -/
def unwritable : Nat := 10 ^ Decimal.digitLimit

theorem digitLimit_lt_unwritable :
    Decimal.digitLimit < (Nat.toDigits 10 unwritable).length := by
  exact Nat.lt_of_not_le fun short =>
    Nat.lt_irrefl _ ((Nat.length_toDigits_le_iff (by decide) (by decide)).1 short)

theorem asks_unwritable : Token.Asks "a?".toList := by
  have front : Token.front? ("a?".toList ++ []) = some (.name, "a?".toList) := by rfl
  rw [← List.append_nil "a?".toList]
  exact .here front rfl (by decide)

/-- A name alone is a formula without a runtime parameter, but not with every one. -/
theorem parse_unwritable : ¬∀ (source : String) (runtime : Nat), 0 < runtime →
    ((∃ x, Formula.parse source runtime = .ok x) ↔ ∃ x, Formula.parse source 0 = .ok x) := by
  intro always
  have plain : Formula.parse "a?" 0 = .ok (.name "a?") := by cbv
  obtain ⟨x, parses⟩ := (always "a?" unwritable (Nat.pow_pos (by decide))).2 ⟨_, plain⟩
  have long : parse "a?" unwritable = .error .runtimeTooLong :=
    (parse_eq_tooLong_iff "a?" unwritable).2 ⟨digitLimit_lt_unwritable, asks_unwritable⟩
  rw [long] at parses
  cases parses

end Formula
end PerfFormula
