import PerfFormula.Decimal.Typed
import PerfFormula.Formula.TokenClass

/-!
# What tokens are written as

Reading a lexeme, and later the parser, take for granted that the characters of a token are of its
class: that there is a character behind every backslash of a name, that the characters of a number
can be read as a number, and that an operator, a function or a parenthesis is one that there is. All
of this follows from how a text is cut.

Main statements:

* `Token.scan_induction` — induction along the lexemes of a text.
* `Token.token_of_scan` — a token is a piece of the text, cut and read where it stands.
* `Token.escapable_of_front?` — in a name every backslash stands before a character that it escapes.
* `Token.readReal?_of_isNumber` — the characters of a number are read as its value.
* `Token.denotes_of_tokenize` — the characters of a token are what its lexeme is written as.
-/

namespace PerfFormula.Token

open PerfFormula.Text PerfFormula.Decimal

/-! ## Along the cutting -/

theorem scan_append {runtime : Nat} {raw behind : List Char} {kind : Kind}
    {lexeme? : Option Lexeme} (front : front? (raw ++ behind) = some (kind, raw))
    (meant : read runtime kind raw = .ok lexeme?) (position : Nat) :
    scan runtime position (raw ++ behind) =
      (scan runtime (position + raw.length) behind).map (ofLexeme? position raw lexeme? ++ ·) := by
  rw [scan_of_read front meant, List.drop_left]

/-- What holds of a text behind a lexeme holds in front of it, so it holds of every text if it does
where the cutting stops: at the end, and before what starts no lexeme or has no meaning. -/
theorem scan_induction (runtime : Nat) {motive : Nat → List Char → Prop}
    (ended : ∀ position, motive position [])
    (unknown : ∀ position c cs, front? (c :: cs) = none → motive position (c :: cs))
    (meaningless : ∀ position raw behind kind e, front? (raw ++ behind) = some (kind, raw) →
      read runtime kind raw = .error e → motive position (raw ++ behind))
    (step : ∀ position raw behind kind lexeme?, front? (raw ++ behind) = some (kind, raw) →
      read runtime kind raw = .ok lexeme? → motive (position + raw.length) behind →
      motive position (raw ++ behind)) (position : Nat) (cs : List Char) : motive position cs := by
  -- On the length of the text, since what is left behind a lexeme is shorter.
  induction hn : cs.length using Nat.strongRecOn generalizing position cs with
  | ind n ih =>
    subst hn
    cases front : front? cs with
    | none =>
      cases cs with
      | nil => exact ended position
      | cons c cs => exact unknown position c cs front
    | some found =>
      obtain ⟨kind, raw⟩ := found
      obtain ⟨behind, rfl⟩ := front?_isPrefix front
      cases meant : read runtime kind raw with
      | error e => exact meaningless position raw behind kind e front meant
      | ok lexeme? =>
        have fewer := length_drop_front?_lt front
        rw [List.drop_left] at fewer
        exact step position raw behind kind lexeme? front meant (ih _ fewer _ behind rfl)

/-- A token is a piece of the text, cut and read where it stands. -/
theorem token_of_scan {runtime position : Nat} {cs : List Char} {ts : List Token}
    (scanned : scan runtime position cs = .ok ts) {t : Token} (mem : t ∈ ts) :
    ∃ before raw behind kind, cs = before ++ (raw ++ behind) ∧
      front? (raw ++ behind) = some (kind, raw) ∧
      read runtime kind raw = .ok (some t.lexeme) ∧ t.position = position + before.length ∧
      t.raw = String.ofList raw := by
  induction position, cs using scan_induction runtime generalizing ts with
  | ended position =>
    rw [scan_nil] at scanned
    cases scanned
    cases mem
  | unknown position c cs none =>
    rw [scan_of_front?_eq_none none] at scanned
    cases scanned
  | meaningless position raw behind kind e front unread =>
    rw [scan_of_read_error front unread] at scanned
    cases scanned
  | step position raw behind kind lexeme? front meant ih =>
    rw [scan_append front meant] at scanned
    cases later : scan runtime (position + raw.length) behind with
    | error e =>
      rw [later] at scanned
      cases scanned
    | ok tokens =>
      rw [later] at scanned
      cases scanned
      rcases List.mem_append.1 mem with mem | mem
      · -- The token was cut here.
        cases lexeme? with
        | none => cases mem
        | some lexeme =>
          obtain rfl := List.mem_singleton.1 mem
          exact ⟨[], raw, behind, kind, rfl, front, meant, rfl, rfl⟩
      · obtain ⟨before, raw', behind', kind', rfl, found, read, place, written⟩ := ih later mem
        refine ⟨raw ++ before, raw', behind', kind', (List.append_assoc ..).symm, found, read, ?_,
          written⟩
        rw [place, List.length_append, Nat.add_assoc]

/-! ## Escapes -/

/-- In a name every backslash stands before a character that it escapes. -/
theorem NameRun.escapable {raw : List Char} (run : NameRun raw) {i : Nat}
    (backslash : raw[i]? = some '\\') : ∃ c, raw[i + 1]? = some c ∧ isEscapable c = true := by
  induction run generalizing i with
  | nil => cases backslash
  | @char c cs hc _ ih =>
    cases i with
    | zero =>
      obtain rfl : c = '\\' := Option.some.inj backslash
      exact absurd hc (by decide)
    | succ i => exact ih backslash
  | @escape c cs hc _ ih =>
    match i, backslash with
    | 0, _ => exact ⟨c, rfl, hc⟩
    | 1, backslash =>
      obtain rfl : c = '\\' := Option.some.inj backslash
      exact absurd hc (by decide)
    | i + 2, backslash => exact ih backslash

theorem escapable_of_front? {cs raw : List Char} (front : front? cs = some (.name, raw)) {i : Nat}
    (backslash : raw[i]? = some '\\') : ∃ c, raw[i + 1]? = some c ∧ isEscapable c = true :=
  NameRun.escapable (front?_isLongest front).mem.1 backslash

/-! ## Numbers -/

theorem IsMantissa.cons {cs : List Char} (h : IsMantissa cs) :
    ∃ c rest, cs = c :: rest ∧ (isDigit c = true ∨ c = '.') := by
  obtain ⟨c, mem, -⟩ := h.2
  obtain ⟨d, rest, rfl⟩ := List.exists_cons_of_ne_nil (List.ne_nil_of_mem mem)
  exact ⟨d, rest, rfl, h.digit_or_point d List.mem_cons_self⟩

theorem IsNumber.isNumeralChar {cs : List Char} (h : IsNumber cs) :
    ∀ c ∈ cs, isNumeralChar c = true := by
  obtain ⟨mantissa, power, rfl, inM, inP⟩ := h
  intro c hc
  rcases List.mem_append.1 hc with hc | hc
  · rcases inM.digit_or_point c hc with digit | rfl
    · exact isNumeralChar_of_isDigit digit
    · decide
  · rcases inP with rfl | ⟨sign, digits, rfl, rfl | rfl, run, -⟩
    · cases hc
    · rcases List.mem_cons.1 hc with rfl | hc
      · decide
      · exact isNumeralChar_of_isDigit (run c hc)
    · rcases List.mem_cons.1 hc with rfl | hc
      · decide
      rcases List.mem_cons.1 hc with rfl | hc
      · decide
      · exact isNumeralChar_of_isDigit (run c hc)

theorem scanExponent_of_isPower {cs : List Char} (h : OrEmpty IsPower cs) :
    (Numeral.scanExponent cs).2 = [] := by
  rcases h with rfl | ⟨sign, digits, rfl, minus, run, ne⟩
  · rfl
  · have signs : sign = [] ∨ sign = ['-'] ∨ sign = ['+'] := by
      rcases minus with rfl | rfl
      · exact .inl rfl
      · exact .inr (.inl rfl)
    have scanned := scanExponent_power [] (.inl rfl) signs run ne
    rwa [List.append_nil] at scanned

/-- Nothing of a number is left when it is scanned. -/
theorem scan_of_isNumber {cs : List Char} (h : IsNumber cs) :
    ∃ n, Numeral.scan cs = (n, []) ∧ n.hasDigit = true := by
  obtain ⟨mantissa, power, rfl, ⟨⟨whole, fraction, rfl, runW, inF⟩, d, hd, digit⟩, inP⟩ := h
  have letters : ∀ c ∈ power.head?, c = 'e' ∨ c = 'E' := by
    rcases inP with rfl | ⟨sign, digits, rfl, -⟩
    · simp
    · rintro c ⟨⟩
      exact .inl rfl
  have some : whole ≠ [] ∨ fraction.drop 1 ≠ [] := by
    rcases List.mem_append.1 hd with hd | hd
    · exact .inl (List.ne_nil_of_mem hd)
    · rcases inF with rfl | ⟨digits, rfl, -⟩
      · cases hd
      · rcases List.mem_cons.1 hd with rfl | hd
        · exact absurd digit (by decide)
        · exact .inr (List.ne_nil_of_mem hd)
  exact scan_to_end runW inF letters (scanExponent_of_isPower inP) some

/-- The characters of a number are read as its value. -/
theorem readReal?_of_isNumber {raw : List Char} (h : IsNumber raw) :
    readReal? (.ofList raw) = some (value raw) := by
  obtain ⟨n, scanned, hasDigit⟩ := scan_of_isNumber h
  have typed : ∀ c ∈ raw, isTyped c = true :=
    fun c hc => isTyped_of_isNumeralChar (h.isNumeralChar c hc)
  obtain ⟨mantissa, power, rfl, inM, -⟩ := h
  obtain ⟨c, rest, rfl, first⟩ := inM.cons
  exact readReal?_of_scan typed first scanned hasDigit

/-! ## Tokens and their lexemes -/

theorem word_of_read {runtime : Nat} {raw : List Char} {lexeme? : Option Lexeme}
    (meant : read runtime .name raw = .ok lexeme?) :
    ∃ lexeme, word runtime raw = .ok lexeme ∧ lexeme? = some lexeme := by
  change (word runtime raw).map some = .ok lexeme? at meant
  cases found : word runtime raw with
  | error fault =>
    rw [found] at meant
    cases meant
  | ok lexeme =>
    rw [found] at meant
    cases meant
    exact ⟨lexeme, rfl, rfl⟩

/-- The characters of a token are what its lexeme is written as. -/
def Denotes (t : Token) : Prop :=
  match t.lexeme with
  | .number x => readReal? t.raw = some x
  | .name _ => NameRun t.raw.toList
  | .literal n => t.raw = "#" ++ n
  | .function g => Builtin.ofName? t.raw = some g
  | .ifWord => t.raw = "if"
  | .elseWord => t.raw = "else"
  | .operator op => ∃ c, t.raw.toList = [c] ∧ Operator.ofSymbol? c = some op
  | .opening => t.raw = "("
  | .closing => t.raw = ")"
  | .comma => t.raw = ","
  | .ending => t.raw = ""

theorem denotes_of_word {runtime position : Nat} {raw : List Char} {lexeme : Lexeme}
    (run : NameRun raw) (meant : word runtime raw = .ok lexeme) :
    Denotes ⟨lexeme, position, .ofList raw⟩ := by
  unfold word at meant
  dsimp only at meant
  split at meant
  · next same =>
    cases meant
    exact same
  split at meant
  · next same =>
    cases meant
    exact same
  split at meant
  · next g found =>
    cases meant
    exact found
  split at meant
  · cases meant
  split at meant
  · cases meant
    show NameRun (String.ofList raw).toList
    rw [String.toList_ofList]
    exact run
  · cases meant

theorem denotes_of_symbol? {position : Nat} {c : Char} {lexeme : Lexeme}
    (found : symbol? c = some lexeme) : Denotes ⟨lexeme, position, .ofList [c]⟩ := by
  unfold symbol? at found
  split at found
  · next same => subst same; cases found; rfl
  split at found
  · next same => subst same; cases found; rfl
  split at found
  · next same => subst same; cases found; rfl
  · obtain ⟨op, known, rfl⟩ := Option.map_eq_some_iff.1 found
    exact ⟨c, String.toList_ofList, known⟩

theorem denotes_of_read {runtime position : Nat} {kind : Kind} {raw : List Char} {lexeme : Lexeme}
    (mem : kind.Class raw) (meant : read runtime kind raw = .ok (some lexeme)) :
    Denotes ⟨lexeme, position, .ofList raw⟩ := by
  cases kind with
  | blank => cases meant
  | number =>
    cases meant
    exact readReal?_of_isNumber mem
  | name =>
    obtain ⟨lexeme, found, ⟨⟩⟩ := word_of_read meant
    exact denotes_of_word mem.1 found
  | escape => cases meant
  | literal =>
    obtain ⟨w, rfl, -⟩ := mem
    cases meant
    show String.ofList (['#'] ++ w) = "#" ++ String.ofList w
    rw [String.ofList_append]
  | symbol lexeme' =>
    obtain ⟨c, rfl, found⟩ := mem
    cases meant
    exact denotes_of_symbol? found

/-- The characters of every token of a text are what its lexeme is written as. -/
theorem denotes_of_tokenize {source : String} {runtime : Nat} {ts : List Token}
    (lexed : tokenize source runtime = .ok ts) : ∀ t ∈ ts, t.Denotes := by
  intro t mem
  obtain ⟨before, scanned, rfl⟩ := tokenize_eq_ok_iff.1 lexed
  rcases List.mem_append.1 mem with mem | mem
  · obtain ⟨before, raw, behind, kind, -, front, meant, -, written⟩ := token_of_scan scanned mem
    obtain ⟨lexeme, position, rawText⟩ := t
    subst written
    exact denotes_of_read (front?_isLongest front).mem meant
  · obtain rfl := List.mem_singleton.1 mem
    rfl

end PerfFormula.Token
