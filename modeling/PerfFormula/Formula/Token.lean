import PerfFormula.Formula.SyntaxError
import PerfFormula.Decimal.Reader

/-!
# Tokens

The words and symbols of a formula, and how a text is cut into them. From left to right the longest
prefix of the class that its first character opens is taken:

* blank runs separate tokens and are dropped;
* numbers: `12`, `1.5`, `.1`, `2.`, `1e-3`;
* names: letters, digits and `_ . : @ ?`, and the characters `, = -` behind a backslash;
* host literals: `#` and letters, digits or `_`;
* operators, parentheses and the comma.

A name may stand for an event with parameters, as in `EVENT\,param\=?@`. Such a literal name, one
with an escape, has to end with `@`. Reading a name drops the backslashes, turns each `@` into `/`
and, when the runtime parameter is not zero, each `?` into its value. The last token of a text is
its end.

Main statements:

* `Token.front?_isPrefix` — a lexeme is a prefix of the text, so nothing is lost or made up.
* `Token.front?_ne_nil` — a lexeme is never empty, so cutting ends.
* `Token.scan_of_read`, `Token.scan_of_read_error` — one step of the cutting.
-/

namespace PerfFormula

open PerfFormula.Text

/-- What a token means. -/
inductive Lexeme where
  | number (value : Float)
  | name (name : String)
  | literal (name : String)
  | function (function : Builtin)
  | ifWord
  | elseWord
  | operator (op : Operator)
  | opening
  | closing
  | comma
  /-- The end of the text. -/
  | ending
  deriving BEq

/-- A lexeme, the position of its first character and the characters that write it. -/
structure Token where
  lexeme : Lexeme
  position : Nat
  raw : String
  deriving BEq

/-- The text of a token: the name that a name or host literal denotes, and the characters of any
other token. -/
def Token.text (t : Token) : String :=
  match t.lexeme with
  | .name n => n
  | .literal n => n
  | _ => t.raw

namespace Token

/-! ## Classes of characters -/

/-- Letters, digits and the underscore, in ASCII. -/
def isWordChar (c : Char) : Bool := c.isAlphanum || c == '_'

/-- The characters of a name that need no escape. -/
def isNameChar (c : Char) : Bool :=
  isWordChar c || c == '.' || c == ':' || c == '@' || c == '?'

/-- The characters that an escape may bring into a name. -/
def isEscapable (c : Char) : Bool := c == ',' || c == '=' || c == '-'

/-! ## Longest prefixes of a class -/

/-- The longest prefix of digits with at most one point in front of, among or behind them. -/
def mantissaPrefix (cs : List Char) : List Char :=
  let whole := cs.takeWhile isDigit
  match cs.dropWhile isDigit with
  | '.' :: rest =>
    let fraction := rest.takeWhile isDigit
    if whole.isEmpty && fraction.isEmpty then [] else whole ++ '.' :: fraction
  | _ => whole

/-- The power of ten in front of a text: the letter `e`, perhaps a minus, and digits. -/
def powerPrefix : List Char → List Char
  | 'e' :: '-' :: rest =>
    let digits := rest.takeWhile isDigit
    if digits.isEmpty then [] else 'e' :: '-' :: digits
  | 'e' :: rest =>
    let digits := rest.takeWhile isDigit
    if digits.isEmpty then [] else 'e' :: digits
  | _ => []

/-- The longest number in front of a text. -/
def numberPrefix (cs : List Char) : List Char :=
  let mantissa := mantissaPrefix cs
  if mantissa.isEmpty then [] else mantissa ++ powerPrefix (cs.drop mantissa.length)

/-- The longest name in front of a text, escapes included. -/
def namePrefix : List Char → List Char
  | '\\' :: c :: cs => if isEscapable c then '\\' :: c :: namePrefix cs else []
  | c :: cs => if isNameChar c then c :: namePrefix cs else []
  | [] => []

/-! ## The lexeme in front of a text -/

/-- The class of what stands in front of a text. -/
inductive Kind where
  | blank
  | number
  | name
  | escape
  | literal
  | symbol (lexeme : Lexeme)

/-- The lexeme that a single character writes. -/
def symbol? (c : Char) : Option Lexeme :=
  if c = '(' then some .opening
  else if c = ')' then some .closing
  else if c = ',' then some .comma
  else (Operator.ofSymbol? c).map .operator

/-- The class and the characters of what stands in front of a text; `none` at the end of the text
and before a character that starts nothing. A backslash that escapes nothing is taken together with
the character it stands before, on the same line. -/
def front? : List Char → Option (Kind × List Char)
  | [] => none
  | c :: rest =>
    let cs := c :: rest
    if isBlank c then some (.blank, c :: rest.takeWhile isBlank)
    -- A word that starts with a digit is cut into a number and a name.
    else if !(numberPrefix cs).isEmpty then some (.number, numberPrefix cs)
    else if !(namePrefix cs).isEmpty then some (.name, namePrefix cs)
    else if c = '\\' then some (.escape, c :: (rest.take 1).filter (· ≠ '\n'))
    else if c = '#' then
      -- A number sign alone starts nothing.
      let word := rest.takeWhile isWordChar
      if word.isEmpty then none else some (.literal, c :: word)
    else (symbol? c).map fun lexeme => (.symbol lexeme, [c])

/-! ## Prefixes lose nothing -/

theorem mantissaPrefix_isPrefix (cs : List Char) : mantissaPrefix cs <+: cs := by
  have split := List.takeWhile_append_dropWhile (p := isDigit) (l := cs)
  unfold mantissaPrefix
  split
  · next rest h =>
    rw [h] at split
    have inner := List.takeWhile_append_dropWhile (p := isDigit) (l := rest)
    simp only
    split
    · exact List.nil_prefix
    · exact ⟨rest.dropWhile isDigit, by rw [List.append_assoc, List.cons_append, inner, split]⟩
  · exact ⟨cs.dropWhile isDigit, split⟩

theorem powerPrefix_isPrefix (cs : List Char) : powerPrefix cs <+: cs := by
  unfold powerPrefix
  split
  · next rest =>
    simp only
    split
    · exact List.nil_prefix
    · exact ⟨rest.dropWhile isDigit, by simp⟩
  · next rest _ =>
    simp only
    split
    · exact List.nil_prefix
    · exact ⟨rest.dropWhile isDigit, by simp⟩
  · exact List.nil_prefix

theorem numberPrefix_isPrefix (cs : List Char) : numberPrefix cs <+: cs := by
  unfold numberPrefix
  simp only
  split
  · exact List.nil_prefix
  · obtain ⟨rest, hrest⟩ := mantissaPrefix_isPrefix cs
    have : cs.drop (mantissaPrefix cs).length = rest := by
      have left := @List.drop_left _ (mantissaPrefix cs) rest
      rwa [hrest] at left
    obtain ⟨tail, htail⟩ := powerPrefix_isPrefix rest
    exact ⟨tail, by rw [this, List.append_assoc, htail, hrest]⟩

theorem namePrefix_isPrefix (cs : List Char) : namePrefix cs <+: cs := by
  fun_induction namePrefix cs with
  | case1 c cs _ ih => obtain ⟨t, ht⟩ := ih; exact ⟨t, by simp [ht]⟩
  | case2 => exact List.nil_prefix
  | case3 c cs _ _ ih => obtain ⟨t, ht⟩ := ih; exact ⟨t, by simp [ht]⟩
  | case4 => exact List.nil_prefix
  | case5 => exact List.nil_prefix

/-- A lexeme is a prefix of the text. -/
theorem front?_isPrefix {cs raw : List Char} {kind : Kind} (h : front? cs = some (kind, raw)) :
    raw <+: cs := by
  cases cs with
  | nil => simp [front?] at h
  | cons c rest =>
    simp only [front?] at h
    split at h
    · obtain ⟨-, rfl⟩ := Prod.mk.inj (Option.some.inj h)
      exact List.prefix_cons_inj c |>.2 (List.takeWhile_prefix _)
    split at h
    · obtain ⟨-, rfl⟩ := Prod.mk.inj (Option.some.inj h)
      exact numberPrefix_isPrefix _
    split at h
    · obtain ⟨-, rfl⟩ := Prod.mk.inj (Option.some.inj h)
      exact namePrefix_isPrefix _
    split at h
    · obtain ⟨-, rfl⟩ := Prod.mk.inj (Option.some.inj h)
      refine List.prefix_cons_inj c |>.2 ?_
      cases rest with
      | nil => exact List.nil_prefix
      | cons d ds => by_cases hd : d = '\n' <;> simp [hd]
    split at h
    · split at h
      · simp at h
      · obtain ⟨-, rfl⟩ := Prod.mk.inj (Option.some.inj h)
        exact List.prefix_cons_inj c |>.2 (List.takeWhile_prefix _)
    · obtain ⟨_, _, he⟩ := Option.map_eq_some_iff.1 h
      obtain ⟨-, rfl⟩ := Prod.mk.inj he
      exact ⟨rest, rfl⟩

/-- A lexeme is never empty. -/
theorem front?_ne_nil {cs raw : List Char} {kind : Kind} (h : front? cs = some (kind, raw)) :
    raw ≠ [] := by
  cases cs with
  | nil => simp [front?] at h
  | cons c rest =>
    simp only [front?] at h
    split at h
    · obtain ⟨-, rfl⟩ := Prod.mk.inj (Option.some.inj h)
      simp
    split at h
    · next hn =>
      obtain ⟨-, rfl⟩ := Prod.mk.inj (Option.some.inj h)
      simpa using hn
    split at h
    · next hn =>
      obtain ⟨-, rfl⟩ := Prod.mk.inj (Option.some.inj h)
      simpa using hn
    split at h
    · obtain ⟨-, rfl⟩ := Prod.mk.inj (Option.some.inj h)
      simp
    split at h
    · split at h
      · simp at h
      · obtain ⟨-, rfl⟩ := Prod.mk.inj (Option.some.inj h)
        simp
    · obtain ⟨_, _, he⟩ := Option.map_eq_some_iff.1 h
      obtain ⟨-, rfl⟩ := Prod.mk.inj he
      simp

/-- What is left after a lexeme is shorter. -/
theorem length_drop_front?_lt {cs raw : List Char} {kind : Kind}
    (h : front? cs = some (kind, raw)) : (cs.drop raw.length).length < cs.length := by
  have pos := List.length_pos_iff.2 (front?_ne_nil h)
  have le := (front?_isPrefix h).length_le
  simp only [List.length_drop]
  omega

/-! ## Reading a lexeme -/

/-- What stands for a `?` of a name: the digits of the runtime parameter, if they can be written;
without a parameter the `?` itself. -/
def standIn? (runtime : Nat) : Option (List Char) :=
  if 0 < runtime then Decimal.writeNat? runtime else some ['?']

/-- The name that a run of name characters and escapes denotes: escapes are resolved, `@` becomes
`/`, and with a runtime parameter above zero each `?` becomes its digits. There is none if these are
too many. -/
def resolve (runtime : Nat) : List Char → Option (List Char)
  | '\\' :: c :: cs => (resolve runtime cs).map (c :: ·)
  | '@' :: cs => (resolve runtime cs).map ('/' :: ·)
  | '?' :: cs => (standIn? runtime).bind fun digits => (resolve runtime cs).map (digits ++ ·)
  | c :: cs => (resolve runtime cs).map (c :: ·)
  | [] => some []

/-- The word that a run of name characters is: a keyword, a function or a name. A name with an
escape has to end with `@`. -/
def word (runtime : Nat) (raw : List Char) : Except (Unreadable SyntaxFault) Lexeme :=
  let s := String.ofList raw
  if s = "if" then .ok .ifWord
  else if s = "else" then .ok .elseWord
  else match Builtin.ofName? s with
    | some f => .ok (.function f)
    | none =>
      if '\\' ∈ raw ∧ raw.getLast? ≠ some '@' then .error (.malformed .unterminatedName)
      else match resolve runtime raw with
        | some name => .ok (.name (String.ofList name))
        | none => .error .runtimeTooLong

/-- What a lexeme of a class means; a blank run means nothing. -/
def read (runtime : Nat) (kind : Kind) (raw : List Char) :
    Except (Unreadable SyntaxFault) (Option Lexeme) :=
  match kind with
  | .blank => .ok none
  | .number => .ok (some (.number (Decimal.value raw)))
  | .name => (word runtime raw).map some
  | .escape => .error (.malformed (if raw.length = 1 then .unterminatedName else .invalidEscape))
  | .literal => .ok (some (.literal (String.ofList (raw.drop 1))))
  | .symbol lexeme => .ok (some lexeme)

/-- The tokens of a text that stands at a position of the formula, without the end. -/
def scan (runtime position : Nat) (cs : List Char) :
    Except (Unreadable SyntaxError) (List Token) :=
  match _h : front? cs with
  | none =>
    match cs with
    | [] => .ok []
    | c :: _ => .error (.malformed ⟨.unexpectedCharacter, position, String.ofList [c]⟩)
  | some (kind, raw) =>
    match read runtime kind raw with
    | .error e => .error (e.map fun fault => ⟨fault, position, String.ofList raw⟩)
    | .ok lexeme? =>
      match scan runtime (position + raw.length) (cs.drop raw.length) with
      | .error e => .error e
      | .ok tokens =>
        match lexeme? with
        | none => .ok tokens
        | some lexeme => .ok (⟨lexeme, position, String.ofList raw⟩ :: tokens)
termination_by cs.length
decreasing_by exact length_drop_front?_lt _h

/-! ## One step of the cutting -/

/-- The token of a lexeme, none for a blank run. -/
def ofLexeme? (position : Nat) (raw : List Char) : Option Lexeme → List Token
  | none => []
  | some lexeme => [⟨lexeme, position, String.ofList raw⟩]

theorem scan_nil (runtime position : Nat) : scan runtime position [] = .ok [] := by
  rw [scan]
  split
  · rfl
  · next h => simp [front?] at h

theorem scan_of_front?_eq_none {c : Char} {cs : List Char} (h : front? (c :: cs) = none)
    (runtime position : Nat) : scan runtime position (c :: cs) =
      .error (.malformed ⟨.unexpectedCharacter, position, String.ofList [c]⟩) := by
  rw [scan]
  split
  · rfl
  · next h' => simp [h] at h'

theorem scan_of_read_error {cs raw : List Char} {kind : Kind} {runtime : Nat}
    {e : Unreadable SyntaxFault} (h : front? cs = some (kind, raw))
    (unread : read runtime kind raw = .error e) (position : Nat) :
    scan runtime position cs =
      .error (e.map fun fault => ⟨fault, position, String.ofList raw⟩) := by
  rw [scan]
  split
  · next h' => simp [h] at h'
  · next h' =>
    obtain ⟨rfl, rfl⟩ := Prod.mk.inj (Option.some.inj (h.symm.trans h'))
    rw [unread]

theorem scan_of_read {cs raw : List Char} {kind : Kind} {runtime : Nat} {lexeme? : Option Lexeme}
    (h : front? cs = some (kind, raw)) (meant : read runtime kind raw = .ok lexeme?)
    (position : Nat) :
    scan runtime position cs = (scan runtime (position + raw.length) (cs.drop raw.length)).map
      (ofLexeme? position raw lexeme? ++ ·) := by
  conv => lhs; rw [scan]
  split
  · next h' => simp [h] at h'
  · next h' =>
    obtain ⟨rfl, rfl⟩ := Prod.mk.inj (Option.some.inj (h.symm.trans h'))
    rw [meant]
    dsimp only
    cases scan runtime (position + raw.length) (cs.drop raw.length) with
    | error e => rfl
    | ok tokens => cases lexeme? <;> rfl

/-! ## Whole formulas -/

/-- The token at the end of a formula. -/
def atEnd (source : String) : Token := ⟨.ending, source.length, ""⟩

end Token

/-- The tokens of a formula, the last of which is its end. -/
def tokenize (source : String) (runtime : Nat) : Except (Unreadable SyntaxError) (List Token) :=
  match Token.scan runtime 0 source.toList with
  | .error e => .error e
  | .ok tokens => .ok (tokens ++ [Token.atEnd source])

/-- The tokens of a formula are those of its characters, and its end. -/
theorem tokenize_eq_ok_iff {source : String} {runtime : Nat} {all : List Token} :
    tokenize source runtime = .ok all ↔
      ∃ ts, Token.scan runtime 0 source.toList = .ok ts ∧ all = ts ++ [Token.atEnd source] := by
  unfold tokenize
  split
  · next failed => simp [failed]
  · next ts scanned => simp [scanned, eq_comm]

theorem tokenize_append_iff {source : String} {runtime : Nat} {ts : List Token} {ending : Token} :
    tokenize source runtime = .ok (ts ++ [ending]) ↔
      Token.scan runtime 0 source.toList = .ok ts ∧ ending = Token.atEnd source := by
  rw [tokenize_eq_ok_iff]
  constructor
  · rintro ⟨us, scanned, same⟩
    obtain ⟨rfl, last⟩ := List.append_inj' same rfl
    exact ⟨scanned, List.singleton_inj.1 last⟩
  · rintro ⟨scanned, rfl⟩
    exact ⟨ts, scanned, rfl⟩

theorem tokenize_eq_error_iff {source : String} {runtime : Nat} {e : Unreadable SyntaxError} :
    tokenize source runtime = .error e ↔ Token.scan runtime 0 source.toList = .error e := by
  unfold tokenize
  split
  · next failed => simp [failed]
  · next ts scanned => simp [scanned]

end PerfFormula
