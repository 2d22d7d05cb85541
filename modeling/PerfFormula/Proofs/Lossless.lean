import Mathlib
import PerfFormula.Formula.Parser
import PerfFormula.Proofs.LongestMatch
import PerfFormula.Proofs.Outcome

/-!
# Cutting a formula loses nothing

The tokens of a formula stand in it one after another, and what stands between them is blank. Where
cutting fails it has come to some place of the text, and what it recognized up to there does not
depend on what follows: cut off at that place, the text has just these tokens.

The steps of the cutting are stated as a relation, with the rest of the text in view at every step,
since how far a lexeme reaches depends on it.

Main statements:

* `Token.recognized_of_scan`, `Token.refused_of_scan` — cutting ends where nothing is left, or where
  nothing can be recognized.
* `Token.Recognized.scan_before` — the text in front of that place has the tokens recognized so far.
* `Token.tokenize_lossless` — the tokens lie in the text with blanks between them, each as long as
  its class allows.
-/

namespace PerfFormula

open PerfFormula.Text

/-! ## Classes of tokens -/

/-- Single characters from a list. -/
def Text.OneOf (allowed : List Char) (cs : List Char) : Prop := ∃ c ∈ allowed, cs = [c]

/-- What the tokens of a class may be written as: numbers, names and keywords, host literals,
operators and punctuation. -/
def Lexeme.Class : Lexeme → List Char → Prop
  | number _ => Token.Kind.number.Class
  | name _ | function _ | ifWord | elseWord => Token.Kind.name.Class
  | literal _ => Token.Kind.literal.Class
  | operator _ => OneOf (Operator.all.map (·.symbol))
  | opening | closing | comma => OneOf ['(', ')', ',']
  | ending => fun cs => cs = []

namespace Token

variable {runtime position stop : Nat} {cs rest raw : List Char} {ts : List Token} {t : Token}

theorem isLongest_oneOf {allowed : List Char} {c : Char} (mem : c ∈ allowed) (cs : List Char) :
    IsLongest (OneOf allowed) [c] (c :: cs) := by
  refine ⟨⟨cs, rfl⟩, ⟨c, mem, rfl⟩, ?_⟩
  rintro _ - ⟨d, -, rfl⟩
  exact Nat.le_refl 1

/-- A word is a keyword, a function or a name, which are all written alike. -/
theorem class_of_word {lexeme : Lexeme} (found : word runtime raw = .ok lexeme) :
    lexeme.Class = Kind.name.Class := by
  unfold word at found
  dsimp only at found
  split at found
  · cases found
    rfl
  split at found
  · cases found
    rfl
  split at found
  · cases found
    rfl
  split at found
  · cases found
  split at found
  · cases found
    rfl
  · cases found

/-- A lexeme that was taken as the longest of its kind is the longest of the class of its token. -/
theorem isLongest_of_read {kind : Kind} {lexeme : Lexeme} (longest : IsLongest kind.Class raw cs)
    (meant : read runtime kind raw = .ok (some lexeme)) : IsLongest lexeme.Class raw cs := by
  cases kind with
  | blank => cases meant
  | number =>
    cases meant
    exact longest
  | name =>
    obtain ⟨lexeme, found, ⟨⟩⟩ := word_of_read meant
    rw [class_of_word found]
    exact longest
  | escape => cases meant
  | literal =>
    cases meant
    exact longest
  | symbol lexeme' =>
    cases meant
    obtain ⟨c, rfl, found⟩ := longest.mem
    obtain ⟨behind, rfl⟩ := longest.isPrefix
    unfold symbol? at found
    split at found
    · next same =>
      cases found
      exact isLongest_oneOf (by simp [same]) behind
    split at found
    · next same =>
      cases found
      exact isLongest_oneOf (by simp [same]) behind
    split at found
    · next same =>
      cases found
      exact isLongest_oneOf (by simp [same]) behind
    · obtain ⟨op, known, rfl⟩ := Option.map_eq_some_iff.1 found
      have same : op.symbol = c := by simpa using List.find?_some known
      exact isLongest_oneOf (List.mem_map.2 ⟨op, List.mem_of_find?_eq_some known, same⟩) behind

/-! ## Steps of the cutting -/

/-- The tokens that are recognized from a position of the text on, up to another position and the
text that is left there. -/
inductive Recognized (runtime : Nat) :
    (position : Nat) → List Char → List Token → (stop : Nat) → (rest : List Char) → Prop
  | here {position : Nat} {rest : List Char} : Recognized runtime position rest [] position rest
  | step {position stop : Nat} {cs rest raw : List Char} {kind : Kind} {lexeme? : Option Lexeme}
      {ts : List Token} :
      front? (raw ++ cs) = some (kind, raw) → read runtime kind raw = .ok lexeme? →
      Recognized runtime (position + raw.length) cs ts stop rest →
      Recognized runtime position (raw ++ cs) (ofLexeme? position raw lexeme? ++ ts) stop rest

/-- Nothing can be recognized in front of a text: the fault, and the characters to blame. -/
inductive Refused (runtime : Nat) : List Char → SyntaxFault → String → Prop
  | character {c : Char} {cs : List Char} : front? (c :: cs) = none →
      Refused runtime (c :: cs) .unexpectedCharacter (.ofList [c])
  | lexeme {raw behind : List Char} {kind : Kind} {fault : SyntaxFault} :
      front? (raw ++ behind) = some (kind, raw) →
      read runtime kind raw = .error (.malformed fault) →
      Refused runtime (raw ++ behind) fault (.ofList raw)

theorem recognized_of_scan (scanned : scan runtime position cs = .ok ts) :
    ∃ stop, Recognized runtime position cs ts stop [] := by
  induction position, cs using scan_induction runtime generalizing ts with
  | ended position =>
    rw [scan_nil] at scanned
    cases scanned
    exact ⟨position, .here⟩
  | unknown position c cs none =>
    rw [scan_of_front?_eq_none none] at scanned
    cases scanned
  | meaningless position raw behind kind e front unread =>
    rw [scan_of_read_error front unread] at scanned
    cases scanned
  | step position raw behind kind lexeme? front meant ih =>
    rw [scan_append front meant] at scanned
    obtain ⟨later, found, rfl⟩ := map_eq_ok_iff.1 scanned
    obtain ⟨stop, recognized⟩ := ih found
    exact ⟨stop, .step front meant recognized⟩

/-- A text that cannot be cut is recognized up to the position of the error, and refused there. -/
theorem refused_of_scan {e : SyntaxError}
    (failed : scan runtime position cs = .error (.malformed e)) :
    ∃ ts rest, Recognized runtime position cs ts e.position rest ∧
      Refused runtime rest e.fault e.token := by
  induction position, cs using scan_induction runtime with
  | ended position =>
    rw [scan_nil] at failed
    cases failed
  | unknown position c cs none =>
    rw [scan_of_front?_eq_none none] at failed
    cases failed
    exact ⟨[], c :: cs, .here, .character none⟩
  | meaningless position raw behind kind e' front unread =>
    rw [scan_of_read_error front unread] at failed
    cases e' with
    | malformed fault =>
      cases failed
      exact ⟨[], raw ++ behind, .here, .lexeme front unread⟩
    | runtimeTooLong => cases failed
  | step position raw behind kind lexeme? front meant ih =>
    -- The lexeme is read; the text behind it is to blame.
    rw [scan_append front meant] at failed
    obtain ⟨ts, rest, recognized, refused⟩ := ih (map_eq_error_iff.1 failed)
    exact ⟨_, rest, .step front meant recognized, refused⟩

/-- What was recognized lies in front of what is left, and the text cut off there has these
tokens. -/
theorem Recognized.scan_before (h : Recognized runtime position cs ts stop rest) :
    ∃ before, cs = before ++ rest ∧ stop = position + before.length ∧
      scan runtime position before = .ok ts := by
  induction h with
  | here => exact ⟨[], rfl, rfl, scan_nil runtime _⟩
  | @step position _ _ _ raw _ _ _ front meant _ ih =>
    -- The lexeme was cut with all of the text behind it; the cut leaves it as it is.
    obtain ⟨before, rfl, rfl, scanned⟩ := ih
    refine ⟨raw ++ before, (List.append_assoc ..).symm, ?_, ?_⟩
    · rw [List.length_append, Nat.add_assoc]
    · rw [scan_append (front?_of_cut front) meant, scanned]
      rfl

/-! ## Tokens in their text -/

/-- Tokens that stand one after another in a text with nothing but blanks in front of, between and
behind them. The text starts at a position and ends at another. -/
inductive LaidOut : (position : Nat) → List Char → List Token → (stop : Nat) → Prop
  | ending {position : Nat} {gap : List Char} :
      RunOf isBlank gap → LaidOut position gap [] (position + gap.length)
  | token {position stop : Nat} {gap rest : List Char} {t : Token} {ts : List Token} :
      RunOf isBlank gap → t.position = position + gap.length → t.raw ≠ "" →
      LaidOut (t.position + t.raw.length) rest ts stop →
      LaidOut position (gap ++ (t.raw.toList ++ rest)) (t :: ts) stop

theorem LaidOut.blanks {gap : List Char} (blank : RunOf isBlank gap)
    (h : LaidOut (position + gap.length) cs ts stop) : LaidOut position (gap ++ cs) ts stop := by
  cases h with
  | @ending _ more blank' =>
    rw [Nat.add_assoc, ← List.length_append]
    exact .ending (blank.append blank')
  | @token _ _ more rest t ts blank' place ne later =>
    rw [← List.append_assoc]
    refine .token (blank.append blank') ?_ ne later
    rw [place, List.length_append, Nat.add_assoc]

theorem LaidOut.stop_eq (h : LaidOut position cs ts stop) : stop = position + cs.length := by
  induction h with
  | ending => rfl
  | token _ place _ _ ih =>
    rw [ih, place, List.length_append, List.length_append, String.length_toList]
    omega

/-- Blanks are all that means nothing. -/
theorem read_eq_none {kind : Kind} (meant : read runtime kind raw = .ok none) : kind = .blank := by
  cases kind with
  | blank => rfl
  | name =>
    obtain ⟨lexeme, -, same⟩ := word_of_read meant
    cases same
  | _ => cases meant

theorem Recognized.laidOut (h : Recognized runtime position cs ts stop rest) :
    ∃ before, cs = before ++ rest ∧ LaidOut position before ts stop := by
  induction h with
  | here => exact ⟨[], rfl, .ending (List.forall_mem_nil _)⟩
  | @step position _ _ _ raw kind lexeme? _ front meant _ ih =>
    obtain ⟨before, rfl, laid⟩ := ih
    refine ⟨raw ++ before, (List.append_assoc ..).symm, ?_⟩
    cases lexeme? with
    | none =>
      -- Blanks join the gap in front of the next token, or of the end.
      obtain rfl := read_eq_none meant
      exact laid.blanks (front?_isLongest front).mem.1
    | some lexeme =>
      rw [← String.length_ofList] at laid
      have ne : String.ofList raw ≠ "" := by simpa using front?_ne_nil front
      have written := @LaidOut.token position _ [] before ⟨lexeme, position, .ofList raw⟩ _
        (List.forall_mem_nil _) rfl ne laid
      rw [List.nil_append, String.toList_ofList] at written
      exact written

theorem laidOut_of_scan (scanned : scan runtime position cs = .ok ts) :
    LaidOut position cs ts (position + cs.length) := by
  obtain ⟨stop, recognized⟩ := recognized_of_scan scanned
  obtain ⟨before, rfl, laid⟩ := recognized.laidOut
  rw [List.append_nil]
  exact laid.stop_eq ▸ laid

/-- A token that stands in a text at its position and is as long there as its class allows. -/
structure StandsIn (cs : List Char) (t : Token) : Prop where
  nonempty : t.raw ≠ ""
  slice : (cs.drop t.position).take t.raw.length = t.raw.toList
  longest : IsLongest t.lexeme.Class t.raw.toList (cs.drop t.position)

theorem standsIn_of_scan (scanned : scan runtime 0 cs = .ok ts) (mem : t ∈ ts) : t.StandsIn cs := by
  obtain ⟨before, raw, behind, kind, rfl, front, meant, place, written⟩ := token_of_scan scanned mem
  have there : (before ++ (raw ++ behind)).drop t.position = raw ++ behind := by
    rw [place, Nat.zero_add, List.drop_left]
  have same : t.raw.toList = raw := by rw [written, String.toList_ofList]
  refine ⟨by simpa [written] using front?_ne_nil front, ?_, ?_⟩
  · rw [there, ← String.length_toList, same, List.take_left]
  · rw [there, same]
    exact isLongest_of_read (front?_isLongest front) meant

/-- The last token of a formula is its end, which stands behind the last character and has no text.
The others lie in the formula with blanks between them, up to that place, and each takes as much as
its class allows. Where a formula cannot be cut, the text up to the error has the tokens that were
recognized in front of it. -/
theorem tokenize_lossless (source : String) (runtime : Nat) :
    (∀ all, tokenize source runtime = .ok all → ∃ ts ending, all = ts ++ [ending] ∧
      ending.lexeme = .ending ∧ ending.raw = "" ∧ ending.position = source.length ∧
      LaidOut 0 source.toList ts ending.position ∧ ∀ t ∈ ts, t.StandsIn source.toList) ∧
    ∀ e, tokenize source runtime = .error (.malformed e) →
      ∃ ts, Recognized runtime 0 source.toList ts e.position (source.toList.drop e.position) ∧
        Refused runtime (source.toList.drop e.position) e.fault e.token ∧
        tokenize (.ofList (source.toList.take e.position)) runtime =
          .ok (ts ++ [⟨.ending, e.position, ""⟩]) := by
  constructor
  · intro all lexed
    obtain ⟨ts, scanned, rfl⟩ := tokenize_eq_ok_iff.1 lexed
    refine ⟨ts, atEnd source, rfl, rfl, rfl, rfl, ?_, fun t mem => standsIn_of_scan scanned mem⟩
    have laid := laidOut_of_scan scanned
    rwa [Nat.zero_add, String.length_toList] at laid
  · intro e failed
    obtain ⟨ts, rest, recognized, refused⟩ := refused_of_scan (tokenize_eq_error_iff.1 failed)
    -- The position of the error is the length of what was recognized, and so is that of the end.
    obtain ⟨before, split, place, scanned⟩ := recognized.scan_before
    rw [Nat.zero_add] at place
    have behind : source.toList.drop e.position = rest := by rw [split, place, List.drop_left]
    have front : source.toList.take e.position = before := by rw [split, place, List.take_left]
    rw [behind, front]
    refine ⟨ts, recognized, refused, tokenize_eq_ok_iff.2 ⟨ts, ?_, ?_⟩⟩
    · rwa [String.toList_ofList]
    · rw [atEnd, String.length_ofList, place]

/-- A name that a wrong escape ends, and the name alone. -/
theorem tokenize_wrongEscape :
    tokenize "EVENT\\x" 0 = .error (.malformed ⟨.invalidEscape, 5, "\\x"⟩) ∧
      (∃ ts, Recognized 0 0 "EVENT\\x".toList ts 5 "\\x".toList ∧
        tokenize "EVENT" 0 = .ok (ts ++ [⟨.ending, 5, ""⟩])) ∧
      LaidOut 0 "EVENT".toList [⟨.name "EVENT", 0, "EVENT"⟩] 5 := by
  have failed : tokenize "EVENT\\x" 0 = .error (.malformed ⟨.invalidEscape, 5, "\\x"⟩) := by cbv
  have lexed : tokenize "EVENT" 0 = .ok ([⟨.name "EVENT", 0, "EVENT"⟩] ++ [atEnd "EVENT"]) := by
    cbv
  obtain ⟨ts, recognized, -, same⟩ := (tokenize_lossless "EVENT\\x" 0).2 _ failed
  obtain ⟨us, ending, split, -, -, place, laid, -⟩ := (tokenize_lossless "EVENT" 0).1 _ lexed
  obtain ⟨rfl, -⟩ := List.append_inj' split rfl
  have five : ending.position = 5 := place
  rw [five] at laid
  exact ⟨failed, ⟨ts, recognized, same⟩, laid⟩

end Token
end PerfFormula
