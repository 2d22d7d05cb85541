import PerfFormula.Formula.Printer
import PerfFormula.Proofs.Nesting
import PerfFormula.Proofs.Separation
import PerfFormula.Proofs.ShortestDecimal

/-!
# Reading what was printed

A printed formula is cut into its own lexemes: a blank, a parenthesis or a comma stands behind every
number, name and host literal, and nothing else in it could be taken together. Since the grammar
derives these lexemes in one way only, the text is parsed as the formula that was printed, as long
as it is not nested too deep.

Not every formula can be printed like this. A name may hold characters that end a name, and a number
may be negative, which no number of the grammar is; the names and numbers that are fit to be printed
are called plain.

Main statements:

* `Formula.cuts_print` — the text of a plain formula is cut into the lexemes of the formula.
* `Formula.parse_text` — it is parsed as the formula, if it is not nested too deep.
-/

namespace PerfFormula

open PerfFormula.Text PerfFormula.Token

/-! ## Names -/

/-- Whether a text starts like a number: with a digit, or with a point and a digit. -/
def startsNumber : List Char → Bool
  | '.' :: cs => cs.head?.any isDigit
  | cs => cs.head?.any isDigit

/-- A name that is read as it is written. -/
structure PlainName (n : String) : Prop where
  nonempty : n.toList ≠ []
  chars : RunOf isNameChar n.toList
  noSign : '@' ∉ n.toList
  start : startsNumber n.toList = false
  noWord : n ∉ ["if", "else", "min", "max", "d_ratio"]

theorem numberPrefix_of_start {cs rest : List Char} (ne : cs ≠ []) (start : startsNumber cs = false)
    (stop : Delimited rest) : numberPrefix (cs ++ rest) = [] := by
  obtain ⟨c, cs, rfl⟩ := List.exists_cons_of_ne_nil ne
  by_cases point : c = '.'
  · subst point
    refine numberPrefix_of_point ?_
    cases cs with
    | nil => exact stop.stop (by decide)
    | cons d cs =>
      rintro _ ⟨⟩
      simpa [startsNumber] using start
  · refine numberPrefix_of_head ?_ point
    simpa [startsNumber, point] using start

theorem resolve_zero {raw : List Char} (run : RunOf isNameChar raw) (noSign : '@' ∉ raw) :
    resolve 0 raw = some raw := by
  induction raw with
  | nil => rfl
  | cons c cs ih =>
    have behind : resolve 0 cs = some cs :=
      ih (fun d hd => run d (List.mem_cons_of_mem c hd)) fun mem => noSign (.tail c mem)
    have plain : c ≠ '\\' := by
      rintro rfl
      exact absurd (run '\\' List.mem_cons_self) (by decide)
    have sign : c ≠ '@' := by
      rintro rfl
      exact noSign List.mem_cons_self
    by_cases question : c = '?'
    · subst question
      rw [resolve, behind]
      rfl
    · rw [resolve.eq_4 _ _ _ (by simp [plain]) sign question, behind]
      rfl

theorem PlainName.word_eq {n : String} (plain : PlainName n) :
    word 0 n.toList = .ok (.name n) := by
  have noWord := plain.noWord
  simp only [List.mem_cons, not_or] at noWord
  have unknown : Builtin.ofName? n = none := by
    rw [Builtin.ofName?, List.find?_eq_none]
    intro g _ same
    obtain rfl : g.name = n := by simpa using same
    cases g <;> simp [Builtin.name] at noWord
  have backslash : '\\' ∉ n.toList := fun mem => absurd (plain.chars '\\' mem) (by decide)
  simp [word, noWord, unknown, backslash, resolve_zero plain.chars plain.noSign]

theorem cuts_word {raw : List Char} {lexeme : Lexeme} (run : RunOf isNameChar raw)
    (ne : raw ≠ []) (start : startsNumber raw = false) (meant : word 0 raw = .ok lexeme) :
    Cuts Delimited raw [lexeme] := by
  have read : Token.read 0 .name raw = .ok (some lexeme) := congrArg (Except.map some) meant
  exact .of_read (fun _ stop => front?_of_word run ne (numberPrefix_of_start ne start stop) stop)
    read

theorem cuts_if : Cuts Delimited ['i', 'f'] [.ifWord] :=
  cuts_word (by decide) (by decide) (by decide) rfl

theorem cuts_else : Cuts Delimited ['e', 'l', 's', 'e'] [.elseWord] :=
  cuts_word (by decide) (by decide) (by decide) rfl

theorem cuts_builtin (g : Builtin) : Cuts Delimited g.name.toList [.function g] := by
  cases g <;> exact cuts_word (by decide) (by decide) (by decide) rfl

theorem cuts_literal (l : HostLiteral) :
    Cuts Delimited ('#' :: l.name.toList) [.literal l.name] := by
  have run : RunOf isWordChar l.name.toList := by cases l <;> decide
  have ne : l.name.toList ≠ [] := by cases l <;> decide
  refine .of_read (fun _ stop => front?_of_literal run ne stop) ?_
  simp [Token.read]

/-! ## Formulas -/

/-- A number that is read as it is written. -/
structure PlainNumber (x : Float) : Prop where
  finite : x.isFinite = true
  unsigned : x.toBits < 0x8000000000000000
  small : '+' ∉ Decimal.write Decimal.plain x

theorem cuts_number {x : Float} (plain : PlainNumber x) :
    Cuts Delimited (Decimal.write Decimal.plain x) [.number x] := by
  have number := Decimal.isNumber_write plain.finite plain.unsigned plain.small
  refine .of_read (fun _ stop => front?_of_number number stop) ?_
  rw [Token.read, Decimal.value_write plain.finite plain.unsigned]

namespace Formula

/-- A formula whose numbers and names are read as they are written. -/
def Plain : Formula → Prop
  | number x => PlainNumber x
  | name n => PlainName n
  | host _ => True
  | binary _ l r => l.Plain ∧ r.Plain
  | negate x => x.Plain
  | choice c t f => c.Plain ∧ t.Plain ∧ f.Plain
  | call _ a b => a.Plain ∧ b.Plain

/-- A formula in front of a delimiter, and then that delimiter and more. -/
theorem cuts_before {cs ds : List Char} {ls ms : List Lexeme} {c : Char} {P : List Char → Prop}
    (formula : Cuts Delimited cs ls) (delimiter : isDelimiter c = true)
    (behind : Cuts P (c :: ds) ms) : Cuts P (cs ++ c :: ds) (ls ++ ms) :=
  formula.append behind fun _ _ => delimited_cons delimiter _

/-- The text of a plain formula is cut into the lexemes of the formula. -/
theorem cuts_print {x : Formula} (plain : x.Plain) : Cuts Delimited x.print x.lexemes := by
  have closing : Cuts Delimited [')'] [.closing] :=
    .of_read (fun _ _ => front?_of_symbol rfl) rfl
  induction x with
  | number x => exact cuts_number plain
  | name n => exact cuts_word plain.chars plain.nonempty plain.start plain.word_eq
  | host l => exact cuts_literal l
  | binary op l r ihl ihr =>
    have symbol : symbol? op.symbol = some (.operator op) := by cases op <;> rfl
    have right := cuts_before (ihr plain.2) rfl closing
    have both := cuts_before (ihl plain.1) rfl (.blank (.symbol symbol right.blank))
    simpa [print, lexemes] using Cuts.symbol (c := '(') rfl both
  | negate x ih =>
    have inside := cuts_before (ih plain) rfl closing
    simpa [print, lexemes] using Cuts.symbol (c := '(') rfl (.symbol (c := '-') rfl inside)
  | choice c t f ihc iht ihf =>
    have last := cuts_before (ihf plain.2.2) rfl closing
    have afterElse := cuts_before cuts_else rfl last.blank
    have condition := cuts_before (ihc plain.1) rfl afterElse.blank
    have afterIf := cuts_before cuts_if rfl condition.blank
    have first := cuts_before (iht plain.2.1) rfl afterIf.blank
    simpa [print, lexemes] using Cuts.symbol (c := '(') rfl first
  | call g a b iha ihb =>
    have second := cuts_before (ihb plain.2) rfl closing
    have first := cuts_before (iha plain.1) rfl (.symbol (c := ',') rfl second.blank)
    have whole := cuts_before (cuts_builtin g) rfl (.symbol (c := '(') rfl first)
    simpa [print, lexemes] using whole

/-- The text of a plain formula is parsed as the formula if it is nested within the limit, and is
refused for want of levels otherwise. -/
theorem parse_text {x : Formula} (plain : x.Plain) :
    (x.nesting ≤ Parsing.depthLimit → Formula.parse x.text 0 = .ok x) ∧
      (Parsing.depthLimit < x.nesting → ∃ position token, Formula.parse x.text 0 =
        .error (.malformed ⟨.tooDeep Parsing.depthLimit, position, token⟩)) := by
  obtain ⟨ts, ending, lexed, same⟩ := (cuts_print plain).tokenize delimited_nil
  obtain ⟨enough, few⟩ := formula_of_lexemes same
  refine ⟨fun fits => (parse_eq_ok_iff lexed).2 ?_, fun deep => ?_⟩
  · exact Parsing.formula_eq_ok_iff.1 (enough fits)
  · obtain ⟨rest, failed⟩ := few deep
    have refused : Parsing.formula ts = .error ⟨.tooDeep Parsing.depthLimit, rest⟩ := by
      rw [Parsing.formula, failed]
    rw [text, parse_of_tokenize lexed, refused]
    exact ⟨_, _, rfl⟩

/-- A sum with every kind of part. -/
def signedMinimum : Formula :=
  .binary .add (.call .min (.name "A") (.number 2.5))
    (.negate (.choice (.host .smtOn) (.name "B.?") (.number 0.0)))

theorem parse_text_signedMinimum : signedMinimum.Plain ∧
    Formula.parse "(min(A, 2.5) + (-(B.? if #smt_on else 0.0)))" 0 = .ok signedMinimum := by
  have small : '+' ∉ Decimal.write Decimal.plain 2.5 := by decide +kernel
  have plain : signedMinimum.Plain := by
    refine ⟨⟨⟨?_, ?_, ?_, ?_, ?_⟩, by decide, by decide, small⟩, trivial,
      ⟨?_, ?_, ?_, ?_, ?_⟩, by decide, by decide, by decide⟩ <;> decide
  have printed : signedMinimum.text = "(min(A, 2.5) + (-(B.? if #smt_on else 0.0)))" := by
    decide +kernel
  exact ⟨plain, printed ▸ (parse_text plain).1 (by decide)⟩

end Formula
end PerfFormula
