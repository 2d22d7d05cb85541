import Mathlib
import PerfFormula.Proofs.Consulted
import PerfFormula.Proofs.FollowedReferences
import PerfFormula.Proofs.LaterCalls
import PerfFormula.Proofs.Places
import PerfFormula.Proofs.Renaming
import PerfFormula.Proofs.Tokens
import PerfFormula.Proofs.WholeNumbers

/-!
# Errors of a call

Whatever text is evaluated in a live context, and whatever texts its references bring along, a call
has a value or one of a few errors, each with its own cause: the runtime parameter, a text that is
malformed, a name without a value, references in a circle, or arithmetic. Nothing else can go wrong,
because every step finds what it takes for granted. The runtime parameter is the cause in two cases:
it is negative, or it has more digits than can be written and a name asks for it in one of the texts
that the call reads.

Main statements:

* `Context.fails_of_meaning` — the errors of an evaluation and their causes.
* `Context.tooLong_iff` — when a runtime parameter is too long for a call.
* `Context.inRange` — what the steps of a call take for granted is always there.
* `Context.errors_are_reported` — a call has a value or an error of those, and an attempt always
  has an answer.
-/

namespace PerfFormula

/-! ## Arithmetic -/

/-- The causes of arithmetic errors. -/
inductive ArithmeticError.Caused : ArithmeticError → Prop where
  | divisionByZero {x y : Float} : (y == 0.0) = true → Caused (.divisionByZero x y)
  | remainderByZero {x y : Float} {a : Int} :
      wholePart? x = some a → wholePart? y = some 0 → Caused (.remainderByZero x y)
  | notFinite {x : Float} : wholePart? x = none → Caused (.notFinite x)

theorem caused_of_remainder {x y : Float} {e : ArithmeticError}
    (failed : remainder x y = .error e) : e.Caused := by
  unfold remainder at failed
  split at failed
  · next infinite =>
    cases failed
    exact .notFinite infinite
  · next a hx =>
    split at failed
    · next infinite =>
      cases failed
      exact .notFinite infinite
    · next b hy =>
      split at failed
      · next zero =>
        cases failed
        exact .remainderByZero hx (zero ▸ hy)
      · cases failed

theorem caused_of_apply {op : Operator} {x y : Float} {e : ArithmeticError}
    (failed : op.apply x y = .error e) : e.Caused := by
  cases op with
  | div =>
    change (if y == 0.0 then .error (.divisionByZero x y) else .ok (x / y)) =
      Except.error e at failed
    split at failed
    · next zero =>
      cases failed
      exact .divisionByZero zero
    · cases failed
  | mod => exact caused_of_remainder failed
  | _ => cases failed

namespace Context

variable {c : Context} {m : NameMap Datum}

/-! ## Evaluation -/

/-- The errors of an evaluation, each with its cause. -/
inductive Fails (c : Context) : FormulaError → Prop where
  | unreadable {name text : String} {e : Unreadable SyntaxError} :
      c.datum name = .ok (.reference text) → Formula.parse text c.runtime = .error e →
      Fails c (.unreadable text e)
  | undefined {name : String} : c.datum name = .ok .pending → Fails c (.undefined name)
  | arithmetic {e : ArithmeticError} : e.Caused → Fails c (.arithmetic e)
  | cycle {chain : List String} {name text : String} : c.datum name = .ok (.reference text) →
      name ∈ chain → Fails c (.cycle (chain ++ [name]))

theorem datum_ne_error (live : c.ids = .live m) (name : String) (e : SetError) :
    c.datum name ≠ .error e := by
  rw [datum, live]
  rintro ⟨⟩

theorem fails_of_nameMeaning (live : c.ids = .live m) {chain : List String} {name : String}
    {e : FormulaError} (failed : c.nameMeaning chain name = .error e) : c.Fails e := by
  induction chain, name using c.follow_induction with
  | each chain name ih =>
    rw [nameMeaning_eq] at failed
    split at failed
    · next h => exact absurd h (datum_ne_error live name _)
    · next pending =>
      cases failed
      exact .undefined pending
    · cases failed
    · next text reference =>
      split at failed
      · next onChain =>
        cases failed
        exact .cycle reference onChain
      · next fresh =>
        split at failed
        · next unread =>
          cases failed
          exact .unreadable reference unread
        · next f _ =>
          -- A name of the reference's formula fails.
          rcases Formula.cause_of_meaning failed with ⟨op, x, y, a, undefined, rfl⟩ | ⟨n, -, deeper⟩
          · exact .arithmetic (caused_of_apply undefined)
          · exact ih text reference fresh n deeper

theorem fails_of_meaning (live : c.ids = .live m) {f : Formula} {e : FormulaError}
    (failed : c.meaning f = .error e) : c.Fails e := by
  rcases Formula.cause_of_meaning failed with ⟨op, x, y, a, undefined, rfl⟩ | ⟨n, -, failed⟩
  · exact .arithmetic (caused_of_apply undefined)
  · exact fails_of_nameMeaning live failed

/-! ## Calls -/

/-- The errors of a call, each with its cause. -/
inductive Reports (c : Context) (source : String) (given : Option Int) : FormulaError → Prop where
  | negativeRuntime {r : Int} : given = some r → r < 0 → Reports c source given (.negativeRuntime r)
  | unreadable {r : Nat} {e : Unreadable SyntaxError} : c.callRuntime given = .ok r →
      Formula.parse source r = .error e → Reports c source given (.unreadable source e)
  | evaluation {r : Nat} {f : Formula} {e : FormulaError} : c.callRuntime given = .ok r →
      Formula.parse source r = .ok f → (c.under r).Fails e → Reports c source given e

theorem callRuntime_eq_error {given : Option Int} {e : FormulaError}
    (failed : c.callRuntime given = .error e) :
    ∃ r, given = some r ∧ r < 0 ∧ e = .negativeRuntime r := by
  cases given with
  | none => cases failed
  | some r =>
    change checkRuntime r = .error e at failed
    unfold checkRuntime at failed
    split at failed
    · next negative =>
      cases failed
      exact ⟨r, rfl, negative, rfl⟩
    · cases failed

theorem reports_of_evaluateText (live : c.ids = .live m) {source : String} {given : Option Int}
    {e : FormulaError} (failed : (c.evaluateText source given).1 = .error e) :
    c.Reports source given e := by
  unfold evaluateText at failed
  cases started : c.start source given with
  | error e' =>
    rw [started] at failed
    cases failed
    rcases error_of_bind started with refused | ⟨r, checked, failed⟩
    · obtain ⟨r, rfl, negative, rfl⟩ := callRuntime_eq_error refused
      exact .negativeRuntime rfl negative
    · rcases error_of_bind failed with refused | ⟨f, -, failed⟩
      · obtain ⟨e, unread, rfl⟩ := mapError_eq_error_iff.1 refused
        exact .unreadable checked unread
      · cases failed
  | ok result =>
    obtain ⟨c', f⟩ := result
    obtain ⟨r, checked, parses, rfl⟩ := start_eq_ok started
    rw [started] at failed
    have live' : (c.under r).ids = .live m := live
    have meant : (c.under r).meaning f = .error e := by
      rw [← evaluate_outcome]
      exact failed
    exact .evaluation checked (mapError_eq_ok_iff.1 parses) (fails_of_meaning live' meant)

theorem Reports.ne_usedAfterFree {source : String} {given : Option Int} {e : FormulaError}
    (h : c.Reports source given e) : e ≠ .usedAfterFree := by
  rintro rfl
  cases h with
  | evaluation _ _ fails => cases fails

/-- A call ends with its runtime parameter if that is refused. -/
theorem evaluateText_of_refused {source : String} {given : Option Int} {e : FormulaError}
    (refused : c.callRuntime given = .error e) : (c.evaluateText source given).1 = .error e := by
  rw [evaluateText, start, refused]
  rfl

/-- A runtime parameter is refused exactly when it is negative. -/
theorem negativeRuntime_iff (live : c.ids = .live m) (source : String) (given : Option Int)
    (r : Int) : (c.evaluateText source given).1 = .error (.negativeRuntime r) ↔
      given = some r ∧ r < 0 := by
  constructor
  · intro failed
    cases reports_of_evaluateText live failed with
    | negativeRuntime same negative => exact ⟨same, negative⟩
    | evaluation _ _ fails => cases fails
  · rintro ⟨rfl, negative⟩
    exact evaluateText_of_refused (if_pos negative)

/-- A call evaluates the formula of its text. -/
theorem evaluateText_of_parse {source : String} {given : Option Int} {r : Nat} {f : Formula}
    (checked : c.callRuntime given = .ok r) (parsed : Formula.parse source r = .ok f) :
    (c.evaluateText source given).1 = ((c.under r).evaluate f).1 := by
  have started : c.start source given = .ok (c.under r, f) := by
    rw [start, checked]
    show parse source r >>= _ = _
    rw [parse, parsed]
    rfl
  rw [evaluateText, started]

theorem evaluateText_of_unreadable {source : String} {given : Option Int} {r : Nat}
    {e : Unreadable SyntaxError} (checked : c.callRuntime given = .ok r)
    (unread : Formula.parse source r = .error e) :
    (c.evaluateText source given).1 = .error (.unreadable source e) := by
  have started : c.start source given = .error (.unreadable source e) := by
    rw [start, checked]
    show parse source r >>= _ = _
    rw [parse, unread]
    rfl
  rw [evaluateText, started]

/-- The texts that a call reads: its own, and those of the references that it follows. -/
inductive ReadsText (c : Context) (source : String) (runtime : Nat) : String → Prop where
  | own : ReadsText c source runtime source
  | reference {f : Formula} {text : String} : Formula.parse source runtime = .ok f →
      (c.under runtime).Follows f text → ReadsText c source runtime text

/-- A call fails for a text that cannot be read exactly if it reads that text. -/
theorem unreadable_iff {source text : String} {given : Option Int} {e : Unreadable SyntaxError} :
    (c.evaluateText source given).1 = .error (.unreadable text e) ↔
      ∃ r, c.callRuntime given = .ok r ∧ c.ReadsText source r text ∧
        Formula.parse text r = .error e := by
  cases checked : c.callRuntime given with
  | error refusal =>
    obtain ⟨r, -, -, rfl⟩ := callRuntime_eq_error checked
    rw [evaluateText_of_refused checked]
    constructor
    · intro failed
      cases failed
    · rintro ⟨r, accepted, -⟩
      cases accepted
  | ok r =>
    cases parsed : Formula.parse source r with
    | error e' =>
      rw [evaluateText_of_unreadable checked parsed]
      constructor
      · intro failed
        cases failed
        exact ⟨r, rfl, .own, parsed⟩
      · rintro ⟨r', accepted, reads, unread⟩
        cases accepted
        cases reads with
        | own =>
          rw [parsed] at unread
          cases unread
          rfl
        | reference parses =>
          rw [parsed] at parses
          cases parses
    | ok f =>
      rw [evaluateText_of_parse checked parsed]
      constructor
      · intro failed
        obtain ⟨follows, unread⟩ := evaluate_unreadable_iff.1 failed
        exact ⟨r, rfl, .reference parsed follows, unread⟩
      · rintro ⟨r', accepted, reads, unread⟩
        cases accepted
        cases reads with
        | own =>
          rw [parsed] at unread
          cases unread
        | reference parses follows =>
          rw [parsed] at parses
          cases parses
          exact evaluate_unreadable_iff.2 ⟨follows, unread⟩

/-- A runtime parameter is too long for a call exactly when it cannot be written and a text that the
call reads asks for it. -/
theorem tooLong_iff (source : String) (given : Option Int) :
    (∃ text, (c.evaluateText source given).1 = .error (.unreadable text .runtimeTooLong)) ↔
      ∃ r, c.callRuntime given = .ok r ∧ Decimal.digitLimit < (Nat.toDigits 10 r).length ∧
        ∃ text, c.ReadsText source r text ∧ Token.Asks text.toList := by
  constructor
  · rintro ⟨text, failed⟩
    obtain ⟨r, accepted, reads, unread⟩ := unreadable_iff.1 failed
    obtain ⟨long, asks⟩ := (Formula.parse_eq_tooLong_iff text r).1 unread
    exact ⟨r, accepted, long, text, reads, asks⟩
  · rintro ⟨r, accepted, long, text, reads, asks⟩
    have unread := (Formula.parse_eq_tooLong_iff text r).2 ⟨long, asks⟩
    exact ⟨text, unreadable_iff.2 ⟨r, accepted, reads, unread⟩⟩

/-- An attempt at a call always has an answer. -/
theorem tryText_eq_ok (live : c.ids = .live m) (source : String) (given : Option Int) :
    ∃ answer, (c.tryText source given).1 = .ok answer := by
  have reported : ∀ e, (c.evaluateText source given).1 = .error e → e ≠ .usedAfterFree :=
    fun _ failed => (reports_of_evaluateText live failed).ne_usedAfterFree
  unfold tryText
  generalize c.evaluateText source given = result at reported ⊢
  rcases result with ⟨e | x, after⟩
  · have used := reported e rfl
    cases e with
    | usedAfterFree => exact absurd rfl used
    | _ => exact ⟨_, rfl⟩
  · exact ⟨_, rfl⟩

/-! ## Steps on the way -/

/-- What the steps of a call take for granted. -/
structure InRange : Prop where
  /-- Behind a backslash of a name stands a character that may be escaped. -/
  escapes : ∀ cs raw i, Token.front? cs = some (.name, raw) → raw[i]? = some '\\' →
    ∃ c, raw[i + 1]? = some c ∧ Token.isEscapable c = true
  /-- The characters of a token are what its lexeme is written as. -/
  tokens : ∀ text runtime ts, tokenize text runtime = .ok ts → ∀ t ∈ ts, t.Denotes
  /-- The last token is the end of the text. -/
  ending : ∀ text runtime ts, tokenize text runtime = .ok ts →
    ts.getLast? = some (Token.atEnd text)
  /-- The parser never leaves the tokens. -/
  places : ∀ levels, (Parsing.expression levels).Keeps
  blamed : ∀ ts f, Parsing.formula ts = .error f → f.rest <:+ ts
  /-- A call has as many arguments as every function takes. -/
  arguments : ∀ argument g whole ts (r : Parsing.Reading Formula ts),
    Parsing.call argument g whole ts = .ok r → ∃ t inside given, ts = t :: inside ∧
      Parsing.arguments argument [] inside = .ok given ∧ given.value.length = Builtin.arity ∧
        ∃ a b, given.value = [a, b] ∧ r.value = .call g a b
  /-- A host literal that is read asks a question that a host answers. -/
  literals : ∀ nested n position raw rest (r : Parsing.Reading Formula _),
    Parsing.operand nested (⟨.literal n, position, raw⟩ :: rest) = .ok r →
      ∃ l, r.value = .host l ∧ l.name = n
  /-- The whole parts of the operands of a remainder, and the remainder itself, are doubles. -/
  remainders : ∀ x y a b, wholePart? x = some a → wholePart? y = some b → b ≠ 0 →
    wholePart? (ofWhole a) = some a ∧ wholePart? (ofWhole b) = some b ∧
      wholePart? (wholeRemainder a b) = some (a.tmod b)

theorem inRange : InRange where
  escapes _ _ _ front backslash := Token.escapable_of_front? front backslash
  tokens _ _ _ lexed := Token.denotes_of_tokenize lexed
  ending _ _ _ lexed := by
    obtain ⟨ts, -, rfl⟩ := tokenize_eq_ok_iff.1 lexed
    exact List.getLast?_concat
  places := Parsing.keeps_expression
  blamed _ _ failed := Parsing.suffix_of_formula_error failed
  arguments _ _ _ _ _ read := Parsing.call_arity read
  literals _ _ _ _ _ _ read := Parsing.operand_literal read
  remainders _ _ _ _ hx hy nonzero := wholePart?_wholeRemainder hx hy nonzero

/-- A call on a live context has a value or one of the errors of a call: that of a negative runtime
parameter exactly when it was given one, and that of one that is too long exactly when a text that
it reads asks for it. So an attempt at a call always has an answer. On the way every step finds what
it takes for granted. -/
theorem errors_are_reported (live : c.ids = .live m) (source : String) (given : Option Int) :
    (∀ e, (c.evaluateText source given).1 = .error e → c.Reports source given e) ∧
      (∀ r, (c.evaluateText source given).1 = .error (.negativeRuntime r) ↔
        given = some r ∧ r < 0) ∧
      ((∃ text, (c.evaluateText source given).1 = .error (.unreadable text .runtimeTooLong)) ↔
        ∃ r, c.callRuntime given = .ok r ∧ Decimal.digitLimit < (Nat.toDigits 10 r).length ∧
          ∃ text, c.ReadsText source r text ∧ Token.Asks text.toList) ∧
      (∃ answer, (c.tryText source given).1 = .ok answer) ∧ InRange :=
  ⟨fun _ => reports_of_evaluateText live, negativeRuntime_iff live source given,
    tooLong_iff source given, tryText_eq_ok live source given, inRange⟩

/-- A call that misses a name, and one that is refused. -/
theorem errors_are_reported_referring :
    (referring 0).Reports "a + c" (some 3) (.undefined "c") ∧
      ((referring 0).evaluateText "a + c" (some (-1))).1 = .error (.negativeRuntime (-1)) := by
  obtain ⟨missing, -⟩ := errors_are_reported (c := referring 0) rfl "a + c" (some 3)
  obtain ⟨-, refused, -⟩ := errors_are_reported (c := referring 0) rfl "a + c" (some (-1))
  have undefined : ((referring 0).evaluateText "a + c" (some 3)).1 = .error (.undefined "c") := by
    rw [evaluateText_referring]
  exact ⟨missing _ undefined, (refused (-1)).2 ⟨rfl, by decide⟩⟩

/-- A runtime parameter that is not negative can still be the error of a call. -/
theorem evaluateText_unwritable : ¬∀ (c : Context) (m : NameMap Datum), c.ids = .live m →
    ∀ (source : String) (given : Option Int) (e : FormulaError),
      (c.evaluateText source given).1 = .error e → e.isOfRuntime = true →
        ∃ r, given = some r ∧ r < 0 := by
  intro always
  have long : Formula.parse "a?" Formula.unwritable = .error .runtimeTooLong :=
    (Formula.parse_eq_tooLong_iff "a?" Formula.unwritable).2
      ⟨Formula.digitLimit_lt_unwritable, Formula.asks_unwritable⟩
  have failed : ((referring 0).evaluateText "a?" (some (Formula.unwritable : Nat))).1 =
      .error (.unreadable "a?" .runtimeTooLong) :=
    evaluateText_of_unreadable (callRuntime_natCast _ _) long
  obtain ⟨r, same, negative⟩ := always (referring 0) _ rfl "a?" _ _ failed rfl
  cases same
  omega

end Context
end PerfFormula
