import PerfFormula.Metric.Frame

/-!
# Messages

What is reported while a command runs, besides its result. A message belongs to a part of the
program and has a level; how many levels are shown depends on the verbosity. Errors in formulas are
reported where they are found, so the messages of an error are a function of it.
-/

namespace PerfFormula

/-- How important a message is. -/
inductive Log.Level where
  | debug
  | info
  | warning
  deriving DecidableEq, Repr

/-- A message of a part of the program. -/
structure Log where
  level : Log.Level
  part : String
  text : String
  deriving DecidableEq, Repr

namespace Log

namespace Level

/-- The word for a level. -/
def name : Level → String
  | debug => "DEBUG"
  | info => "INFO"
  | warning => "WARNING"

/-- The least verbosity that shows a level. -/
def needed : Level → Nat
  | debug => 2
  | info => 1
  | warning => 0

end Level

/-- The line of a message. -/
def line (l : Log) : String := l.level.name ++ " " ++ l.part ++ ": " ++ l.text ++ "\n"

/-- Whether a message is shown. -/
def visible (verbosity : Nat) (l : Log) : Bool := l.level.needed ≤ verbosity

/-- The lines of the messages that are shown. -/
def lines (verbosity : Nat) (log : List Log) : String :=
  String.join ((log.filter (visible verbosity)).map line)

/-! ## Messages of errors -/

/-- The message of the reader of metric files. -/
def loading (path : String) : Log := ⟨.info, "metrickit", "loading metrics from " ++ path⟩

/-- The message of a metric that has a value in no row. -/
def neverComputed (name : String) : Log :=
  ⟨.warning, "metrickit", "metric " ++ name ++ " could not be computed for any sample"⟩

/-- A message of the cutter of formulas into tokens. -/
def ofLexer (text : String) : Log := ⟨.debug, "metrickit.expr.lexer", text⟩

/-- A message of the reader of formulas. -/
def ofParser (text : String) : Log := ⟨.debug, "metrickit.expr.parser", text⟩

/-- A message of the evaluator. -/
def ofEvaluator (text : String) : Log := ⟨.debug, "metrickit.expr.evaluator", text⟩

end Log

/-- The messages of an error in the text of a formula. -/
def SyntaxError.log (source : String) (e : SyntaxError) : List Log :=
  let place := " at " ++ toString e.position ++ " in " ++ Text.quote source
  match e.fault with
  | .unexpectedCharacter => [.ofLexer ("unexpected character " ++ Text.quote e.token ++ place)]
  | .unterminatedName | .invalidEscape => []
  | .wrongArity f given =>
    [.ofParser (f.name ++ " called with " ++ toString given ++ " arguments")]
  | fault => [.ofParser (fault.text ++ place)]

/-- The messages of an arithmetic error. -/
def ArithmeticError.log (e : ArithmeticError) : List Log :=
  let divided := fun (l r : Float) (sign : String) =>
    Log.ofEvaluator ("division by zero: " ++ Decimal.text l ++ sign ++ Decimal.text r)
  match e with
  | .divisionByZero l r => [divided l r " / "]
  | .remainderByZero l r => [divided l r " % "]
  | .notFinite _ => []

/-- The messages of an error of a formula. -/
def FormulaError.log (e : FormulaError) : List Log :=
  match e with
  | .unreadable source (.malformed e) => e.log source
  | .undefined name => [.ofEvaluator ("identifier " ++ Text.quote name ++ " has no value")]
  | .arithmetic e => e.log
  | .negativeRuntime _ | .unreadable _ .runtimeTooLong | .cycle _ | .usedAfterFree => []

/-- The messages of an error of a metric. -/
def ResolveError.log (e : ResolveError) : List Log :=
  match e with
  | .unknown _ => []
  | .formula e => e.log

/-- The messages of finding the names that a formula needs. -/
def Formula.foldLog (answers : HostLiteral → Float) (f : Formula) : List Log :=
  (f.foldErrors answers).flatMap (·.log)

/-- The messages of computing a metric for one sample. -/
def MetricTable.Outcome.log (o : MetricTable.Outcome) : List Log :=
  match o.2 with
  | .ok _ => []
  | .error e =>
    e.log ++
      [⟨.debug, "metrickit.metrics.compute", "metric " ++ o.1 ++ " not computable: " ++ e.message⟩]

end PerfFormula
