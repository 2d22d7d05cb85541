import PerfFormula.Decimal.Reader

/-!
# Arguments of the command line

What a command line asks for. Options may stand before, among and behind the other arguments of a
command: as `--name value`, as `--name=value`, or, if they have a single letter, with the value
right behind it. A long name may be cut short as long as it stays the beginning of one option only,
and letters without a value may stand together, as in `-vv`. An argument that looks like an option
is one, except negative numbers and arguments with a space, so that a formula may start with a minus
sign. Everything behind `--` is no option.

Main statements:

* `Arguments.shape_of_head` — an argument that does not start with a dash is no option.
* `Arguments.parse_version` — asking for the version needs nothing else, and nothing behind it
  matters that is not the beginning of several options.
* `Arguments.parse_of_isAmbiguous` — a beginning of several options is refused wherever it stands in
  front of `--`.
-/

namespace PerfFormula

/-- Where the answers to host literals come from. -/
inductive SmtChoice where
  /-- From the machine. -/
  | auto
  /-- As if multithreading were active. -/
  | on
  /-- As if multithreading were not active. -/
  | off
  deriving DecidableEq, Repr

/-- The options of all commands that deal with formulas. -/
structure HostOptions where
  runtime : Int
  smt : SmtChoice
  deriving DecidableEq, Repr

/-- What is to be done. -/
inductive Command where
  | eval (formula : String) (definitions : List String) (host : HostOptions)
  | ids (formula : String) (excluded : List String) (host : HostOptions)
  | events (metrics metric : String) (host : HostOptions)
  | compute (metrics counts : String) (names : Option (List String)) (output : Option String)
    (host : HostOptions)
  | info (metrics : String)
  deriving DecidableEq, Repr

/-- What a command line asks for. -/
inductive Request where
  /-- Do a command, if there is one. -/
  | run (verbosity : Nat) (command : Option Command)
  | version
  | help
  /-- The command line makes no sense. -/
  | misuse
  deriving DecidableEq, Repr

namespace Arguments

/-! ## Options -/

/-- The options with a value. -/
inductive Flag where
  | define
  | exclude
  | counts
  | metric
  | output
  | runtime
  | smt
  deriving DecidableEq, Repr

/-- The options without a value. -/
inductive Switch where
  | help
  | version
  | verbose
  deriving DecidableEq, Repr

/-- What an option stands for. -/
inductive Meaning where
  | switch (kind : Switch)
  | valued (flag : Flag)
  deriving DecidableEq, Repr

/-- The options that may be used in a place, each with how it is written. -/
abbrev OptionTable := List (String × Meaning)

/-- The options of every command, and of none. -/
def helpOptions : OptionTable := [("-h", .switch .help), ("--help", .switch .help)]

/-- The options in front of the command. -/
def mainOptions : OptionTable :=
  helpOptions ++ [("--version", .switch .version), ("-v", .switch .verbose),
    ("--verbose", .switch .verbose)]

/-- The options of the commands that deal with formulas. -/
def hostOptions : OptionTable :=
  helpOptions ++ [("--runtime", .valued .runtime), ("--smt", .valued .smt)]

/-- The options that a command has; `none` if there is no such command. -/
def optionsOf? (name : String) : Option OptionTable :=
  if name = "eval" then
    some (hostOptions ++ [("-D", .valued .define), ("--define", .valued .define)])
  else if name = "ids" then some (hostOptions ++ [("--exclude", .valued .exclude)])
  else if name = "events" then some hostOptions
  else if name = "compute" then
    some (hostOptions ++ [("-c", .valued .counts), ("--counts", .valued .counts),
      ("-m", .valued .metric), ("--metric", .valued .metric),
      ("-o", .valued .output), ("--output", .valued .output)])
  else if name = "info" then some helpOptions
  else none

/-- The option of a name that is written in full. -/
def OptionTable.find? (table : OptionTable) (name : List Char) : Option Meaning :=
  (List.find? (fun entry => entry.1.toList == name) table).map (·.2)

/-! ## The shape of an argument -/

/-- Whether an argument is a negative number; a line may end behind it. -/
def isNegativeNumber (a : List Char) : Bool :=
  let isDigit := fun c => (Text.digitValue? c).isSome
  match if a.getLast? = some '\n' then a.dropLast else a with
  | '-' :: digits =>
    match digits.dropWhile isDigit with
    | [] => !digits.isEmpty
    | '.' :: fraction => !fraction.isEmpty && fraction.all isDigit
    | _ => false
  | _ => false

/-- What an argument is. -/
inductive Shape where
  /-- No option. -/
  | plain
  /-- Written like an option, but none is called so. -/
  | unknown
  /-- The beginning of several options. -/
  | ambiguous
  /-- An option, and what stands behind its name. -/
  | option (meaning : Meaning) (behind : List Char)
  deriving DecidableEq, Repr

/-- What an argument is, by the options that may be used. -/
def shape (table : OptionTable) (a : List Char) : Shape :=
  match a with
  | ['-', '-'] => .plain
  | '-' :: second :: behind =>
    let name := a.takeWhile (· ≠ '=')
    let value := a.dropWhile (· ≠ '=')
    -- A letter may hold an equals sign in its value, as in `-Da=1`.
    let meant :=
      if second = '-' then
        (table.filter fun entry => name.isPrefixOf entry.1.toList).map fun entry => (entry.2, value)
      else (table.find? ['-', second]).toList.map fun meaning => (meaning, behind)
    match table.find? name, meant with
    | some meaning, _ => .option meaning value
    | none, [(meaning, behind)] => .option meaning behind
    | none, [] => if isNegativeNumber a || ' ' ∈ a then .plain else .unknown
    | none, _ => .ambiguous
  | _ => .plain

/-- An argument that does not start with a dash is no option. -/
theorem shape_of_head {table : OptionTable} {a : List Char} (h : a.head? ≠ some '-') :
    shape table a = .plain := by
  unfold shape
  split
  · rfl
  · simp at h
  · rfl

/-- The options that one argument stands for: those without a value, the one behind them that takes
a value, which may stand behind it, and whether a letter is not known. -/
structure Uses where
  switches : List Switch
  valued : Option (Flag × Option (List Char))
  hasUnknown : Bool
  deriving DecidableEq, Repr

/-- The value that stands behind the name of an option. -/
def value? : List Char → Option (List Char)
  | [] => none
  | '=' :: value => some value
  | value => some value

/-- The options of a letter and of the letters behind it; `none` if an equals sign or a dash stands
among them, which is no letter. -/
def letters? (table : OptionTable) (kind : Switch) : List Char → Option Uses
  | [] => some ⟨[kind], none, false⟩
  | c :: behind =>
    if c = '=' || c = '-' then none
    else
      match table.find? ['-', c] with
      -- What is behind an unknown letter belongs to it.
      | none => some ⟨[kind], none, true⟩
      | some (.valued flag) => some ⟨[kind], some (flag, value? behind), false⟩
      | some (.switch next) =>
        (letters? table next behind).map fun u => { u with switches := kind :: u.switches }

/-- The options that an argument stands for, from its first and what stands behind that. -/
def uses? (table : OptionTable) (behind : List Char) : Meaning → Option Uses
  | .valued flag => some ⟨[], some (flag, value? behind), false⟩
  | .switch kind => letters? table kind behind

/-! ## The arguments of a command -/

/-- An option with a value that makes sense. -/
inductive Setting where
  | define (definition : String)
  | exclude (name : String)
  | counts (path : String)
  | metric (name : String)
  | output (path : String)
  | runtime (value : Int)
  | smt (choice : SmtChoice)
  deriving DecidableEq, Repr

/-- The choice of a host. -/
def smtOf? (s : String) : Option SmtChoice :=
  if s = "auto" then some .auto else if s = "on" then some .on else if s = "off" then some .off
  else none

/-- An option with its value, if that makes sense. -/
def Flag.setting? (flag : Flag) (value : String) : Option Setting :=
  match flag with
  | .define => some (.define value)
  | .exclude => some (.exclude value)
  | .counts => some (.counts value)
  | .metric => some (.metric value)
  | .output => some (.output value)
  | .runtime => (Decimal.readWhole? value).map .runtime
  | .smt => (smtOf? value).map .smt

/-- Why the arguments are not read to their end. -/
inductive Stop where
  | help
  | version
  | misuse
  deriving DecidableEq, Repr

/-- What an option without a value stops, if it does. -/
def Switch.stop? : Switch → Option Stop
  | .help => some .help
  | .version => some .version
  | .verbose => none

/-- The arguments of a command: those that are no options and the options, both in order, and
whether there are options that are not known. -/
structure Parts where
  plain : List String
  settings : List Setting
  hasUnknown : Bool
  deriving DecidableEq, Repr

/-- What an argument sets, with the value of its last option if that takes one. Help is given before
the value is looked at. -/
def Uses.settings (u : Uses) (valued : Option (Flag × String)) : Except Stop (List Setting) :=
  match u.switches.findSome? Switch.stop?, valued with
  | some stop, _ => .error stop
  | none, none => .ok []
  | none, some (flag, value) =>
    match flag.setting? value with
    | some setting => .ok [setting]
    | none => .error .misuse

/-- The arguments of a command with some options in front of them. -/
def Parts.addOptions (p : Parts) (settings : List Setting) (hasUnknown : Bool) : Parts :=
  { p with settings := settings ++ p.settings, hasUnknown := hasUnknown || p.hasUnknown }

/-- Sort the arguments of a command by the options that it has. -/
def sort (table : OptionTable) : List String → Except Stop Parts
  | [] => .ok ⟨[], [], false⟩
  | a :: rest =>
    if a = "--" then .ok ⟨rest, [], false⟩
    else
      match shape table a.toList with
      | .plain => (sort table rest).map fun parts => { parts with plain := a :: parts.plain }
      -- Help may still be asked for behind an option that is not known.
      | .unknown => (sort table rest).map fun parts => parts.addOptions [] true
      | .ambiguous => .error .misuse
      | .option meaning behind =>
        match uses? table behind meaning with
        | none => .error .misuse
        | some u =>
          match u.valued, rest with
          | none, rest => do
            let settings ← u.settings none
            return (← sort table rest).addOptions settings u.hasUnknown
          | some (flag, some value), rest => do
            let settings ← u.settings (some (flag, .ofList value))
            return (← sort table rest).addOptions settings u.hasUnknown
          | some _, [] => .error .misuse
          | some (flag, none), value :: rest => do
            -- What looks like an option is no value, except a negative number.
            if value = "--" || shape table value.toList ≠ .plain then throw .misuse
            let settings ← u.settings (some (flag, value))
            return (← sort table rest).addOptions settings u.hasUnknown

namespace Parts

/-- The values that a choice picks from the options. -/
def values {α : Type} (p : Parts) (pick : Setting → Option α) : List α := p.settings.filterMap pick

/-- The definitions of identifiers. -/
def definitions (p : Parts) : List String :=
  p.values fun | .define text => some text | _ => none

/-- The names to leave out. -/
def excluded (p : Parts) : List String :=
  p.values fun | .exclude name => some name | _ => none

/-- The names of metrics. -/
def metrics (p : Parts) : List String :=
  p.values fun | .metric name => some name | _ => none

/-- The file of counts; the last one counts. -/
def counts? (p : Parts) : Option String :=
  (p.values fun | .counts path => some path | _ => none).getLast?

/-- The file to write to; the last one counts. -/
def output? (p : Parts) : Option String :=
  (p.values fun | .output path => some path | _ => none).getLast?

/-- The options of the commands that deal with formulas; the last ones count. -/
def host (p : Parts) : HostOptions where
  runtime := (p.values fun | .runtime value => some value | _ => none).getLastD 0
  smt := (p.values fun | .smt choice => some choice | _ => none).getLastD .auto

end Parts

/-! ## Commands -/

/-- The command of a name and its arguments. -/
def command? (name : String) (p : Parts) : Option Command :=
  match name, p.plain with
  | "eval", [formula] => some (.eval formula p.definitions p.host)
  | "ids", [formula] => some (.ids formula p.excluded p.host)
  | "events", [metrics, metric] => some (.events metrics metric p.host)
  | "compute", [metrics] =>
    let names := if p.metrics.isEmpty then none else some p.metrics
    p.counts?.map fun counts => .compute metrics counts names p.output? p.host
  | "info", [metrics] => some (.info metrics)
  | _, _ => none

/-- What is asked for if the arguments are not read to their end. -/
def Stop.request : Stop → Request
  | .help => .help
  | .version => .version
  | .misuse => .misuse

/-- What a command and its arguments ask for. -/
def parseCommand (verbosity : Nat) (name : String) (arguments : List String) : Request :=
  match optionsOf? name with
  | none => .misuse
  | some table =>
    match sort table arguments with
    | .error stop => stop.request
    | .ok parts =>
      match command? name parts with
      | some command => if parts.hasUnknown then .misuse else .run verbosity (some command)
      | none => .misuse

/-- What the arguments ask for, from those in front of the command on. -/
def parseFrom (verbosity : Nat) (misused : Bool) : List String → Request
  | [] => if misused then .misuse else .run verbosity none
  | a :: rest =>
    match shape mainOptions a.toList with
    | .plain =>
      match parseCommand verbosity a rest with
      | .run verbosity command => if misused then .misuse else .run verbosity command
      | request => request
    -- An unknown option is not reported before help or the version was asked for.
    | .unknown => parseFrom verbosity true rest
    | .ambiguous => .misuse
    | .option meaning behind =>
      match uses? mainOptions behind meaning with
      | none => .misuse
      | some u =>
        match u.switches.findSome? Switch.stop? with
        | some stop => stop.request
        | none => parseFrom (verbosity + u.switches.count .verbose) (misused || u.hasUnknown) rest

/-- Whether an argument is the beginning of several options in front of the command. -/
def isAmbiguous (a : String) : Bool := shape mainOptions a.toList = .ambiguous

/-- What a command line asks for. -/
def parse (arguments : List String) : Request :=
  if (arguments.takeWhile (· ≠ "--")).any isAmbiguous then .misuse
  else parseFrom 0 false arguments

/-- A beginning of several options is refused wherever it stands in front of `--`. -/
theorem parse_of_isAmbiguous {arguments : List String} {a : String}
    (ha : a ∈ arguments.takeWhile (· ≠ "--")) (h : isAmbiguous a) : parse arguments = .misuse := by
  have : (arguments.takeWhile (· ≠ "--")).any isAmbiguous := List.any_eq_true.2 ⟨a, ha, h⟩
  rw [parse, if_pos this]

/-- Asking for the version needs nothing else. -/
theorem parse_version {rest : List String} (h : ∀ a ∈ rest, isAmbiguous a = false) :
    parse ("--version" :: rest) = .version := by
  have hv : shape mainOptions "--version".toList = .option (.switch .version) [] := by
    decide
  have hf : isAmbiguous "--version" = false := by decide
  have : ¬ (("--version" :: rest).takeWhile (· ≠ "--")).any isAmbiguous := by
    intro hs
    obtain ⟨a, ha, hb⟩ := List.any_eq_true.1 hs
    rcases List.mem_cons.1 ((List.takeWhile_sublist _).subset ha) with rfl | hr
    · rw [hf] at hb
      cases hb
    · rw [h a hr] at hb
      cases hb
  rw [parse, if_neg this, parseFrom, hv]
  rfl

end Arguments
end PerfFormula
