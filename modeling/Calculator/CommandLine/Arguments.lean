/-! The arguments of a run: options before and after a subcommand, and what it works on. -/

namespace Calculator.CommandLine

/-- What a run does. -/
inductive Command where
  /-- Evaluates expressions one after another. -/
  | eval (expressions : List String)
  /-- Evaluates the lines of the standard input. -/
  | repl

/-- What the arguments ask for. -/
inductive Request where
  /-- A run with a seed, if one is given, and a directory for plots. -/
  | run (seed : Option UInt64) (directory : String) (command : Command)
  /-- The name and the version of the program. -/
  | version
  /-- How the program is used. -/
  | help
  /-- Nothing that the program can do. -/
  | misuse

/-- The part of the arguments being read. -/
inductive Part where
  /-- What stands before a subcommand. -/
  | top
  /-- What stands after `eval`. -/
  | eval
  /-- What stands after `repl`. -/
  | repl
  deriving DecidableEq

/-- The options given in one part, none of them twice. -/
structure Options where
  seed : Option UInt64
  directory : Option String

/-- The options that take a value. -/
inductive OptionName where
  | seed
  | directory

namespace Options

/-- No options. -/
def none : Options := ⟨.none, .none⟩

/-- The whole number below two to the 64 that a text spells, after an optional plus sign. -/
def seedOf? (text : String) : Option UInt64 :=
  let digits := match text.toList with
    | '+' :: rest => rest
    | all => all
  if digits.isEmpty || !digits.all Char.isDigit then .none
  else
    let value := digits.foldl (fun (value : Nat) (digit : Char) =>
      10 * value + (digit.toNat - '0'.toNat)) 0
    if value < UInt64.size then some (UInt64.ofNat value) else .none

/-- Adds an option with its value, which must be valid and the first of its kind. -/
def add? (options : Options) (name : OptionName) (value : String) : Option Options :=
  match name, options with
  | .seed, ⟨.none, directory⟩ => (seedOf? value).map fun (seed : UInt64) => ⟨some seed, directory⟩
  | .directory, ⟨seed, .none⟩ => if value.isEmpty then .none else some ⟨seed, some value⟩
  | _, _ => .none

/-- Options of an inner part, which go before those of the outer one. -/
def orElse (inner outer : Options) : Options :=
  ⟨inner.seed.or outer.seed, inner.directory.or outer.directory⟩

end Options

/-- An argument by its form. -/
inductive Form where
  /-- Two minus signs: all later arguments are plain. -/
  | escape
  /-- A long option, with the value that follows an equals sign. -/
  | long (name : String) (value : Option String)
  /-- A short option. -/
  | short (letter : Char)
  /-- Anything else. -/
  | plain

/-- The form of an argument. A single minus sign is plain. -/
def formOf (argument : String) : Form :=
  match argument.toList with
  | ['-', '-'] => .escape
  | '-' :: '-' :: rest =>
    let name := rest.takeWhile (· != '=')
    let value := match rest.drop name.length with
      | _ :: value => some (String.ofList value)
      | [] => none
    .long (String.ofList name) value
  | '-' :: letter :: _ => .short letter
  | _ => .plain

/-- The option with a given name that takes a value. -/
def optionNamed? (name : String) : Option OptionName :=
  if name = "seed" then some .seed
  else if name = "plot-dir" then some .directory
  else none

/-- The request that completely read arguments make. -/
def finish (part : Part) (options : Options) (expressions : List String) : Request :=
  let directory := options.directory.getD "."
  match part with
  | .eval =>
    if expressions.isEmpty then .misuse else .run options.seed directory (.eval expressions)
  | .top | .repl => if expressions.isEmpty then .run options.seed directory .repl else .misuse

/-- Help is given on the whole program or on one subcommand. -/
def helpOn : List String → Request
  | [] => .help
  | [subject] => if subject ∈ ["eval", "repl", "help"] then .help else .misuse
  | _ => .misuse

/-- Reads arguments in order. `outer` holds the options before the subcommand and `options` those of
the current part; `expressions` are the plain arguments so far, the last one first. -/
def readFrom (part : Part) (outer options : Options) (expressions : List String) :
    List String → Request
  | [] => finish part (options.orElse outer) expressions.reverse
  | argument :: rest =>
    match formOf argument with
    | .escape => finish part (options.orElse outer) (expressions.reverse ++ rest)
    | .long name value =>
      match optionNamed? name, value, rest with
      | some option, some value, rest =>
        match options.add? option value with
        | some options => readFrom part outer options expressions rest
        | none => .misuse
      | some option, none, value :: rest =>
        -- An option is never another one's value.
        match formOf value, options.add? option value with
        | .plain, some options => readFrom part outer options expressions rest
        | _, _ => .misuse
      | some _, none, [] => .misuse
      | none, none, _ =>
        if name = "version" ∧ part = .top then .version
        else if name = "help" then .help
        else .misuse
      | none, some _, _ => .misuse
    | .short letter =>
      if letter = 'V' ∧ part = .top then .version else if letter = 'h' then .help else .misuse
    | .plain =>
      match part with
      | .eval => readFrom part outer options (argument :: expressions) rest
      | .repl => .misuse
      | .top =>
        if argument = "eval" then readFrom .eval options .none [] rest
        else if argument = "repl" then readFrom .repl options .none [] rest
        else if argument = "help" then helpOn rest
        else .misuse

/-- What the arguments of a run ask for. -/
def requestOf (arguments : List String) : Request := readFrom .top .none .none [] arguments

end Calculator.CommandLine
