import Recast.Number.Reading

/-!
# Arguments

`Request.ofArguments` reads the arguments of the command. An option is a `Switch`, or a `Setting`
with a value, which may be attached or be the next argument. Options and the input may come in any
order; after two dashes no argument is an option. Of a setting that is given twice the last value
counts. A question for help or for the version is answered before anything else is looked at, once
all options are known.
-/

namespace Recast

/-- An option without a value. -/
inductive Switch where
  | stdout
  | json
  | noColor
  | version
  | help
  deriving DecidableEq, Repr

/-- An option with a value. -/
inductive Setting where
  | output
  | config
  | logDirectory
  | verbosity
  deriving DecidableEq, Repr

/-- An option as it was given. -/
inductive Given where
  | switch (s : Switch)
  | setting (s : Setting) (value : Text)
  deriving DecidableEq, Repr

/-- The kind of an option. -/
inductive OptionKind where
  | switch (s : Switch)
  | setting (s : Setting)
  deriving DecidableEq, Repr

/-- The option with a long name. -/
def OptionKind.long? (name : Text) : Option OptionKind :=
  match String.ofList name with
  | "--output" => some (.setting .output)
  | "--config" => some (.setting .config)
  | "--logdir" => some (.setting .logDirectory)
  | "--verbosity" => some (.setting .verbosity)
  | "--stdout" => some (.switch .stdout)
  | "--json" => some (.switch .json)
  | "--no-color" => some (.switch .noColor)
  | "--version" => some (.switch .version)
  | "--help" => some (.switch .help)
  | _ => none

/-- The option with a letter. -/
def OptionKind.short? : Char → Option OptionKind
  | 'o' => some (.setting .output)
  | 'v' => some (.setting .verbosity)
  | 'V' => some (.switch .version)
  | _ => none

/-! ## Single arguments -/

/-- What one argument gives: options, and perhaps a setting that waits for its value. -/
structure Piece where
  given : List Given
  waiting? : Option Setting

/-- Letters after one dash. The letters after a setting are its value. -/
def readLetters : Text → Option Piece
  | [] => some ⟨[], none⟩
  | c :: cs =>
    match OptionKind.short? c with
    | none => none
    | some (.switch s) =>
      (readLetters cs).map fun piece => ⟨.switch s :: piece.given, piece.waiting?⟩
    | some (.setting s) => some (if cs.isEmpty then ⟨[], some s⟩ else ⟨[.setting s cs], none⟩)

/-- An argument that starts with a dash. A value may follow an equals sign; a switch takes none. -/
def readOption (arg : Text) : Option Piece :=
  let (name, value?) := match cutAt? '=' arg with
    | some (name, value) => (name, some value)
    | none => (arg, none)
  match OptionKind.long? name, value? with
  | some (.switch s), none => some ⟨[.switch s], none⟩
  | some (.switch _), some _ => none
  | some (.setting s), none => some ⟨[], some s⟩
  | some (.setting s), some value => some ⟨[.setting s value], none⟩
  | none, _ => if startsWith arg ['-', '-'] then none else readLetters (arg.drop 1)

/-- Whether an argument is an option. A dash alone is not. -/
def isOption (arg : Text) : Bool :=
  startsWith arg ['-'] && 1 < arg.length

/-! ## All arguments -/

/-- The options in order, and the other arguments. -/
structure Arguments where
  given : List Given
  inputs : List Text
  deriving DecidableEq, Repr

/-- Adds options before those that follow. -/
def Arguments.prepend (given : List Given) (rest : Arguments) : Arguments :=
  ⟨given ++ rest.given, rest.inputs⟩

/-- Reads arguments one after the other. There is no answer if an option is unknown or a value is
missing. -/
def Arguments.read : List Text → Option Arguments
  | [] => some ⟨[], []⟩
  | arg :: rest =>
    if arg = ['-', '-'] then some ⟨[], rest⟩
    else if isOption arg then
      match readOption arg with
      | none => none
      | some ⟨given, none⟩ => (Arguments.read rest).map (·.prepend given)
      | some ⟨given, some setting⟩ =>
        match rest with
        | [] => none
        | value :: rest => (Arguments.read rest).map (·.prepend (given ++ [.setting setting value]))
    else (Arguments.read rest).map fun more => ⟨more.given, arg :: more.inputs⟩

/-- Whether a switch is given. -/
def Arguments.has (arguments : Arguments) (switch : Switch) : Bool :=
  arguments.given.contains (.switch switch)

/-- The last value of a setting. -/
def Arguments.value? (arguments : Arguments) (setting : Setting) : Option Text :=
  arguments.given.reverse.findSome? fun
    | .setting s value => if s = setting then some value else none
    | .switch _ => none

/-! ## Requests -/

/-- What a conversion is asked for. -/
structure Order where
  input : Text
  output? : Option Text
  toStdout : Bool
  asJson : Bool
  config? : Option Text
  logDirectory? : Option Text
  verbosity : Int
  deriving DecidableEq, Repr

/-- What the command is asked for. -/
inductive Request where
  | help
  | version
  | convert (order : Order)
  /-- The arguments are wrong, and the usage is shown. -/
  | misuse
  deriving DecidableEq, Repr

/-- The order that arguments make; there has to be exactly one input and the verbosity has to be an
integer. -/
def Arguments.order? (arguments : Arguments) : Option Order := do
  let verbosity ← match arguments.value? .verbosity with
    | some value => (readInteger 10 (.ofText value)).toOption
    | none => some 0
  match arguments.inputs with
  | [input] =>
    some
      { input
        output? := arguments.value? .output
        toStdout := arguments.has .stdout
        asJson := arguments.has .json
        config? := arguments.value? .config
        logDirectory? := arguments.value? .logDirectory
        verbosity }
  | _ => none

/-- The first question for help or the version. -/
def Arguments.question? (arguments : Arguments) : Option Request :=
  arguments.given.findSome? fun
    | .switch .help => some .help
    | .switch .version => some .version
    | _ => none

/-- Reads the arguments of the command. -/
def Request.ofArguments (args : List Text) : Request :=
  if args.isEmpty then .misuse
  else
    match Arguments.read args with
    | none => .misuse
    | some arguments =>
      match arguments.question?, arguments.order? with
      | some question, _ => question
      | none, some order => .convert order
      | none, none => .misuse

end Recast
