/-!
# Command-line arguments

A command line names a command and gives options to it.  An option is a flag, or it has a value that
follows it, either after an equals sign or as the next argument.  Reading goes from left to right
and stops at the first argument that asks for help or does not fit.
-/

namespace EnumMigration

/-- Why a command line leads to no command. -/
inductive Stop where
  | help
  | version
  | misuse
deriving DecidableEq, Repr

/-- What kind of option it is. -/
inductive OptionKind where
  | flag
  | value
  /-- An option that may be given again and again. -/
  | values
deriving DecidableEq, Repr

/-- An option of a command, and which values it takes. -/
structure OptionSpec where
  name : String
  kind : OptionKind
  accepts : String → Bool

namespace OptionSpec

/-- A flag. -/
def flag (name : String) : OptionSpec := ⟨name, .flag, fun _ => true⟩

/-- An option with any value. -/
def value (name : String) : OptionSpec := ⟨name, .value, fun _ => true⟩

/-- An option with any values. -/
def values (name : String) : OptionSpec := ⟨name, .values, fun _ => true⟩

/-- An option with one of the given values. -/
def choice (name : String) (choices : List String) : OptionSpec := ⟨name, .value, choices.contains⟩

end OptionSpec

/-- An argument by its form. -/
inductive Argument where
  | separator
  | long (name : String) (value : Option String)
  | short (letter : Char)
  | plain (text : String)
deriving DecidableEq, Repr

/-- The form of an argument. -/
def Argument.ofText (text : String) : Argument :=
  match text.toList with
  | ['-', '-'] => .separator
  | '-' :: '-' :: rest =>
    match rest.span (· != '=') with
    | (name, _ :: value) => .long (String.ofList name) (some (String.ofList value))
    | (name, []) => .long (String.ofList name) none
  | '-' :: letter :: _ => .short letter
  | _ => .plain text

/-- Whether an argument can be the value of the option before it. -/
def Argument.isPlain : Argument → Bool
  | plain _ => true
  | _ => false

/-- The options that were given, in order, each with its value.  A flag has the empty value. -/
abbrev Given := List (String × String)

namespace Given

/-- Whether an option was given. -/
def has (given : Given) (name : String) : Bool := given.any fun item => item.1 == name

/-- The value of an option. -/
def get? (given : Given) (name : String) : Option String := given.lookup name

/-- All values of an option. -/
def all (given : Given) (name : String) : List String :=
  given.filterMap fun item => if item.1 == name then some item.2 else none

/-- Adds an option, if it takes the value and may be given. -/
def add (given : Given) (spec : OptionSpec) (value : String) : Except Stop Given :=
  if spec.accepts value && (spec.kind == .values || !given.has spec.name) then
    .ok (given ++ [(spec.name, value)])
  else .error .misuse

end Given

/-- Reads the options of a command. -/
def readOptions (specs : List OptionSpec) : List String → Given → Except Stop Given
  | [], given => .ok given
  | text :: rest, given =>
    match Argument.ofText text with
    | .separator => if rest.isEmpty then .ok given else .error .misuse
    | .plain _ => .error .misuse
    | .short letter => .error (if letter = 'h' then .help else .misuse)
    | .long name value =>
      match specs.find? fun spec => spec.name == name with
      | none => .error (if name = "help" ∧ value = none then .help else .misuse)
      | some spec =>
        match spec.kind, value, rest with
        | .flag, none, rest => do readOptions specs rest (← given.add spec "")
        | .flag, some _, _ => .error .misuse
        | _, some value, rest => do readOptions specs rest (← given.add spec value)
        | _, none, value :: rest =>
          if (Argument.ofText value).isPlain then do readOptions specs rest (← given.add spec value)
          else .error .misuse
        | _, none, [] => .error .misuse

/-- The commands of a program, each with its options. -/
structure Program where
  version : Option String
  commands : List (String × List OptionSpec)

namespace Program

/-- Stops for the version, if the program tells it. -/
def versionStop (program : Program) : Stop := if program.version.isSome then .version else .misuse

/-- Whether a name is that of a command, or the one that asks for help. -/
def knows (program : Program) (name : String) : Bool :=
  name == "help" || (program.commands.lookup name).isSome

/-- Reads a command line: the name of the command, and its options. -/
def read (program : Program) : List String → Except Stop (String × Given)
  | [] => .error .misuse
  | text :: rest =>
    match Argument.ofText text with
    | .short 'h' | .long "help" none => .error .help
    | .short 'V' | .long "version" none => .error program.versionStop
    | .plain "help" => .error (if rest.all program.knows && rest.length ≤ 1 then .help else .misuse)
    | .plain name =>
      match program.commands.lookup name with
      | some specs => (readOptions specs rest []).map (name, ·)
      | none => .error .misuse
    | _ => .error .misuse

/-- An option as the usage shows it. -/
def optionUsage (spec : OptionSpec) : String :=
  match spec.kind with
  | .flag => s!" [--{spec.name}]"
  | .value => s!" [--{spec.name} VALUE]"
  | .values => s!" [--{spec.name} VALUE]..."

/-- How a program is used: a line for each command. -/
def usage (program : Program) (name : String) : String :=
  String.join <| program.commands.map fun (command, specs) =>
    s!"usage: {name} {command}" ++ String.join (specs.map optionUsage) ++ "\n"

end Program

/-- What a program answers: how it is used, or a result with an exit code. -/
inductive Reply where
  /-- The program explains itself, because it was asked to. -/
  | help
  /-- The program explains itself, because the command line does not fit. -/
  | misuse
  | output (code : Nat) (stdout stderr : String)
deriving DecidableEq, Repr

/-- The exit code of a program. -/
def Reply.code : Reply → Nat
  | help => 0
  | misuse => 2
  | output code _ _ => code

end EnumMigration
