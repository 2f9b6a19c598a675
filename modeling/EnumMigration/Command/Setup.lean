import EnumMigration.Command

/-!
# Setup commands

A second small program prepares the use of the first one: `print-schemas` tells the name of the
format of run records, `init-config` writes a configuration to start from, and `bless-fixtures` is
there to renew the files that tests compare with.
-/

namespace EnumMigration

/-- A setup command with its arguments. -/
inductive SetupCommand where
  | printSchemas
  | initConfig (directory : Path) (force : Bool)
  | blessFixtures
deriving DecidableEq, Repr

/-- A configuration to start from. -/
def Config.template : String :=
  "# enumfix configuration.\n" ++
  "#\n" ++
  "# Without [[migration.patterns]], `name` selects a built-in migration.\n" ++
  "\n" ++
  "[migration]\n" ++
  "name = \"betting-round\"\n" ++
  "# import_line = \"import com.donohoedigital.games.poker.core.state.BettingRound;\"\n" ++
  "# files = [\"poker/src/main/java/com/donohoedigital/games/poker/Bet.java\"]\n" ++
  "\n" ++
  "# [[migration.patterns]]\n" ++
  "# legacy = \"HoldemHand.ROUND_FLOP\"\n" ++
  "# replacement = \"BettingRound.FLOP\"\n" ++
  "\n" ++
  "[output]\n" ++
  "# out_dir = \"artifacts/enumfix\"\n" ++
  "dry_run = false\n"

namespace SetupCommand

/-- The setup commands. -/
def program : Program where
  version := none
  commands := [("print-schemas", []), ("init-config", [.value "dir", .flag "force"]),
    ("bless-fixtures", [])]

/-- The setup command with a name and options. -/
def ofOptions (name : String) (given : Given) : Except Stop SetupCommand :=
  match name with
  | "print-schemas" => .ok .printSchemas
  | "init-config" => .ok (.initConfig ⟨(given.get? "dir").getD "."⟩ (given.has "force"))
  | "bless-fixtures" => .ok .blessFixtures
  | _ => .error .misuse

/-- Reads a command line. -/
def read (arguments : List String) : Except Stop SetupCommand := do
  let (name, given) ← program.read arguments
  ofOptions name given

end SetupCommand

/-- Why a setup command failed. -/
inductive SetupError where
  | configPresent (path : Path)
  | directory (path : Path) (cause : DiskError)
  | file (cause : DiskError)
  | blessing (cause : DiskFault)
deriving DecidableEq, Repr

/-- The report of a failure with a cause, which stands on lines of its own, indented. -/
def causedReport (message cause : String) : String :=
  let indented := "\n    ".intercalate (cause.splitOn "\n")
  s!"Error: {message}\n\nCaused by:\n    {indented}\n"

/-- What a setup command reports when it fails. -/
def SetupError.report : SetupError → String
  | configPresent path => s!"Error: {path.text} already exists (use --force to overwrite)\n"
  | directory path cause => causedReport s!"create {path.text}" cause.message
  | file cause => s!"Error: {cause.message}\n"
  | blessing cause => causedReport "run golden fixture blessing" cause.message

namespace Host

variable {m : Type → Type} [Monad m]

/-- Writes a configuration to start from into a directory.  One that is there already is replaced
only by force. -/
def initConfig (host : Host m) (directory : Path) (force : Bool) : m (Except SetupError Path) := do
  let path := directory.join Config.fileName
  let present ← host.disk.holds path
  if present && !force then return .error (.configPresent path)
  else
    match ← host.disk.makeDirs directory with
    | .error cause => return .error (.directory directory cause)
    | .ok () =>
      match ← host.disk.write path Config.template.toUTF8 with
      | .error cause => return .error (.file cause)
      | .ok () => return .ok path

/-- Carries out a setup command.  To renew the files of the tests takes a program that runs them,
and a host has none. -/
def executeSetup (host : Host m) : SetupCommand → m Reply
  | .printSchemas => return .output 0 (RunRecord.schemaName ++ "\n") ""
  | .initConfig directory force => do
    match ← host.initConfig directory force with
    | .ok path => return .output 0 s!"wrote {path.text}\n" ""
    | .error e => return .output 1 "" e.report
  | .blessFixtures => return .output 1 "" (SetupError.blessing .absent).report

/-- Carries out a command line of setup commands. -/
def setupLine (host : Host m) (arguments : List String) : m Reply :=
  match SetupCommand.read arguments with
  | .ok command => host.executeSetup command
  | .error .help => return .help
  | .error _ => return .misuse

end Host

end EnumMigration
