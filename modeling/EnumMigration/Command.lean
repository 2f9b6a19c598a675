import EnumMigration.Artifacts
import EnumMigration.Command.Arguments
import EnumMigration.Command.Listing
import EnumMigration.Config.Load

/-!
# Commands

The program has three commands: `run` takes a migration through its files, `list-patterns` and
`list-files` show what it would be.  A command acts on the disk of its host and answers with an exit
code and the text for the two console streams.
-/

namespace EnumMigration

/-- What a command line acts on. -/
structure Host (m : Type → Type) where
  disk : Disk m
  clock : Clock m

/-- Where a command gets its configuration from. -/
structure ConfigSource where
  root : Path
  config : Option Path
deriving DecidableEq, Repr

/-- The arguments of a run. -/
structure RunArguments where
  source : ConfigSource
  files : List Path
  dryRun : Bool
  outDir : Option Path
deriving DecidableEq, Repr

/-- What the arguments of a run say about its settings. -/
def RunArguments.override (arguments : RunArguments) : Config.Override where
  root := arguments.source.root
  files := arguments.files
  dryRun := arguments.dryRun
  outDir := arguments.outDir

/-- The format of a listing. -/
inductive ListFormat where
  | text
  | json
deriving DecidableEq, Repr

/-- A command with its arguments. -/
inductive Command where
  | run (arguments : RunArguments)
  | listPatterns (source : ConfigSource) (format : ListFormat)
  | listFiles (source : ConfigSource)
deriving DecidableEq, Repr

/-- The tool that writes its name into run records. -/
def thisTool : ToolInfo := ⟨"enumfix", some "0.1.0"⟩

namespace Command

/-! ## Reading command lines -/

/-- The options that every command has. -/
def sourceOptions : List OptionSpec := [.value "root", .value "config"]

/-- The commands of the program. -/
def program : Program where
  version := thisTool.version
  commands :=
    [("run", sourceOptions ++ [.values "file", .flag "dry-run", .value "out-dir"]),
     ("list-patterns", sourceOptions ++ [.choice "format" ["text", "json"]]),
     ("list-files", sourceOptions)]

/-- The source of the configuration.  The root is the working directory unless another one is given.
-/
def sourceOf (given : Given) : ConfigSource :=
  ⟨⟨(given.get? "root").getD "."⟩, (given.get? "config").map Path.mk⟩

/-- The format of a listing, which is text unless JSON is asked for. -/
def formatOf (given : Given) : ListFormat := if given.get? "format" = some "json" then .json else .text

/-- The command with a name and options. -/
def ofOptions (name : String) (given : Given) : Except Stop Command :=
  match name with
  | "run" => .ok <| .run {
      source := sourceOf given
      files := (given.all "file").map Path.mk
      dryRun := given.has "dry-run"
      outDir := (given.get? "out-dir").map Path.mk }
  | "list-patterns" => .ok <| .listPatterns (sourceOf given) (formatOf given)
  | "list-files" => .ok <| .listFiles (sourceOf given)
  | _ => .error .misuse

/-- Reads a command line. -/
def read (arguments : List String) : Except Stop Command := do
  let (name, given) ← program.read arguments
  ofOptions name given

end Command

/-! ## Failures -/

/-- Why a command failed. -/
inductive CommandError where
  | load (cause : LoadError)
  | config (cause : ConfigError)
  | batch (cause : BatchError)
  | artifacts (directory : Path) (cause : DiskError)
deriving DecidableEq, Repr

/-- The text of a failure: what failed, followed by its causes. -/
def CommandError.message : CommandError → String
  | load cause => "load enumfix.toml config: " ++ cause.message
  | config cause => cause.message
  | batch cause => cause.message ++ ": " ++ cause.cause.message
  | artifacts directory cause => s!"write run artifacts to {directory.text}: " ++ cause.message

/-- The line that reports a failure. -/
def CommandError.line (e : CommandError) : String := s!"error: {e.message}\n"

/-- The reply of a command that failed after it printed something. -/
def Reply.failure (stdout stderr : String) (e : CommandError) : Reply :=
  .output 1 stdout (stderr ++ e.line)

/-! ## What a run prints -/

/-- The lines of a batch that go to a stream. -/
def BatchOutcome.linesOn (outcome : BatchOutcome) (stream : Stream) : String :=
  String.join <| outcome.run.results.filterMap fun result =>
    let (target, line) := result.statusLine outcome.run.dryRun
    if target = stream then some (line ++ "\n") else none

/-- What a batch prints on the standard output. -/
def BatchOutcome.stdout (outcome : BatchOutcome) : String :=
  outcome.linesOn .stdout ++ s!"\n{outcome.run.summary.line}\n"

/-- What a batch prints on the error output. -/
def BatchOutcome.stderr (outcome : BatchOutcome) : String := outcome.linesOn .stderr

/-- The patch at the end of a dry run without artifacts. -/
def BatchOutcome.printedPatch (outcome : BatchOutcome) : String :=
  if outcome.run.dryRun && !outcome.patch.isEmpty then s!"\n{outcome.patch}" else ""

namespace Host

variable {m : Type → Type} [Monad m]

/-! ## Running commands -/

/-- The configuration of a command. -/
def loadConfig (host : Host m) (source : ConfigSource) : m (Except CommandError Config) := do
  return (← host.disk.loadConfigOrDefault source.root source.config).mapError .load

/-- The migration of a command that shows it. -/
def loadMigration (host : Host m) (source : ConfigSource) : m (Except CommandError Migration) := do
  match ← host.loadConfig source with
  | .error e => return .error e
  | .ok config => return config.migration.mapError .config

/-- The settings of a run. -/
def resolveRun (host : Host m) (arguments : RunArguments) :
    m (Except CommandError Config.Resolved) := do
  match ← host.loadConfig arguments.source with
  | .error e => return .error e
  | .ok config => return (config.resolve arguments.override).mapError .config

/-- Takes the migration of a run through its files. -/
def processRun (host : Host m) (root : Path) (settings : Config.Resolved) :
    m (Except CommandError BatchOutcome) := do
  let store := host.disk.source root
  return (← store.runBatch host.clock thisTool settings.migration settings.dryRun).mapError .batch

/-- Finishes a run: writes its artifacts, or prints the patch of a dry run that has none. -/
def finishRun (host : Host m) (settings : Config.Resolved) (outcome : BatchOutcome) : m Reply := do
  match settings.outDir with
  | none => return .output outcome.exitCode (outcome.stdout ++ outcome.printedPatch) outcome.stderr
  | some directory =>
    match ← host.disk.writeArtifacts outcome directory with
    | .error cause => return .failure outcome.stdout outcome.stderr (.artifacts directory cause)
    | .ok () => return .output outcome.exitCode outcome.stdout outcome.stderr

/-- Runs a migration. -/
def run (host : Host m) (arguments : RunArguments) : m Reply := do
  match ← host.resolveRun arguments with
  | .error e => return .failure "" "" e
  | .ok settings =>
    match ← host.processRun arguments.source.root settings with
    | .error e => return .failure "" "" e
    | .ok outcome => host.finishRun settings outcome

/-- Shows the patterns of a migration. -/
def listPatterns (host : Host m) (source : ConfigSource) (format : ListFormat) : m Reply := do
  match ← host.loadMigration source with
  | .error e => return .failure "" "" e
  | .ok migration =>
    return .output 0 (match format with
      | .text => migration.patternTable
      | .json => migration.patternJson) ""

/-- The listed files below a root, and which of them are there. -/
def findFiles (host : Host m) (root : Path) (files : List Path) : m (List ListedFile) :=
  files.mapM fun path => do return ⟨path, ← host.disk.holds (root.join path)⟩

/-- Shows the files of a migration. -/
def listFiles (host : Host m) (source : ConfigSource) : m Reply := do
  match ← host.loadMigration source with
  | .error e => return .failure "" "" e
  | .ok migration => return .output 0 (fileTable (← host.findFiles source.root migration.files)) ""

/-- Carries out a command. -/
def execute (host : Host m) : Command → m Reply
  | .run arguments => host.run arguments
  | .listPatterns source format => host.listPatterns source format
  | .listFiles source => host.listFiles source

/-- Carries out a command line. -/
def commandLine (host : Host m) (arguments : List String) : m Reply :=
  match Command.read arguments with
  | .ok command => host.execute command
  | .error .help => return .help
  | .error .version => return .output 0 (s!"{thisTool.name} " ++ thisTool.version.getD "" ++ "\n") ""
  | .error .misuse => return .misuse

end Host

end EnumMigration
