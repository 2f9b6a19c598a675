import EnumMigration.Toml.Document
import EnumMigration.Migration.Catalogue

/-!
# Configuration

A configuration names a migration, or spells one out, and says where the artifacts of a run go.
Arguments of the command line take precedence over it.
-/

namespace EnumMigration

/-- What a configuration says. -/
structure Config where
  name : Option String
  importLine : Option String
  files : Option (List Path)
  patterns : List PatternEntry
  outDir : Option Path
  dryRun : Bool
deriving DecidableEq, Repr

/-- Why a configuration gives no migration. -/
inductive ConfigError where
  | invalidToml
  | unknownMigration (name : String)
  | noImportLine
deriving DecidableEq, Repr

/-- The text of a configuration error. -/
def ConfigError.message : ConfigError → String
  | invalidToml => "invalid TOML"
  | unknownMigration name =>
    let known := ", ".intercalate Catalogue.names
    s!"unknown migration '{name}' (built-in: {known})"
  | noImportLine => "migration with custom patterns requires import_line"

namespace Config

/-- A configuration that says nothing. -/
def default : Config := ⟨none, none, none, [], none, false⟩

/-! ## Reading -/

/-- Reads a value that may be absent. -/
def optional? {α : Type} (read : Toml.Value → Option α) : Option Toml.Value → Option (Option α)
  | none => some none
  | some value => (read value).map some

/-- A path is a string. -/
def path? (value : Toml.Value) : Option Path := value.text?.map Path.mk

/-- A list of values of one kind. -/
def list? {α : Type} (read : Toml.Value → Option α) (value : Toml.Value) : Option (List α) := do
  (← value.items?).mapM read

/-- A pattern has both of its tokens. -/
def pattern? (value : Toml.Value) : Option PatternEntry := do
  match ← value.fields? ["legacy", "replacement"] with
  | [some legacy, some replacement] =>
    some { legacy := ← legacy.text?, replacement := ← replacement.text? }
  | _ => none

/-- The configuration with the settings of a section `migration`. -/
def withMigration? (config : Config) (settings : Toml.Value) : Option Config := do
  match ← settings.fields? ["name", "import_line", "files", "patterns"] with
  | [name, importLine, files, patterns] =>
    let patterns ← optional? (list? pattern?) patterns
    some { config with
      name := ← optional? Toml.Value.text? name
      importLine := ← optional? Toml.Value.text? importLine
      files := ← optional? (list? path?) files
      patterns := patterns.getD [] }
  | _ => none

/-- The configuration with the settings of a section `output`. -/
def withOutput? (config : Config) (settings : Toml.Value) : Option Config := do
  match ← settings.fields? ["out_dir", "dry_run"] with
  | [outDir, dryRun] =>
    let dryRun ← optional? Toml.Value.flag? dryRun
    some { config with
      outDir := ← optional? path? outDir
      dryRun := dryRun.getD false }
  | _ => none

/-- The configuration in a document. -/
def ofDocument? (document : Toml.Value) : Option Config := do
  match ← document.fields? ["migration", "output"] with
  | [migration, output] =>
    let config ← (migration.map default.withMigration?).getD (some default)
    (output.map config.withOutput?).getD (some config)
  | _ => none

/-- Reads a configuration. -/
def read (text : String) : Except ConfigError Config :=
  match (Toml.read? text).bind ofDocument? with
  | some config => .ok config
  | none => .error .invalidToml

/-! ## Resolving -/

/-- The name of a migration that is spelled out without a name. -/
def unnamed : String := "custom"

/-- The migration that the settings start from: one of the catalogue, or, if there are patterns, a
new one. -/
def base (config : Config) : Except ConfigError Migration :=
  if config.patterns.isEmpty then
    let name := config.name.getD Catalogue.bettingRoundName
    match Catalogue.find? name with
    | some migration => .ok migration
    | none => .error (.unknownMigration name)
  else
    match config.importLine with
    | none => .error .noImportLine
    | some importLine =>
      .ok { name := config.name.getD unnamed, importLine, patterns := config.patterns, files := [] }

/-- The migration of a configuration. -/
def migration (config : Config) : Except ConfigError Migration := do
  let base ← config.base
  return { base with
    importLine := config.importLine.getD base.importLine
    files := config.files.getD base.files }

/-- What the arguments of a run say. -/
structure Override where
  root : Path
  files : List Path
  dryRun : Bool
  outDir : Option Path
deriving DecidableEq, Repr

/-- A run with all its settings. -/
structure Resolved where
  migration : Migration
  dryRun : Bool
  outDir : Option Path
deriving DecidableEq, Repr

/-- The settings of a run.  Files among the arguments replace those of the configuration, a dry run
is a dry run if either says so, and the directory for the artifacts is relative to the root if it
comes from the configuration. -/
def resolve (config : Config) (override : Override) : Except ConfigError Resolved := do
  let migration ← config.migration
  return {
    migration :=
      if override.files.isEmpty then migration else { migration with files := override.files }
    dryRun := override.dryRun || config.dryRun
    outDir := override.outDir <|> config.outDir.map override.root.join }

end Config

end EnumMigration
