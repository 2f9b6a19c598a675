import EnumMigration.Config
import EnumMigration.Disk

/-!
# Loading a configuration

A configuration is read from a file that is named, or from the one in the root of a run.  Without
either, it says nothing.
-/

namespace EnumMigration

/-- Why a configuration file could not be loaded. -/
inductive LoadError where
  | unreadable (path : Path) (cause : DiskError)
  | malformed (path : Path) (cause : ConfigError)
deriving DecidableEq, Repr

/-- The text of a load error. -/
def LoadError.message : LoadError → String
  | unreadable path cause => s!"read config file {path.text}: " ++ cause.message
  | malformed path cause => s!"parse config file {path.text}: " ++ cause.message

/-- The name of the configuration file in the root of a run. -/
def Config.fileName : Path := ⟨"enumfix.toml"⟩

namespace Disk

variable {m : Type → Type} [Monad m]

/-- Loads a configuration file. -/
def loadConfig (disk : Disk m) (path : Path) : m (Except LoadError Config) := do
  match ← disk.read path with
  | .error cause => return .error (.unreadable path cause)
  | .ok text => return (Config.read text).mapError (.malformed path)

/-- The configuration file in a directory, if there is one. -/
def discoverConfig (disk : Disk m) (root : Path) : m (Option Path) := do
  let path := root.join Config.fileName
  if ← disk.holds path then return some path else return none

/-- Loads the named configuration file, or the one in a directory, or none. -/
def loadConfigOrDefault (disk : Disk m) (root : Path) (named : Option Path) :
    m (Except LoadError Config) := do
  match named with
  | some path => disk.loadConfig path
  | none =>
    match ← disk.discoverConfig root with
    | some path => disk.loadConfig path
    | none => return .ok .default

end Disk

end EnumMigration
