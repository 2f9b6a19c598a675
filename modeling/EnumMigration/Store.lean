import EnumMigration.Disk

/-!
# Source stores

A batch reads and writes its files through a store.  A store is rooted at a path, and the files are
named relative to that root.
-/

namespace EnumMigration

/-- Why a store did not read or write a file. -/
inductive StoreError where
  | readFails (path : Path)
  | noSuchFile (path : Path)
  | writeFails (path : Path)
  | disk (cause : DiskError)
deriving DecidableEq, Repr

/-- The text of a store error. -/
def StoreError.message : StoreError → String
  | readFails path => s!"read {path.text}: simulated I/O failure"
  | noSuchFile path => s!"read {path.text}: no such file"
  | writeFails path => s!"write {path.text}: simulated I/O failure"
  | disk cause => cause.message

/-- A place that a batch finds its files in. -/
structure SourceStore (m : Type → Type) where
  root : Path
  /-- Whether there is anything at a path. -/
  holds : Path → m Bool
  read : Path → m (Except StoreError String)
  write : Path → String → m (Except StoreError Unit)

/-- Where a store with a root finds a path: an absolute path where it says, any other one below the
root. -/
def Path.resolve (root path : Path) : Path := if path.isAbsolute then path else root.join path

/-- The store of the files below a directory of a disk. -/
def Disk.source {m : Type → Type} [Monad m] (disk : Disk m) (root : Path) : SourceStore m where
  root := root
  holds path := disk.holds (root.resolve path)
  read path := do return (← disk.read (root.resolve path)).mapError .disk
  write path text := do return (← disk.write (root.resolve path) text.toUTF8).mapError .disk

end EnumMigration
