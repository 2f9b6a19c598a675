import EnumMigration.Disk

/-!
# Seeding a disk

Puts a file below a root, together with the directories that lead to it.
-/

namespace EnumMigration

/-- Why a file was not put in place. -/
inductive SeedError where
  | directory (path : Path) (cause : DiskError)
  | file (path : Path) (cause : DiskError)
deriving DecidableEq, Repr

/-- The text of a seed error. -/
def SeedError.message : SeedError → String
  | directory path cause => s!"create {path.text}: " ++ cause.message
  | file path cause => s!"write {path.text}: " ++ cause.message

/-- Puts a file below a root. -/
def Disk.seed {m : Type → Type} [Monad m] (disk : Disk m) (root relative : Path) (text : String) :
    m (Except SeedError Unit) := do
  let path := root.join relative
  match path.parent? with
  | none => write path
  | some directory =>
    match ← disk.makeDirs directory with
    | .error cause => return .error (.directory directory cause)
    | .ok () => write path
where
  /-- Writes the file itself. -/
  write (path : Path) : m (Except SeedError Unit) := do
    return (← disk.write path text.toUTF8).mapError (.file path)

end EnumMigration
