import EnumMigration.Path

/-!
# Disks

A disk holds files and directories under paths.  This module says what a program can ask of a disk
and how a disk refuses; `FileTree` is a disk that is a plain value.
-/

namespace EnumMigration

/-- Why the system refuses an operation on a path. -/
inductive DiskFault where
  | absent
  | present
  | notDirectory
  | isDirectory
  | nameTooLong
  | nulInName
  | notText
  | other (text : String)
deriving DecidableEq, Repr

/-- The system's words for a fault. -/
def DiskFault.message : DiskFault → String
  | absent => "No such file or directory (os error 2)"
  | present => "File exists (os error 17)"
  | notDirectory => "Not a directory (os error 20)"
  | isDirectory => "Is a directory (os error 21)"
  | nameTooLong => "File name too long (os error 36)"
  | nulInName => "file name contained an unexpected NUL byte"
  | notText => "stream did not contain valid UTF-8"
  | other text => text

/-- What was attempted on a path. -/
inductive DiskAction where
  | openFile
  | readFile
  | createFile
  | createDirectory
deriving DecidableEq, Repr

/-- The words for an action. -/
def DiskAction.phrase : DiskAction → String
  | openFile => "open file"
  | readFile => "read from file"
  | createFile => "create file"
  | createDirectory => "create directory"

/-- An action that the system refused. -/
structure DiskError where
  action : DiskAction
  path : Path
  fault : DiskFault
deriving DecidableEq, Repr

/-- The text of a refusal. -/
def DiskError.message (e : DiskError) : String :=
  "failed to " ++ e.action.phrase ++ s!" `{e.path.text}`: " ++ e.fault.message

/-- What a program can ask of a disk. -/
structure Disk (m : Type → Type) where
  /-- Whether there is anything at a path. -/
  holds : Path → m Bool
  /-- The text of a file. -/
  read : Path → m (Except DiskError String)
  /-- Creates a file or replaces its bytes.  The directory must be there. -/
  write : Path → ByteArray → m (Except DiskError Unit)
  /-- Makes a directory and all directories above it.  It may already be there. -/
  makeDirs : Path → m (Except DiskError Unit)

namespace Disk

variable {m : Type → Type} [Monad m]

/-- Creates a file or replaces its text, and makes the directory for it. -/
def publish (disk : Disk m) (path : Path) (bytes : ByteArray) : m (Except DiskError Unit) := do
  match path.parent? with
  | none => disk.write path bytes
  | some directory =>
    match ← disk.makeDirs directory with
    | .error e => return .error e
    | .ok () => disk.write path bytes

end Disk

end EnumMigration
