import EnumMigration.Batch
import EnumMigration.Run.Report

/-!
# Artifacts

A batch can be kept as three files in a directory: the record, the report and the patch.
-/

namespace EnumMigration

/-- A step in writing artifacts. -/
inductive ArtifactStep where
  | makeDirs (path : Path)
  | write (path : Path) (text : String)
deriving DecidableEq, Repr

/-- The steps that write the artifacts of a batch into a directory. -/
def BatchOutcome.artifacts (outcome : BatchOutcome) (directory : Path) : List ArtifactStep :=
  [.makeDirs directory,
    .write (directory.join ⟨"run.json"⟩) (RunRecord.codec.writePretty outcome.run),
    .write (directory.join ⟨"run.md"⟩) outcome.run.report,
    .write (directory.join ⟨"patch.diff"⟩) outcome.patch]

/-- Takes steps in order, up to the first one that fails. -/
def performAll {m : Type → Type} [Monad m] {σ ε : Type} (perform : σ → m (Except ε Unit)) :
    List σ → m (Except ε Unit)
  | [] => return .ok ()
  | step :: steps => do
    match ← perform step with
    | .error e => return .error e
    | .ok () => performAll perform steps

/-- Takes one step on a disk. -/
def Disk.perform {m : Type → Type} [Monad m] (disk : Disk m) :
    ArtifactStep → m (Except DiskError Unit)
  | .makeDirs path => disk.makeDirs path
  | .write path text => disk.publish path text.toUTF8

/-- Writes the artifacts of a batch to a disk. -/
def Disk.writeArtifacts {m : Type → Type} [Monad m] (disk : Disk m) (outcome : BatchOutcome)
    (directory : Path) : m (Except DiskError Unit) :=
  performAll disk.perform (outcome.artifacts directory)

end EnumMigration
