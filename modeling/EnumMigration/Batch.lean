import EnumMigration.Store
import EnumMigration.Table.Action
import EnumMigration.Patch
import EnumMigration.Digest.Sha256
import EnumMigration.Run.Record

/-!
# Batches

A batch takes a migration through its files, one after the other.  Every listed file gets one
result, whatever happens to the others; only a migration without a valid table is refused as a
whole.
-/

namespace EnumMigration

/-- Where a batch gets its times and the name of its run from. -/
structure Clock (m : Type → Type) where
  now : m Timestamp
  freshId : m String

/-- A clock that stands still. -/
def Clock.fixed {m : Type → Type} [Monad m] (time : Timestamp) (runId : String) : Clock m :=
  ⟨return time, return runId⟩

/-- A batch that cannot start. -/
inductive BatchError where
  | invalidMigration (name : String) (cause : TableError)
deriving DecidableEq, Repr

/-- The text of a batch error. -/
def BatchError.message : BatchError → String
  | invalidMigration name cause => s!"invalid migration `{name}`: " ++ cause.message

/-- The cause behind a batch error. -/
def BatchError.cause : BatchError → TableError
  | invalidMigration _ cause => cause

/-- What a batch leaves: its record, and the patch of everything that changed. -/
structure BatchOutcome where
  run : RunRecord
  patch : String

/-- The exit code of a batch: failures are told apart from complete success. -/
def BatchOutcome.exitCode (outcome : BatchOutcome) : Nat :=
  if outcome.run.summary.hasFailures then 2 else 0

/-- The result and the patch of a file that was read. -/
def FileResult.ofMigrated (path : Path) (before : String) (migrated : Migrated) :
    FileResult × String :=
  let result := { FileResult.ofStatus path.text .unchanged with
    replacements := migrated.replacements
    importInserted := migrated.importInserted }
  if migrated.changed then
    ({ result with
        status := .updated
        digestBefore := some (Sha256.hex before.toUTF8)
        digestAfter := some (Sha256.hex migrated.text.toUTF8) },
      filePatch path.text before migrated.text)
  else (result, "")

namespace SourceStore

variable {m : Type → Type} [Monad m]

/-- Takes one file through a table.  Nothing is written in a dry run, or if nothing changed. -/
def processFile (store : SourceStore m) (table : Table) (dryRun : Bool) (path : Path) :
    m (FileResult × String) := do
  if ← store.holds path then
    match ← store.read path with
    | .error e => return (.errored path.text e.message, "")
    | .ok before =>
      let migrated := table.migrate before
      if migrated.changed && !dryRun then
        match ← store.write path migrated.text with
        | .error e => return (.errored path.text e.message, "")
        | .ok () => return FileResult.ofMigrated path before migrated
      else return FileResult.ofMigrated path before migrated
  else return (.missing path.text, "")

/-- Takes files through a table, one after the other. -/
def processFiles (store : SourceStore m) (table : Table) (dryRun : Bool) :
    List Path → BatchOutcome → m BatchOutcome
  | [], outcome => return outcome
  | path :: paths, outcome => do
    let (result, patch) ← store.processFile table dryRun path
    store.processFiles table dryRun paths ⟨outcome.run.record result, outcome.patch ++ patch⟩

/-- Takes a migration through its files. -/
def runBatch (store : SourceStore m) (clock : Clock m) (tool : ToolInfo) (migration : Migration)
    (dryRun : Bool) : m (Except BatchError BatchOutcome) := do
  match migration.table with
  | .error cause => return .error (.invalidMigration migration.name cause)
  | .ok table =>
    let runId ← clock.freshId
    let started := RunRecord.start runId (← clock.now) tool store.root.text migration.name
    let outcome ← store.processFiles table dryRun migration.files ⟨{ started with dryRun }, ""⟩
    let now ← clock.now
    return .ok { outcome with run := { outcome.run with endedAt := some now } }

end SourceStore

end EnumMigration
