import EnumMigration.Migration
import EnumMigration.Time.Rfc3339

/-!
# Run records

A run over a list of files leaves a record: one result for each listed file, in order, and a summary
that counts them by status.  The summary always agrees with the results, because `RunRecord.record`
extends both.
-/

namespace EnumMigration

open Json

/-- How a listed file ended. -/
inductive FileStatus where
  | updated
  | unchanged
  | missing
  | errored
deriving DecidableEq, Repr

namespace FileStatus

/-- All statuses in order. -/
def all : List FileStatus := [updated, unchanged, missing, errored]

/-- The name of a status. -/
def label : FileStatus → String
  | updated => "updated"
  | unchanged => "unchanged"
  | missing => "missing"
  | errored => "errored"

/-- The status with a given name. -/
def ofLabel? (name : String) : Option FileStatus := all.find? fun status => status.label == name

/-- A status is found by its name. -/
@[simp] theorem ofLabel?_label (status : FileStatus) : ofLabel? status.label = some status := by
  cases status <;> decide

/-- Whether a file with this status counts as a failure. -/
def isFailure : FileStatus → Bool
  | missing | errored => true
  | updated | unchanged => false

/-- The status with a given name, or an error. -/
def decodeLabel (name : String) : Except DecodeError FileStatus :=
  match ofLabel? name with
  | some status => .ok status
  | none => .error (.mismatch (.unknownVariant name (all.map label)))

/-- A status is written as its name.  It is also read from an object whose only member has this name
and is `null`. -/
def codec : Codec FileStatus :=
  ⟨fun
    | .string (some name) :: rest => do
      let status ← decodeLabel name
      .ok (status, rest)
    | .openObject :: .string (some name) :: rest => do
      let status ← decodeLabel name
      match rest with
      | .colon :: .null :: .closeObject :: rest => .ok (status, rest)
      | .colon :: .null :: _ => .error .malformed
      | .colon :: rest => .error (Decoder.unexpected .unit rest.head?)
      | _ => .error .malformed
    | _ => .error .malformed,
   fun status => [.string (some status.label)]⟩

end FileStatus

/-- What happened to one listed file. -/
structure FileResult where
  path : String
  status : FileStatus
  message : Option String
  replacements : Nat
  importInserted : Bool
  digestBefore : Option String
  digestAfter : Option String
deriving DecidableEq, Repr

namespace FileResult

/-- A result that tells nothing but a status. -/
def ofStatus (path : String) (status : FileStatus) : FileResult :=
  { path, status
    message := none
    replacements := 0
    importInserted := false
    digestBefore := none
    digestAfter := none }

/-- The result of a file that is not there. -/
def missing (path : String) : FileResult := ofStatus path .missing

/-- The result of a file that could not be processed. -/
def errored (path message : String) : FileResult :=
  { ofStatus path .errored with message := some message }

/-- The format of a file result. -/
def codec : Codec FileResult :=
  .record "FileResult"
    (.cons (.required "path" .string) <| .cons (.required "status" FileStatus.codec) <|
      .cons (.optional "message" .string) <| .cons (.defaulting "replacements" .count 0) <|
      .cons (.defaulting "import_inserted" .flag false) <| .cons (.optional "sha256_before" .string) <|
      .cons (.optional "sha256_after" .string) .nil)
    (fun result =>
      (result.path, result.status, result.message, result.replacements, result.importInserted,
        result.digestBefore, result.digestAfter, ()))
    (fun (path, status, message, replacements, importInserted, digestBefore, digestAfter, _) =>
      { path, status, message, replacements, importInserted, digestBefore, digestAfter })

end FileResult

/-- The number of results by status. -/
structure RunSummary where
  examined : Nat
  updated : Nat
  unchanged : Nat
  missing : Nat
  errored : Nat
deriving DecidableEq, Repr

namespace RunSummary

/-- The summary of no results. -/
def empty : RunSummary := ⟨0, 0, 0, 0, 0⟩

/-- Counts one more result. -/
def record (summary : RunSummary) (status : FileStatus) : RunSummary :=
  let counted := { summary with examined := summary.examined + 1 }
  match status with
  | .updated => { counted with updated := summary.updated + 1 }
  | .unchanged => { counted with unchanged := summary.unchanged + 1 }
  | .missing => { counted with missing := summary.missing + 1 }
  | .errored => { counted with errored := summary.errored + 1 }

/-- Whether any file was missing or could not be processed. -/
def hasFailures (summary : RunSummary) : Bool := 0 < summary.missing || 0 < summary.errored

/-- The format of a summary. -/
def codec : Codec RunSummary :=
  .record "RunSummary"
    (.cons (.required "examined" .count) <| .cons (.required "updated" .count) <|
      .cons (.required "unchanged" .count) <| .cons (.required "missing" .count) <|
      .cons (.required "errored" .count) .nil)
    (fun summary =>
      (summary.examined, summary.updated, summary.unchanged, summary.missing, summary.errored, ()))
    (fun (examined, updated, unchanged, missing, errored, _) =>
      { examined, updated, unchanged, missing, errored })

end RunSummary

/-- The tool that made a run. -/
structure ToolInfo where
  name : String
  version : Option String
deriving DecidableEq, Repr

/-- The format of a tool. -/
def ToolInfo.codec : Codec ToolInfo :=
  .record "ToolInfo"
    (.cons (.required "name" .string) <| .cons (.optional "version" .string) .nil)
    (fun tool => (tool.name, tool.version, ()))
    (fun (name, version, _) => { name, version })

/-- The record of one run. -/
structure RunRecord where
  schema : String
  runId : String
  tool : ToolInfo
  root : String
  migration : String
  dryRun : Bool
  startedAt : Option Timestamp
  endedAt : Option Timestamp
  results : List FileResult
  summary : RunSummary
deriving DecidableEq

namespace RunRecord

/-- The name of the format of run records. -/
def schemaName : String := "enumfix.run.v1"

/-- The record of a run that begins now. -/
def start (runId : String) (now : Timestamp) (tool : ToolInfo) (root migration : String) : RunRecord :=
  { schema := schemaName
    runId, tool, root, migration
    dryRun := false
    startedAt := some now
    endedAt := none
    results := []
    summary := .empty }

/-- Adds a result and counts it in the summary. -/
def record (run : RunRecord) (result : FileResult) : RunRecord :=
  { run with
    results := run.results ++ [result]
    summary := run.summary.record result.status }

/-- The format of a run record. -/
def codec : Codec RunRecord :=
  .record "EnumfixRun"
    (.cons (.required "schema" .string) <| .cons (.required "run_id" .string) <|
      .cons (.required "tool" ToolInfo.codec) <| .cons (.required "root" .string) <|
      .cons (.required "migration" .string) <| .cons (.required "dry_run" .flag) <|
      .cons (.optional "started_at" Timestamp.codec) <|
      .cons (.optional "ended_at" Timestamp.codec) <|
      .cons (.defaulting "results" (.list FileResult.codec) []) <|
      .cons (.required "summary" RunSummary.codec) .nil)
    (fun run =>
      (run.schema, run.runId, run.tool, run.root, run.migration, run.dryRun, run.startedAt, run.endedAt,
        run.results, run.summary, ()))
    (fun (schema, runId, tool, root, migration, dryRun, startedAt, endedAt, results, summary, _) =>
      { schema, runId, tool, root, migration, dryRun, startedAt, endedAt, results, summary })

end RunRecord

end EnumMigration
