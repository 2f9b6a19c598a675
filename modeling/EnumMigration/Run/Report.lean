import EnumMigration.Run.Record

/-!
# Reports

What a run tells its user: a line for each file, a line that sums up, and a Markdown report.
-/

namespace EnumMigration

/-- The console stream that a line belongs on. -/
inductive Stream where
  | stdout
  | stderr
deriving DecidableEq, Repr

/-- The line for one file. -/
def FileResult.statusLine (result : FileResult) (dryRun : Bool) : Stream × String :=
  let path := result.path
  match result.status with
  | .updated => (.stdout, (if dryRun then "[dry-run] " else "") ++ s!"✓ Updated: {path}")
  | .unchanged => (.stdout, s!"  No changes: {path}")
  | .missing => (.stderr, s!"✗ File not found: {path}")
  | .errored => (.stderr, s!"✗ Error processing {path}: " ++ result.message.getD "unknown error")

/-- The line that sums up a run. -/
def RunSummary.line (summary : RunSummary) : String :=
  s!"Processed {summary.examined} files, updated {summary.updated}"

/-- The item for one file in a report. -/
def FileResult.reportItem (result : FileResult) : String :=
  let label := result.status.label
  s!"- `{result.path}` `{label}`" ++
    (if 0 < result.replacements then s!", {result.replacements} replacement(s)" else "") ++
    (if result.importInserted then ", import added" else "") ++
    (match result.message with
      | some message => ": " ++ message
      | none => "") ++ "\n"

/-- The Markdown report of a run. -/
def RunRecord.report (run : RunRecord) : String :=
  let summary := run.summary
  "# enumfix run\n\n" ++
    s!"- Migration: `{run.migration}`\n" ++
    s!"- Root: `{run.root}`\n" ++
    (if run.dryRun then "- Mode: dry-run (nothing written)\n" else "") ++
    s!"- Examined: {summary.examined}\n" ++
    s!"- Updated: {summary.updated}\n" ++
    s!"- Unchanged: {summary.unchanged}\n" ++
    s!"- Missing: {summary.missing}\n" ++
    s!"- Errored: {summary.errored}\n\n" ++
    "## Files\n\n" ++
    (if run.results.isEmpty then "_No files listed._\n"
      else String.join (run.results.map FileResult.reportItem))

end EnumMigration
