import EnumMigration.Artifacts
import EnumMigration.Batch
import EnumMigration.Command
import EnumMigration.Command.Arguments
import EnumMigration.Command.Listing
import EnumMigration.Command.Setup
import EnumMigration.Config
import EnumMigration.Config.Load
import EnumMigration.Decimal.Shortest
import EnumMigration.Digest.Sha256
import EnumMigration.Disk
import EnumMigration.Disk.Seed
import EnumMigration.Disk.Tree
import EnumMigration.ImportLine
import EnumMigration.Json.Codec
import EnumMigration.Json.Decoder
import EnumMigration.Json.Number
import EnumMigration.Json.Token
import EnumMigration.Keyed
import EnumMigration.Main
import EnumMigration.Migration
import EnumMigration.Migration.Catalogue
import EnumMigration.Patch
import EnumMigration.Patch.Compact
import EnumMigration.Patch.Edit
import EnumMigration.Patch.Hunk
import EnumMigration.Patch.Script
import EnumMigration.Patch.Snake
import EnumMigration.Path
import EnumMigration.Pattern
import EnumMigration.Pattern.Scan
import EnumMigration.Proofs.Slide
import EnumMigration.Proofs.WholeToken
import EnumMigration.Run.Record
import EnumMigration.Run.Report
import EnumMigration.Store
import EnumMigration.Store.Memory
import EnumMigration.Table
import EnumMigration.Table.Action
import EnumMigration.Table.Slide
import EnumMigration.Text.Blank
import EnumMigration.Text.Hidden
import EnumMigration.Text.Line
import EnumMigration.Text.Word
import EnumMigration.Time.Rfc3339
import EnumMigration.Time.Timestamp
import EnumMigration.Time.Unix
import EnumMigration.Toml.Document
import EnumMigration.Toml.Scalar
import EnumMigration.Toml.Token
import EnumMigration.Toml.Value
import EnumMigration.Proofs.Acceptance
import EnumMigration.Proofs.Fragment
import EnumMigration.Proofs.Passes
import EnumMigration.Proofs.Splice
import EnumMigration.Proofs.FixedPoint
import EnumMigration.Proofs.Visits
import EnumMigration.Proofs.SecondRun
import EnumMigration.Proofs.Isolation
import EnumMigration.Proofs.FinalState
import EnumMigration.Proofs.PatchText
import EnumMigration.Proofs.DryRun
import EnumMigration.Proofs.EditScript
import EnumMigration.Proofs.PatchReading
import EnumMigration.Proofs.FaithfulPatch
import EnumMigration.Proofs.Codecs
import EnumMigration.Proofs.Decoded
import EnumMigration.Proofs.RoundTrip
import EnumMigration.Proofs.AnyStore
import EnumMigration.Proofs.Sessions
import EnumMigration.Proofs.SessionInvariants
import EnumMigration.Proofs.PathSpelling
import EnumMigration.Proofs.Respelling
import EnumMigration.Proofs.RunCommand
import EnumMigration.Proofs.LineByLine
import EnumMigration.Proofs.ImportInsertion
import EnumMigration.Proofs.ChangeDetection
import EnumMigration.Proofs.OrderIndependence
import EnumMigration.Proofs.Evidence
import EnumMigration.Proofs.Totals
import EnumMigration.Proofs.FileListing
import EnumMigration.Proofs.GreedyScan
import EnumMigration.Proofs.Lookups
import EnumMigration.Proofs.Computations
