import EnumMigration.Path
import EnumMigration.Table
import EnumMigration.Json.Codec

/-!
# Migrations

A migration says what to replace, what to import, and in which files.
-/

namespace EnumMigration

/-- A complete migration.  The files are relative to the root of a run. -/
structure Migration where
  name : String
  importLine : String
  patterns : List PatternEntry
  files : List Path
deriving DecidableEq, Repr

namespace Migration

/-- The checked table of a migration. -/
def table (migration : Migration) : Except TableError Table :=
  Table.ofEntries migration.patterns migration.importLine

end Migration

open Json

/-- Paths are written as strings. -/
def Path.codec : Codec Path :=
  ⟨fun document =>
    match Decoder.stringAs .path document with
    | .ok (text, rest) => .ok (⟨text⟩, rest)
    | .error e => .error e,
   fun path => [.string (some path.text)]⟩

/-- The format of a pattern entry. -/
def PatternEntry.codec : Codec PatternEntry :=
  .record "PatternEntry"
    (.cons (.required "legacy" .string) <| .cons (.required "replacement" .string) .nil)
    (fun entry => (entry.legacy, entry.replacement, ()))
    (fun (legacy, replacement, _) => { legacy, replacement })

/-- The format of a migration. -/
def Migration.codec : Codec Migration :=
  .record "Migration"
    (.cons (.required "name" .string) <| .cons (.required "import_line" .string) <|
      .cons (.required "patterns" (.list PatternEntry.codec)) <|
      .cons (.defaulting "files" (.list Path.codec) []) .nil)
    (fun migration =>
      (migration.name, migration.importLine, migration.patterns, migration.files, ()))
    (fun (name, importLine, patterns, files, _) => { name, importLine, patterns, files })

end EnumMigration
