import EnumMigration.Migration

/-!
# Listings

The patterns and the files of a migration as tables for the console, and the patterns as JSON.
-/

namespace EnumMigration

open Json

/-- Puts blanks behind a text up to a width. -/
def padRight (width : Nat) (text : String) : String :=
  text ++ String.ofList (List.replicate (width - text.length) ' ')

/-- The width of the column of legacy tokens. -/
def legacyWidth : Nat := 32

/-- A row in the table of patterns. -/
def patternRow (legacy replacement : String) : String :=
  "  " ++ padRight legacyWidth legacy ++ s!" {replacement}\n"

/-- The patterns of a migration as a table. -/
def Migration.patternTable (migration : Migration) : String :=
  s!"Migration: {migration.name}\n\n" ++
    patternRow "LEGACY" "REPLACEMENT" ++ patternRow "------" "-----------" ++
    String.join (migration.patterns.map fun entry => patternRow entry.legacy entry.replacement) ++
    s!"\nImport: {migration.importLine}\n"

/-- The format of the patterns of a migration.  Its members are in alphabetical order. -/
def Migration.patternListing : Codec (String × String × List PatternEntry) :=
  .record "PatternListing"
    (.cons (.required "import_line" .string) <| .cons (.required "name" .string) <|
      .cons (.required "patterns" (.list PatternEntry.codec)) .nil)
    (fun (importLine, name, patterns) => (importLine, name, patterns, ()))
    (fun (importLine, name, patterns, _) => (importLine, name, patterns))

/-- The patterns of a migration as JSON. -/
def Migration.patternJson (migration : Migration) : String :=
  patternListing.writePretty (migration.importLine, migration.name, migration.patterns) ++ "\n"

/-- A listed file, and whether it is there. -/
structure ListedFile where
  path : Path
  isThere : Bool
deriving DecidableEq, Repr

/-- The line for a listed file. -/
def ListedFile.line (file : ListedFile) : String :=
  if file.isThere then s!"  {file.path.text}\n" else s!"✗ {file.path.text} (missing)\n"

/-- The number of files that are not there. -/
def countMissing (files : List ListedFile) : Nat := files.countP fun file => !file.isThere

/-- The listed files as a table. -/
def fileTable (files : List ListedFile) : String :=
  let missing := countMissing files
  String.join (files.map ListedFile.line) ++ s!"\n{files.length} files listed, {missing} missing\n"

end EnumMigration
