import EnumMigration.Table
import EnumMigration.ImportLine

/-!
# The action of a table

A table acts on a text pattern by pattern, each pattern on what the earlier ones left.  To migrate a
whole file, it does this and then, if anything was replaced, adds the import line.
-/

namespace EnumMigration

/-- A text after every pattern of a table had its turn. -/
structure Transformed where
  text : String
  changed : Bool
  replacements : Nat
deriving DecidableEq, Repr

/-- A file after the replacements and the import line. -/
structure Migrated where
  text : String
  changed : Bool
  replacements : Nat
  importInserted : Bool
deriving DecidableEq, Repr

/-- A text after the given patterns, and the number of replacements. -/
def replaceEach : List Pattern → List Char → List Char × Nat
  | [], text => (text, 0)
  | pattern :: patterns, text =>
    let (result, count) := replaceEach patterns (pattern.replaceAll text)
    (result, pattern.hits text + count)

namespace Table

/-- Replaces every whole-token occurrence of each pattern, in table order. -/
def transform (table : Table) (text : String) : Transformed :=
  let (result, count) := replaceEach table.patterns text.toList
  { text := String.ofList result
    changed := result != text.toList
    replacements := count }

/-- Replaces the legacy tokens of a file and adds the import line if any of them was there. -/
def migrate (table : Table) (text : String) : Migrated :=
  let (replaced, count) := replaceEach table.patterns text.toList
  let inserted := if count = 0 then none else insertImport? table.importLine.toList replaced
  let result := inserted.getD replaced
  { text := String.ofList result
    changed := result != text.toList
    replacements := count
    importInserted := inserted.isSome }

end Table

end EnumMigration
