import EnumMigration.Pattern.Scan
import EnumMigration.Table.Slide

/-!
# Pattern tables

A table is a list of patterns and the import line that their replacements need.  It is checked as a
whole: no replacement may bring a legacy token back, alone or together with the text around it, and
the import line may not hold one.  The checks are part of the type, so whoever has a `Table` may
rely on them.
-/

namespace EnumMigration

/-- Why a list of entries and an import line do not make a table. -/
inductive TableError where
  | invalidPattern (legacy : String) (fault : PatternFault)
  | reintroducesLegacy (legacy replacement : String)
  | importLineHoldsLegacy (importLine legacy : String)
  | noEntries
  | blankImportLine
deriving DecidableEq, Repr

/-- The wording of a table error. -/
def TableError.message : TableError → String
  | invalidPattern legacy fault => s!"invalid pattern `{legacy}`: " ++ fault.reason
  | reintroducesLegacy legacy replacement =>
    s!"replacement `{replacement}` reintroduces legacy token `{legacy}`"
  | importLineHoldsLegacy importLine legacy =>
    s!"import line `{importLine}` contains legacy token `{legacy}`"
  | noEntries => "pattern table has no entries"
  | blankImportLine => "import line is empty"

namespace Pattern

/-- The pattern of an entry, or a table error that names the entry. -/
def compile (entry : PatternEntry) : Except TableError Pattern :=
  (ofEntry entry).mapError (.invalidPattern entry.legacy)

/-- Whether a replacement text brings the token of a pattern back. -/
def returnsIn (pattern : Pattern) (replacement : List Char) : Bool :=
  pattern.occursIn replacement || completesToken pattern.token replacement

/-- The first way in which the token of a pattern comes back, through the replacements of a table or
through its import line. -/
def conflict? (pattern : Pattern) (patterns : List Pattern) (importLine : String) :
    Option TableError :=
  match patterns.find? fun other => pattern.returnsIn other.substitute with
  | some other => some (.reintroducesLegacy pattern.legacy other.replacement)
  | none =>
    if pattern.occursIn importLine.toList then
      some (.importLineHoldsLegacy importLine pattern.legacy)
    else none

end Pattern

/-- A checked list of patterns and the import line that their replacements need. -/
structure Table where
  importLine : String
  patterns : List Pattern
  importLine_not_blank : isBlankText importLine.toList = false
  patterns_ne_nil : patterns ≠ []
  no_conflict : ∀ pattern ∈ patterns, pattern.conflict? patterns importLine = none

namespace Table

/-- The table of a list of entries and an import line.  The import line is checked first, then each
entry by itself, then the patterns against each other and against the import line. -/
def ofEntries (entries : List PatternEntry) (importLine : String) : Except TableError Table :=
  if hblank : isBlankText importLine.toList then .error .blankImportLine
  else
    match entries.mapM Pattern.compile with
    | .error e => .error e
    | .ok patterns =>
      if hempty : patterns = [] then .error .noEntries
      else
        match hconflict : patterns.findSome? fun pattern => pattern.conflict? patterns importLine with
        | some conflict => .error conflict
        | none => .ok
          { importLine, patterns
            importLine_not_blank := by simpa using hblank
            patterns_ne_nil := hempty
            no_conflict := List.findSome?_eq_none_iff.mp hconflict }

end Table

end EnumMigration
