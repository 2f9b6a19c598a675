/-!
# Lines

Two ways of taking a text apart at its line feeds.  `lines` drops the line feeds, so a text always
has one line more than it has line feeds, and `unlines` puts it together again.  `cutLines` keeps
each line feed at the end of its line, so that a last line without one can be told apart; the pieces
then simply concatenate to the text.
-/

namespace EnumMigration

/-- The lines of a text, without their line feeds. -/
def lines (text : List Char) : List (List Char) := text.splitOn '\n'

/-- Lines put together with line feeds between them. -/
def unlines (pieces : List (List Char)) : List Char := ['\n'].intercalate pieces

@[simp] theorem unlines_singleton (line : List Char) : unlines [line] = line :=
  List.intercalate_singleton

@[simp] theorem unlines_lines (text : List Char) : unlines (lines text) = text :=
  List.intercalate_splitOn '\n'

/-- How many lines of a text are equal to the given one. -/
def countLines (text line : String) : Nat := (lines text.toList).count line.toList

/-- The lines of a text, each with the line feed that ends it. -/
def cutLines : List Char → List (List Char)
  | [] => []
  | c :: rest =>
    if c = '\n' then [c] :: cutLines rest
    else
      match cutLines rest with
      | [] => [[c]]
      | line :: more => (c :: line) :: more

/-- Cutting loses nothing. -/
@[simp] theorem flatten_cutLines (text : List Char) : (cutLines text).flatten = text := by
  induction text with
  | nil => rfl
  | cons c rest ih =>
    rw [cutLines]
    split
    · simp [ih]
    · match hcut : cutLines rest with
      | [] => simpa [hcut] using ih
      | line :: more => simpa [hcut] using ih

end EnumMigration
