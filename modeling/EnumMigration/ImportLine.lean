import EnumMigration.Text.Word
import EnumMigration.Text.Blank
import EnumMigration.Text.Line

/-!
# The import line

New names need an import.  It goes directly after the last import declaration of a text, the
*anchor*; a text that already holds the import line, or has no anchor, stays as it is.  Static and
wildcard imports are no anchors: what stands between the blanks and the semicolon is made of word
characters and dots.
-/

namespace EnumMigration

/-- Whether a text holds another one somewhere. -/
def occursWithin (part : List Char) : List Char → Bool
  | [] => part.isEmpty
  | c :: rest => part.isPrefixOf (c :: rest) || occursWithin part rest

/-- Whether a character may stand in the name of an import. -/
def isNameChar (c : Char) : Bool := isWord c || c == '.'

/-- Whether a line starts an import declaration: the word `import`, blanks, a dotted name, a
semicolon. -/
def isAnchor (line : List Char) : Bool :=
  match "import".toList.isPrefixOf? line with
  | none => false
  | some rest =>
    let name := rest.dropWhile isBlank
    let closing := name.dropWhile isNameChar
    (rest.head?.any isBlank) && (name.head?.any isNameChar) && closing.head? == some ';'

/-- A list with a new element directly after the last one that satisfies a test, if there is one. -/
def insertAfterLast {α : Type} (test : α → Bool) (new : α) : List α → Option (List α)
  | [] => none
  | a :: rest =>
    match insertAfterLast test new rest with
    | some inserted => some (a :: inserted)
    | none => if test a then some (a :: new :: rest) else none

/-- A text with the import line after its last anchor, unless it holds the import line already or
has no anchor. -/
def insertImport? (importLine text : List Char) : Option (List Char) :=
  if occursWithin importLine text then none
  else (insertAfterLast isAnchor importLine (lines text)).map unlines

/-- A text that holds the import line wherever it can be placed. -/
def ensureImport (text importLine : String) : String :=
  match insertImport? importLine.toList text.toList with
  | none => text
  | some inserted => String.ofList inserted

end EnumMigration
