import EnumMigration.Patch.Hunk

/-!
# Patches

The unified diff of one file: a header that names the file and the hunks that lead from its old text
to its new one.  Two equal texts have an empty patch.
-/

namespace EnumMigration

/-- A range of lines in a hunk header.  Lines count from one; a range of one line is written without
its length, and an empty range names the line before it. -/
def rangeText (start length : Nat) : String :=
  if length = 0 then s!"{start},0"
  else if length = 1 then s!"{start + 1}"
  else s!"{start + 1},{length}"

/-- A line with its mark.  A line that does not end in a line feed is followed by a remark. -/
def markedLine (mark line : List Char) : List Char :=
  if line.getLast? = some '\n' then mark ++ line
  else mark ++ line ++ "\n\\ No newline at end of file\n".toList

/-- A line of a hunk as text.  An empty context line has no mark. -/
def HunkLine.render : HunkLine → List Char
  | context line => if line = ['\n'] then line else markedLine [' '] line
  | delete line => markedLine ['-'] line
  | insert line => markedLine ['+'] line

/-- A hunk as text. -/
def Hunk.render (hunk : Hunk) : List Char :=
  let old := rangeText hunk.oldStart hunk.oldLength
  let new := rangeText hunk.newStart hunk.newLength
  s!"@@ -{old} +{new} @@\n".toList ++ hunk.lines.flatMap HunkLine.render

/-- The difference of two texts, with lines that name the texts but no file. -/
def diffText (before after : String) : String :=
  let hunks := hunksBetween (cutLines before.toList) (cutLines after.toList)
  "--- original\n+++ modified\n" ++ String.ofList (hunks.flatMap Hunk.render)

/-- Whether a line names one of the texts of a patch. -/
def isNameLine (line : Line) : Bool :=
  "--- ".toList.isPrefixOf line || "+++ ".toList.isPrefixOf line

/-- The lines that name the file of a patch. -/
def patchHeader (path : String) : String :=
  s!"diff --git a/{path} b/{path}\n--- a/{path}\n+++ b/{path}\n"

/-- A text that ends in a line feed, one put at its end if need be. -/
def endLine (text : String) : String :=
  if text.toList.getLast? = some '\n' then text else text ++ "\n"

/-- The patch of one file: the difference of its texts, with lines that name the file in place of
those that name the texts. -/
def filePatch (path before after : String) : String :=
  if before = after then ""
  else
    let hunks := (cutLines (diffText before after).toList).dropWhile isNameLine
    endLine (patchHeader path ++ String.ofList hunks.flatten)

end EnumMigration
