import EnumMigration.Patch.Script
import EnumMigration.Patch.Compact

/-!
# Hunks

A script becomes a list of changes with the unchanged lines between them.  Changes whose
surroundings of three lines touch are shown together in one hunk.
-/

namespace EnumMigration

/-- A place where the texts differ: the unchanged lines since the change before, the lines taken out
and the lines put in, and where these begin in either text. -/
structure Change where
  gap : List Line
  deleted : List Line
  inserted : List Line
  oldStart : Nat
  newStart : Nat

namespace Change

/-- The first old line behind a change. -/
def oldStop (change : Change) : Nat := change.oldStart + change.deleted.length

/-- The first new line behind a change. -/
def newStop (change : Change) : Nat := change.newStart + change.inserted.length

end Change

/-- The changes of a script and the unchanged lines behind the last one. -/
structure Changes where
  changes : List Change
  tail : List Line

/-- Reads the changes off a script.  The arguments are the unchanged lines since the last change,
the lines of a change that is not yet complete, and the positions at which it begins. -/
def changesFrom (gap deleted inserted : List Line) (oldStart newStart : Nat) : Script → Changes
  | [] =>
    if deleted.isEmpty && inserted.isEmpty then ⟨[], gap⟩
    else ⟨[⟨gap, deleted, inserted, oldStart, newStart⟩], []⟩
  | .only .before run :: rest => changesFrom gap (deleted ++ run) inserted oldStart newStart rest
  | .only .after run :: rest => changesFrom gap deleted (inserted ++ run) oldStart newStart rest
  | .both run :: rest =>
    let change : Change := ⟨gap, deleted, inserted, oldStart, newStart⟩
    let oldNext := change.oldStop + run.length
    let newNext := change.newStop + run.length
    if deleted.isEmpty && inserted.isEmpty then changesFrom (gap ++ run) [] [] oldNext newNext rest
    else
      let more := changesFrom run [] [] oldNext newNext rest
      ⟨change :: more.changes, more.tail⟩

/-- The changes of a script. -/
def Script.changes (script : Script) : Changes := changesFrom [] [] [] 0 0 script

/-- The number of unchanged lines shown around a change. -/
def contextSize : Nat := 3

/-- The sizes of the two texts that a patch compares. -/
structure Extent where
  oldLines : Nat
  newLines : Nat

/-- The number of lines shown behind a change, before the texts end. -/
def Extent.trailing (extent : Extent) (change : Change) : Nat :=
  min contextSize (min (extent.oldLines - change.oldStop) (extent.newLines - change.newStop))

/-- Whether two neighbouring changes are shown in one hunk. -/
def Extent.joins (extent : Extent) (change next : Change) : Bool :=
  min next.oldStart (extent.oldLines - 1) - contextSize < change.oldStop + extent.trailing change

/-- The changes of one hunk, at least one. -/
structure Group where
  first : Change
  more : List Change

/-- The last change of a group. -/
def Group.last (group : Group) : Change := group.more.getLast?.getD group.first

/-- The changes divided into the groups that make hunks. -/
def Extent.groups (extent : Extent) : List Change → List Group
  | [] => []
  | change :: rest =>
    match extent.groups rest with
    | [] => [⟨change, []⟩]
    | group :: groups =>
      if extent.joins change group.first then ⟨change, group.first :: group.more⟩ :: groups
      else ⟨change, []⟩ :: group :: groups

/-- A line of a hunk. -/
inductive HunkLine where
  | context (line : Line)
  | delete (line : Line)
  | insert (line : Line)
deriving DecidableEq, Repr

/-- A part of a patch: where it stands in both texts, how many lines it covers there, and its lines.
-/
structure Hunk where
  oldStart : Nat
  oldLength : Nat
  newStart : Nat
  newLength : Nat
  lines : List HunkLine
deriving DecidableEq, Repr

/-- The lines of a change itself. -/
def Change.lines (change : Change) : List HunkLine :=
  change.deleted.map .delete ++ change.inserted.map .insert

/-- The hunk of a group, given the unchanged lines that follow it. -/
def Extent.hunk (extent : Extent) (group : Group) (following : List Line) : Hunk :=
  let first := group.first
  let last := group.last
  let trailing := extent.trailing last
  let oldStart := first.oldStart - contextSize
  let newStart := first.newStart - contextSize
  { oldStart, newStart
    oldLength := last.oldStop + trailing - oldStart
    newLength := last.newStop + trailing - newStart
    lines := (first.gap.drop (first.gap.length - contextSize)).map .context ++ first.lines ++
      group.more.flatMap (fun change => change.gap.map .context ++ change.lines) ++
      (following.take trailing).map .context }

/-- The hunks of groups, given the unchanged lines behind the last one. -/
def Extent.hunks (extent : Extent) (tail : List Line) : List Group → List Hunk
  | [] => []
  | [group] => [extent.hunk group tail]
  | group :: next :: groups => extent.hunk group next.first.gap :: extent.hunks tail (next :: groups)

/-- The hunks that lead from one text to another. -/
def hunksBetween (old new : List Line) : List Hunk :=
  let extent : Extent := ⟨old.length, new.length⟩
  let ⟨changes, tail⟩ := (Script.between old new).compact.changes
  extent.hunks tail (extent.groups changes)

end EnumMigration
