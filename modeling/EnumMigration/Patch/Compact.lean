import EnumMigration.Patch.Edit

/-!
# Compacting an edit script

A run that only one text has can often be moved: if it ends with the lines that stand before it, it
may as well begin with them.  Moving runs up as far as they go joins neighbours that could not be
seen to belong together, and moving them down again settles each at the end of its range.  Neither
changes what the script says of the two texts.
-/

namespace EnumMigration.Script

/-- A run of one side inside a script: what stands above it, nearest first, and what stands below.
-/
structure Focus where
  above : Script
  run : List Line
  below : Script

/-- A script with lines that both texts have put in front. -/
def growUp (lines : List Line) : Script → Script
  | .both run :: rest => .both (lines ++ run) :: rest
  | rest => .both lines :: rest

/-- A script, nearest run first, with lines that both texts have put at its end. -/
def growDown (lines : List Line) : Script → Script
  | .both run :: rest => .both (run ++ lines) :: rest
  | rest => .both lines :: rest

/-- Moves a run of one side up: past lines that both texts have as far as the run ends with them,
past runs of the other side, and into runs of its own side. -/
def shiftUp (side : Side) (above : Script) (run : List Line) (below : Script) : Focus :=
  match above with
  | [] => ⟨[], run, below⟩
  | .only own lines :: rest =>
    if own = side then shiftUp side rest (lines ++ run) below
    else shiftUp side rest run (.only own lines :: below)
  | .both lines :: rest =>
    let meet := sharedBack run lines
    if meet.common.isEmpty then ⟨.both lines :: rest, run, below⟩
    else shiftUp side (shared meet.right ++ rest) (meet.common ++ meet.left) (growUp meet.common below)
termination_by above.weight
decreasing_by
  · rw [weight_cons]; omega
  · rw [weight_cons]; omega
  · rename_i hcommon
    exact weight_shared_append_lt rest (length_sharedBack_right_lt (by simpa using hcommon))

/-- Moves a run of one side down: past lines that both texts have as far as the run begins with
them, past runs of the other side, and over runs of its own side. -/
def shiftDown (side : Side) (above : Script) (run : List Line) (below : Script) : Focus :=
  match below with
  | [] => ⟨above, run, []⟩
  | .only own lines :: rest =>
    if own = side then shiftDown side above (run ++ lines) rest
    else shiftDown side (.only own lines :: above) run rest
  | .both lines :: rest =>
    let meet := sharedFront run lines
    if meet.common.isEmpty then ⟨above, run, .both lines :: rest⟩
    else shiftDown side (growDown meet.common above) (meet.left ++ meet.common) (shared meet.right ++ rest)
termination_by below.weight
decreasing_by
  · rw [weight_cons]; omega
  · rw [weight_cons]; omega
  · rename_i hcommon
    exact weight_shared_append_lt rest (length_sharedFront_right_lt (by simpa using hcommon))

/-- Settles the runs of one side from top to bottom, in at most `fuel` steps. -/
def settle (side : Side) : (fuel : Nat) → (above below : Script) → Script
  | 0, above, below => above.reverse ++ below
  | _ + 1, above, [] => above.reverse
  | fuel + 1, above, .both run :: below => settle side fuel (.both run :: above) below
  | fuel + 1, above, .only own run :: below =>
    if own = side then
      let up := shiftUp side above run below
      let down := shiftDown side up.above up.run up.below
      settle side fuel (.only side down.run :: down.above) down.below
    else settle side fuel (.only own run :: above) below

/-- The steps that settling may take.  A run settles once, and runs that it passed on its way up
come again only if it joined another one. -/
def settleSteps (script : Script) : Nat := (script.length + 1) * (script.weight + 1)

/-- A script with the runs of both sides settled. -/
def compact (script : Script) : Script :=
  let deleted := settle .before script.settleSteps [] script
  settle .after deleted.settleSteps [] deleted

end EnumMigration.Script
