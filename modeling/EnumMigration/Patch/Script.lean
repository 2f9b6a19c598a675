import EnumMigration.Patch.Snake

/-!
# The edit script of two texts

What the texts share at their ends is taken off first.  The rest is cut at the middle of a shortest
script and each half is treated alike.  Where there is nothing to cut, the lines of one text are
taken out and those of the other put in.
-/

namespace EnumMigration

/-- Two texts without what they share at their ends. -/
structure Trimmed where
  front : List Line
  left : List Line
  right : List Line
  back : List Line

/-- Takes off what two texts share at their beginning and then what they share at their end. -/
def trim (left right : List Line) : Trimmed :=
  let front := sharedFront left right
  let back := sharedBack front.left front.right
  ⟨front.common, back.left, back.right, back.common⟩

theorem trim_left (left right : List Line) :
    (trim left right).front ++ (trim left right).left ++ (trim left right).back = left := by
  simp [trim, sharedBack_left, sharedFront_left]

theorem trim_right (left right : List Line) :
    (trim left right).front ++ (trim left right).right ++ (trim left right).back = right := by
  simp [trim, sharedBack_right, sharedFront_right]

/-- Trimming makes no text longer. -/
theorem length_trim_le (left right : List Line) :
    (trim left right).left.length + (trim left right).right.length ≤ left.length + right.length := by
  have hl := congrArg List.length (trim_left left right)
  have hr := congrArg List.length (trim_right left right)
  simp only [List.length_append] at hl hr
  omega

/-- A point that cuts two texts into halves which are both smaller than the whole. -/
structure Cut (left right : List Line) where
  x : Nat
  y : Nat
  x_le : x ≤ left.length
  y_le : y ≤ right.length
  pos : 0 < x + y
  lt : x + y < left.length + right.length

/-- The middle of a shortest script, if it cuts the texts in two. -/
def cut? (left right : List Line) : Option (Cut left right) :=
  if left.isEmpty || right.isEmpty then none
  else
    match Snake.middle left right with
    | none => none
    | some (x, y) =>
      if h : x ≤ left.length ∧ y ≤ right.length ∧ 0 < x + y ∧ x + y < left.length + right.length then
        some ⟨x, y, h.1, h.2.1, h.2.2.1, h.2.2.2⟩
      else none

namespace Script

/-- A run that only one text has; nothing if it is empty. -/
def lone (side : Side) (run : List Line) : Script := if run.isEmpty then [] else [.only side run]

theorem text_lone (side own : Side) (run : List Line) :
    text side (lone own run) = if own = side then run else [] := by
  cases run <;> simp [lone, Edit.text]

/-- The edit script that leads from one text to another. -/
def between (left right : List Line) : Script :=
  let rest := trim left right
  let inner :=
    match cut? rest.left rest.right with
    | none => lone .before rest.left ++ lone .after rest.right
    | some cut =>
      between (rest.left.take cut.x) (rest.right.take cut.y) ++
        between (rest.left.drop cut.x) (rest.right.drop cut.y)
  shared rest.front ++ inner ++ shared rest.back
termination_by left.length + right.length
decreasing_by
  all_goals
    have hle := length_trim_le left right
    obtain ⟨x, y, hx, hy, hpos, hlt⟩ := cut
    simp only [List.length_take, List.length_drop]
    simp only [rest] at *
    omega

end Script

end EnumMigration
