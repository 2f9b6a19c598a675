import EnumMigration.Text.Line

/-!
# Edit scripts

An edit script tells two texts apart line by line: runs of lines that both have, and runs that only
one of them has.  A script determines both texts, `Script.text .before` and `Script.text .after`,
and every step of making one leaves these two readings as they are.
-/

namespace EnumMigration

/-- A line of a text, with the line feed that ends it. -/
abbrev Line := List Char

/-- The two texts that a script compares. -/
inductive Side where
  | before
  | after
deriving DecidableEq, Repr

/-- A run of lines: in both texts, or in one of them only. -/
inductive Edit where
  | both (run : List Line)
  | only (side : Side) (run : List Line)
deriving DecidableEq, Repr

namespace Edit

/-- The lines of a run. -/
def run : Edit → List Line
  | both lines => lines
  | only _ lines => lines

/-- The lines that a run contributes to one of the texts. -/
def text (side : Side) : Edit → List Line
  | both lines => lines
  | only own lines => if own = side then lines else []

end Edit

/-- An edit script. -/
abbrev Script := List Edit

namespace Script

/-- The lines of one of the two texts. -/
def text (side : Side) (script : Script) : List Line := script.flatMap (Edit.text side)

@[simp] theorem text_nil (side : Side) : text side [] = [] := rfl

@[simp] theorem text_cons (side : Side) (edit : Edit) (script : Script) :
    text side (edit :: script) = edit.text side ++ text side script := rfl

@[simp] theorem text_append (side : Side) (front back : Script) :
    text side (front ++ back) = text side front ++ text side back :=
  List.flatMap_append

/-- The number of runs and lines of a script. -/
def weight : Script → Nat
  | [] => 0
  | edit :: script => 1 + edit.run.length + weight script

@[simp] theorem weight_nil : weight [] = 0 := rfl

@[simp] theorem weight_cons (edit : Edit) (script : Script) :
    weight (edit :: script) = 1 + edit.run.length + weight script := rfl

/-- A run that both texts have; nothing if it is empty. -/
def shared (run : List Line) : Script := if run.isEmpty then [] else [.both run]

/-- Shortening a run that both texts have makes a script smaller. -/
theorem weight_shared_append_lt {part run : List Line} (rest : Script)
    (h : part.length < run.length) : weight (shared part ++ rest) < weight (.both run :: rest) := by
  cases part with
  | nil => simp only [shared, List.isEmpty_nil, if_true, List.nil_append, weight_cons]; omega
  | cons => simpa [shared, Edit.run] using h

@[simp] theorem text_shared (side : Side) (run : List Line) : text side (shared run) = run := by
  cases run <;> simp [shared, Edit.text]

end Script

/-! ## What two lists of lines share -/

/-- Two lists taken apart into a shared part and what each has besides. -/
structure Overlap where
  common : List Line
  left : List Line
  right : List Line

/-- The longest common beginning of two lists. -/
def sharedFront : List Line → List Line → Overlap
  | a :: left, b :: right =>
    if a = b then
      let rest := sharedFront left right
      { rest with common := a :: rest.common }
    else ⟨[], a :: left, b :: right⟩
  | left, right => ⟨[], left, right⟩

/-- The longest common end of two lists. -/
def sharedBack (left right : List Line) : Overlap :=
  let rest := sharedFront left.reverse right.reverse
  ⟨rest.common.reverse, rest.left.reverse, rest.right.reverse⟩

theorem sharedFront_left (left right : List Line) :
    (sharedFront left right).common ++ (sharedFront left right).left = left := by
  fun_induction sharedFront left right with
  | case1 left b right rest ih => simpa using ih
  | case2 => rfl
  | case3 => rfl

theorem sharedFront_right (left right : List Line) :
    (sharedFront left right).common ++ (sharedFront left right).right = right := by
  fun_induction sharedFront left right with
  | case1 left b right rest ih => simpa using ih
  | case2 => rfl
  | case3 => rfl

theorem sharedBack_left (left right : List Line) :
    (sharedBack left right).left ++ (sharedBack left right).common = left := by
  simp only [sharedBack]
  rw [← List.reverse_append, sharedFront_left, List.reverse_reverse]

theorem sharedBack_right (left right : List Line) :
    (sharedBack left right).right ++ (sharedBack left right).common = right := by
  simp only [sharedBack]
  rw [← List.reverse_append, sharedFront_right, List.reverse_reverse]

theorem length_sharedFront_right_lt {left right : List Line}
    (h : (sharedFront left right).common.isEmpty = false) :
    (sharedFront left right).right.length < right.length := by
  have hlength := congrArg List.length (sharedFront_right left right)
  have hpos := List.length_pos_iff.mpr (List.isEmpty_eq_false_iff.mp h)
  simp only [List.length_append] at hlength
  omega

theorem length_sharedBack_right_lt {left right : List Line}
    (h : (sharedBack left right).common.isEmpty = false) :
    (sharedBack left right).right.length < right.length := by
  have hlength := congrArg List.length (sharedBack_right left right)
  have hpos := List.length_pos_iff.mpr (List.isEmpty_eq_false_iff.mp h)
  simp only [List.length_append] at hlength
  omega

end EnumMigration
