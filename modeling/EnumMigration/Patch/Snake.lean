import EnumMigration.Patch.Edit

/-!
# The middle of a shortest edit script

Two searches walk through the grid of line pairs, one from the top left and one from the bottom
right, each along diagonals of matching lines and each with one more edit per round.  Where they
meet lies the middle of a shortest script.  Nothing relies on the middle being the true one: it is
only where the two texts are cut in two.
-/

namespace EnumMigration.Snake

/-- How far a search has come on each diagonal. -/
structure Reach where
  origin : Nat
  cells : Array Int

namespace Reach

/-- A search of at most `bound` rounds that has not begun. -/
def start (bound : Nat) : Reach := ⟨bound + 1, Array.replicate (2 * bound + 3) 0⟩

/-- The position reached on a diagonal. -/
def get (reach : Reach) (diagonal : Int) : Int :=
  reach.cells.getD (diagonal + reach.origin).toNat 0

/-- Records the position reached on a diagonal. -/
def set (reach : Reach) (diagonal position : Int) : Reach :=
  { reach with cells := reach.cells.setIfInBounds (diagonal + reach.origin).toNat position }

/-- Where round `round` enters a diagonal: from the neighbour that has come further. -/
def entry (reach : Reach) (round diagonal : Int) : Int :=
  if diagonal = -round ∨ (diagonal ≠ round ∧ reach.get (diagonal - 1) < reach.get (diagonal + 1)) then
    reach.get (diagonal + 1)
  else
    reach.get (diagonal - 1) + 1

end Reach

/-- The number of equal lines in a row from two positions on. -/
def matching (left right : Array Line) (x y : Nat) : Nat :=
  if h : x < left.size ∧ y < right.size then
    if left[x] = right[y] then matching left right (x + 1) (y + 1) + 1 else 0
  else 0
termination_by left.size - x

/-- The number of matching lines from a point of the grid on; none outside of the grid. -/
def advance (left right : Array Line) (x y : Int) : Int :=
  if 0 ≤ x ∧ 0 ≤ y then matching left right x.toNat y.toNat else 0

/-- The diagonals of a round, from the top one down. -/
def diagonals (round : Nat) : List Int :=
  (List.range (round + 1)).map fun (step : Nat) => (round : Int) - 2 * step

/-- The grid that both searches walk through, read from either end. -/
structure Grid where
  left : Array Line
  right : Array Line
  leftBack : Array Line
  rightBack : Array Line

/-- The grid of two texts. -/
def Grid.of (left right : List Line) : Grid :=
  ⟨left.toArray, right.toArray, left.reverse.toArray, right.reverse.toArray⟩

namespace Grid

/-- The number of lines on the left. -/
def width (grid : Grid) : Int := grid.left.size

/-- The number of lines on the right. -/
def height (grid : Grid) : Int := grid.right.size

/-- The difference between the diagonals of the two searches. -/
def delta (grid : Grid) : Int := grid.width - grid.height

/-- One round of the search from the top left.  It meets the other search only if the difference of
the diagonals is odd. -/
def forward (grid : Grid) (round : Nat) (back : Reach) :
    List Int → Reach → Sum (Int × Int) Reach
  | [], reach => .inr reach
  | diagonal :: rest, reach =>
    let x := reach.entry round diagonal
    let y := x - diagonal
    let reached := x + advance grid.left grid.right x y
    let reach := reach.set diagonal reached
    let shifted := diagonal - grid.delta
    if grid.delta % 2 = 1 ∧ shifted.natAbs + 1 ≤ round ∧ reached + back.get (-shifted) ≥ grid.width then
      .inl (x, y)
    else forward grid round back rest reach

/-- One round of the search from the bottom right.  It meets the other search only if the difference
of the diagonals is even. -/
def backward (grid : Grid) (round : Nat) (front : Reach) :
    List Int → Reach → Sum (Int × Int) Reach
  | [], reach => .inr reach
  | diagonal :: rest, reach =>
    let x := reach.entry round diagonal
    let reached := x + advance grid.leftBack grid.rightBack x (x - diagonal)
    let reach := reach.set diagonal reached
    let shifted := diagonal - grid.delta
    if grid.delta % 2 = 0 ∧ shifted.natAbs ≤ round ∧ reached + front.get (-shifted) ≥ grid.width then
      .inl (grid.width - reached, grid.height - (reached - diagonal))
    else backward grid round front rest reach

/-- The rounds of both searches in turn, for at most `fuel` rounds. -/
def search (grid : Grid) : (fuel : Nat) → (round : Nat) → (front back : Reach) → Option (Int × Int)
  | 0, _, _, _ => none
  | fuel + 1, round, front, back =>
    match grid.forward round back (diagonals round) front with
    | .inl meeting => some meeting
    | .inr front =>
      match grid.backward round front (diagonals round) back with
      | .inl meeting => some meeting
      | .inr back => search grid fuel (round + 1) front back

end Grid

/-- The point at which a shortest script between two texts is cut in two. -/
def middle (left right : List Line) : Option (Nat × Nat) :=
  let bound := (left.length + right.length + 1) / 2 + 1
  ((Grid.of left right).search bound 0 (Reach.start bound) (Reach.start bound)).map fun point =>
    (point.1.toNat, point.2.toNat)

end EnumMigration.Snake
