/-!
# Paths

A path is kept as it is spelled, and compared by its components: repeated slashes, a slash at the
end and single dots make no difference, except for a dot at the very beginning.  Nothing is
resolved; `..` is a component like any other.
-/

namespace EnumMigration

/-- A path as it is spelled. -/
structure Path where
  text : String
deriving DecidableEq, Repr

/-- A component of a path. -/
inductive Component where
  | root
  | here
  | up
  | name (text : String)
deriving DecidableEq, Repr

/-- How a path begins: at the root, with a single dot, or with neither. -/
inductive Beginning where
  | root
  | dot
  | none
deriving DecidableEq, Repr

/-- What a path begins with, and the pieces between the slashes of the rest. -/
structure PathShape where
  beginning : Beginning
  pieces : List (List Char)

/-- Whether a piece between slashes makes no difference. -/
def isIdlePiece (piece : List Char) : Bool := piece == [] || piece == ['.']

namespace Path

/-- The shape of a path. -/
def shape (path : Path) : PathShape :=
  match path.text.toList with
  | '/' :: rest => ⟨.root, rest.splitOn '/'⟩
  | ['.'] => ⟨.dot, [[]]⟩
  | '.' :: '/' :: rest => ⟨.dot, ('/' :: rest).splitOn '/'⟩
  | rest => ⟨.none, rest.splitOn '/'⟩

/-- The component that a piece between slashes stands for. -/
def component? (piece : List Char) : Option Component :=
  if isIdlePiece piece then none
  else if piece = ['.', '.'] then some .up
  else some (.name (String.ofList piece))

/-- The components of a path. -/
def components (path : Path) : List Component :=
  let first := match path.shape.beginning with
    | .root => [.root]
    | .dot => [.here]
    | .none => []
  first ++ path.shape.pieces.filterMap component?

/-- Whether two paths have the same components. -/
def sameAs (path other : Path) : Bool := path.components == other.components

/-- Whether a path begins at the root. -/
def isAbsolute (path : Path) : Bool := path.text.toList.head? == some '/'

/-- A path taken relative to another one.  An absolute path stays as it is. -/
def join (base path : Path) : Path :=
  if path.isAbsolute || base.text.isEmpty then path
  else if base.text.toList.getLast? == some '/' then ⟨base.text ++ path.text⟩
  else ⟨base.text ++ "/" ++ path.text⟩

/-- A path without its last component, as far as it is spelled up to there.  The root and the empty
path have no parent. -/
def parent? (path : Path) : Option Path :=
  let shape := path.shape
  let leading := match shape.beginning with
    | .root => ['/']
    | .dot => ['.']
    | .none => []
  match shape.pieces.reverse.dropWhile isIdlePiece with
  | _ :: outer =>
    some ⟨String.ofList (leading ++ ['/'].intercalate (outer.dropWhile isIdlePiece).reverse)⟩
  | [] => if shape.beginning = .dot then some ⟨""⟩ else none

end Path

end EnumMigration
