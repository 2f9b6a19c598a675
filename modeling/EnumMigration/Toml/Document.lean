import EnumMigration.Toml.Token

/-!
# TOML documents

The tokens of a text are grouped by their brackets, and the groups outside of all brackets are cut
into lines.  A line is empty, or a header, or it assigns a value to a key.  The lines act on the
table of the document one after the other.
-/

namespace EnumMigration.Toml

/-! ## Groups -/

/-- A token, or everything between two brackets. -/
inductive Group where
  | token (token : Token)
  | list (content : List Group)
  | table (content : List Group)

/-- An open bracket: its kind, and what stood before it on the same level, last first. -/
structure OpenBracket where
  isTable : Bool
  before : List Group

/-- Groups tokens by their brackets, given the open brackets and what stands behind the last of
them, last first. -/
def groupFrom? : List OpenBracket → List Group → List Token → Option (List Group)
  | [], reversed, [] => some reversed.reverse
  | _ :: _, _, [] => none
  | brackets, reversed, .openList :: rest => groupFrom? (⟨false, reversed⟩ :: brackets) [] rest
  | brackets, reversed, .openTable :: rest => groupFrom? (⟨true, reversed⟩ :: brackets) [] rest
  | ⟨false, before⟩ :: brackets, reversed, .closeList :: rest =>
    groupFrom? brackets (.list reversed.reverse :: before) rest
  | ⟨true, before⟩ :: brackets, reversed, .closeTable :: rest =>
    groupFrom? brackets (.table reversed.reverse :: before) rest
  | _, _, .closeList :: _ => none
  | _, _, .closeTable :: _ => none
  | brackets, reversed, token :: rest => groupFrom? brackets (.token token :: reversed) rest

/-- Groups tokens by their brackets. -/
def group? : List Token → Option (List Group) := groupFrom? [] []

namespace Group

/-- Whether a group is a given token. -/
def isToken (token : Token) : Group → Bool
  | .token other => token == other
  | _ => false

/-- Whether a group is a blank. -/
def isBlank : Group → Bool := isToken .blank

/-- Whether a group is a blank or a line end. -/
def isGap (group : Group) : Bool := group.isBlank || group.isToken .newline

end Group

/-- A list without the items at its ends that have a property. -/
def trimBoth {α : Type} (p : α → Bool) (items : List α) : List α :=
  ((items.dropWhile p).reverse.dropWhile p).reverse

/-- The pieces between commas without blanks and line ends around them.  After the last comma there
may be nothing. -/
def pieces (content : List Group) : List (List Group) :=
  let all := (content.splitOnP (Group.isToken .comma)).map (trimBoth Group.isGap)
  if (all.getLast?.map List.isEmpty).getD false then all.dropLast else all

/-! ## Keys -/

/-- What a key is made of. -/
inductive KeyUnit where
  | name (text : String)
  | dot
  | invalid
deriving DecidableEq, Repr

/-- Whether a character may stand in a key without quotes. -/
def isKeyChar (c : Char) : Bool := c.isAlphanum || c == '_' || c == '-'

/-- The names and dots in a word. -/
def wordUnits (spelling : List Char) : List KeyUnit :=
  List.flatten <| List.intersperse [.dot] <| (spelling.splitOn '.').map fun name =>
    if name.isEmpty then []
    else if name.all isKeyChar then [.name (String.ofList name)]
    else [.invalid]

/-- The parts of a key in a group. -/
def keyUnits : Group → List KeyUnit
  | .token .blank => []
  | .token (.word spelling) => wordUnits spelling
  | .token (.string content) => [.name (String.ofList content)]
  | _ => [.invalid]

/-- The names in a key, all but the last and the last. -/
def splitKey? : List KeyUnit → Option (List String × String)
  | [.name last] => some ([], last)
  | .name first :: .dot :: rest => (splitKey? rest).map fun (path, last) => (first :: path, last)
  | _ => none

/-- How many names a dotted key may have. -/
def nameLimit : Nat := 80

/-- A dotted key. -/
def key? (groups : List Group) : Option (List String × String) := do
  let (path, last) ← splitKey? (groups.flatMap keyUnits)
  if path.length < nameLimit then some (path, last) else none

/-! ## Values -/

/-- How deeply lists and inline tables may be nested. -/
def nestingLimit : Nat := 80

/-- The groups of the key and of the value in an assignment, both without the groups around them
that count as blank. -/
def splitAssignment? (isBlank : Group → Bool) (groups : List Group) :
    Option (List Group × List Group) :=
  match groups.span fun group => !group.isToken .equals with
  | (key, _ :: value) => some (trimBoth isBlank key, trimBoth isBlank value)
  | (_, []) => none

/-- The value of a group, with lists and inline tables nested up to a depth.  In an inline table a
line may end on both sides of an equals sign, but not inside a key. -/
def value? : (depth : Nat) → List Group → Option Value
  | _, [.token (.word spelling)] => scalar? spelling
  | _, [.token (.string content)] => some (.string (String.ofList content))
  | _, [.token (.longString content)] => some (.string (String.ofList content))
  | depth + 1, [.list content] => do
    let items ← (pieces content).mapM (value? depth)
    some (.list false items)
  | depth + 1, [.table content] =>
    (pieces content).foldlM (fun table piece => do
      let (keyGroups, valueGroups) ← splitAssignment? Group.isGap piece
      let (path, key) ← key? keyGroups
      let value ← value? depth valueGroups
      table.assign path key value) (.table .inline [])
  | _, _ => none

/-! ## Documents -/

/-- A line that says something. -/
inductive Statement where
  | header (path : List String) (key : String)
  | listHeader (path : List String) (key : String)
  | assignment (path : List String) (key : String) (value : Value)

/-- What a line says, if it is not empty. -/
def statement? (line : List Group) : Option (Option Statement) :=
  match trimBoth Group.isBlank line with
  | [] => some none
  | [.list [.list content]] => (key? content).map fun (path, key) => some (.listHeader path key)
  | [.list content] => (key? content).map fun (path, key) => some (.header path key)
  | groups => do
    let (keyGroups, valueGroups) ← splitAssignment? Group.isBlank groups
    let (path, key) ← key? keyGroups
    let value ← value? nestingLimit valueGroups
    some (some (.assignment path key value))

/-- A document in the making: its table, and the path of the last header. -/
structure Draft where
  table : Value
  header : List String

/-- A document after one more statement. -/
def Draft.apply (draft : Draft) : Statement → Option Draft
  | .header path key => do
    let table ← draft.table.define path key
    some ⟨table, path ++ [key]⟩
  | .listHeader path key => do
    let table ← draft.table.append path key
    some ⟨table, path ++ [key]⟩
  | .assignment path key value => do
    let table ← draft.table.modifyAt .header (·.assign path key value) draft.header
    some { draft with table }

/-- A text without a byte order mark at its beginning. -/
def dropMark : List Char → List Char
  | '\ufeff' :: rest => rest
  | rest => rest

/-- The table of a document. -/
def read? (text : String) : Option Value := do
  let groups ← group? (← tokens? (dropMark text.toList))
  let statements ← (groups.splitOnP (Group.isToken .newline)).mapM statement?
  let draft ← (statements.filterMap id).foldlM Draft.apply ⟨.table .header [], []⟩
  some draft.table

end EnumMigration.Toml
