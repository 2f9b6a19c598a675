import EnumMigration.Disk
import EnumMigration.Keyed

/-!
# File trees

A file tree is a disk as a plain value: the entries under their names from the root down, and the
directory that relative paths start from.  Paths are walked piece by piece, and every piece that is
walked through must be a directory.

## Definitions

* `FileTree.target` is where a path leads, if every directory on the way is there.
* `FileTree.read`, `FileTree.write` and `FileTree.makeDirs` are the operations of a disk.
* `FileTree.listing` is the content of the working directory, depth first.
-/

namespace EnumMigration

/-- What stands under a name. -/
inductive TreeEntry where
  | file (bytes : ByteArray)
  | directory

/-- The names from the root down to an entry. -/
abbrev TreeNames := List String

/-- A disk as a value.  The root and the working directory are directories of their own accord. -/
structure FileTree where
  workingDirectory : TreeNames
  entries : List (TreeNames × TreeEntry)

/-- The longest name of an entry, in bytes. -/
def longestName : Nat := 255

/-- The longest path, in bytes. -/
def longestPath : Nat := 4095

namespace FileTree

/-- A tree with nothing in its working directory. -/
def empty (workingDirectory : TreeNames) : FileTree := ⟨workingDirectory, []⟩

/-- The entry under the given names. -/
def get? (tree : FileTree) (names : TreeNames) : Option TreeEntry :=
  if names.isPrefixOf tree.workingDirectory then some .directory else tree.entries.lookup names

/-- Puts an entry under the given names. -/
def put (tree : FileTree) (names : TreeNames) (entry : TreeEntry) : FileTree :=
  { tree with entries := setKey tree.entries names entry }

/-- Putting an entry changes exactly the entry under its names, unless these lead to the working
directory. -/
theorem get?_put (tree : FileTree) (names other : TreeNames) (entry : TreeEntry) :
    (tree.put names entry).get? other =
      if other == names && !names.isPrefixOf tree.workingDirectory then some entry
      else tree.get? other := by
  unfold put get?
  by_cases heq : other = names
  · subst heq
    by_cases hother : other.isPrefixOf tree.workingDirectory <;> simp [hother, lookup_setKey]
  · simp [heq, lookup_setKey]

/-- Refuses names that are not those of a directory. -/
def requireDirectory (tree : FileTree) (names : TreeNames) : Except DiskFault Unit :=
  match tree.get? names with
  | none => .error .absent
  | some (.file _) => .error .notDirectory
  | some .directory => .ok ()

/-- Refuses a name that is too long. -/
def requireShort (name : String) : Except DiskFault Unit :=
  if longestName < name.utf8ByteSize then .error .nameTooLong else .ok ()

/-- Walks one piece of a path from a directory. -/
def step (tree : FileTree) (names : TreeNames) (piece : List Char) : Except DiskFault TreeNames := do
  tree.requireDirectory names
  match Path.component? piece with
  | none => return names
  | some .up => return names.dropLast
  | some _ =>
    requireShort (String.ofList piece)
    return names ++ [String.ofList piece]

/-- Refuses a path that no system call takes. -/
def requireAddressable (path : Path) : Except DiskFault Unit :=
  if path.text.toList.contains '\x00' then .error .nulInName
  else if path.text.isEmpty then .error .absent
  else if longestPath < path.text.utf8ByteSize then .error .nameTooLong
  else .ok ()

/-- The directory that a path starts from. -/
def start (tree : FileTree) (path : Path) : TreeNames :=
  if path.isAbsolute then [] else tree.workingDirectory

/-- Where a path leads, if every directory on the way is there. -/
def target (tree : FileTree) (path : Path) : Except DiskFault TreeNames := do
  requireAddressable path
  (path.text.toList.splitOn '/').foldlM tree.step (tree.start path)

/-- The entry at a path. -/
def find (tree : FileTree) (path : Path) : Except DiskFault TreeEntry := do
  match tree.get? (← tree.target path) with
  | none => .error .absent
  | some entry => .ok entry

/-- Whether there is anything at a path. -/
def holds (tree : FileTree) (path : Path) : Bool := (tree.find path).isOk

/-- Whether there is a directory at a path. -/
def holdsDirectory (tree : FileTree) (path : Path) : Bool :=
  match tree.find path with
  | .ok .directory => true
  | _ => false

/-- The text of the file at a path. -/
def read (tree : FileTree) (path : Path) : Except DiskError String :=
  match tree.find path with
  | .error fault => .error ⟨.openFile, path, fault⟩
  | .ok .directory => .error ⟨.readFile, path, .isDirectory⟩
  | .ok (.file bytes) =>
    match String.fromUTF8? bytes with
    | none => .error ⟨.readFile, path, .notText⟩
    | some text => .ok text

/-- The place for a new entry at a path. -/
structure Site where
  /-- The directory that the entry goes into. -/
  directory : TreeNames
  /-- The name of the entry, unless the path names a directory that is there anyway. -/
  name? : Option String
  /-- Whether a slash follows the name. -/
  trailingSlash : Bool

/-- The place for a new entry at a path, if its directory is there. -/
def site (tree : FileTree) (path : Path) : Except DiskFault Site := do
  requireAddressable path
  let reversed := (path.text.toList.splitOn '/').reverse
  let trailingSlash := reversed.head? == some []
  match reversed.dropWhile (· == []) with
  | [] => return ⟨[], none, trailingSlash⟩
  | last :: outer =>
    let directory ← outer.reverse.foldlM tree.step (tree.start path)
    tree.requireDirectory directory
    match Path.component? last with
    | some (.name name) =>
      return ⟨directory, some name, trailingSlash⟩
    | _ => return ⟨directory, none, trailingSlash⟩

/-- The names under which a file at a path is created. -/
def fileSite (tree : FileTree) (path : Path) : Except DiskFault TreeNames := do
  let site ← tree.site path
  match site.name? with
  | none => .error .isDirectory
  | some name =>
    if site.trailingSlash then .error .isDirectory
    else
      requireShort name
      match tree.get? (site.directory ++ [name]) with
      | some .directory => .error .isDirectory
      | _ => .ok (site.directory ++ [name])

/-- The names under which a directory at a path is created. -/
def directorySite (tree : FileTree) (path : Path) : Except DiskFault TreeNames := do
  let site ← tree.site path
  match site.name? with
  | none => .error .present
  | some name =>
    requireShort name
    match tree.get? (site.directory ++ [name]) with
    | some _ => .error .present
    | none => .ok (site.directory ++ [name])

/-- Creates the file at a path or replaces its bytes. -/
def write (tree : FileTree) (path : Path) (bytes : ByteArray) : Except DiskError FileTree :=
  match tree.fileSite path with
  | .error fault => .error ⟨.createFile, path, fault⟩
  | .ok names => .ok (tree.put names (.file bytes))

/-- Makes the directory at a path whose own directory is there.  The empty path needs none. -/
def makeDir (tree : FileTree) (path : Path) : Except DiskFault Unit × FileTree :=
  if path.text.isEmpty then (.ok (), tree)
  else
    match tree.directorySite path with
    | .ok names => (.ok (), tree.put names .directory)
    | .error fault => (if tree.holdsDirectory path then .ok () else .error fault, tree)

/-- Makes the directory at a path and up to `depth` directories above it.  Whatever was made stays,
even if a later step fails. -/
def makeDirsWithin : Nat → FileTree → Path → Except DiskFault Unit × FileTree
  | 0, tree, path => tree.makeDir path
  | depth + 1, tree, path =>
    match tree.makeDir path, path.parent? with
    | (.error .absent, _), some parent =>
      match makeDirsWithin depth tree parent with
      | (.ok (), tree) => tree.makeDir path
      | refused => refused
    | made, _ => made

/-- Makes the directory at a path and all directories above it.  A path has fewer ancestors than
characters. -/
def makeDirs (tree : FileTree) (path : Path) : Except DiskError Unit × FileTree :=
  match makeDirsWithin path.text.length tree path with
  | (.ok (), tree) => (.ok (), tree)
  | (.error fault, tree) => (.error ⟨.createDirectory, path, fault⟩, tree)

/-- A tree as a disk. -/
def disk : Disk (StateM FileTree) where
  holds path := do return (← get).holds path
  read path := do return (← get).read path
  write path bytes := do
    match (← get).write path bytes with
    | .ok tree => set tree; return .ok ()
    | .error e => return .error e
  makeDirs path := do
    let (result, tree) := (← get).makeDirs path
    set tree
    return result

/-- Everything below the working directory, each directory followed by what it holds, names in
order. -/
def listing (tree : FileTree) : List (TreeNames × TreeEntry) :=
  let below := tree.entries.filterMap fun item =>
    if tree.workingDirectory.isPrefixOf item.1
    then some (item.1.drop tree.workingDirectory.length, item.2)
    else none
  below.mergeSort fun item other => !other.1.lex item.1 fun a b => decide (a < b)

end FileTree

end EnumMigration
