import EnumMigration.Store
import EnumMigration.Keyed

/-!
# Stores in memory

A store in memory keeps its files by the components of their paths, remembers every write, and fails
on the paths that it was told to fail on.
-/

namespace EnumMigration

/-- A store in memory. -/
structure MemoryStore where
  root : Path
  files : List (List Component × String)
  failingReads : List (List Component)
  failingWrites : List (List Component)
  /-- The paths written so far, as they were spelled. -/
  writes : List Path
deriving DecidableEq, Repr

namespace MemoryStore

/-- A store without files. -/
def empty (root : Path) : MemoryStore := ⟨root, [], [], [], []⟩

/-- The text of a file. -/
def get? (store : MemoryStore) (path : Path) : Option String := store.files.lookup path.components

/-- A store with one file added or replaced. -/
def insert (store : MemoryStore) (path : Path) (text : String) : MemoryStore :=
  { store with files := setKey store.files path.components text }

/-- Inserting a file changes what is read at its own path, however that is spelled, and nowhere
else. -/
theorem get?_insert (store : MemoryStore) (path other : Path) (text : String) :
    (store.insert path text).get? other =
      if other.components == path.components then some text else store.get? other :=
  lookup_setKey store.files path.components other.components text

/-- A store that fails to read a path. -/
def failRead (store : MemoryStore) (path : Path) : MemoryStore :=
  { store with failingReads := path.components :: store.failingReads }

/-- A store that fails to write a path. -/
def failWrite (store : MemoryStore) (path : Path) : MemoryStore :=
  { store with failingWrites := path.components :: store.failingWrites }

/-- Whether there is a file at a path. -/
def holds (store : MemoryStore) (path : Path) : Bool := (store.get? path).isSome

/-- Reads a file. -/
def read (store : MemoryStore) (path : Path) : Except StoreError String :=
  if path.components ∈ store.failingReads then .error (.readFails path)
  else
    match store.get? path with
    | some text => .ok text
    | none => .error (.noSuchFile path)

/-- Writes a file and remembers that it was written. -/
def write (store : MemoryStore) (path : Path) (text : String) : Except StoreError MemoryStore :=
  if path.components ∈ store.failingWrites then .error (.writeFails path)
  else .ok { store.insert path text with writes := store.writes ++ [path] }

/-- The operations of a store in memory. -/
def source (root : Path) : SourceStore (StateM MemoryStore) where
  root := root
  holds path := do return (← get).holds path
  read path := do return (← get).read path
  write path text := do
    match (← get).write path text with
    | .ok store => set store; return .ok ()
    | .error e => return .error e

end MemoryStore

end EnumMigration
