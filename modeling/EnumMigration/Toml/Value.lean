import EnumMigration.Text.Line
import EnumMigration.Keyed

/-!
# TOML values

A TOML document is a table of values.  Tables come about in several ways, and how a table came about
decides what may still be added to it: a header may complete a table that was only implied by the
header of a table below it, a dotted key may only add to tables of dotted keys, and an inline table
is complete.
-/

namespace EnumMigration.Toml

/-- How a table came about. -/
inductive Origin where
  /-- It was named in the header of a table below it. -/
  | implied
  /-- It was named in a dotted key. -/
  | dotted
  /-- It has a header of its own. -/
  | header
  /-- It stands between braces. -/
  | inline
deriving DecidableEq, Repr

/-- A value.  Numbers and times are kept as they are spelled. -/
inductive Value where
  | string (text : String)
  | boolean (value : Bool)
  | number (spelling : String)
  | moment (spelling : String)
  /-- A list.  It is open if it consists of tables with headers, and then more of them may follow.
  -/
  | list (isOpen : Bool) (items : List Value)
  | table (origin : Origin) (members : List (String × Value))

/-- What a path of keys is for: to find the place of a header, or that of a dotted key. -/
inductive PathUse where
  | header
  | dotted
deriving DecidableEq, Repr

/-- The origin of a table that a path brings about. -/
def PathUse.origin : PathUse → Origin
  | header => .implied
  | dotted => .dotted

/-- Whether a path may lead through a table. -/
def PathUse.passes : PathUse → Origin → Bool
  | header, origin => origin != .inline
  | dotted, origin => origin == .implied || origin == .dotted

namespace Value

/-- Changes the table at the end of a path.  Tables that are missing on the way come about; in an
open list the path leads on through the last table. -/
def modifyAt (use : PathUse) (change : Value → Option Value) : Value → List String → Option Value
  | value, [] => change value
  | .table origin members, key :: keys => do
    let inner ← match members.lookup key with
      | none => modifyAt use change (.table use.origin []) keys
      | some (.table origin members) =>
        if use.passes origin then modifyAt use change (.table origin members) keys else none
      | some (.list true items) => do
        let last ← modifyAt use change (← items.getLast?) keys
        some (.list true (items.dropLast ++ [last]))
      | some _ => none
    some (.table origin (setKey members key inner))
  | _, _ :: _ => none

/-- Changes the members of a table. -/
def withMembers (value : Value)
    (change : List (String × Value) → Option (List (String × Value))) : Option Value :=
  match value with
  | .table origin members => (change members).map (.table origin)
  | _ => none

/-- Whether a value is a table that a dotted key brought about. -/
def isDotted : Value → Bool
  | .table .dotted _ => true
  | _ => false

/-- Assigns a value to a dotted key in a table.  The key must be new, and the table that it ends in
must have come about by dotted keys. -/
def assign (table : Value) (path : List String) (key : String) (value : Value) : Option Value :=
  table.modifyAt .dotted (fun place =>
    if path.isEmpty || place.isDotted then
      place.withMembers fun members =>
        if (members.lookup key).isSome then none else some (setKey members key value)
    else none) path

/-- Gives a table a header of its own. -/
def define (table : Value) (path : List String) (key : String) : Option Value :=
  table.modifyAt .header (fun place => place.withMembers fun members =>
    match members.lookup key with
    | none => some (setKey members key (.table .header []))
    | some (.table .implied inner) => some (setKey members key (.table .header inner))
    | some _ => none) path

/-- Adds a table to an open list. -/
def append (table : Value) (path : List String) (key : String) : Option Value :=
  table.modifyAt .header (fun place => place.withMembers fun members =>
    match members.lookup key with
    | none => some (setKey members key (.list true [.table .header []]))
    | some (.list true items) =>
      some (setKey members key (.list true (items ++ [.table .header []])))
    | some _ => none) path

/-- The values of a record with the given fields, in order.  Instead of a table of fields there may
be a list, with the values in the order of the fields; the last ones may be missing, and what
follows them does not count.  A time is a record without any of the fields. -/
def fields? (names : List String) : Value → Option (List (Option Value))
  | .table _ members => some (names.map fun name => members.lookup name)
  | .list _ items => some (names.mapIdx fun i _ => items[i]?)
  | .moment _ => some (names.map fun _ => none)
  | _ => none

/-- The text of a string. -/
def text? : Value → Option String
  | .string text => some text
  | _ => none

/-- The value of a boolean. -/
def flag? : Value → Option Bool
  | .boolean value => some value
  | _ => none

/-- The items of a list. -/
def items? : Value → Option (List Value)
  | .list _ items => some items
  | _ => none

end Value

end EnumMigration.Toml
