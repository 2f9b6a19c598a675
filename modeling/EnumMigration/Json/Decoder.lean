import EnumMigration.Json.Token
import EnumMigration.Text.Hidden

/-!
# Decoding JSON

A decoder reads one value of a type off the front of a token list and leaves the rest.  It goes
through the tokens once, from left to right, so that of several things wrong with a text the first
one is reported: that the text is no JSON, or that it does not have the shape of the type.
-/

namespace EnumMigration.Json

/-- What a decoder found where it expected something else. -/
inductive Found where
  | null
  | bool (value : Bool)
  | number (value : Number)
  | string (content : String)
  | list
  | object

/-- What a decoder expected. -/
inductive Expected where
  | text
  | flag
  | count
  | list
  | path
  | unit
  | time
  | record (name : String)
deriving DecidableEq, Repr

/-- A number as error messages show it. -/
def Number.text : Number → String
  | natural n => s!"integer `{n}`"
  | negative n => s!"integer `-{n}`"
  | double x => "floating point `" ++ Decimal.ofFloat Decimal.plainLayout x ++ "`"

/-- A character of a quoted string in an error message.  A hidden character without an escape of its
own is shown by its code point. -/
def quotedChar (c : Char) : List Char :=
  match c with
  | '"' => ['\\', '"']
  | '\\' => ['\\', '\\']
  | '\n' => ['\\', 'n']
  | '\r' => ['\\', 'r']
  | '\t' => ['\\', 't']
  | '\x00' => ['\\', '0']
  | c => if isHidden c then ['\\', 'u', '\x7b'] ++ Nat.toDigits 16 c.toNat ++ ['\x7d'] else [c]

/-- What was found, as error messages show it. -/
def Found.text : Found → String
  | null => "null"
  | bool true => "boolean `true`"
  | bool false => "boolean `false`"
  | number value => value.text
  | string content => "string \"" ++ String.ofList (content.toList.flatMap quotedChar) ++ "\""
  | list => "sequence"
  | object => "map"

/-- What was expected, as error messages show it. -/
def Expected.name : Expected → String
  | text => "a string"
  | flag => "a boolean"
  | count => "u64"
  | list => "a sequence"
  | path => "a UTF-8 path string"
  | unit => "unit"
  | time => "an RFC 3339 formatted date and time string"
  | record name => s!"struct {name}"

/-- Why a well-formed text is no value of a type. -/
inductive Mismatch where
  | missingField (name : String)
  | duplicateField (name : String)
  | invalidType (found : Found) (expected : Expected)
  | invalidValue (found : Found) (expected : Expected)
  | invalidLength (length : Nat) (record : String) (fields : Nat)
  | unknownVariant (name : String) (known : List String)
  | invalidContent (message : String)

/-- The names of alternatives, each quoted, separated by commas. -/
def nameList (names : List String) : String :=
  ", ".intercalate (names.map fun name => s!"`{name}`")

/-- The wording of a mismatch. -/
def Mismatch.message : Mismatch → String
  | missingField name => s!"missing field `{name}`"
  | duplicateField name => s!"duplicate field `{name}`"
  | invalidType found expected => "invalid type: " ++ found.text ++ ", expected " ++ expected.name
  | invalidValue found expected => "invalid value: " ++ found.text ++ ", expected " ++ expected.name
  | invalidLength length record fields =>
    s!"invalid length {length}, expected struct {record} with {fields} elements"
  | unknownVariant name known => s!"unknown variant `{name}`, expected one of " ++ nameList known
  | invalidContent message => message

/-- Why a text cannot be decoded: it is no JSON, or it has the wrong shape. -/
inductive DecodeError where
  | malformed
  | mismatch (cause : Mismatch)

/-- Reads a value off the front of a token list and returns the rest of the list. -/
abbrev Decoder (α : Type) := List Token → Except DecodeError (α × List Token)

namespace Decoder

/-- The error of a token that does not begin a value of the expected type. -/
def unexpected (expected : Expected) : Option Token → DecodeError
  | some .null => .mismatch (.invalidType .null expected)
  | some (.bool value) => .mismatch (.invalidType (.bool value) expected)
  | some (.number numeral) =>
    match numeral.value? with
    | some value => .mismatch (.invalidType (.number value) expected)
    | none => .malformed
  | some (.string (some content)) => .mismatch (.invalidType (.string content) expected)
  | some .openList => .mismatch (.invalidType .list expected)
  | some .openObject => .mismatch (.invalidType .object expected)
  | _ => .malformed

/-- A string, under the given name in error messages. -/
def stringAs (expected : Expected) : Decoder String
  | .string (some content) :: rest => .ok (content, rest)
  | document => .error (unexpected expected document.head?)

/-- A boolean. -/
def flag : Decoder Bool
  | .bool value :: rest => .ok (value, rest)
  | document => .error (unexpected .flag document.head?)

/-- A natural number below the bound of 64-bit integers. -/
def count : Decoder Nat
  | .number numeral :: rest =>
    match numeral.value? with
    | some (.natural n) => .ok (n, rest)
    | some (.negative n) => .error (.mismatch (.invalidValue (.number (.negative n)) .count))
    | some value => .error (.mismatch (.invalidType (.number value) .count))
    | none => .error .malformed
  | document => .error (unexpected .count document.head?)

/-- A value that may be given as `null`. -/
def optional {α : Type} (decode : Decoder α) : Decoder (Option α)
  | .null :: rest => .ok (none, rest)
  | document =>
    match decode document with
    | .ok (value, rest) => .ok (some value, rest)
    | .error e => .error e

/-- The items of a list behind the first one, up to its end. -/
def moreItems {α : Type} (decode : Decoder α) : (fuel : Nat) → Decoder (List α)
  | _, .closeList :: rest => .ok ([], rest)
  | fuel + 1, .comma :: rest =>
    match decode rest with
    | .error e => .error e
    | .ok (item, rest) =>
      match moreItems decode fuel rest with
      | .error e => .error e
      | .ok (items, rest) => .ok (item :: items, rest)
  | _, _ => .error .malformed

/-- A list. -/
def list {α : Type} (decode : Decoder α) : Decoder (List α)
  | .openList :: .closeList :: rest => .ok ([], rest)
  | .openList :: rest =>
    match decode rest with
    | .error e => .error e
    | .ok (item, rest) =>
      match moreItems decode rest.length rest with
      | .error e => .error e
      | .ok (items, rest) => .ok (item :: items, rest)
  | document => .error (unexpected .list document.head?)

/-! ## Values that are passed over -/

/-- What may come next while a value is passed over. -/
inductive Awaited where
  | value
  | firstItem
  | firstKey
  | key
  | colon
  | separator
deriving DecidableEq, Repr

/-- A list or an object that is not yet closed. -/
inductive Bracket where
  | list
  | object
deriving DecidableEq, Repr

/-- Passes over the rest of a value inside the given brackets, the innermost first. -/
def skipFrom : Awaited → List Bracket → List Token → Except DecodeError (List Token)
  | .separator, [], rest => .ok rest
  | _, _, [] => .error .malformed
  | awaited, brackets, token :: rest =>
    match awaited, token, brackets with
    | .separator, .comma, .list :: _ => skipFrom .value brackets rest
    | .separator, .comma, .object :: _ => skipFrom .key brackets rest
    | .separator, .closeList, .list :: outer => skipFrom .separator outer rest
    | .separator, .closeObject, .object :: outer => skipFrom .separator outer rest
    | .firstItem, .closeList, .list :: outer => skipFrom .separator outer rest
    | .firstKey, .closeObject, .object :: outer => skipFrom .separator outer rest
    | .firstKey, .string _, _ => skipFrom .colon brackets rest
    | .key, .string _, _ => skipFrom .colon brackets rest
    | .colon, .colon, _ => skipFrom .value brackets rest
    | .value, token, _ | .firstItem, token, _ =>
      match token with
      | .openList => skipFrom .firstItem (.list :: brackets) rest
      | .openObject => skipFrom .firstKey (.object :: brackets) rest
      | .null | .bool _ | .number _ | .string _ => skipFrom .separator brackets rest
      | _ => .error .malformed
    | _, _, _ => .error .malformed

/-- Passes over one value, whatever it is. -/
def skip : Decoder Unit := fun document =>
  match skipFrom .value [] document with
  | .ok rest => .ok ((), rest)
  | .error e => .error e

end Decoder

end EnumMigration.Json
