import EnumMigration.Json.Decoder

/-!
# Codecs

A codec reads and writes the values of a type.  The codec of a record is made from the list of its
fields: each field has a name, a codec and possibly a value that stands for its absence.  A record
is written as an object with its fields in order; it is read from an object, in any order and with
unknown members passed over, or from a list of its fields.
-/

namespace EnumMigration.Json

/-- How the values of a type are read and written. -/
structure Codec (α : Type) where
  decode : Decoder α
  encode : α → List Token

namespace Codec

/-- The value that a text stands for.  Nothing may follow it. -/
def read {α : Type} (codec : Codec α) (text : String) : Except DecodeError α :=
  match codec.decode (tokens text.toList) with
  | .ok (value, []) => .ok value
  | .ok (_, _ :: _) => .error .malformed
  | .error e => .error e

/-- A value as text without blanks. -/
def write {α : Type} (codec : Codec α) (value : α) : String := compact (codec.encode value)

/-- A value as indented text. -/
def writePretty {α : Type} (codec : Codec α) (value : α) : String := pretty (codec.encode value)

/-- Strings. -/
def string : Codec String := ⟨Decoder.stringAs .text, fun content => [.string (some content)]⟩

/-- Booleans. -/
def flag : Codec Bool := ⟨Decoder.flag, fun value => [.bool value]⟩

/-- Natural numbers. -/
def count : Codec Nat := ⟨Decoder.count, fun n => [.number (.ofNat n)]⟩

/-- Values that may be absent. -/
def option {α : Type} (codec : Codec α) : Codec (Option α) :=
  ⟨Decoder.optional codec.decode, fun
    | none => [.null]
    | some value => codec.encode value⟩

/-- The items of a list as tokens, with commas between them. -/
def separated : List (List Token) → List Token
  | [] => []
  | [item] => item
  | item :: next :: items => item ++ .comma :: separated (next :: items)

/-- Lists. -/
def list {α : Type} (codec : Codec α) : Codec (List α) :=
  ⟨Decoder.list codec.decode, fun items =>
    .openList :: separated (items.map codec.encode) ++ [.closeList]⟩

end Codec

/-! ## Records -/

/-- A field of a record.  A field that need not be there has a value that stands for its absence,
and some values are not written. -/
structure Field (α : Type) where
  name : String
  codec : Codec α
  absent : Option α
  hidden : α → Bool

namespace Field

/-- A field that has to be there. -/
def required {α : Type} (name : String) (codec : Codec α) : Field α :=
  ⟨name, codec, none, fun _ => false⟩

/-- A field that has a default. -/
def defaulting {α : Type} (name : String) (codec : Codec α) (default : α) : Field α :=
  ⟨name, codec, some default, fun _ => false⟩

/-- A field that may be absent, and is not written then. -/
def optional {α : Type} (name : String) (codec : Codec α) : Field (Option α) :=
  ⟨name, codec.option, some none, Option.isNone⟩

end Field

/-- The fields of a record in order.  The indices are the type of their values, paired up, and the
type of what was read for them so far. -/
inductive Fields : (values slots : Type) → Type 1 where
  | nil : Fields Unit Unit
  | cons {α β σ : Type} (field : Field α) (rest : Fields β σ) : Fields (α × β) (Option α × σ)

namespace Fields

/-- Nothing read yet. -/
def empty : {β σ : Type} → Fields β σ → σ
  | _, _, .nil => ()
  | _, _, .cons _ rest => (none, rest.empty)

/-- The number of fields. -/
def size : {β σ : Type} → Fields β σ → Nat
  | _, _, .nil => 0
  | _, _, .cons _ rest => rest.size + 1

/-- What a member of an object is for a record. -/
inductive Placement (σ : Type) where
  | unknown
  | duplicate
  | slot (fill : Decoder σ)

/-- Where the member with a given name belongs. -/
def place (name : String) : {β σ : Type} → Fields β σ → σ → Placement σ
  | _, _, .nil, _ => .unknown
  | _, _, .cons field rest, (own, others) =>
    if field.name = name then
      if own.isSome then .duplicate
      else .slot fun document =>
        match field.codec.decode document with
        | .ok (value, document) => .ok ((some value, others), document)
        | .error e => .error e
    else
      match rest.place name others with
      | .unknown => .unknown
      | .duplicate => .duplicate
      | .slot fill => .slot fun document =>
        match fill document with
        | .ok (others, document) => .ok ((own, others), document)
        | .error e => .error e

/-- The values of all fields, or the first field that is missing. -/
def finish : {β σ : Type} → Fields β σ → σ → Except DecodeError β
  | _, _, .nil, _ => .ok ()
  | _, _, .cons field rest, (own, others) =>
    match own.or field.absent with
    | none => .error (.mismatch (.missingField field.name))
    | some value =>
      match rest.finish others with
      | .ok values => .ok (value, values)
      | .error e => .error e

/-- Reads one member of an object, behind its name. -/
def member {β σ : Type} (fields : Fields β σ) (name : String) (slots : σ) : Decoder σ := fun document =>
  match fields.place name slots, document with
  | .duplicate, _ => .error (.mismatch (.duplicateField name))
  | .unknown, .colon :: rest =>
    match Decoder.skip rest with
    | .ok (_, rest) => .ok (slots, rest)
    | .error e => .error e
  | .slot fill, .colon :: rest => fill rest
  | _, _ => .error .malformed

/-- Reads the members of an object behind the first one, up to its end. -/
def moreMembers {β σ : Type} (fields : Fields β σ) : (fuel : Nat) → σ → Decoder σ
  | _, slots, .closeObject :: rest => .ok (slots, rest)
  | fuel + 1, slots, .comma :: .string (some name) :: rest =>
    match fields.member name slots rest with
    | .ok (slots, rest) => moreMembers fields fuel slots rest
    | .error e => .error e
  | _, _, _ => .error .malformed

/-- Reads the members of an object behind its opening brace. -/
def members {β σ : Type} (fields : Fields β σ) : Decoder σ
  | .closeObject :: rest => .ok (fields.empty, rest)
  | .string (some name) :: rest =>
    match fields.member name fields.empty rest with
    | .ok (slots, rest) => moreMembers fields rest.length slots rest
    | .error e => .error e
  | _ => .error .malformed

/-- Reads the fields of a record from the items of a list, the first of which has the given index.
Fields at the end may be left out if they have a default. -/
def items (record : String) (total : Nat) :
    {β σ : Type} → Fields β σ → (index : Nat) → Decoder β
  | _, _, .nil, _, .closeList :: rest => .ok ((), rest)
  | _, _, .nil, _, _ => .error .malformed
  | _, _, .cons field rest, index, document =>
    let itemStart : Except DecodeError (Option (List Token)) :=
      match document with
      | .closeList :: _ => .ok none
      | .comma :: tail => if index = 0 then .ok (some document) else .ok (some tail)
      | _ => if index = 0 then .ok (some document) else .error .malformed
    match itemStart with
    | .error e => .error e
    | .ok none =>
      match field.absent with
      | none => .error (.mismatch (.invalidLength index record total))
      | some value =>
        match rest.items record total (index + 1) document with
        | .ok (values, document) => .ok ((value, values), document)
        | .error e => .error e
    | .ok (some document) =>
      match field.codec.decode document with
      | .error e => .error e
      | .ok (value, document) =>
        match rest.items record total (index + 1) document with
        | .ok (values, document) => .ok ((value, values), document)
        | .error e => .error e

/-- Reads a record from an object or from a list. -/
def decode {β σ : Type} (fields : Fields β σ) (record : String) : Decoder β
  | .openObject :: rest =>
    match fields.members rest with
    | .error e => .error e
    | .ok (slots, rest) =>
      match fields.finish slots with
      | .ok values => .ok (values, rest)
      | .error e => .error e
  | .openList :: rest => fields.items record fields.size 0 rest
  | document => .error (Decoder.unexpected (.record record) document.head?)

/-- The members of an object that holds a record. -/
def encode : {β σ : Type} → Fields β σ → β → List (List Token)
  | _, _, .nil, _ => []
  | _, _, .cons field rest, (value, values) =>
    let others := rest.encode values
    if field.hidden value then others
    else (.string (some field.name) :: .colon :: field.codec.encode value) :: others

end Fields

/-- The codec of a record type, given its fields and how its values are paired up. -/
def Codec.record {α β σ : Type} (name : String) (fields : Fields β σ) (split : α → β) (join : β → α) :
    Codec α :=
  ⟨fun document =>
    match fields.decode name document with
    | .ok (values, rest) => .ok (join values, rest)
    | .error e => .error e,
   fun value => .openObject :: Codec.separated (fields.encode (split value)) ++ [.closeObject]⟩

end EnumMigration.Json
