import EnumMigration.Text.Word

/-!
# Sliding a token along a replacement

A replacement is dangerous when, together with the text around it, it can form a legacy token
again.  The text that a replacement takes the place of was a whole token, so the characters around
it are not word characters.  It is therefore enough to lay the token over the replacement at every
offset where the two overlap: an offset is dangerous when the overlap agrees and neither edge of the
overlap lies inside a word of the text that sticks out there.
-/

namespace EnumMigration

/-- The character at a position of a text.  There is none before the start or past the end. -/
def charAt (text : List Char) (position : Int) : Option Char :=
  if position < 0 then none else text[position.toNat]?

/-- The integers from `low` up to but not including `high`. -/
def intRange (low high : Int) : List Int :=
  (List.range (high - low).toNat).map fun step : Nat => low + step

/-- A token laid over a replacement so that it begins at position `offset` of the replacement. -/
structure Alignment where
  token : List Char
  replacement : List Char
  offset : Int

namespace Alignment

/-- The position of the replacement at which the token ends. -/
def stop (alignment : Alignment) : Int := alignment.offset + alignment.token.length

/-- The positions of the replacement that the token covers. -/
def overlap (alignment : Alignment) : List Int :=
  intRange (max alignment.offset 0) (min alignment.stop alignment.replacement.length)

/-- Whether token and replacement agree wherever both have a character. -/
def agrees (alignment : Alignment) : Bool :=
  alignment.overlap.all fun position =>
    charAt alignment.replacement position == charAt alignment.token (position - alignment.offset)

/-- The character just before the overlap, on the side that sticks out there. -/
def before (alignment : Alignment) : Option Char :=
  if 0 < alignment.offset then charAt alignment.replacement (alignment.offset - 1)
  else if alignment.offset < 0 then charAt alignment.token (-alignment.offset - 1)
  else none

/-- The character just behind the overlap, on the side that sticks out there. -/
def after (alignment : Alignment) : Option Char :=
  if alignment.stop < alignment.replacement.length then charAt alignment.replacement alignment.stop
  else if (alignment.replacement.length : Int) < alignment.stop then
    charAt alignment.token (alignment.replacement.length - alignment.offset)
  else none

/-- Whether some surrounding text turns this alignment into a whole token. -/
def completes (alignment : Alignment) : Bool :=
  alignment.agrees && !isWordAt alignment.before && !isWordAt alignment.after

end Alignment

/-- The offsets at which a token and a replacement overlap. -/
def slideOffsets (token replacement : List Char) : List Int :=
  intRange (1 - token.length) replacement.length

/-- Whether a replacement can become a whole token together with the text around it. -/
def completesToken (token replacement : List Char) : Bool :=
  (slideOffsets token replacement).any fun offset => (Alignment.mk token replacement offset).completes

end EnumMigration
