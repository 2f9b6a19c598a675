import EnumMigration.Text.Word
import EnumMigration.Text.Blank

/-!
# Pattern entries

A pattern entry names a legacy token and the text that takes its place.  An entry is usable when its
token begins and ends with a word character, stays on one line and is replaced by something; a
`Pattern` is an entry together with the evidence that it is usable.  Since both edges of the token
are word characters, a whole occurrence of it is one whose neighbours are not.
-/

namespace EnumMigration

/-- A legacy token and the text that takes its place. -/
structure PatternEntry where
  legacy : String
  replacement : String
deriving DecidableEq, Repr

/-- Why an entry is not usable as a pattern. -/
inductive PatternFault where
  | emptyLegacy
  | noWordEdge
  | lineBreak
  | emptyReplacement
deriving DecidableEq, Repr

/-- The wording of a fault. -/
def PatternFault.reason : PatternFault → String
  | .emptyLegacy => "legacy token is empty"
  | .noWordEdge => "legacy token must start and end with a word character"
  | .lineBreak => "legacy token spans a line break"
  | .emptyReplacement => "replacement is empty"

/-- The first fault of an entry, if it has one. -/
def PatternEntry.fault? (entry : PatternEntry) : Option PatternFault :=
  let token := entry.legacy.toList
  if isBlankText token then some .emptyLegacy
  else if !(isWordAt token.head? && isWordAt token.getLast?) then some .noWordEdge
  else if token.contains '\n' || token.contains '\r' then some .lineBreak
  else if entry.replacement.isEmpty then some .emptyReplacement
  else none

/-- A usable entry. -/
structure Pattern extends PatternEntry where
  usable : toPatternEntry.fault? = none
deriving DecidableEq

namespace Pattern

/-- The characters of the legacy token. -/
def token (pattern : Pattern) : List Char := pattern.legacy.toList

/-- The characters that take the token's place. -/
def substitute (pattern : Pattern) : List Char := pattern.replacement.toList

/-- The pattern of an entry, or the entry's first fault. -/
def ofEntry (entry : PatternEntry) : Except PatternFault Pattern :=
  match h : entry.fault? with
  | none => .ok ⟨entry, h⟩
  | some fault => .error fault

theorem ofEntry_eq_ok_iff {entry : PatternEntry} {pattern : Pattern} :
    ofEntry entry = .ok pattern ↔ pattern.toPatternEntry = entry := by
  unfold ofEntry
  split
  · constructor
    · rintro ⟨rfl⟩
      rfl
    · rintro rfl
      rfl
  · rename_i fault hfault
    constructor
    · intro h
      cases h
    · rintro rfl
      rw [pattern.usable] at hfault
      cases hfault

/-- The characters that a search expression would not take literally. -/
def isSpecial (c : Char) : Bool := "\\.+*?()|[]\x7b\x7d^$#&-~".toList.contains c

/-- The search expression of a pattern: the token taken literally, with a word boundary on either
side. -/
def expression (pattern : Pattern) : String :=
  let literal := pattern.token.flatMap fun c => if isSpecial c then ['\\', c] else [c]
  String.ofList (['\\', 'b'] ++ literal ++ ['\\', 'b'])

end Pattern

end EnumMigration
