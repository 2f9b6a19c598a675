import EnumMigration.Pattern

/-!
# Whole-token occurrences

One scan from left to right takes a text apart into characters that are kept and occurrences of a
token. An occurrence is taken wherever the token stands with no word character on either side, and
the scan goes on behind it.  Replacing, counting and locating occurrences all read off the same
pieces, so they cannot disagree.
-/

namespace EnumMigration

/-- Whether a text begins with a token that no word character follows. -/
def startsWhole (token text : List Char) : Bool :=
  token.isPrefixOf text && !isWordAt (text.drop token.length).head?

/-- A piece of a scanned text: a character that is kept, or an occurrence of the token. -/
inductive Piece where
  | kept (c : Char)
  | token
deriving DecidableEq, Repr

namespace Piece

/-- Whether a piece is an occurrence. -/
def isToken : Piece → Bool
  | kept _ => false
  | token => true

/-- What a piece becomes when the token is replaced. -/
def replaced (substitute : List Char) : Piece → List Char
  | kept c => [c]
  | token => substitute

end Piece

/-- The pieces of a text.  The first `skip` characters belong to an occurrence that is already
taken, and `inWord` tells whether the character before the text is a word character. -/
def scan (token : List Char) : (skip : Nat) → (inWord : Bool) → List Char → List Piece
  | _, _, [] => []
  | skip + 1, _, c :: rest => scan token skip (isWord c) rest
  | 0, inWord, c :: rest =>
    if !inWord && startsWhole token (c :: rest) then
      .token :: scan token (token.length - 1) (isWord c) rest
    else
      .kept c :: scan token 0 (isWord c) rest

/-- A half-open range of positions in a text. -/
structure Span where
  start : Nat
  stop : Nat
deriving DecidableEq, Repr

/-- The number of bytes of a text in UTF-8. -/
def byteLength : List Char → Nat
  | [] => 0
  | c :: rest => c.utf8Size + byteLength rest

/-- The byte spans of the occurrences among pieces that begin at byte `start`. -/
def spansFrom (token : List Char) : (start : Nat) → List Piece → List Span
  | _, [] => []
  | start, .kept c :: pieces => spansFrom token (start + c.utf8Size) pieces
  | start, .token :: pieces =>
    let stop := start + byteLength token
    ⟨start, stop⟩ :: spansFrom token stop pieces

namespace Pattern

/-- The pieces of a text for the token of a pattern. -/
def pieces (pattern : Pattern) (text : List Char) : List Piece := scan pattern.token 0 false text

/-- The byte spans of the whole-token occurrences in a text. -/
def spans (pattern : Pattern) (text : List Char) : List Span :=
  spansFrom pattern.token 0 (pattern.pieces text)

/-- Whether the token occurs in a text as a whole token. -/
def occursIn (pattern : Pattern) (text : List Char) : Bool := (pattern.pieces text).any Piece.isToken

/-- The number of whole-token occurrences that a replacement acts on. -/
def hits (pattern : Pattern) (text : List Char) : Nat := (pattern.pieces text).countP Piece.isToken

/-- A text with every whole-token occurrence replaced. -/
def replaceAll (pattern : Pattern) (text : List Char) : List Char :=
  (pattern.pieces text).flatMap (Piece.replaced pattern.substitute)

/-- There are as many spans as replacements. -/
theorem length_spans (pattern : Pattern) (text : List Char) :
    (pattern.spans text).length = pattern.hits text := by
  have key : ∀ (pieces : List Piece) (start : Nat),
      (spansFrom pattern.token start pieces).length = pieces.countP Piece.isToken := by
    intro pieces
    induction pieces with
    | nil => intro start; rfl
    | cons piece pieces ih =>
      intro start
      cases piece <;> simp [spansFrom, List.countP_cons, Piece.isToken, ih]
  exact key _ _

end Pattern

end EnumMigration
