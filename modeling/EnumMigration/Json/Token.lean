import EnumMigration.Json.Number

/-!
# JSON tokens

A JSON text is read as the list of its tokens, and written from it: compactly, or indented with one
member or item on each line.  Reading does not fail.  Where a text cannot go on, the list ends with
`Token.invalid`, so that a reader who stops before that place never learns of it.
-/

namespace EnumMigration.Json

/-- The smallest units of a JSON text.  A string has no content if one of its escapes stands for
half of a surrogate pair without the other half. -/
inductive Token where
  | openObject
  | closeObject
  | openList
  | closeList
  | colon
  | comma
  | null
  | bool (value : Bool)
  | number (numeral : Numeral)
  | string (content : Option String)
  | invalid
deriving DecidableEq, Repr

/-! ## Strings -/

/-- A unit of a string as it is spelled: a character, or one half of a surrogate pair. -/
inductive StringUnit where
  | char (c : Char)
  | half (code : Nat)
deriving DecidableEq, Repr

/-- The characters of a string whose surrogate halves come in pairs, the high one first. -/
def pairHalves? : List StringUnit → Option (List Char)
  | [] => some []
  | .char c :: rest => (pairHalves? rest).map (c :: ·)
  | .half high :: .half low :: rest =>
    if high < 0xDC00 ∧ 0xDC00 ≤ low then
      (pairHalves? rest).map (Char.ofNat (0x10000 + (high - 0xD800) * 0x400 + (low - 0xDC00)) :: ·)
    else none
  | .half _ :: _ => none

/-- The value of a hexadecimal digit. -/
def hexValue? (c : Char) : Option Nat :=
  if c.isDigit then some (c.toNat - '0'.toNat)
  else if 'a' ≤ c ∧ c ≤ 'f' then some (c.toNat - 'a'.toNat + 10)
  else if 'A' ≤ c ∧ c ≤ 'F' then some (c.toNat - 'A'.toNat + 10)
  else none

/-- The unit that four hexadecimal digits stand for. -/
def hexUnit? (a b c d : Char) : Option StringUnit := do
  let code := 4096 * (← hexValue? a) + 256 * (← hexValue? b) + 16 * (← hexValue? c) + (← hexValue? d)
  some (if 0xD800 ≤ code ∧ code < 0xE000 then .half code else .char (Char.ofNat code))

/-- The characters with an escape of one letter, each with its letter. -/
def letterEscapes : List (Char × Char) :=
  [('"', '"'), ('\\', '\\'), ('/', '/'), ('b', '\x08'), ('f', '\x0c'), ('n', '\n'), ('r', '\r'),
   ('t', '\t')]

/-- The units of a string up to its closing quote, and what follows it. -/
def stringUnits? : List Char → Option (List StringUnit × List Char)
  | [] => none
  | '"' :: rest => some ([], rest)
  | '\\' :: 'u' :: a :: b :: c :: d :: rest =>
    match hexUnit? a b c d, stringUnits? rest with
    | some unit, some (units, rest) => some (unit :: units, rest)
    | _, _ => none
  | '\\' :: letter :: rest =>
    match letterEscapes.lookup letter, stringUnits? rest with
    | some c, some (units, rest) => some (.char c :: units, rest)
    | _, _ => none
  | c :: rest =>
    if c.toNat < 0x20 then none
    else
      match stringUnits? rest with
      | some (units, rest) => some (.char c :: units, rest)
      | none => none

/-- A character inside a string.  Quotes, backslashes and control characters are escaped. -/
def escaped (c : Char) : List Char :=
  match c with
  | '"' => ['\\', '"']
  | '\\' => ['\\', '\\']
  | '\x08' => ['\\', 'b']
  | '\x0c' => ['\\', 'f']
  | '\n' => ['\\', 'n']
  | '\r' => ['\\', 'r']
  | '\t' => ['\\', 't']
  | c =>
    if c.toNat < 0x20 then
      ['\\', 'u', '0', '0', Nat.digitChar (c.toNat / 16), Nat.digitChar (c.toNat % 16)]
    else [c]

/-! ## Reading tokens -/

/-- The blanks of JSON. -/
def isSpace (c : Char) : Bool := c == ' ' || c == '\t' || c == '\n' || c == '\r'

/-- The token that begins with a character, and what follows it.  Nothing follows an invalid token.
-/
def nextToken (c : Char) (rest : List Char) : Token × List Char :=
  match c with
  | '\x7b' => (.openObject, rest)
  | '\x7d' => (.closeObject, rest)
  | '[' => (.openList, rest)
  | ']' => (.closeList, rest)
  | ':' => (.colon, rest)
  | ',' => (.comma, rest)
  | 'n' => (("ull".toList.isPrefixOf? rest).map (Token.null, ·)).getD (.invalid, [])
  | 't' => (("rue".toList.isPrefixOf? rest).map (Token.bool true, ·)).getD (.invalid, [])
  | 'f' => (("alse".toList.isPrefixOf? rest).map (Token.bool false, ·)).getD (.invalid, [])
  | '"' =>
    match stringUnits? rest with
    | some (units, rest) => (.string ((pairHalves? units).map String.ofList), rest)
    | none => (.invalid, [])
  | c =>
    match Numeral.read? (c :: rest) with
    | some (numeral, rest) => (.number numeral, rest)
    | none => (.invalid, [])

/-! ## Texts and their tokens -/

theorem length_le_of_isPrefixOf? {word text rest : List Char}
    (h : word.isPrefixOf? text = some rest) : rest.length ≤ text.length := by
  induction word generalizing text with
  | nil =>
    obtain rfl : text = rest := Option.some.inj h
    exact Nat.le_refl _
  | cons c word ih =>
    cases text with
    | nil => cases h
    | cons d text =>
      change (if c == d then word.isPrefixOf? text else none) = some rest at h
      split at h
      · exact Nat.le_succ_of_le (ih h)
      · cases h

theorem length_stringUnits?_lt {text rest : List Char} {units : List StringUnit}
    (h : stringUnits? text = some (units, rest)) : rest.length < text.length := by
  fun_induction stringUnits? text generalizing units rest with
  | case1 => cases h
  | case2 => cases h; simp
  | case3 a b c d tail unit units' rest' _ _ ih =>
    cases h
    have := ih ‹_›
    simp only [List.length_cons]
    omega
  | case4 => cases h
  | case5 letter tail _ c units' rest' _ _ ih =>
    cases h
    have := ih ‹_›
    simp only [List.length_cons]
    omega
  | case6 => cases h
  | case7 => cases h
  | case8 c tail _ _ _ _ units' rest' _ ih =>
    cases h
    have := ih ‹_›
    simp only [List.length_cons]
    omega
  | case9 => cases h

/-- A token leaves nothing to read that was not there before. -/
theorem length_nextToken_le (c : Char) (rest : List Char) :
    (nextToken c rest).2.length ≤ rest.length := by
  have hword : ∀ (word : List Char) (token : Token),
      (((word.isPrefixOf? rest).map (token, ·)).getD (.invalid, [])).2.length ≤ rest.length := by
    intro word token
    cases hafter : word.isPrefixOf? rest with
    | none => simp
    | some tail => simpa using length_le_of_isPrefixOf? hafter
  unfold nextToken
  split
  any_goals exact Nat.le_refl _
  any_goals exact hword _ _
  · split
    · rename_i hunits
      exact Nat.le_of_lt (length_stringUnits?_lt hunits)
    · exact Nat.zero_le _
  · split
    · rename_i hread
      exact Nat.le_of_lt_succ (Numeral.length_read?_lt hread)
    · exact Nat.zero_le _

/-- The tokens of a text.  Nothing is read behind an invalid token. -/
def tokens : List Char → List Token
  | [] => []
  | c :: rest =>
    if isSpace c then tokens rest
    else (nextToken c rest).1 :: tokens (nextToken c rest).2
termination_by text => text.length
decreasing_by
  · simp
  · have := length_nextToken_le c rest
    simp only [List.length_cons]
    omega

/-! ## Writing tokens -/

/-- A token as text.  A string without content and an invalid token have no text of their own. -/
def Token.text : Token → List Char
  | openObject => ['\x7b']
  | closeObject => ['\x7d']
  | openList => ['[']
  | closeList => [']']
  | colon => [':']
  | comma => [',']
  | null => "null".toList
  | bool true => "true".toList
  | bool false => "false".toList
  | number numeral => numeral.text
  | string content => '"' :: (content.getD "").toList.flatMap escaped ++ ['"']
  | invalid => []

/-- Tokens as text without any blanks. -/
def compact (document : List Token) : String := String.ofList (document.flatMap Token.text)

/-- A line break followed by the indentation of a nesting depth. -/
def lineBreak (depth : Nat) : List Char := '\n' :: List.replicate (2 * depth) ' '

/-- Tokens as indented text, from a nesting depth on.  `opened` tells whether a list or an object
has just been opened, because an empty one stays on its line. -/
def prettyFrom : (depth : Nat) → (opened : Bool) → List Token → List Char
  | _, _, [] => []
  | depth, opened, token :: rest =>
    match token with
    | .closeObject | .closeList =>
      (if opened then [] else lineBreak (depth - 1)) ++ token.text ++ prettyFrom (depth - 1) false rest
    | .comma => token.text ++ lineBreak depth ++ prettyFrom depth false rest
    | .colon => token.text ++ ' ' :: prettyFrom depth false rest
    | .openObject | .openList =>
      (if opened then lineBreak depth else []) ++ token.text ++ prettyFrom (depth + 1) true rest
    | _ => (if opened then lineBreak depth else []) ++ token.text ++ prettyFrom depth false rest

/-- Tokens as indented text. -/
def pretty (document : List Token) : String := String.ofList (prettyFrom 0 false document)

end EnumMigration.Json
