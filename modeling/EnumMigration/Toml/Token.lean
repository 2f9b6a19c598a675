import EnumMigration.Toml.Scalar

/-!
# TOML tokens

A TOML text is cut into quoted strings, words, brackets, signs, blanks and line ends.  Comments are
dropped.  A date that is followed by a single blank and a digit makes one word with what follows the
blank.
-/

namespace EnumMigration.Toml

/-- The smallest units of a TOML text. -/
inductive Token where
  | blank
  | newline
  | equals
  | comma
  | openList
  | closeList
  | openTable
  | closeTable
  | word (spelling : List Char)
  | string (content : List Char)
  /-- A string in triple quotes. -/
  | longString (content : List Char)
deriving DecidableEq, Repr

/-! ## Characters -/

/-- Whether a character may stand anywhere in a text.  Control characters may not, except for tabs
and line ends. -/
def isPlain (c : Char) : Bool := c == '\t' || c == '\n' || c == '\r' || (' ' ≤ c && c != '\x7f')

/-- Whether each carriage return is followed by a line feed. -/
def returnsPaired : List Char → Bool
  | [] => true
  | '\r' :: rest => rest.head? == some '\n' && returnsPaired rest
  | _ :: rest => returnsPaired rest

/-- Blanks within a line. -/
def isSpace (c : Char) : Bool := c == ' ' || c == '\t'

/-- The characters of line ends. -/
def isLineEnd (c : Char) : Bool := c == '\n' || c == '\r'

/-- Whether a character belongs to a word. -/
def isWordChar (c : Char) : Bool :=
  !(isSpace c || isLineEnd c || ['#', '=', ',', '[', ']', '\x7b', '\x7d', '"', '\''].contains c)

/-! ## Strings -/

/-- The character with the code that hexadecimal digits spell. -/
def hexChar? (digits : List Char) : Option Char :=
  if digits.all (isBaseDigit 16) && (ofDigits 16 digits).isValidChar then
    some (Char.ofNat (ofDigits 16 digits))
  else none

/-- The letters that stand for a character after a backslash. -/
def letterEscapes : List (Char × Char) :=
  [('b', '\x08'), ('t', '\t'), ('n', '\n'), ('f', '\x0c'), ('r', '\r'), ('e', '\x1b'), ('"', '"'),
   ('\\', '\\')]

/-- The letters that announce the code of a character, each with the number of its digits. -/
def codeEscapes : List (Char × Nat) := [('x', 2), ('u', 4), ('U', 8)]

/-- The character that a backslash and what follows it stand for, and the rest. -/
def escape? : List Char → Option (Char × List Char)
  | [] => none
  | letter :: rest =>
    match letterEscapes.lookup letter, codeEscapes.lookup letter with
    | some c, _ => some (c, rest)
    | none, some n =>
      if n ≤ rest.length then (hexChar? (rest.take n)).map (·, rest.drop n) else none
    | none, none => none

/-- What follows a backslash at the end of a line: the blanks and line ends after it do not count.
-/
def afterLineEscape? (text : List Char) : Option (List Char) :=
  let rest := text.dropWhile isSpace
  if (rest.head?.map isLineEnd).getD false then
    some (rest.dropWhile fun c => isSpace c || isLineEnd c)
  else none

theorem length_escape?_lt {text rest : List Char} {c : Char} (h : escape? text = some (c, rest)) :
    rest.length < text.length := by
  unfold escape? at h
  split at h
  · cases h
  · split at h
    · cases h
      simp
    · split at h
      · obtain ⟨_, _, hpair⟩ := Option.map_eq_some_iff.mp h
        cases hpair
        simp only [List.length_drop, List.length_cons]
        omega
      · cases h
    · cases h

theorem length_dropWhile_le (p : Char → Bool) (text : List Char) :
    (text.dropWhile p).length ≤ text.length :=
  (List.dropWhile_suffix p).length_le

theorem length_afterLineEscape?_le {text rest : List Char} (h : afterLineEscape? text = some rest) :
    rest.length ≤ text.length := by
  unfold afterLineEscape? at h
  dsimp only at h
  split at h
  · cases h
    exact Nat.le_trans (length_dropWhile_le _ _) (length_dropWhile_le _ _)
  · cases h

/-- A string in double quotes up to the closing quote, and what follows it.  It does not go over the
end of a line. -/
def basicString? : List Char → Option (List Char × List Char)
  | [] => none
  | c :: rest =>
    if c = '"' then some ([], rest)
    else if c = '\\' then
      match _ : escape? rest with
      | none => none
      | some (c, after) => (basicString? after).map fun (content, rest) => (c :: content, rest)
    else if isLineEnd c then none
    else (basicString? rest).map fun (content, rest) => (c :: content, rest)
termination_by text => text.length
decreasing_by
  · have := length_escape?_lt ‹escape? rest = _›
    simp only [List.length_cons]
    omega
  · simp

/-- The content that closing quotes belong to, and what follows them: a string in triple quotes may
end with one or two quotes of its own. -/
def closeLong? (quote : Char) (text : List Char) : Option (List Char × List Char) :=
  let quotes := (text.takeWhile (· == quote)).length
  if quotes < 3 then none
  else some (List.replicate (min quotes 5 - 3) quote, text.drop (min quotes 5))

/-- A string in triple double quotes up to the closing quotes, and what follows them. -/
def longBasicString? : List Char → Option (List Char × List Char)
  | [] => none
  | c :: rest =>
    match closeLong? '"' (c :: rest) with
    | some closed => some closed
    | none =>
      if c = '\\' then
        match _ : afterLineEscape? rest with
        | some after => longBasicString? after
        | none =>
          match _ : escape? rest with
          | none => none
          | some (c, after) =>
            (longBasicString? after).map fun (content, rest) => (c :: content, rest)
      else (longBasicString? rest).map fun (content, rest) => (c :: content, rest)
termination_by text => text.length
decreasing_by
  · have := length_afterLineEscape?_le ‹afterLineEscape? rest = _›
    simp only [List.length_cons]
    omega
  · have := length_escape?_lt ‹escape? rest = _›
    simp only [List.length_cons]
    omega
  · simp

/-- A string in triple single quotes up to the closing quotes, and what follows them. -/
def longLiteralString? : List Char → Option (List Char × List Char)
  | [] => none
  | c :: rest =>
    match closeLong? '\'' (c :: rest) with
    | some closed => some closed
    | none => (longLiteralString? rest).map fun (content, rest) => (c :: content, rest)

/-- A string in single quotes up to the closing quote, and what follows it. -/
def literalString? (text : List Char) : Option (List Char × List Char) :=
  match text.span fun c => c != '\'' && !isLineEnd c with
  | (content, '\'' :: rest) => some (content, rest)
  | _ => none

/-- A text without a line end at its beginning. -/
def dropLineEnd : List Char → List Char
  | '\n' :: rest => rest
  | '\r' :: '\n' :: rest => rest
  | rest => rest

/-- The string that begins with a quote, and what follows it. -/
def string? (quote : Char) (rest : List Char) : Option (Token × List Char) :=
  match rest with
  | a :: b :: rest' =>
    if a = quote ∧ b = quote then
      (if quote = '"' then longBasicString? (dropLineEnd rest')
        else longLiteralString? (dropLineEnd rest')).map
        fun (content, rest) => (.longString content, rest)
    else short
  | _ => short
where
  /-- A string in single or double quotes. -/
  short : Option (Token × List Char) :=
    (if quote = '"' then basicString? rest else literalString? rest).map
      fun (content, rest) => (.string content, rest)

/-! ## Words -/

/-- Whether a word has the form of a date. -/
def looksLikeDate (word : List Char) : Bool :=
  match word with
  | [a, b, c, d, '-', e, f, '-', g, h] => [a, b, c, d, e, f, g, h].all Char.isDigit
  | _ => false

/-- The word that begins a text, and what follows it. -/
def word (text : List Char) : List Char × List Char :=
  let (spelling, rest) := text.span isWordChar
  match rest with
  | ' ' :: c :: rest' =>
    if looksLikeDate spelling && c.isDigit then
      let (time, rest) := (c :: rest').span isWordChar
      (spelling ++ ' ' :: time, rest)
    else (spelling, rest)
  | _ => (spelling, rest)

/-! ## Tokens -/

/-- The token that begins with a character, and what follows it.  A comment makes no token. -/
def nextToken? (c : Char) (rest : List Char) : Option (List Token × List Char) :=
  match c with
  | '\n' | '\r' => some ([.newline], dropLineEnd (c :: rest))
  | ' ' | '\t' => some ([.blank], rest.dropWhile isSpace)
  | '#' => some ([], rest.dropWhile fun c => !isLineEnd c)
  | '=' => some ([.equals], rest)
  | ',' => some ([.comma], rest)
  | '[' => some ([.openList], rest)
  | ']' => some ([.closeList], rest)
  | '\x7b' => some ([.openTable], rest)
  | '\x7d' => some ([.closeTable], rest)
  | '"' | '\'' => (string? c rest).map fun (token, rest) => ([token], rest)
  | c =>
    let (spelling, after) := word (c :: rest)
    some ([.word spelling], after)

/-- The tokens of a text of up to `length` characters. -/
def tokensWithin? : (length : Nat) → List Char → Option (List Token)
  | _, [] => some []
  | 0, _ :: _ => none
  | length + 1, c :: rest => do
    let (front, rest) ← nextToken? c rest
    let back ← tokensWithin? length rest
    some (front ++ back)

/-- The tokens of a text, if it has no stray control characters and all its strings are closed. -/
def tokens? (text : List Char) : Option (List Token) :=
  if text.all isPlain && returnsPaired text then tokensWithin? text.length text else none

end EnumMigration.Toml
