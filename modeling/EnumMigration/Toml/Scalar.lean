import EnumMigration.Toml.Value
import EnumMigration.Time.Timestamp

/-!
# Plain values in TOML

A value without quotes and brackets is a boolean, a number or a time.  Digits may be grouped by
underscores, and a time may lack its date, its seconds or its offset.
-/

namespace EnumMigration.Toml

/-! ## Numbers -/

/-- The digits of a numeral without its underscores, if each underscore stands between two digits.
-/
def ungrouped? (isDigit : Char → Bool) (text : List Char) : Option (List Char) :=
  let groups := text.splitOn '_'
  if groups.all fun group => !group.isEmpty && group.all isDigit then some groups.flatten else none

/-- The digits of a decimal numeral without a needless zero in front. -/
def wholeDigits? (text : List Char) : Option (List Char) := do
  let digits ← ungrouped? Char.isDigit text
  if digits.head? == some '0' && text != ['0'] then none else some digits

/-- A text without a sign in front, and whether the sign was a minus. -/
def splitSign : List Char → Bool × List Char
  | '-' :: rest => (true, rest)
  | '+' :: rest => (false, rest)
  | rest => (false, rest)

/-- The value of a digit in bases up to sixteen. -/
def baseDigit (c : Char) : Nat :=
  if c.isDigit then c.toNat - '0'.toNat else c.toLower.toNat - 'a'.toNat + 10

/-- The number with the given digits in a base. -/
def ofDigits (base : Nat) (digits : List Char) : Nat :=
  digits.foldl (fun n c => base * n + baseDigit c) 0

/-- The integer with the given decimal digits and sign. -/
def signedDecimal (negative : Bool) (digits : List Char) : Int :=
  if negative then -(ofDigits 10 digits : Int) else ofDigits 10 digits

/-- Whether a character is a digit in a base up to sixteen. -/
def isBaseDigit (base : Nat) (c : Char) : Bool :=
  (c.isDigit || ('a' ≤ c.toLower && c.toLower ≤ 'f')) && baseDigit c < base

/-- The integer that a numeral stands for. -/
def integer? : List Char → Option Int
  | '0' :: 'x' :: rest => inBase 16 rest
  | '0' :: 'o' :: rest => inBase 8 rest
  | '0' :: 'b' :: rest => inBase 2 rest
  | text =>
    let (negative, rest) := splitSign text
    (wholeDigits? rest).map (signedDecimal negative)
where
  /-- A numeral after the mark of its base. -/
  inBase (base : Nat) (text : List Char) : Option Int :=
    (ungrouped? (isBaseDigit base) text).map fun digits => (ofDigits base digits : Int)

/-- Whether an integer fits in 128 bits, with or without a sign. -/
def isStorable (n : Int) : Bool := -Int.pow 2 127 ≤ n && n < Int.pow 2 128

/-- Whether `significand * 10 ^ exponent` is too large for a double. -/
def overflowsDouble (significand : Nat) (exponent : Int) : Bool :=
  let size : Int := (Nat.toDigits 10 significand).length + exponent
  if significand = 0 ∨ size < 300 then false
  else if 320 < size then true
  else
    let bound := Nat.pow 2 1024 - Nat.pow 2 970
    if 0 ≤ exponent then bound ≤ significand * Nat.pow 10 exponent.toNat
    else bound * Nat.pow 10 exponent.natAbs ≤ significand

/-- The digits behind the point, or none. -/
def fractionDigits? : List Char → Option (List Char)
  | [] => some []
  | '.' :: rest => ungrouped? Char.isDigit rest
  | _ => none

/-- The exponent behind its mark, or zero. -/
def exponentValue? : List Char → Option Int
  | [] => some 0
  | _ :: rest =>
    let (negative, rest) := splitSign rest
    (ungrouped? Char.isDigit rest).map (signedDecimal negative)

/-- Whether a text is a numeral with a point or an exponent, and not too large for a double. -/
def isFloat (text : List Char) : Bool :=
  let (_, unsigned) := splitSign text
  let (mantissa, exponent) := unsigned.span fun c => c != 'e' && c != 'E'
  let (whole, fraction) := mantissa.span (· != '.')
  match wholeDigits? whole, fractionDigits? fraction, exponentValue? exponent with
  | some wholeDigits, some fractionDigits, some shift =>
    !overflowsDouble (ofDigits 10 (wholeDigits ++ fractionDigits)) (shift - fractionDigits.length)
  | _, _, _ => unsigned == "inf".toList || unsigned == "nan".toList

/-- Whether a text is a number. -/
def isNumber (text : List Char) : Bool :=
  match integer? text with
  | some n => isStorable n
  | none => isFloat text

/-! ## Times -/

/-- A number of two digits in front of a text, if it does not exceed a bound. -/
def twoDigits? (bound : Nat) : List Char → Option (Nat × List Char)
  | a :: b :: rest =>
    let value := ofDigits 10 [a, b]
    if a.isDigit && b.isDigit && value ≤ bound then some (value, rest) else none
  | _ => none

/-- What follows a date. -/
def afterDate? : List Char → Option (List Char)
  | a :: b :: c :: d :: '-' :: rest =>
    if [a, b, c, d].all Char.isDigit then
      match twoDigits? 12 rest with
      | some (month, '-' :: rest) =>
        match twoDigits? (daysInMonth (ofDigits 10 [a, b, c, d]) month) rest with
        | some (day, rest) => if month = 0 ∨ day = 0 then none else some rest
        | none => none
      | _ => none
    else none
  | _ => none

/-- What follows the fraction of a second, if there is one. -/
def afterFraction? : List Char → Option (List Char)
  | '.' :: rest =>
    if (rest.head?.map Char.isDigit).getD false then some (rest.dropWhile Char.isDigit) else none
  | rest => some rest

/-- What follows the seconds, if there are any. -/
def afterSeconds? : List Char → Option (List Char)
  | ':' :: rest => (twoDigits? 60 rest).bind fun (_, rest) => afterFraction? rest
  | rest => some rest

/-- What follows a time of day. -/
def afterTime? (text : List Char) : Option (List Char) :=
  match twoDigits? 23 text with
  | some (_, ':' :: rest) => (twoDigits? 59 rest).bind fun (_, rest) => afterSeconds? rest
  | _ => none

/-- Whether a text is the offset of a time, less than a day either way, or empty. -/
def isOffset : List Char → Bool
  | [] | ['Z'] | ['z'] => true
  | sign :: rest =>
    (sign == '+' || sign == '-') &&
      match twoDigits? 23 rest with
      | some (_, ':' :: rest) => (twoDigits? 59 rest).map Prod.snd == some []
      | _ => false

/-- Whether a text is a date, a time of day, or both with or without an offset. -/
def isMoment (text : List Char) : Bool :=
  match afterDate? text with
  | some [] => true
  | some (mark :: rest) =>
    (mark == 'T' || mark == 't' || mark == ' ') && ((afterTime? rest).map isOffset).getD false
  | none => afterTime? text == some []

/-! ## Plain values -/

/-- The value of a word. -/
def scalar? (word : List Char) : Option Value :=
  if word = "true".toList then some (.boolean true)
  else if word = "false".toList then some (.boolean false)
  else if isNumber word then some (.number (String.ofList word))
  else if isMoment word then some (.moment (String.ofList word))
  else none

end EnumMigration.Toml
