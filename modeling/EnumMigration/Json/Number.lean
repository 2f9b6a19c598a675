import EnumMigration.Decimal.Shortest

/-!
# Numbers in JSON

A number is read off its spelling as a natural number, a negative integer or a double.  Integers
that do not fit in 64 bits are doubles, and so is a negative zero.
-/

namespace EnumMigration.Json

/-- The spelling of a number: its sign, its digits before and after the point, and its exponent. -/
structure Numeral where
  negative : Bool
  whole : List Char
  fraction : Option (List Char)
  exponent : Option (Bool × List Char)
deriving DecidableEq, Repr

/-- What a numeral stands for. -/
inductive Number where
  | natural (n : Nat)
  | negative (n : Nat)
  | double (x : Float)

/-- The value of a digit. -/
def digitValue (c : Char) : Nat := c.toNat - '0'.toNat

/-- The number with the given decimal digits. -/
def digitsValue (digits : List Char) : Nat := digits.foldl (fun n c => 10 * n + digitValue c) 0

/-- The bound of 64-bit integers. -/
def wordBound : Nat := Nat.pow 2 64

/-- Appends digits to a significand as long as it fits in 64 bits.  Returns the significand, how
many digits it took and how many it left. -/
def takeDigits (significand : Nat) : List Char → Nat × Nat × Nat
  | [] => (significand, 0, 0)
  | c :: rest =>
    let longer := 10 * significand + digitValue c
    if longer < wordBound then
      let (result, taken, left) := takeDigits longer rest
      (result, taken + 1, left)
    else (significand, 0, rest.length + 1)

/-- A power of ten as a double. -/
def powerOfTen (n : Nat) : Float := Float.ofScientific 1 false n

/-- Scales a double by a power of ten, in steps of at most 308 decimal places.  There is no result
if it would be infinite. -/
def scaleByTen (x : Float) (exponent : Int) : Option Float :=
  if exponent.natAbs ≤ 308 then
    if 0 ≤ exponent then
      let scaled := x * powerOfTen exponent.natAbs
      if scaled.isInf then none else some scaled
    else some (x / powerOfTen exponent.natAbs)
  else if x == 0 then some x
  else if 0 ≤ exponent then none
  else scaleByTen (x / powerOfTen 308) (exponent + 308)
termination_by exponent.natAbs

namespace Numeral

/-- The largest exponent that is taken as written. -/
def exponentBound : Nat := Nat.pow 2 31

/-- The double that a numeral stands for, if there is a finite one. -/
def toDouble? (numeral : Numeral) : Option Float :=
  let (significand, _, dropped) := takeDigits 0 numeral.whole
  let (significand, taken, _) := takeDigits significand (numeral.fraction.getD [])
  let places : Int := (dropped : Int) - taken
  let size : Option Float :=
    match numeral.exponent with
    | none => scaleByTen (UInt64.ofNat significand).toFloat places
    | some (down, digits) =>
      let written := digitsValue digits
      if written < exponentBound then
        let shift : Int := if down then -written else written
        scaleByTen (UInt64.ofNat significand).toFloat (places + shift)
      else if significand ≠ 0 ∧ !down then none
      else some 0
  size.map fun x => if numeral.negative then -x else x

/-- What a numeral stands for.  There is none if it is too large for a double. -/
def value? (numeral : Numeral) : Option Number :=
  let n := digitsValue numeral.whole
  if numeral.fraction.isNone && numeral.exponent.isNone && n < wordBound then
    if !numeral.negative then some (.natural n)
    else if 0 < n ∧ n ≤ Nat.pow 2 63 then some (.negative n)
    else some (.double (-(UInt64.ofNat n).toFloat))
  else numeral.toDouble?.map .double

/-- The numeral of a natural number. -/
def ofNat (n : Nat) : Numeral := ⟨false, Nat.toDigits 10 n, none, none⟩

/-- A numeral as text. -/
def text (numeral : Numeral) : List Char :=
  (if numeral.negative then ['-'] else []) ++ numeral.whole ++
    (match numeral.fraction with
      | none => []
      | some digits => '.' :: digits) ++
    (match numeral.exponent with
      | none => []
      | some (down, digits) => 'e' :: (if down then '-' :: digits else digits))

/-! ## Reading numerals -/

/-- A non-empty run of digits at the beginning of a text, and what follows it. -/
def digitRun? (text : List Char) : Option (List Char × List Char) :=
  let digits := text.takeWhile Char.isDigit
  if digits.isEmpty then none else some (digits, text.dropWhile Char.isDigit)

/-- The fraction of a numeral, if a point stands there. -/
def readFraction? : List Char → Option (Option (List Char) × List Char)
  | '.' :: rest => (digitRun? rest).map fun (digits, rest) => (some digits, rest)
  | rest => some (none, rest)

/-- The exponent of a numeral, if an exponent mark stands there. -/
def readExponent? : List Char → Option (Option (Bool × List Char) × List Char)
  | [] => some (none, [])
  | c :: rest =>
    if c = 'e' ∨ c = 'E' then
      let (down, rest) :=
        match rest with
        | '-' :: rest => (true, rest)
        | '+' :: rest => (false, rest)
        | rest => (false, rest)
      (digitRun? rest).map fun (digits, rest) => (some (down, digits), rest)
    else some (none, c :: rest)

/-- The numeral at the beginning of a text, and what follows it.  A zero may not be followed by
further digits. -/
def read? (text : List Char) : Option (Numeral × List Char) := do
  let (negative, text) :=
    match text with
    | '-' :: rest => (true, rest)
    | rest => (false, rest)
  let (whole, text) ← digitRun? text
  if whole.head? = some '0' ∧ 1 < whole.length then none
  else
    let (fraction, text) ← readFraction? text
    let (exponent, text) ← readExponent? text
    some (⟨negative, whole, fraction, exponent⟩, text)

/-! ## Reading consumes -/

theorem length_digitRun?_lt {text digits rest : List Char} (h : digitRun? text = some (digits, rest)) :
    rest.length < text.length := by
  unfold digitRun? at h
  dsimp only at h
  split at h
  · cases h
  · rename_i hne
    cases h
    have hsplit := congrArg List.length (List.takeWhile_append_dropWhile (p := Char.isDigit) (l := text))
    have hpos := List.length_pos_iff.mpr (List.isEmpty_eq_false_iff.mp (Bool.eq_false_iff.mpr hne))
    simp only [List.length_append] at hsplit
    omega

theorem length_readFraction?_le {text rest : List Char} {fraction : Option (List Char)}
    (h : readFraction? text = some (fraction, rest)) : rest.length ≤ text.length := by
  unfold readFraction? at h
  split at h
  · obtain ⟨⟨digits, rest'⟩, hrun, heq⟩ := Option.map_eq_some_iff.mp h
    cases heq
    have := length_digitRun?_lt hrun
    simp only [List.length_cons]
    omega
  · cases h
    exact Nat.le_refl _

theorem length_readExponent?_le {text rest : List Char} {exponent : Option (Bool × List Char)}
    (h : readExponent? text = some (exponent, rest)) : rest.length ≤ text.length := by
  unfold readExponent? at h
  split at h
  · cases h
    exact Nat.le_refl _
  · rename_i c tail
    split at h
    · have hsign : ∀ sign : Bool × List Char, sign.2.length ≤ tail.length →
          (digitRun? sign.2).map (fun (digits, rest) => (some (sign.1, digits), rest)) =
            some (exponent, rest) → rest.length ≤ (c :: tail).length := by
        intro sign hle hmap
        obtain ⟨⟨digits, rest'⟩, hrun, heq⟩ := Option.map_eq_some_iff.mp hmap
        cases heq
        have := length_digitRun?_lt hrun
        simp only [List.length_cons]
        omega
      refine hsign _ ?_ h
      split <;> simp
    · cases h
      exact Nat.le_refl _

/-- A numeral takes at least one character. -/
theorem length_read?_lt {text rest : List Char} {numeral : Numeral}
    (h : read? text = some (numeral, rest)) : rest.length < text.length := by
  have hsign : ∀ sign : Bool × List Char, sign.2.length ≤ text.length →
      (do
        let (whole, text) ← digitRun? sign.2
        if whole.head? = some '0' ∧ 1 < whole.length then none
        else
          let (fraction, text) ← readFraction? text
          let (exponent, text) ← readExponent? text
          some ((⟨sign.1, whole, fraction, exponent⟩ : Numeral), text)) = some (numeral, rest) →
      rest.length < text.length := by
    intro sign hle hread
    obtain ⟨⟨whole, afterWhole⟩, hwhole, hread⟩ := Option.bind_eq_some_iff.mp hread
    simp only at hread
    split at hread
    · cases hread
    · obtain ⟨⟨fraction, afterFraction⟩, hfraction, hread⟩ := Option.bind_eq_some_iff.mp hread
      obtain ⟨⟨exponent, afterExponent⟩, hexponent, hread⟩ := Option.bind_eq_some_iff.mp hread
      cases hread
      have hwhole : afterWhole.length < sign.2.length := length_digitRun?_lt hwhole
      have hfraction : afterFraction.length ≤ afterWhole.length := length_readFraction?_le hfraction
      have hexponent : afterExponent.length ≤ afterFraction.length := length_readExponent?_le hexponent
      show afterExponent.length < text.length
      omega
  refine hsign _ ?_ h
  split <;> simp

end Numeral

end EnumMigration.Json
