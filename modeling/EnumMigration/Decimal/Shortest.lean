/-!
# The shortest decimal of a double

A double stands for every real that rounds to it.  Its shortest decimal is the one with the fewest
digits among these reals, and of several the one nearest to the double itself.  All comparisons are
made in exact arithmetic on natural numbers.
-/

namespace EnumMigration.Decimal

/-- A positive number `digits · 10 ^ scale`. -/
structure Scaled where
  digits : Nat
  scale : Int
deriving DecidableEq, Repr

/-- A positive rational with the ends of the interval that rounds to it, all over one denominator.
The ends belong to the interval exactly if `closed` holds. -/
structure Rounding where
  low : Nat
  value : Nat
  high : Nat
  denominator : Nat
  closed : Bool

/-- The interval of the double with the given significand and exponent, `significand · 2 ^
exponent`.  Below a power of two the neighbour is only half as far away, except at the bottom of the
range. -/
def Rounding.ofParts (significand : Nat) (exponent : Int) (atPowerOfTwo : Bool) : Rounding :=
  let up := Nat.pow 2 (exponent - 2).toNat
  { low := (4 * significand - if atPowerOfTwo then 1 else 2) * up
    value := 4 * significand * up
    high := (4 * significand + 2) * up
    denominator := Nat.pow 2 (2 - exponent).toNat
    closed := significand % 2 == 0 }

/-- The interval of the positive finite double with the given bits. -/
def Rounding.ofBits (bits : UInt64) : Rounding :=
  let fraction : Nat := bits.toNat % Nat.pow 2 52
  let biased : Nat := bits.toNat / Nat.pow 2 52 % Nat.pow 2 11
  if biased = 0 then ofParts fraction (-1074) false
  else ofParts (fraction + Nat.pow 2 52) ((biased : Int) - 1075) (fraction == 0 && biased != 1)

namespace Rounding

/-- Compares a decimal with a numerator over the interval's denominator. -/
def compare (r : Rounding) (decimal : Scaled) (numerator : Nat) : Ordering :=
  Ord.compare (decimal.digits * Nat.pow 10 decimal.scale.toNat * r.denominator)
    (numerator * Nat.pow 10 (-decimal.scale).toNat)

/-- Whether a decimal rounds to the double. -/
def holds (r : Rounding) (decimal : Scaled) : Bool :=
  let low := r.compare decimal r.low
  let high := r.compare decimal r.high
  (low == .gt || (r.closed && low == .eq)) && (high == .lt || (r.closed && high == .eq))

/-- The exponent of the leading digit: the greatest `e ≤ 400` for which `10 ^ e` does not exceed the
value, looked for from `e` downwards. -/
def leading (r : Rounding) : (steps : Nat) → (e : Int) → Int
  | 0, e => e
  | steps + 1, e => if r.compare ⟨1, e⟩ r.value != .gt then e else leading r steps (e - 1)

/-- The decimal just below the value on the grid of multiples of `10 ^ scale`. -/
def below (r : Rounding) (scale : Int) : Scaled :=
  ⟨r.value * Nat.pow 10 (-scale).toNat / (r.denominator * Nat.pow 10 scale.toNat), scale⟩

/-- The nearer to the value of two neighbours on a grid, an even digit winning a tie. -/
def nearer (r : Rounding) (lower upper : Scaled) : Scaled :=
  let middle : Scaled := ⟨10 * lower.digits + 5, lower.scale - 1⟩
  match r.compare middle r.value with
  | .gt => lower
  | .lt => upper
  | .eq => if lower.digits % 2 = 0 then lower else upper

/-- A decimal on the grid of multiples of `10 ^ scale` that rounds to the double. -/
def onGrid (r : Rounding) (scale : Int) : Option Scaled :=
  let lower := r.below scale
  let upper : Scaled := ⟨lower.digits + 1, scale⟩
  match r.holds lower, r.holds upper with
  | true, true => some (r.nearer lower upper)
  | true, false => some lower
  | false, true => some upper
  | false, false => none

/-- The first grid, from `scale` downwards, with a decimal that rounds to the double. -/
def search (r : Rounding) : (steps : Nat) → (scale : Int) → Scaled
  | 0, scale => r.below scale
  | steps + 1, scale => (r.onGrid scale).getD (search r steps (scale - 1))

end Rounding

/-- A decimal without the zeros at its end. -/
def Scaled.strip : (steps : Nat) → Scaled → Scaled
  | 0, s => s
  | steps + 1, s =>
    if s.digits ≠ 0 ∧ s.digits % 10 = 0 then strip steps ⟨s.digits / 10, s.scale + 1⟩ else s

/-- The shortest decimal of the positive finite double with the given bits.  Seventeen digits always
suffice. -/
def shortest (bits : UInt64) : Scaled :=
  let r := Rounding.ofBits bits
  (r.search 17 (r.leading 800 400)).strip 20

/-! ## Writing a double -/

/-- How a double is laid out: the least and the greatest leading exponent with which it is written
without an exponent. -/
structure Layout where
  least : Int
  greatest : Int

/-- Positional from `1e-5` up to below `1e16`. -/
def plainLayout : Layout := ⟨-5, 15⟩

/-- The digits of a decimal with a point `places` digits from the left. -/
def pointed (digits : List Char) (places : Int) : List Char :=
  if places ≤ 0 then ['0', '.'] ++ List.replicate (-places).toNat '0' ++ digits
  else
    let whole := digits.take places.toNat
    let fraction := digits.drop places.toNat
    whole ++ List.replicate (places.toNat - digits.length) '0' ++
      '.' :: (if fraction.isEmpty then ['0'] else fraction)

/-- A positive decimal as text.  An exponent always has a sign. -/
def Layout.write (layout : Layout) (decimal : Scaled) : List Char :=
  let digits := Nat.toDigits 10 decimal.digits
  let exponent := decimal.scale + digits.length - 1
  if layout.least ≤ exponent ∧ exponent ≤ layout.greatest then pointed digits (exponent + 1)
  else
    let tail := (if digits.length ≤ 1 then [] else '.' :: digits.drop 1)
    digits.take 1 ++ tail ++ ['e', if exponent < 0 then '-' else '+'] ++
      Nat.toDigits 10 exponent.natAbs

/-- A finite double as text: always with a point or an exponent, and with a sign only if it is
negative. -/
def ofFloat (layout : Layout) (x : Float) : String :=
  let bits : Nat := x.toBits.toNat
  let sign := if bits / Nat.pow 2 63 = 1 then ['-'] else []
  let size := UInt64.ofNat (bits % Nat.pow 2 63)
  String.ofList (sign ++ if size = 0 then ['0', '.', '0'] else layout.write (shortest size))

end EnumMigration.Decimal
