import EnumMigration.Text.Blank

/-!
# Points in time

A timestamp is a point in time by the calendar and the clock of UTC, exact to the nanosecond.  A
minute may have a leap second at its end, which is second 60.  Timestamps are written in the format
of RFC 3339 with as many places of the second as it takes, in groups of three.
-/

namespace EnumMigration

/-- Whether a year has a leap day. -/
def isLeapYear (year : Int) : Bool := year % 4 == 0 && (year % 100 != 0 || year % 400 == 0)

/-- The number of days of a month, which counts from one. -/
def daysInMonth (year : Int) (month : Nat) : Nat :=
  if month = 2 then (if isLeapYear year then 29 else 28)
  else if month = 4 ∨ month = 6 ∨ month = 9 ∨ month = 11 then 30
  else 31

/-- A date and a time of day. -/
structure Moment where
  year : Int
  month : Nat
  day : Nat
  hour : Nat
  minute : Nat
  second : Nat
  nano : Nat
deriving DecidableEq, Repr

namespace Moment

/-- Whether every part of a moment is in its range. -/
def Valid (moment : Moment) : Prop :=
  (1 ≤ moment.month ∧ moment.month ≤ 12) ∧
    (1 ≤ moment.day ∧ moment.day ≤ daysInMonth moment.year moment.month) ∧
    moment.hour < 24 ∧ moment.minute < 60 ∧ moment.second ≤ 60 ∧ moment.nano < Nat.pow 10 9

instance (moment : Moment) : Decidable moment.Valid := inferInstanceAs (Decidable (_ ∧ _ ∧ _))

/-- The same time on the day after. -/
def nextDay (moment : Moment) : Moment :=
  if moment.day < daysInMonth moment.year moment.month then { moment with day := moment.day + 1 }
  else if moment.month < 12 then { moment with month := moment.month + 1, day := 1 }
  else { moment with year := moment.year + 1, month := 1, day := 1 }

/-- The same time on the day before. -/
def previousDay (moment : Moment) : Moment :=
  if 1 < moment.day then { moment with day := moment.day - 1 }
  else if 1 < moment.month then
    { moment with month := moment.month - 1, day := daysInMonth moment.year (moment.month - 1) }
  else { moment with year := moment.year - 1, month := 12, day := 31 }

/-- The moment a number of minutes earlier, less than a day away. -/
def minutesEarlier (moment : Moment) (minutes : Int) : Moment :=
  let total : Int := 60 * moment.hour + moment.minute - minutes
  let shifted : Moment :=
    { moment with hour := (total % 1440 / 60).toNat, minute := (total % 1440 % 60).toNat }
  if total < 0 then shifted.previousDay
  else if 1440 ≤ total then shifted.nextDay
  else shifted

end Moment

/-- A point in time. -/
structure Timestamp extends Moment where
  valid : toMoment.Valid
deriving DecidableEq

/-! ## Writing timestamps -/

/-- A number with zeros in front up to a width. -/
def padded (width n : Nat) : List Char :=
  let digits := Nat.toDigits 10 n
  List.replicate (width - digits.length) '0' ++ digits

/-- A year of four digits, with a sign if four digits are not enough. -/
def yearText (year : Int) : List Char :=
  if 0 ≤ year ∧ year ≤ 9999 then padded 4 year.toNat
  else (if year < 0 then '-' else '+') :: padded 4 year.natAbs

/-- A fraction of a second, with the fewest places of zero, three, six and nine that lose nothing.
-/
def fractionText (nano : Nat) : List Char :=
  if nano = 0 then []
  else if nano % Nat.pow 10 6 = 0 then '.' :: padded 3 (nano / Nat.pow 10 6)
  else if nano % Nat.pow 10 3 = 0 then '.' :: padded 6 (nano / Nat.pow 10 3)
  else '.' :: padded 9 nano

/-- A moment of UTC as text. -/
def Moment.text (moment : Moment) : List Char :=
  yearText moment.year ++ '-' :: padded 2 moment.month ++ '-' :: padded 2 moment.day ++
    'T' :: padded 2 moment.hour ++ ':' :: padded 2 moment.minute ++ ':' :: padded 2 moment.second ++
    fractionText moment.nano ++ ['Z']

end EnumMigration
