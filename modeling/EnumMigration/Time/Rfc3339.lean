import EnumMigration.Time.Timestamp
import EnumMigration.Json.Codec

/-!
# Reading timestamps

Timestamps are read more freely than they are written: blanks may stand before every number and
before every mark, numbers may have fewer digits, the year may have a sign, a space may stand for
the `T`, letters may be small, and the time may be given for any zone.
-/

namespace EnumMigration

/-- Why a text is no timestamp. -/
inductive TimeFault where
  | outOfRange
  | tooShort
  | invalid
  | tooLong
  | impossible
deriving DecidableEq, Repr

/-- The wording of a fault. -/
def TimeFault.message : TimeFault → String
  | outOfRange => "input is out of range"
  | tooShort => "premature end of input"
  | invalid => "input contains invalid characters"
  | tooLong => "trailing input"
  | impossible => "no possible date and time matching input"

namespace Time

/-- Reads something off the front of a text and returns the rest. -/
abbrev Reader (α : Type) := List Char → Except TimeFault (α × List Char)

/-- A number of at least one digit and at most `limit` digits. -/
def number (limit : Nat) : Reader Nat := fun text =>
  match text with
  | [] => .error .tooShort
  | c :: _ =>
    if c.isDigit then
      let digits := (text.take limit).takeWhile Char.isDigit
      let value := Json.digitsValue digits
      if value < Nat.pow 2 63 then .ok (value, text.drop digits.length) else .error .outOfRange
    else .error .invalid

/-- A number of at most two digits within bounds, after any blanks. -/
def part (least greatest : Nat) : Reader Nat := fun text => do
  let (value, rest) ← number 2 (trimStart text)
  if least ≤ value ∧ value ≤ greatest then .ok (value, rest) else .error .outOfRange

/-- A given mark, after any blanks. -/
def mark (c : Char) : Reader Unit := fun text =>
  match trimStart text with
  | [] => .error .tooShort
  | first :: rest => if first = c then .ok ((), rest) else .error .invalid

/-- A year of four digits, or with a sign and any number of digits. -/
def year : Reader Int := fun text =>
  let bounded (value : Int) (rest : List Char) : Except TimeFault (Int × List Char) :=
    if -Int.pow 2 31 ≤ value ∧ value < Int.pow 2 31 then .ok (value, rest) else .error .outOfRange
  match trimStart text with
  | '-' :: rest => do
    let (value, rest) ← number rest.length.succ rest
    bounded (-value) rest
  | '+' :: rest => do
    let (value, rest) ← number rest.length.succ rest
    bounded value rest
  | rest => do
    let (value, rest) ← number 4 rest
    bounded value rest

/-- The sign between the date and the time of day. -/
def dayMark : Reader Unit
  | [] => .error .tooShort
  | c :: rest => if c = 'T' ∨ c = 't' ∨ c = ' ' then .ok ((), rest) else .error .invalid

/-- The fraction of a second in nanoseconds, if a point stands there.  Digits behind the ninth do
not count. -/
def fraction : Reader Nat
  | '.' :: rest => do
    let (value, tail) ← number 9 rest
    .ok (value * Nat.pow 10 (9 - (rest.length - tail.length)), tail.dropWhile Char.isDigit)
  | rest => .ok (0, rest)

/-- Two digits in a row.  A single character is too short unless it takes more than one byte. -/
def twoDigits : Reader (Nat × Nat)
  | a :: b :: rest =>
    if a.isDigit ∧ b.isDigit then .ok ((Json.digitValue a, Json.digitValue b), rest) else .error .invalid
  | [a] => .error (if a.utf8Size = 1 then .tooShort else .invalid)
  | [] => .error .tooShort

/-- The hours and minutes of a zone, in minutes. -/
def zoneSize : Reader Nat := fun text => do
  let ((h₁, h₂), rest) ← twoDigits text
  let ((m₁, m₂), rest) ← twoDigits (rest.dropWhile fun c => c == ':' || isBlank c)
  if m₁ < 6 then .ok (60 * (10 * h₁ + h₂) + 10 * m₁ + m₂, rest) else .error .outOfRange

/-- A zone as the minutes by which its clocks are ahead of UTC. -/
def zone : Reader Int
  | [] => .error .tooShort
  | c :: rest =>
    let three := (c :: rest).take 3
    if three.map Char.toLower = ['u', 't', 'c'] then .ok (0, rest.drop 2)
    else if c = 'Z' ∨ c = 'z' then .ok (0, rest)
    else if c = '+' then do
      let (size, rest) ← zoneSize rest
      .ok ((size : Int), rest)
    else if c = '-' ∨ c = '−' then do
      let (size, rest) ← zoneSize rest
      .ok (-(size : Int), rest)
    else .error .invalid

/-- A moment by the clocks of its zone, and the zone. -/
def moment : Reader (Moment × Int) := fun text => do
  let (year, text) ← year text
  let (_, text) ← mark '-' text
  let (month, text) ← part 1 12 text
  let (_, text) ← mark '-' text
  let (day, text) ← part 1 31 text
  let (_, text) ← dayMark text
  let (hour, text) ← part 0 23 text
  let (_, text) ← mark ':' text
  let (minute, text) ← part 0 59 text
  let (_, text) ← mark ':' text
  let (second, text) ← part 0 60 text
  let (nano, text) ← fraction text
  let (zone, text) ← zone (trimStart text)
  .ok (({ year, month, day, hour, minute, second, nano }, zone), text)

/-- The years that dates can have. -/
def isYear (year : Int) : Prop := -262143 ≤ year ∧ year ≤ 262142

instance (year : Int) : Decidable (isYear year) := inferInstanceAs (Decidable (_ ∧ _))

end Time

namespace Timestamp

/-- The timestamp that a text stands for. -/
def read (text : String) : Except TimeFault Timestamp := do
  let ((moment, zone), rest) ← Time.moment text.toList
  if !isBlankText rest then .error .tooLong
  else if !(decide (Time.isYear moment.year) && decide moment.Valid) then .error .outOfRange
  else if ¬zone.natAbs < 1440 then .error .outOfRange
  else
    let utc := moment.minutesEarlier zone
    if h : Time.isYear utc.year ∧ utc.Valid then .ok ⟨utc, h.2⟩ else .error .impossible

open Json in
/-- Timestamps are written as strings. -/
def codec : Codec Timestamp :=
  ⟨fun document =>
    match Decoder.stringAs .time document with
    | .error e => .error e
    | .ok (text, rest) =>
      match read text with
      | .ok timestamp => .ok (timestamp, rest)
      | .error fault => .error (.mismatch (.invalidContent fault.message)),
   fun timestamp => [.string (some (String.ofList timestamp.toMoment.text))]⟩

end Timestamp

end EnumMigration
