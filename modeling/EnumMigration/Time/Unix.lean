import EnumMigration.Time.Timestamp

/-!
# Timestamps from a count of nanoseconds

System clocks count the nanoseconds since the beginning of 1970.
-/

namespace EnumMigration

/-- The beginning of 1970. -/
def Timestamp.epoch : Timestamp := ⟨⟨1970, 1, 1, 0, 0, 0, 0⟩, by decide⟩

/-- The first moment of the day that is a number of days after the beginning of 1970.  The days are
counted from the first of March in year zero, so that a leap day is the last day of its year. -/
def Moment.ofDay (day : Nat) : Moment :=
  let fromMarch := day + 719468
  let era := fromMarch / 146097
  let dayOfEra := fromMarch % 146097
  let yearOfEra := (dayOfEra - dayOfEra / 1460 + dayOfEra / 36524 - dayOfEra / 146096) / 365
  let dayOfYear := dayOfEra - (365 * yearOfEra + yearOfEra / 4 - yearOfEra / 100)
  let marchMonth := (5 * dayOfYear + 2) / 153
  let month := if marchMonth < 10 then marchMonth + 3 else marchMonth - 9
  { year := 400 * era + yearOfEra + (if month ≤ 2 then 1 else 0)
    month
    day := dayOfYear - (153 * marchMonth + 2) / 5 + 1
    hour := 0
    minute := 0
    second := 0
    nano := 0 }

/-- The timestamp that is a number of nanoseconds after the beginning of 1970. -/
def Timestamp.ofNanos (nanos : Nat) : Timestamp :=
  let seconds := nanos / Nat.pow 10 9
  let moment := { Moment.ofDay (seconds / 86400) with
    hour := seconds % 86400 / 3600
    minute := seconds % 3600 / 60
    second := seconds % 60
    nano := nanos % Nat.pow 10 9 }
  if valid : moment.Valid then ⟨moment, valid⟩ else .epoch

end EnumMigration
