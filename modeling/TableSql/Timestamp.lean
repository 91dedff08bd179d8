import Std.Time.DateTime
import TableSql.Decimal.Digits

/-!
# Timestamps

The current time stands in a statement as a text: date and time of day in UTC with milliseconds,
such as `2000-01-01T00:00:00.000Z`.

## Main definitions

* `Timestamp.text` — the text of a number of milliseconds since the start of 1970.
-/

namespace TableSql.Timestamp

/-- A number in decimal with at least so many digits. -/
def digits (count n : Nat) : String :=
  let ds := Decimal.digits n
  String.ofList (List.replicate (count - ds.length) '0' ++ ds)

/-- The text of a date. -/
def date (d : Std.Time.PlainDate) : String :=
  digits 4 d.year.toInt.toNat ++ "-" ++ digits 2 d.month.val.toNat ++ "-" ++
    digits 2 d.day.val.toNat

/-- The text of a time of day, given in milliseconds. -/
def timeOfDay (milliseconds : Nat) : String :=
  let seconds := milliseconds / 1000
  digits 2 (seconds / 3600) ++ ":" ++ digits 2 (seconds / 60 % 60) ++ ":" ++
    digits 2 (seconds % 60) ++ "." ++ digits 3 (milliseconds % 1000)

/-- The number of milliseconds of a day. -/
def dayLength : Nat := 86400000

/-- The text of a number of milliseconds since the start of 1970. -/
def text (milliseconds : Nat) : String :=
  date (.ofEpochDay (.ofInt (milliseconds / dayLength))) ++ "T" ++
    timeOfDay (milliseconds % dayLength) ++ "Z"

end TableSql.Timestamp
