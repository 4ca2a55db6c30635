/-!
UTC dates and times as text, from seconds since 1970. Years are counted from March, so that the
leap day is the last day of a year; 400 years have 146097 days.
-/
namespace AgentWorkbench

structure CalendarDate where
  year : Int
  month : Int
  day : Int
  deriving DecidableEq, Repr, Inhabited

namespace CalendarDate

/-- The date that lies so many days after 1970-01-01. -/
def ofDays (days : Int) : CalendarDate :=
  let z := days + 719468
  let era := z.fdiv 146097
  let dayOfEra := z - era * 146097
  let yearOfEra :=
    (dayOfEra - dayOfEra / 1460 + dayOfEra / 36524 - dayOfEra / 146096) / 365
  let dayOfYear := dayOfEra - (365 * yearOfEra + yearOfEra / 4 - yearOfEra / 100)
  let fromMarch := (5 * dayOfYear + 2) / 153
  let month := if fromMarch < 10 then fromMarch + 3 else fromMarch - 9
  { year := yearOfEra + era * 400 + (if month ≤ 2 then 1 else 0)
    month
    day := dayOfYear - (153 * fromMarch + 2) / 5 + 1 }

end CalendarDate

namespace Timestamp

/-- The digits of a number, with zeros in front up to this width. -/
def padded (width : Nat) (n : Int) : String :=
  let digits := Nat.toDigits 10 n.toNat
  String.ofList (List.replicate (width - digits.length) '0' ++ digits)

def secondsPerDay : Int := 86400

def clock (seconds : Int) : String :=
  padded 2 (seconds / 3600) ++ ":" ++ padded 2 (seconds % 3600 / 60) ++ ":" ++
    padded 2 (seconds % 60)

def formatUtc (seconds : Int) : String :=
  let date := CalendarDate.ofDays (seconds.fdiv secondsPerDay)
  padded 4 date.year ++ "-" ++ padded 2 date.month ++ "-" ++ padded 2 date.day ++ " " ++
    clock (seconds.fmod secondsPerDay)

end Timestamp

end AgentWorkbench
