import AgentWorkbench.Store.Timestamp

/-!
The date and time that a database writes for the current moment. Dates are found from Julian day
numbers, which count days from noon of a day long before the calendar's first.
-/
namespace AgentWorkbench.JulianDay

/-- Milliseconds from the start of the count to the start of 1970. -/
def epoch : Int := 210866760000000

def millisecondsPerDay : Int := 86400000

/-- The last moment that has a date, the end of the year 9999. -/
def lastMoment : Int := 464269060799999

def date (number : Int) : CalendarDate :=
  let century := (4 * number + 128179) / 146097 - 52
  let a := number + 1 + century - (century + 100) / 4 + 25
  let b := a + 1524
  let c := (20 * b - 2442) / 7305
  let d := 36525 * c / 100
  let e := (b - d) * 10000 / 306001
  let month := if e < 14 then e - 1 else e - 13
  { year := if month > 2 then c - 4716 else c - 4715
    month
    day := b - d - 306001 * e / 10000 }

/-- A year of four digits, with a sign before it if it is negative. -/
def yearText (year : Int) : String :=
  if year < 0 then "-" ++ Timestamp.padded 4 (-year) else Timestamp.padded 4 year

def currentTimestamp (seconds : Int) : String :=
  let moment := epoch + seconds * 1000
  if moment > lastMoment then "0000-00-00 00:00:00"
  else
    let shifted := moment + millisecondsPerDay / 2
    let day := date (shifted / millisecondsPerDay)
    yearText day.year ++ "-" ++ Timestamp.padded 2 day.month ++ "-" ++
      Timestamp.padded 2 day.day ++ " " ++ Timestamp.clock (shifted % millisecondsPerDay / 1000)

end AgentWorkbench.JulianDay
