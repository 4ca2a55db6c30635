import AgentWorkbench.Store.JulianDay
import Mathlib.Logic.Basic

/-!
Two ways to find the date of a day, one from the cycles of the calendar and one from Julian day
numbers, give the same date. Both are compared with a day that is given by its cycles.
-/
namespace AgentWorkbench

/-- A day by the cycles it lies in: of 400 years, of 100, of 4, and of one year, each from March.
The leap day is the last of its year. -/
structure MarchDay where
  era : Int
  century : Int
  cycle : Int
  year : Int
  day : Int
  century_mem : 0 ≤ century ∧ century ≤ 3
  cycle_mem : 0 ≤ cycle ∧ cycle ≤ 24
  year_mem : 0 ≤ year ∧ year ≤ 3
  day_mem : 0 ≤ day ∧ day ≤ 365
  leap : day = 365 → year = 3 ∧ (cycle = 24 → century = 3)

namespace MarchDay

/-- Days after the first of March of the year 0. -/
def number (d : MarchDay) : Int :=
  146097 * d.era + 36524 * d.century + 1461 * d.cycle + 365 * d.year + d.day

/-- Years from March after the year 0. -/
def years (d : MarchDay) : Int := 400 * d.era + 100 * d.century + 4 * d.cycle + d.year

theorem exists_number_eq (n : Int) : ∃ d : MarchDay, d.number = n := by
  let era := n / 146097
  let inEra := n - 146097 * era
  let century := min (inEra / 36524) 3
  let inCentury := inEra - 36524 * century
  let cycle := inCentury / 1461
  let inCycle := inCentury - 1461 * cycle
  let year := min (inCycle / 365) 3
  have era_mem : 0 ≤ inEra ∧ inEra ≤ 146096 := by omega
  have century_mem : 0 ≤ century ∧ century ≤ 3 := by omega
  have inCentury_mem : 0 ≤ inCentury ∧ inCentury ≤ 36524 ∧ (century < 3 → inCentury ≤ 36523) := by
    omega
  have cycle_mem : 0 ≤ cycle ∧ cycle ≤ 24 := by omega
  have inCycle_mem : 0 ≤ inCycle ∧ inCycle ≤ 1460 := by omega
  have year_mem : 0 ≤ year ∧ year ≤ 3 := by omega
  exact ⟨{ era, century, cycle, year, day := inCycle - 365 * year, century_mem, cycle_mem, year_mem
           day_mem := by omega
           leap := by omega }, by simp only [number]; omega⟩

/-- Days after the first of March of the year 0, at the first of March of a year. -/
def yearStart (years : Int) : Int := 365 * years + years / 4 - years / 100 + years / 400

theorem yearStart_mono {a b : Int} (h : a ≤ b) : yearStart a ≤ yearStart b := by
  simp only [yearStart]
  omega

theorem number_eq (d : MarchDay) : d.number = yearStart d.years + d.day := by
  obtain ⟨era, century, cycle, year, day, century_mem, cycle_mem, year_mem, day_mem, -⟩ := d
  simp only [number, years, yearStart]
  have fours : (400 * era + 100 * century + 4 * cycle + year) / 4 =
      100 * era + 25 * century + cycle := by
    omega
  have hundreds : (400 * era + 100 * century + 4 * cycle + year) / 100 = 4 * era + century := by
    omega
  have cycles : (400 * era + 100 * century + 4 * cycle + year) / 400 = era := by omega
  omega

theorem number_lt (d : MarchDay) : d.number < yearStart (d.years + 1) := by
  obtain ⟨era, century, cycle, year, day, century_mem, cycle_mem, year_mem, day_mem, leap⟩ := d
  simp only [number, years, yearStart]
  -- The next year begins a cycle, a century or an era exactly if this one is the last of its own.
  have fours : (400 * era + 100 * century + 4 * cycle + year + 1) / 4 =
      100 * era + 25 * century + cycle + if year = 3 then 1 else 0 := by
    split <;> omega
  have hundreds : (400 * era + 100 * century + 4 * cycle + year + 1) / 100 =
      4 * era + century + if cycle = 24 ∧ year = 3 then 1 else 0 := by
    split <;> omega
  have cycles : (400 * era + 100 * century + 4 * cycle + year + 1) / 400 =
      era + if century = 3 ∧ cycle = 24 ∧ year = 3 then 1 else 0 := by
    split <;> omega
  rw [fours, hundreds, cycles]
  clear fours hundreds cycles
  split <;> split <;> split <;> omega

/-- A later day lies in a later year, or behind in the same year. -/
theorem years_day_lt {a b : MarchDay} (h : a.number < b.number) :
    a.years < b.years ∨ a.years = b.years ∧ a.day < b.day := by
  have a_eq := a.number_eq
  have b_eq := b.number_eq
  have b_lt := b.number_lt
  have := a.day_mem
  rcases Int.lt_trichotomy a.years b.years with lt | eq | gt
  · exact .inl lt
  · rw [← eq] at b_eq
    exact .inr ⟨eq, by omega⟩
  · have := yearStart_mono (Int.add_one_le_of_lt gt)
    omega

end MarchDay

namespace CalendarDate

/-- The order of time on dates. -/
def Before (a b : CalendarDate) : Prop :=
  a.year < b.year ∨ a.year = b.year ∧ (a.month < b.month ∨ a.month = b.month ∧ a.day < b.day)

/-- Months from March. -/
def monthsFromMarch (day : Int) : Int := (5 * day + 2) / 153

/-- The date of a day that is given by years and days from March. -/
def ofYearDay (years day : Int) : CalendarDate :=
  let fromMarch := monthsFromMarch day
  let month := if fromMarch < 10 then fromMarch + 3 else fromMarch - 9
  { year := years + (if month ≤ 2 then 1 else 0)
    month
    day := day - (153 * fromMarch + 2) / 5 + 1 }

/-- The year of an era is found by taking off what its leap days add to 365 days a year. -/
theorem yearOfEra_eq {century cycle year day : Int} (century_mem : 0 ≤ century ∧ century ≤ 3)
    (cycle_mem : 0 ≤ cycle ∧ cycle ≤ 24) (year_mem : 0 ≤ year ∧ year ≤ 3)
    (day_mem : 0 ≤ day ∧ day ≤ 365) (leap : day = 365 → year = 3 ∧ (cycle = 24 → century = 3)) :
    let dayOfEra := 36524 * century + 1461 * cycle + 365 * year + day
    (dayOfEra - dayOfEra / 1460 + dayOfEra / 36524 - dayOfEra / 146096) / 365 =
      100 * century + 4 * cycle + year := by
  intro dayOfEra
  have leaps : dayOfEra / 1460 =
      25 * century + cycle + (24 * century + cycle + 365 * year + day) / 1460 := by
    omega
  have centuries : dayOfEra / 36524 - dayOfEra / 146096 = century := by
    by_cases last : 1461 * cycle + 365 * year + day = 36524
    · have : dayOfEra = 146096 := by omega
      rw [this]
      omega
    · have : dayOfEra / 36524 = century := by omega
      omega
  have carry : (24 * century + cycle + 365 * year + day) / 1460 = 0 ∧ day ≤ 364 ∨
      (24 * century + cycle + 365 * year + day) / 1460 = 1 ∧ year = 3 ∧ 1 ≤ day := by
    omega
  have split : dayOfEra - dayOfEra / 1460 + dayOfEra / 36524 - dayOfEra / 146096 =
      365 * (100 * century + 4 * cycle + year) + day -
        (24 * century + cycle + 365 * year + day) / 1460 := by
    omega
  rw [split]
  clear leaps centuries split
  generalize 100 * century + 4 * cycle + year = years
  omega

theorem ofDays_eq (d : MarchDay) : ofDays (d.number - 719468) = ofYearDay d.years d.day := by
  obtain ⟨era, century, cycle, year, day, century_mem, cycle_mem, year_mem, day_mem, leap⟩ := d
  let dayOfEra := 36524 * century + 1461 * cycle + 365 * year + day
  let yearOfEra := 100 * century + 4 * cycle + year
  have number_eq : 146097 * era + 36524 * century + 1461 * cycle + 365 * year + day - 719468 +
      719468 = 146097 * era + dayOfEra := by
    omega
  have era_eq : (146097 * era + dayOfEra).fdiv 146097 = era := by
    rw [Int.fdiv_eq_ediv_of_nonneg _ (by decide)]
    omega
  have inEra : 146097 * era + dayOfEra - era * 146097 = dayOfEra := by omega
  have years_eq : yearOfEra + era * 400 = 400 * era + 100 * century + 4 * cycle + year := by omega
  have day_eq : dayOfEra - (365 * yearOfEra + yearOfEra / 4 - yearOfEra / 100) = day := by omega
  have yearOfEra_eq : (dayOfEra - dayOfEra / 1460 + dayOfEra / 36524 - dayOfEra / 146096) / 365 =
      yearOfEra :=
    yearOfEra_eq century_mem cycle_mem year_mem day_mem leap
  refine congrArg₂ ofYearDay ?_ ?_
  · rw [MarchDay.number, number_eq, era_eq, inEra, yearOfEra_eq]
    exact years_eq
  · rw [MarchDay.number, number_eq, era_eq, inEra, yearOfEra_eq]
    exact day_eq

theorem monthsFromMarch_mem {day : Int} (h : 0 ≤ day ∧ day ≤ 365) :
    0 ≤ monthsFromMarch day ∧ monthsFromMarch day ≤ 11 ∧
      (153 * monthsFromMarch day + 2) / 5 ≤ day ∧
      day < (153 * monthsFromMarch day + 2) / 5 + 31 := by
  simp only [monthsFromMarch]
  omega

theorem ofYearDay_mem {day : Int} (h : 0 ≤ day ∧ day ≤ 365) (years : Int) :
    let date := ofYearDay years day
    1 ≤ date.month ∧ date.month ≤ 12 ∧ 1 ≤ date.day ∧ date.day ≤ 31 := by
  obtain ⟨months_nonneg, months_le, start_le, lt_stop⟩ := monthsFromMarch_mem h
  refine ⟨?_, ?_, ?_, ?_⟩ <;> simp only [ofYearDay]
  · split <;> omega
  · split <;> omega
  · omega
  · omega

theorem ofYearDay_before {years years' day day' : Int} (h : 0 ≤ day ∧ day ≤ 365)
    (h' : 0 ≤ day' ∧ day' ≤ 365) (later : years < years' ∨ years = years' ∧ day < day') :
    (ofYearDay years day).Before (ofYearDay years' day') := by
  have mem := monthsFromMarch_mem h
  have mem' := monthsFromMarch_mem h'
  have months_le (lt : day < day') : monthsFromMarch day ≤ monthsFromMarch day' := by
    simp only [monthsFromMarch]
    omega
  simp only [Before, ofYearDay]
  obtain lt | ⟨rfl, lt⟩ := later
  · omega
  · have := months_le lt
    omega

theorem ofDays_mem (days : Int) :
    1 ≤ (ofDays days).month ∧ (ofDays days).month ≤ 12 ∧
      1 ≤ (ofDays days).day ∧ (ofDays days).day ≤ 31 := by
  obtain ⟨d, d_eq⟩ := MarchDay.exists_number_eq (days + 719468)
  rw [show days = d.number - 719468 by omega, ofDays_eq]
  exact ofYearDay_mem d.day_mem d.years

theorem ofDays_before {m n : Int} (h : m < n) : (ofDays m).Before (ofDays n) := by
  obtain ⟨a, a_eq⟩ := MarchDay.exists_number_eq (m + 719468)
  obtain ⟨b, b_eq⟩ := MarchDay.exists_number_eq (n + 719468)
  rw [show m = a.number - 719468 by omega, show n = b.number - 719468 by omega, ofDays_eq,
    ofDays_eq]
  exact ofYearDay_before a.day_mem b.day_mem (MarchDay.years_day_lt (by omega))

theorem ofDays_year_mono {m n : Int} (h : m ≤ n) : (ofDays m).year ≤ (ofDays n).year := by
  obtain rfl | lt := Int.le_iff_eq_or_lt.mp h
  · exact Int.le_refl _
  · have := ofDays_before lt
    rw [Before] at this
    omega

end CalendarDate

namespace JulianDay

/-- The date of a day that is given by years and by days in the count of Julian years. -/
def ofCount (c days : Int) : CalendarDate :=
  let e := days * 10000 / 306001
  let month := if e < 14 then e - 1 else e - 13
  { year := if month > 2 then c - 4716 else c - 4715
    month
    day := days - 306001 * e / 10000 }

theorem ofCount_eq (years : Int) {day : Int} (h : 0 ≤ day ∧ day ≤ 365) :
    ofCount (years + 4716) (day + 123) = CalendarDate.ofYearDay years day := by
  have mem := CalendarDate.monthsFromMarch_mem h
  -- The count of months starts four months before March.
  have months : (day + 123) * 10000 / 306001 = CalendarDate.monthsFromMarch day + 4 := by
    simp only [CalendarDate.monthsFromMarch]
    omega
  simp only [ofCount, CalendarDate.ofYearDay, CalendarDate.mk.injEq]
  rw [months]
  omega

theorem date_eq (d : MarchDay) :
    date (d.number + 1721120) = CalendarDate.ofYearDay d.years d.day := by
  obtain ⟨era, century, cycle, year, day, century_mem, cycle_mem, year_mem, day_mem, leap⟩ := d
  let inCentury := 1461 * cycle + 365 * year + day
  -- The year in which the count of Julian years starts is 4716 years before the year 0.
  let c := 400 * era + 100 * century + 4 * cycle + year + 4716
  have inCentury_mem : 0 ≤ inCentury ∧ inCentury ≤ 36524 ∧ (inCentury = 36524 → century = 3) := by
    omega
  have century_eq : (4 * (146097 * era + 36524 * century + inCentury + 1721120) + 128179) / 146097 -
      52 = 4 * era + century - 4 := by
    clear_value inCentury
    omega
  have leaps : c / 4 = 100 * era + 25 * century + cycle + 1179 := by omega
  have b_eq : 146097 * era + 36524 * century + inCentury + 1721120 + 1 + (4 * era + century - 4) -
      (4 * era + century - 4 + 100) / 4 + 25 + 1524 = 365 * c + c / 4 + day + 123 := by
    have : (4 * era + century - 4 + 100) / 4 = era + 24 := by omega
    omega
  have c_eq : (20 * (365 * c + c / 4 + day + 123) - 2442) / 7305 = c := by
    rw [leaps]
    omega
  have d_eq : 36525 * c / 100 = 365 * c + c / 4 := by omega
  have number_eq : 146097 * era + 36524 * century + 1461 * cycle + 365 * year + day =
      146097 * era + 36524 * century + inCentury := by
    omega
  rw [← ofCount_eq _ day_mem]
  refine congrArg₂ ofCount ?_ ?_
  · rw [MarchDay.number, number_eq, century_eq, b_eq, c_eq, MarchDay.years]
  · rw [MarchDay.number, number_eq, century_eq, b_eq, c_eq, d_eq]
    omega

end JulianDay
end AgentWorkbench
