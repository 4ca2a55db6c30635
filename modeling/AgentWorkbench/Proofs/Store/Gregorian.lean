import AgentWorkbench.Proofs.Store.Timestamp
import AgentWorkbench.Proofs.Text.Encoding
import Mathlib.Logic.Function.Iterate

/-!
The calendar day by day. Each day has the date that follows the one before it, and dates and times
are written in digits of fixed widths, so the octets of the texts are ordered as the times are.
-/
namespace AgentWorkbench

namespace CalendarDate

/-! The Gregorian calendar. -/

/-- The year has a leap day. -/
def IsLeap (year : Int) : Prop := 4 ∣ year ∧ (100 ∣ year → 400 ∣ year)

instance : DecidablePred IsLeap := fun _ => inferInstanceAs (Decidable (_ ∧ _))

def monthLength (year month : Int) : Int :=
  if month = 2 then if IsLeap year then 29 else 28
  else if month = 4 ∨ month = 6 ∨ month = 9 ∨ month = 11 then 30
  else 31

/-- The month and the day are ones of the calendar. -/
structure Valid (date : CalendarDate) : Prop where
  month_mem : 1 ≤ date.month ∧ date.month ≤ 12
  day_mem : 1 ≤ date.day ∧ date.day ≤ monthLength date.year date.month

/-- The date of the next day. -/
def next (date : CalendarDate) : CalendarDate :=
  if date.day < monthLength date.year date.month then { date with day := date.day + 1 }
  else if date.month < 12 then { date with month := date.month + 1, day := 1 }
  else { year := date.year + 1, month := 1, day := 1 }

/-- The date so many days after 1970-01-01, one day after the other. -/
def dateAfter (days : Nat) : CalendarDate := next^[days] { year := 1970, month := 1, day := 1 }

theorem one_le_monthLength (year month : Int) : 1 ≤ monthLength year month := by
  rw [monthLength]
  split
  · split <;> decide
  · split <;> decide

theorem Valid.next {date : CalendarDate} (h : date.Valid) : date.next.Valid := by
  obtain ⟨month_mem, day_mem⟩ := h
  rw [CalendarDate.next]
  split
  · next inside =>
      exact ⟨month_mem, Int.le_add_one day_mem.1, Int.add_one_le_of_lt inside⟩
  · split
    · next before =>
        exact ⟨⟨Int.le_add_one month_mem.1, Int.add_one_le_of_lt before⟩, Int.le_refl 1,
          one_le_monthLength _ _⟩
    · exact ⟨⟨Int.le_refl 1, show (1 : Int) ≤ 12 by decide⟩, Int.le_refl 1, one_le_monthLength _ _⟩

theorem dateAfter_valid (days : Nat) : (dateAfter days).Valid := by
  induction days with
  | zero => exact ⟨by decide, by decide⟩
  | succ days ih =>
      rw [dateAfter, Function.iterate_succ_apply']
      exact ih.next

/-! Years from March. -/

theorem yearStart_succ (years : Int) : MarchDay.yearStart (years + 1) =
    MarchDay.yearStart years + 365 + if IsLeap (years + 1) then 1 else 0 := by
  by_cases leap : IsLeap (years + 1)
  · rw [if_pos leap]
    simp only [MarchDay.yearStart]
    rw [IsLeap] at leap
    omega
  · rw [if_neg leap]
    simp only [MarchDay.yearStart]
    rw [IsLeap] at leap
    omega

/-- The next day is in the same year, or the first of March of the next one after a leap day or,
where there is none, the day before it. -/
theorem exists_next (d : MarchDay) : ∃ d' : MarchDay, d'.number = d.number + 1 ∧
    (d'.years = d.years ∧ d'.day = d.day + 1 ∧ (d.day = 364 → IsLeap (d.years + 1)) ∨
      d'.years = d.years + 1 ∧ d'.day = 0 ∧
        d.day = 364 + if IsLeap (d.years + 1) then 1 else 0) := by
  obtain ⟨d', number⟩ := MarchDay.exists_number_eq (d.number + 1)
  refine ⟨d', number, ?_⟩
  have start := d.number_eq
  have start' := d'.number_eq
  have stop := d.number_lt
  have stop' := d'.number_lt
  have length := yearStart_succ d.years
  obtain later | ⟨same, later⟩ := MarchDay.years_day_lt (a := d) (b := d') (by omega)
  · have := MarchDay.yearStart_mono (Int.add_one_le_of_lt later)
    have := d'.day_mem
    have years : d'.years = d.years + 1 := by
      by_contra ne
      have := MarchDay.yearStart_mono (show d.years + 1 + 1 ≤ d'.years by omega)
      have := yearStart_succ (d.years + 1)
      split at this <;> omega
    exact .inr ⟨years, by omega, by omega⟩
  · rw [← same] at start' stop'
    refine .inl ⟨same.symm, by omega, fun last => ?_⟩
    by_contra common
    rw [if_neg common] at length
    omega

/-- The date so many years later. -/
def later (years : Int) (date : CalendarDate) : CalendarDate :=
  { date with year := date.year + years }

theorem ofYearDay_eq_later (years day : Int) :
    ofYearDay years day = (ofYearDay 0 day).later years := by
  simp only [ofYearDay, later, Int.zero_add]
  rw [Int.add_comm]

theorem next_later {date : CalendarDate} (h : date.month ≠ 2 ∨ date.day < 28) (years : Int) :
    (date.later years).next = date.next.later years := by
  have ends : date.day < monthLength (date.year + years) date.month ↔
      date.day < monthLength date.year date.month := by
    by_cases february : date.month = 2
    · have := h.resolve_left (fun h => h february)
      rw [monthLength, monthLength, if_pos february, if_pos february]
      split <;> split <;> omega
    · rw [monthLength, monthLength, if_neg february, if_neg february]
  by_cases inside : date.day < monthLength date.year date.month
  · simp [next, later, ends, inside]
  · by_cases before : date.month < 12
    · simp [next, later, ends, inside, before]
    · simp [next, later, ends, inside, before, Int.add_right_comm]

theorem ofYearDay_next {day : Int} (h : 0 ≤ day ∧ day < 364) (years : Int) :
    ofYearDay years (day + 1) = (ofYearDay years day).next := by
  -- No day before the 28th of February depends on the year, so the days of one year are looked at.
  have first : ∀ n < 364, ((ofYearDay 0 (n : Nat)).month ≠ 2 ∨ (ofYearDay 0 n).day < 28) ∧
      ofYearDay 0 (n + 1 : Int) = (ofYearDay 0 n).next := by
    decide +kernel
  obtain ⟨n, rfl⟩ := Int.eq_ofNat_of_zero_le h.1
  obtain ⟨early, step⟩ := first n (by omega)
  rw [ofYearDay_eq_later, step, ofYearDay_eq_later years, next_later early]

/-- Each day has the date after the one of the day before. -/
theorem ofDays_succ (days : Int) : ofDays (days + 1) = (ofDays days).next := by
  obtain ⟨d, number⟩ := MarchDay.exists_number_eq (days + 719468)
  obtain ⟨d', number', step⟩ := exists_next d
  rw [show days + 1 = d'.number - 719468 by omega, show days = d.number - 719468 by omega,
    ofDays_eq, ofDays_eq]
  have mem := d.day_mem
  have mem' := d'.day_mem
  have february (n : Int) : monthLength n 2 = if IsLeap n then 29 else 28 := if_pos rfl
  obtain ⟨years, day, leap⟩ | ⟨years, day, last⟩ := step
  · rw [years, day]
    obtain early | last := Int.lt_or_eq_of_le (show d.day ≤ 364 by omega)
    · exact ofYearDay_next ⟨mem.1, early⟩ _
    · rw [last]
      simp [ofYearDay, monthsFromMarch, next, february, leap last]
  · rw [years, day, last]
    split
    · next leap => simp [ofYearDay, monthsFromMarch, next, february, leap]
    · next common => simp [ofYearDay, monthsFromMarch, next, february, common]

theorem dateAfter_eq (days : Nat) : dateAfter days = ofDays days := by
  induction days with
  | zero => rfl
  | succ days ih =>
      rw [dateAfter, Function.iterate_succ_apply', ← dateAfter, ih, Int.natCast_succ, ofDays_succ]

theorem ofDays_year_le {days : Nat} (h : (ofDays days).year ≤ 9999) :
    (days : Int) ≤ Timestamp.lastSecond / Timestamp.secondsPerDay := by
  by_contra gt
  have first : (ofDays (Timestamp.lastSecond / Timestamp.secondsPerDay + 1)).year = 10000 :=
    rfl
  have := ofDays_year_mono (Int.add_one_le_of_lt (Int.not_le.mp gt))
  omega

end CalendarDate

namespace Timestamp

open CalendarDate

/-! Dates and times in digits. -/

/-- The text is the number in so many decimal digits. -/
structure Digits (width : Nat) (n : Int) (text : List Char) : Prop where
  length : text.length = width
  digits : ∀ c ∈ text, c.isDigit = true
  value : (Nat.ofDigitChars 10 text 0 : Int) = n

/-- The text is the date, a blank, and the time of the day. -/
def Shows (text : List Char) (date : CalendarDate) (hour minute second : Int) : Prop :=
  ∃ years months days hours minutes seconds : List Char,
    text = years ++ '-' :: (months ++ '-' :: (days ++ ' ' :: (hours ++ ':' ::
      (minutes ++ ':' :: seconds)))) ∧
    Digits 4 date.year years ∧ Digits 2 date.month months ∧ Digits 2 date.day days ∧
    Digits 2 hour hours ∧ Digits 2 minute minutes ∧ Digits 2 second seconds

theorem digits_padded {width : Nat} (h : 0 < width) {n : Int} (mem : 0 ≤ n) (lt : n < 10 ^ width) :
    Digits width n (padded width n).toList := by
  obtain ⟨n, rfl⟩ := Int.eq_ofNat_of_zero_le mem
  refine ⟨length_padded h (by exact_mod_cast lt), fun c there => ?_, ?_⟩
  · rw [toList_padded] at there
    obtain there | there := List.mem_append.mp there
    · rw [List.eq_of_mem_replicate there]
      rfl
    · exact Nat.isDigit_of_mem_toDigits (by decide) (by decide) there
  · rw [toList_padded, Nat.ofDigitChars_append, Nat.ofDigitChars_replicate_zero, Int.toNat_natCast]
    simp [Nat.ofDigitChars_ten_toDigits]

theorem Shows.length {text : List Char} {date : CalendarDate} {hour minute second : Int}
    (h : Shows text date hour minute second) : text.length = 19 := by
  obtain ⟨years, months, days, hours, minutes, seconds, rfl, y, mo, d, h, mi, s⟩ := h
  simp only [List.length_append, List.length_cons, y.length, mo.length, d.length, h.length,
    mi.length, s.length]

theorem Digits.ascii {width : Nat} {n : Int} {text : List Char} (h : Digits width n text) :
    ∀ c ∈ text, c.toNat < 0x80 := by
  intro c mem
  obtain ⟨-, le⟩ := Char.isDigit_iff_toNat.mp (h.digits c mem)
  exact Nat.lt_of_le_of_lt le (by decide)

theorem Shows.ascii {text : List Char} {date : CalendarDate} {hour minute second : Int}
    (h : Shows text date hour minute second) : ∀ c ∈ text, c.toNat < 0x80 := by
  obtain ⟨years, months, days, hours, minutes, seconds, rfl, y, mo, d, h, mi, s⟩ := h
  simp only [List.forall_mem_append, List.forall_mem_cons]
  exact ⟨y.ascii, by decide, mo.ascii, by decide, d.ascii, by decide, h.ascii, by decide, mi.ascii,
    by decide, s.ascii⟩

/-- A time up to the year 9999 is written as its date and its time of the day. -/
theorem formatUtc_shows {seconds : Nat} (h : (dateAfter (seconds / 86400)).year ≤ 9999) :
    Shows (formatUtc seconds).toList (dateAfter (seconds / 86400))
      (seconds % 86400 / 3600 : Nat) (seconds % 86400 % 3600 / 60 : Nat)
      (seconds % 86400 % 60 : Nat) := by
  have days_eq : (seconds : Int).fdiv secondsPerDay = (seconds / 86400 : Nat) :=
    Int.fdiv_eq_ediv_of_nonneg _ (by decide)
  have rest_eq : (seconds : Int).fmod secondsPerDay = (seconds % 86400 : Nat) :=
    Int.fmod_eq_emod_of_nonneg _ (by decide)
  rw [dateAfter_eq] at h ⊢
  have year := ofDays_year_mem (Int.natCast_nonneg _) (ofDays_year_le h)
  obtain ⟨month_pos, month_le, day_pos, day_le⟩ := ofDays_mem (seconds / 86400 : Nat)
  simp only [formatUtc, days_eq, rest_eq, clock, String.toList_append, List.append_assoc]
  refine ⟨_, _, _, _, _, _, rfl, digits_padded (by decide) year.1 year.2,
    digits_padded (by decide) ?_ ?_, digits_padded (by decide) ?_ ?_,
    digits_padded (by decide) ?_ ?_, digits_padded (by decide) ?_ ?_,
    digits_padded (by decide) ?_ ?_⟩ <;> omega

/-- From 1970 to the end of the year 9999 a time is written as its date in the calendar and its time
of the day, and later times have greater texts, octet by octet. -/
theorem formatUtc_gregorian :
    (∀ seconds : Nat, (dateAfter (seconds / 86400)).year ≤ 9999 →
      (dateAfter (seconds / 86400)).Valid ∧ (formatUtc seconds).toList.length = 19 ∧
      ∃ hour minute second : Nat, hour < 24 ∧ minute < 60 ∧ second < 60 ∧
        seconds % 86400 = 3600 * hour + 60 * minute + second ∧
        Shows (formatUtc seconds).toList (dateAfter (seconds / 86400)) hour minute second) ∧
    ∀ earlier later : Nat, earlier < later → (dateAfter (later / 86400)).year ≤ 9999 →
      Text.Utf8.encode (formatUtc earlier).toList < Text.Utf8.encode (formatUtc later).toList := by
  constructor
  · intro seconds h
    have shows := formatUtc_shows h
    exact ⟨dateAfter_valid _, shows.length, _, _, _, by omega, by omega, by omega, by omega, shows⟩
  · intro earlier later lt h
    have last := h
    rw [dateAfter_eq] at last
    have le : (later : Int) ≤ lastSecond := by
      have := ofDays_year_le last
      simp only [lastSecond, secondsPerDay] at this ⊢
      omega
    have order := formatUtc_lt (Int.natCast_nonneg earlier) (Int.ofNat_lt.mpr lt) le
    have earlier_year : (dateAfter (earlier / 86400)).year ≤ 9999 := by
      rw [dateAfter_eq]
      have days_le : ((earlier / 86400 : Nat) : Int) ≤ (later / 86400 : Nat) := by omega
      have := ofDays_year_mono days_le
      omega
    exact Text.Utf8.encode_lt_of_ascii (formatUtc_shows earlier_year).ascii
      (formatUtc_shows h).ascii (String.lt_iff_toList_lt.mp order)

theorem formatUtc_gregorian_leap_day :
    (formatUtc 68255999).toList = "1972-02-29 23:59:59".toList ∧
      (dateAfter (68255999 / 86400)).Valid ∧
      Text.Utf8.encode (formatUtc 68255999).toList <
        Text.Utf8.encode (formatUtc 68256000).toList := by
  have leap_day : (dateAfter (68255999 / 86400)).year ≤ 9999 := by
    rw [dateAfter_eq]
    decide
  have march : (dateAfter (68256000 / 86400)).year ≤ 9999 := by
    rw [dateAfter_eq]
    decide
  exact ⟨by decide, (formatUtc_gregorian.1 68255999 leap_day).1,
    formatUtc_gregorian.2 68255999 68256000 (by decide) march⟩

end Timestamp
end AgentWorkbench
