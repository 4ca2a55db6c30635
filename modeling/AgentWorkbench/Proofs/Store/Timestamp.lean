import AgentWorkbench.Proofs.Store.Calendar
import Mathlib.Algebra.Order.Ring.Int
import Mathlib.Data.String.Basic

/-!
Timestamps as text. Numbers are padded to a fixed width, so texts are ordered as the times are; and
the text that a database writes for a time from 1970 on is the one found from the calendar.
-/
namespace AgentWorkbench
namespace Timestamp

theorem toList_padded (width : Nat) (n : Int) :
    (padded width n).toList =
      List.replicate (width - (Nat.toDigits 10 n.toNat).length) '0' ++ Nat.toDigits 10 n.toNat :=
  String.toList_ofList

/-- The last digit comes off the end. -/
theorem toList_padded_succ {width : Nat} (h : 0 < width) (n : Nat) :
    (padded (width + 1) n).toList = (padded width (n / 10 : Nat)).toList ++ [(n % 10).digitChar] := by
  rw [toList_padded, toList_padded, Int.toNat_natCast, Int.toNat_natCast]
  by_cases small : n < 10
  · rw [Nat.toDigits_of_lt_base small, Nat.div_eq_of_lt small, Nat.mod_eq_of_lt small,
      Nat.toDigits_of_lt_base (by decide)]
    obtain ⟨width, rfl⟩ := Nat.exists_eq_succ_of_ne_zero (Nat.pos_iff_ne_zero.mp h)
    simp [List.replicate_succ']
  · rw [Nat.toDigits_eq_if (by decide), if_neg small, List.length_append, List.length_singleton,
      Nat.add_sub_add_right, List.append_assoc]

theorem length_padded {width : Nat} (h : 0 < width) {n : Nat} (lt : n < 10 ^ width) :
    (padded width n).toList.length = width := by
  have := (Nat.length_toDigits_le_iff (by decide) h).mpr lt
  rw [toList_padded, Int.toNat_natCast, List.length_append, List.length_replicate]
  omega

theorem append_lt_append {a b : List Char} (h : a < b) (len : a.length = b.length)
    (x y : List Char) : a ++ x < b ++ y := by
  induction a generalizing b with
  | nil => 
      cases b with
      | nil => exact absurd h (List.lt_irrefl _)
      | cons => cases len
  | cons c a ih =>
      cases b with
      | nil => cases len
      | cons d b =>
          rw [List.cons_append, List.cons_append, List.cons_lt_cons_iff]
          obtain lt | ⟨eq, lt⟩ := List.cons_lt_cons_iff.mp h
          · exact .inl lt
          · exact .inr ⟨eq, ih lt (Nat.succ.inj len)⟩

theorem toList_padded_lt {width : Nat} (h : 0 < width) {m n : Nat} (lt : m < n)
    (bound : n < 10 ^ width) : (padded width m).toList < (padded width n).toList := by
  induction width, h using Nat.le_induction generalizing m n with
  | base =>
      have digits : ∀ n < 10, ∀ m < n, (padded 1 (m : Nat)).toList < (padded 1 (n : Nat)).toList := by
        decide
      exact digits n (by omega) m lt
  | succ width pos ih =>
      have tens_lt : n / 10 < 10 ^ width := by omega
      rw [toList_padded_succ pos, toList_padded_succ pos]
      by_cases tens : m / 10 < n / 10
      · refine append_lt_append (ih tens tens_lt) ?_ _ _
        rw [length_padded pos (by omega), length_padded pos tens_lt]
      · rw [show m / 10 = n / 10 by omega]
        have ones : ∀ j < 10, ∀ i < j, i.digitChar < j.digitChar := by decide
        exact List.append_left_lt (List.cons_lt_cons_iff.mpr (.inl (ones _ (by omega) _ (by omega))))

theorem padded_lt {width : Nat} (h : 0 < width) {m n : Int} (mem : 0 ≤ m) (lt : m < n)
    (bound : n < 10 ^ width) : padded width m < padded width n := by
  obtain ⟨m, rfl⟩ := Int.eq_ofNat_of_zero_le mem
  obtain ⟨n, rfl⟩ := Int.eq_ofNat_of_zero_le (mem.trans lt.le)
  exact String.lt_iff_toList_lt.mpr
    (toList_padded_lt h (by exact_mod_cast lt) (by exact_mod_cast bound))

/-- Texts that begin with numbers of one width are ordered by these first. -/
theorem padded_append_lt {width : Nat} (h : 0 < width) {m n : Int} {rest rest' : String}
    (mem : 0 ≤ m) (bound : n < 10 ^ width) (lt : m < n ∨ m = n ∧ rest < rest') :
    padded width m ++ rest < padded width n ++ rest' := by
  rw [String.lt_iff_toList_lt, String.toList_append, String.toList_append]
  obtain lt | ⟨rfl, lt⟩ := lt
  · obtain ⟨m, rfl⟩ := Int.eq_ofNat_of_zero_le mem
    obtain ⟨n, rfl⟩ := Int.eq_ofNat_of_zero_le (mem.trans lt.le)
    have bound : n < 10 ^ width := by exact_mod_cast bound
    refine append_lt_append (toList_padded_lt h (by omega) bound) ?_ _ _
    rw [length_padded h (by omega), length_padded h bound]
  · exact List.append_left_lt (String.lt_iff_toList_lt.mp lt)

theorem append_lt (start : String) {rest rest' : String} (h : rest < rest') :
    start ++ rest < start ++ rest' := by
  rw [String.lt_iff_toList_lt, String.toList_append, String.toList_append]
  exact List.append_left_lt (String.lt_iff_toList_lt.mp h)

/-- The last second of the year 9999. -/
def lastSecond : Int := 253402300799

theorem ofDays_year_mem {days : Int} (h : 0 ≤ days) (le : days ≤ lastSecond / secondsPerDay) :
    0 ≤ (CalendarDate.ofDays days).year ∧ (CalendarDate.ofDays days).year < 10 ^ 4 := by
  have first : (CalendarDate.ofDays 0).year = 1970 := rfl
  have last : (CalendarDate.ofDays (lastSecond / secondsPerDay)).year = 9999 := rfl
  have after_first := CalendarDate.ofDays_year_mono h
  have before_last := CalendarDate.ofDays_year_mono le
  omega

theorem clock_lt {a b : Int} (mem : 0 ≤ a) (lt : a < b) (bound : b < secondsPerDay) :
    clock a < clock b := by
  simp only [secondsPerDay] at bound
  simp only [clock, String.append_assoc]
  refine padded_append_lt (by decide) (by omega) (by omega) ?_
  by_cases hours : a / 3600 < b / 3600
  · exact .inl hours
  refine .inr ⟨by omega, append_lt _ (padded_append_lt (by decide) (by omega) (by omega) ?_)⟩
  by_cases minutes : a % 3600 / 60 < b % 3600 / 60
  · exact .inl minutes
  · exact .inr ⟨by omega, append_lt _ (padded_lt (by decide) (by omega) (by omega) (by omega))⟩

/-- Texts of times up to the year 9999 are ordered as the times are. -/
theorem formatUtc_lt {a b : Int} (mem : 0 ≤ a) (lt : a < b) (le : b ≤ lastSecond) :
    formatUtc a < formatUtc b := by
  have days_eq (t : Int) : t.fdiv secondsPerDay = t / secondsPerDay :=
    Int.fdiv_eq_ediv_of_nonneg t (by decide)
  have rest_eq (t : Int) : t.fmod secondsPerDay = t % secondsPerDay :=
    Int.fmod_eq_emod_of_nonneg t (by decide)
  have order : a / secondsPerDay < b / secondsPerDay ∨
      a / secondsPerDay = b / secondsPerDay ∧ a % secondsPerDay < b % secondsPerDay := by
    simp only [secondsPerDay]
    omega
  have a_mem : 0 ≤ a / secondsPerDay ∧ a / secondsPerDay ≤ lastSecond / secondsPerDay := by
    simp only [secondsPerDay, lastSecond] at le ⊢
    omega
  have b_mem : 0 ≤ b / secondsPerDay ∧ b / secondsPerDay ≤ lastSecond / secondsPerDay := by
    simp only [secondsPerDay, lastSecond] at le ⊢
    omega
  have year_a := ofDays_year_mem a_mem.1 a_mem.2
  have year_b := ofDays_year_mem b_mem.1 b_mem.2
  have date_a := CalendarDate.ofDays_mem (a / secondsPerDay)
  have date_b := CalendarDate.ofDays_mem (b / secondsPerDay)
  have clocks (same : a % secondsPerDay < b % secondsPerDay) :
      clock (a % secondsPerDay) < clock (b % secondsPerDay) :=
    clock_lt (Int.emod_nonneg _ (by decide)) same (Int.emod_lt_of_pos _ (by decide))
  simp only [formatUtc, days_eq, rest_eq, String.append_assoc]
  obtain before | ⟨same, later⟩ := order
  · have before := CalendarDate.ofDays_before before
    refine padded_append_lt (by decide) year_a.1 year_b.2 (before.imp_right fun ⟨year, before⟩ =>
      ⟨year, append_lt _ ?_⟩)
    refine padded_append_lt (by decide) (by omega) (by omega) (before.imp_right fun ⟨month, before⟩ =>
      ⟨month, append_lt _ ?_⟩)
    exact padded_append_lt (by decide) (by omega) (by omega) (.inl before)
  · rw [same]
    exact append_lt _ (append_lt _ (append_lt _ (append_lt _ (append_lt _ (append_lt _
      (clocks later))))))

end Timestamp

namespace JulianDay

theorem currentTimestamp_eq {seconds : Int} (h : 0 ≤ seconds) (le : seconds ≤ Timestamp.lastSecond) :
    currentTimestamp seconds = Timestamp.formatUtc seconds := by
  let days := seconds / Timestamp.secondsPerDay
  have days_mem : 0 ≤ days ∧ days ≤ Timestamp.lastSecond / Timestamp.secondsPerDay := by
    simp only [days, Timestamp.secondsPerDay, Timestamp.lastSecond] at le ⊢
    omega
  obtain ⟨d, d_eq⟩ := MarchDay.exists_number_eq (days + 719468)
  have date_eq : date (days + 2440588) = CalendarDate.ofDays days := by
    rw [show days + 2440588 = d.number + 1721120 by omega, JulianDay.date_eq,
      ← CalendarDate.ofDays_eq, show d.number - 719468 = days by omega]
  have in_time : ¬ epoch + seconds * 1000 > lastMoment := by
    simp only [epoch, lastMoment, Timestamp.lastSecond] at le ⊢
    omega
  have days_eq : (epoch + seconds * 1000 + millisecondsPerDay / 2) / millisecondsPerDay =
      days + 2440588 := by
    simp only [days, epoch, millisecondsPerDay, Timestamp.secondsPerDay]
    omega
  have clock_eq : (epoch + seconds * 1000 + millisecondsPerDay / 2) % millisecondsPerDay / 1000 =
      seconds % Timestamp.secondsPerDay := by
    simp only [epoch, millisecondsPerDay, Timestamp.secondsPerDay]
    omega
  have year := Timestamp.ofDays_year_mem days_mem.1 days_mem.2
  simp only [currentTimestamp, if_neg in_time, days_eq, clock_eq, date_eq, yearText,
    if_neg (Int.not_lt.mpr year.1), Timestamp.formatUtc,
    Int.fdiv_eq_ediv_of_nonneg seconds (show 0 ≤ Timestamp.secondsPerDay by decide),
    Int.fmod_eq_emod_of_nonneg seconds (show 0 ≤ Timestamp.secondsPerDay by decide)]
  rfl

end JulianDay
end AgentWorkbench
