import Cadence.Calendar.Civil
import Mathlib.Order.Monotone.Basic
import Mathlib.Tactic.SplitIfs

/-!
# Days and dates

Every day of the calendar has one date, which is valid, and every valid date is a day of the calendar.
-/

namespace Cadence.Calendar

/-! ### Years -/

def yearDays (year : Nat) : Nat := if isLeap year then 366 else 365

theorem isLeap_iff {year : Nat} : isLeap year = true ↔ year % 4 = 0 ∧ (year % 100 ≠ 0 ∨ year % 400 = 0) := by
  simp [isLeap]

theorem daysBeforeYear_eq (year : Nat) :
    daysBeforeYear year = (year - 1) * 365 + (year - 1) / 4 - (year - 1) / 100 + (year - 1) / 400 := rfl

theorem daysBeforeYear_succ {year : Nat} (h : 1 ≤ year) :
    daysBeforeYear (year + 1) = daysBeforeYear year + yearDays year := by
  obtain ⟨past, rfl⟩ := Nat.exists_eq_add_of_le' h
  have hcenturies : past / 100 ≤ past / 4 := by omega
  rw [daysBeforeYear_eq, daysBeforeYear_eq, yearDays, Nat.add_sub_cancel, Nat.add_sub_cancel, Nat.succ_div,
    Nat.succ_div, Nat.succ_div]
  simp only [isLeap_iff]
  split_ifs <;> omega

theorem daysBeforeYear_mono : Monotone daysBeforeYear := by
  refine monotone_nat_of_le_succ fun year => ?_
  rcases Nat.eq_zero_or_pos year with rfl | hpos
  · exact Nat.le_refl _
  · rw [daysBeforeYear_succ hpos]
    exact Nat.le_add_right _ _

/-- The years before the estimated one are over, and the year after it has not begun. -/
theorem guess_spec (n : Nat) :
    daysBeforeYear (n * 400 / 146097) ≤ n ∧ n < daysBeforeYear (n * 400 / 146097 + 3) := by
  rw [daysBeforeYear_eq, daysBeforeYear_eq]
  omega

/-- The estimated year is right, or one too late or too early, and the comparisons set it right. -/
theorem yearOfDay_spec {n : Nat} (h : n < totalDays) :
    1 ≤ yearOfDay n ∧ yearOfDay n ≤ 9999 ∧ daysBeforeYear (yearOfDay n) ≤ n ∧
      n < daysBeforeYear (yearOfDay n + 1) := by
  obtain ⟨hearly, hlate⟩ := guess_spec n
  have hyear : 1 ≤ yearOfDay n ∧ daysBeforeYear (yearOfDay n) ≤ n ∧ n < daysBeforeYear (yearOfDay n + 1) := by
    unfold yearOfDay
    dsimp only
    generalize n * 400 / 146097 = guess at hearly hlate
    split
    · rename_i hbefore
      cases guess with
      | zero => exact absurd hbefore (Nat.not_lt_zero n)
      | succ guess => exact ⟨by omega, hearly, hbefore⟩
    · rename_i hbefore
      split
      · rename_i hafter
        exact ⟨by omega, hafter, hlate⟩
      · rename_i hafter
        exact ⟨by omega, Nat.not_lt.mp hbefore, Nat.not_le.mp hafter⟩
  refine ⟨hyear.1, ?_, hyear.2⟩
  by_contra hlast
  have hover : totalDays ≤ daysBeforeYear (yearOfDay n) := daysBeforeYear_mono (by omega : 10000 ≤ yearOfDay n)
  omega

/-! ### Months -/

theorem daysBeforeMonth_succ (year : Nat) {month : Nat} (h : 1 ≤ month) :
    daysBeforeMonth year (month + 1) = daysBeforeMonth year month + monthDays year month := by
  obtain ⟨month, rfl⟩ := Nat.exists_eq_add_of_le' h
  rfl

theorem daysBeforeMonth_all (year : Nat) : daysBeforeMonth year 13 = yearDays year := by
  unfold yearDays
  cases hleap : isLeap year <;> simp [daysBeforeMonth, monthDays, hleap]

theorem daysBeforeMonth_le (year : Nat) {month : Nat} (hfirst : 1 ≤ month) (hlast : month ≤ 12) :
    daysBeforeMonth year month + monthDays year month ≤ yearDays year := by
  rw [← daysBeforeMonth_succ year hfirst, ← daysBeforeMonth_all]
  have hmono : Monotone (daysBeforeMonth year) := monotone_nat_of_le_succ fun m => by
    rcases Nat.eq_zero_or_pos m with rfl | hpos
    · exact Nat.le_refl _
    · rw [daysBeforeMonth_succ year hpos]
      exact Nat.le_add_right _ _
  exact hmono (by omega)

theorem monthOfDay_spec (year left : Nat) {month n : Nat} (hfirst : 1 ≤ month)
    (hn : daysBeforeMonth year month + n < daysBeforeMonth year (month + left + 1)) :
    ∃ found day, monthOfDay year left month n = (found, day) ∧ month ≤ found ∧ found ≤ month + left ∧ 1 ≤ day ∧
      day ≤ monthDays year found ∧ daysBeforeMonth year found + (day - 1) = daysBeforeMonth year month + n := by
  induction left generalizing month n with
  | zero =>
    rw [Nat.add_zero, daysBeforeMonth_succ year hfirst] at hn
    exact ⟨month, n + 1, rfl, Nat.le_refl _, Nat.le_refl _, Nat.le_add_left _ _, by omega, rfl⟩
  | succ left ih =>
    rw [monthOfDay]
    split
    · exact ⟨month, n + 1, rfl, Nat.le_refl _, Nat.le_add_right _ _, Nat.le_add_left _ _, by omega, rfl⟩
    · have hnext := daysBeforeMonth_succ year hfirst
      have hrest : daysBeforeMonth year (month + 1) + (n - monthDays year month) <
          daysBeforeMonth year (month + 1 + left + 1) := by
        rw [Nat.add_right_comm month 1 left]
        exact Nat.lt_of_le_of_lt (by omega) hn
      obtain ⟨found, day, hfound, hfrom, hto, hday, hlength, hsum⟩ := ih (Nat.le_add_left 1 month) hrest
      exact ⟨found, day, hfound, by omega, by omega, hday, hlength, by omega⟩

/-! ### Dates -/

theorem Date.isValid_iff {d : Date} : d.isValid = true ↔
    (1 ≤ d.year ∧ d.year ≤ 9999) ∧ (1 ≤ d.month ∧ d.month ≤ 12) ∧ 1 ≤ d.day ∧ d.day ≤ monthDays d.year d.month := by
  simp only [isValid, Bool.and_eq_true, decide_eq_true_eq, and_assoc]

theorem Date.toDays_lt {d : Date} (h : d.isValid = true) : d.toDays < totalDays := by
  obtain ⟨⟨hyear, hyear'⟩, ⟨hmonth, hmonth'⟩, hday, hday'⟩ := isValid_iff.mp h
  have hin := daysBeforeMonth_le d.year hmonth hmonth'
  have hnext := daysBeforeYear_succ hyear
  have hlast : daysBeforeYear (d.year + 1) ≤ totalDays := daysBeforeYear_mono (by omega : d.year + 1 ≤ 10000)
  rw [toDays]
  omega

/-- The date of a day: it is valid, and it is the date of no other day. -/
theorem Date.ofDays_spec {n : Nat} (h : n < totalDays) : (ofDays n).isValid = true ∧ (ofDays n).toDays = n := by
  obtain ⟨hyear, hyear', hstart, hend⟩ := yearOfDay_spec h
  have hnone : daysBeforeMonth (yearOfDay n) 1 = 0 := rfl
  have hin : daysBeforeMonth (yearOfDay n) 1 + (n - daysBeforeYear (yearOfDay n)) <
      daysBeforeMonth (yearOfDay n) 13 := by
    rw [daysBeforeYear_succ hyear, ← daysBeforeMonth_all] at hend
    omega
  obtain ⟨month, day, hfound, hfirst, hlast, hday, hday', hsum⟩ := monthOfDay_spec _ 11 (Nat.le_refl 1) hin
  have hdate : ofDays n = ⟨yearOfDay n, month, day⟩ := by
    unfold ofDays
    dsimp only
    rw [hfound]
  rw [hdate]
  refine ⟨isValid_iff.mpr ⟨⟨hyear, hyear'⟩, ⟨hfirst, hlast⟩, hday, hday'⟩, ?_⟩
  rw [toDays]
  dsimp only
  omega

end Cadence.Calendar
