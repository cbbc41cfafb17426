import Pwos.Domain.Calendar
import Mathlib.Tactic

/-!
# Counting days

Adding days to a date, and the number of a day: days that exist compare as their numbers do
(`dayNumber_lt_iff`).
-/

namespace Pwos

open IsoDate

/-- A day of some month, in a year of any length. -/
structure RealDay (d : IsoDate) : Prop where
  month_pos : 1 ≤ month d
  month_le : month d ≤ 12
  day_pos : 1 ≤ day d
  day_le : day d ≤ daysInMonth (year d) (month d)

theorem RealDay.of_isIsoDate {d : IsoDate} (h : isIsoDate d = true) : RealDay d := by
  simp only [isIsoDate, Bool.and_eq_true, decide_eq_true_eq] at h
  obtain ⟨⟨⟨⟨hm, hm'⟩, hd⟩, hd'⟩, -⟩ := h
  exact ⟨hm, hm', hd, hd'⟩

def nextDay (d : IsoDate) : IsoDate :=
  if day d < daysInMonth (year d) (month d) then ofParts (year d) (month d) (day d + 1)
  else if month d < 12 then ofParts (year d) (month d + 1) 1
  else ofParts (year d + 1) 1 1

def addDays (d : IsoDate) (days : Nat) : IsoDate := nextDay^[days] d

section Days
variable {d e : IsoDate} {y m k : Nat}

theorem daysInMonth_bounds (y m : Nat) : 28 ≤ daysInMonth y m ∧ daysInMonth y m ≤ 31 := by
  unfold daysInMonth
  split_ifs <;> omega

theorem ofParts_parts (d : IsoDate) : ofParts (year d) (month d) (day d) = d := by
  have h : ∀ n : Nat, n / 10000 * 10000 + n / 100 % 100 * 100 + n % 100 = n := by omega
  exact h d

theorem year_ofParts (hm : m < 100) (hk : k < 100) : year (ofParts y m k) = y := by
  unfold year ofParts
  omega

theorem month_ofParts (hm : m < 100) (hk : k < 100) : month (ofParts y m k) = m := by
  unfold month ofParts
  omega

theorem day_ofParts (hk : k < 100) : day (ofParts y m k) = k := by
  unfold day ofParts
  omega

theorem RealDay.ofParts (hm : 1 ≤ m) (hm' : m ≤ 12) (hk : 1 ≤ k) (hk' : k ≤ daysInMonth y m) :
    RealDay (ofParts y m k) := by
  have hlast := (daysInMonth_bounds y m).2
  have hyear : year (IsoDate.ofParts y m k) = y := year_ofParts (by omega) (by omega)
  have hmonth : month (IsoDate.ofParts y m k) = m := month_ofParts (by omega) (by omega)
  have hday : day (IsoDate.ofParts y m k) = k := day_ofParts (by omega)
  exact ⟨by rwa [hmonth], by rwa [hmonth], by rwa [hday], by rwa [hyear, hmonth, hday]⟩

/-- The three parts of a real day, to compute with. -/
theorem RealDay.exists_parts (h : RealDay d) : ∃ y m k, d = IsoDate.ofParts y m k ∧
    1 ≤ m ∧ m ≤ 12 ∧ 1 ≤ k ∧ k ≤ daysInMonth y m :=
  ⟨_, _, _, (ofParts_parts d).symm, h.month_pos, h.month_le, h.day_pos, h.day_le⟩

theorem nextDay_ofParts (hm : m ≤ 12) (hk : k ≤ daysInMonth y m) :
    nextDay (IsoDate.ofParts y m k) =
      if k < daysInMonth y m then IsoDate.ofParts y m (k + 1)
      else if m < 12 then IsoDate.ofParts y (m + 1) 1
      else IsoDate.ofParts (y + 1) 1 1 := by
  have hlast := (daysInMonth_bounds y m).2
  unfold nextDay
  rw [year_ofParts (by omega) (by omega), month_ofParts (by omega) (by omega),
    day_ofParts (by omega)]

theorem realDay_nextDay (h : RealDay d) : RealDay (nextDay d) := by
  obtain ⟨y, m, k, rfl, hm, hm', hk, hk'⟩ := h.exists_parts
  rw [nextDay_ofParts hm' hk']
  split_ifs with hday hmonth
  · exact .ofParts hm hm' (by omega) hday
  · have hnext := daysInMonth_bounds y (m + 1)
    exact .ofParts (by omega) hmonth le_rfl (by omega)
  · have hnext := daysInMonth_bounds (y + 1) 1
    exact .ofParts le_rfl (by omega) le_rfl (by omega)

theorem lt_nextDay (h : RealDay d) : d < nextDay d := by
  obtain ⟨y, m, k, rfl, hm, hm', hk, hk'⟩ := h.exists_parts
  have hlast := (daysInMonth_bounds y m).2
  rw [nextDay_ofParts hm' hk']
  unfold IsoDate.ofParts
  split_ifs with hday hmonth
  · show y * 10000 + m * 100 + k < y * 10000 + m * 100 + (k + 1)
    omega
  · show y * 10000 + m * 100 + k < y * 10000 + (m + 1) * 100 + 1
    omega
  · show y * 10000 + m * 100 + k < (y + 1) * 10000 + 1 * 100 + 1
    omega

/-- No day lies between a day and the next one. -/
theorem nextDay_le (h : RealDay d) (he : RealDay e) (hlt : d < e) : nextDay d ≤ e := by
  obtain ⟨y, m, k, rfl, hm, hm', hk, hk'⟩ := h.exists_parts
  obtain ⟨y', m', k', rfl, hn, hn', hj, hj'⟩ := he.exists_parts
  have hlast := (daysInMonth_bounds y m).2
  have hlast' := (daysInMonth_bounds y' m').2
  have hlt : y * 10000 + m * 100 + k < y' * 10000 + m' * 100 + k' := hlt
  have hsame : y = y' → m = m' → k' ≤ daysInMonth y m := by
    rintro rfl rfl
    exact hj'
  rw [nextDay_ofParts hm' hk']
  unfold IsoDate.ofParts
  split_ifs with hday hmonth
  · show y * 10000 + m * 100 + (k + 1) ≤ y' * 10000 + m' * 100 + k'
    omega
  · show y * 10000 + (m + 1) * 100 + 1 ≤ y' * 10000 + m' * 100 + k'
    omega
  · show (y + 1) * 10000 + 1 * 100 + 1 ≤ y' * 10000 + m' * 100 + k'
    omega

theorem dayNumber_ofParts (hm : m ≤ 12) (hk : k ≤ daysInMonth y m) :
    dayNumber (IsoDate.ofParts y m k) =
      365 * ((y : Int) - if m ≤ 2 then 1 else 0) + ((y : Int) - if m ≤ 2 then 1 else 0) / 4 -
        ((y : Int) - if m ≤ 2 then 1 else 0) / 100 + ((y : Int) - if m ≤ 2 then 1 else 0) / 400 +
        (((m + 9) % 12 * 306 + 5) / 10 : Nat) + k - 1 := by
  have hlast := (daysInMonth_bounds y m).2
  unfold dayNumber
  rw [year_ofParts (by omega) (by omega), month_ofParts (by omega) (by omega),
    day_ofParts (by omega)]
  push_cast
  rfl

/-- The last day of a month and the first of the next one. -/
theorem dayNumber_monthEnd (hm : 1 ≤ m) (hm' : m < 12) :
    dayNumber (IsoDate.ofParts y (m + 1) 1) =
      dayNumber (IsoDate.ofParts y m (daysInMonth y m)) + 1 := by
  have hnext := daysInMonth_bounds y (m + 1)
  rw [dayNumber_ofParts (by omega) (by omega), dayNumber_ofParts hm'.le le_rfl]
  by_cases hfeb : m = 2
  · subst hfeb
    have hleap : (isLeapYear y = true ∧ (y % 4 = 0 ∧ (y % 100 ≠ 0 ∨ y % 400 = 0))) ∨
        (isLeapYear y = false ∧ ¬ (y % 4 = 0 ∧ (y % 100 ≠ 0 ∨ y % 400 = 0))) := by
      unfold isLeapYear
      cases hl : (decide (y % 4 = 0) && (decide (y % 100 ≠ 0) || decide (y % 400 = 0))) <;>
        simp_all
    rcases hleap with ⟨hl, hy⟩ | ⟨hl, hy⟩
    · simp only [daysInMonth, hl, if_true]
      omega
    · simp only [daysInMonth, hl, if_true, Bool.false_eq_true, if_false]
      omega
  · interval_cases m <;> simp [daysInMonth] at hfeb ⊢ <;> omega

theorem dayNumber_nextDay (h : RealDay d) : dayNumber (nextDay d) = dayNumber d + 1 := by
  obtain ⟨y, m, k, rfl, hm, hm', hk, hk'⟩ := h.exists_parts
  rw [nextDay_ofParts hm' hk']
  split_ifs with hday hmonth
  · rw [dayNumber_ofParts hm' hday, dayNumber_ofParts hm' hk']
    push_cast
    ring
  · obtain rfl : k = daysInMonth y m := by omega
    exact dayNumber_monthEnd hm hmonth
  · obtain rfl : m = 12 := by omega
    obtain rfl : k = 31 := by
      have hdec : daysInMonth y 12 = 31 := rfl
      omega
    have hjan := daysInMonth_bounds (y + 1) 1
    rw [dayNumber_ofParts (by omega) (by omega), dayNumber_ofParts le_rfl hk']
    simp
    omega

/-! ### Days in order -/

theorem realDay_addDays (h : RealDay d) (n : Nat) : RealDay (addDays d n) := by
  induction n with
  | zero => exact h
  | succ n ih =>
    unfold addDays at *
    rw [Function.iterate_succ_apply']
    exact realDay_nextDay ih

theorem dayNumber_addDays (h : RealDay d) (n : Nat) :
    dayNumber (addDays d n) = dayNumber d + n := by
  induction n with
  | zero => simp [addDays]
  | succ n ih =>
    have hnext : addDays d (n + 1) = nextDay (addDays d n) := Function.iterate_succ_apply' _ _ _
    rw [hnext, dayNumber_nextDay (realDay_addDays h n), ih]
    push_cast
    ring

/-- A later day is so many days later. -/
theorem exists_addDays (h : RealDay d) (he : RealDay e) (hle : d ≤ e) : ∃ n, addDays d n = e := by
  have hmeasure : ∀ n, ∀ d, RealDay d → d ≤ e → e - d ≤ n → ∃ n, addDays d n = e := by
    intro n
    induction n with
    | zero =>
      intro d _ hle hn
      exact ⟨0, le_antisymm hle (Nat.sub_eq_zero_iff_le.mp (Nat.le_zero.mp hn))⟩
    | succ n ih =>
      intro d hd hle hn
      rcases hle.eq_or_lt with rfl | hlt
      · exact ⟨0, rfl⟩
      · have hstep := lt_nextDay hd
        have hsub : ∀ a b c n : Nat, a < b → a < c → c - a ≤ n + 1 → c - b ≤ n := by omega
        obtain ⟨j, hj⟩ := ih (nextDay d) (realDay_nextDay hd) (nextDay_le hd he hlt)
          (hsub _ _ _ _ hstep hlt hn)
        exact ⟨j + 1, hj⟩
  exact hmeasure _ d h hle le_rfl

theorem dayNumber_le (h : RealDay d) (he : RealDay e) (hle : d ≤ e) : dayNumber d ≤ dayNumber e := by
  obtain ⟨n, rfl⟩ := exists_addDays h he hle
  rw [dayNumber_addDays h]
  omega

theorem dayNumber_lt_iff (h : RealDay d) (he : RealDay e) : dayNumber d < dayNumber e ↔ d < e := by
  constructor
  · intro hlt
    by_contra hnot
    have hle := dayNumber_le he h (not_lt.mp hnot)
    omega
  · intro hlt
    have hnext := dayNumber_le (realDay_nextDay h) he (nextDay_le h he hlt)
    rw [dayNumber_nextDay h] at hnext
    omega

theorem dayNumber_le_iff (h : RealDay d) (he : RealDay e) : dayNumber d ≤ dayNumber e ↔ d ≤ e := by
  rw [← not_lt, dayNumber_lt_iff he h, not_lt]

/-! ### Months in order -/

/-- The months from January of the year 0 on. -/
def monthIndex (d : IsoDate) : Nat := 12 * year d + (month d - 1)

def firstDayOf (i : Nat) : IsoDate := ofParts (i / 12) (i % 12 + 1) 1

theorem dayNumber_of_month (hm : m ≤ 12) (hk : 1 ≤ k) (hk' : k ≤ daysInMonth y m) :
    dayNumber (IsoDate.ofParts y m k) = dayNumber (IsoDate.ofParts y m 1) + k - 1 := by
  rw [dayNumber_ofParts hm hk', dayNumber_ofParts hm (hk.trans hk')]
  push_cast
  ring

theorem dayNumber_firstDayOf_succ (i : Nat) :
    dayNumber (firstDayOf (i + 1)) =
      dayNumber (firstDayOf i) + daysInMonth (i / 12) (i % 12 + 1) := by
  have hbounds := daysInMonth_bounds (i / 12) (i % 12 + 1)
  have hlast : RealDay (IsoDate.ofParts (i / 12) (i % 12 + 1) (daysInMonth (i / 12) (i % 12 + 1))) :=
    .ofParts (by omega) (by omega) (by omega) le_rfl
  have hnext : nextDay (IsoDate.ofParts (i / 12) (i % 12 + 1)
      (daysInMonth (i / 12) (i % 12 + 1))) = firstDayOf (i + 1) := by
    rw [nextDay_ofParts (by omega) le_rfl, if_neg (lt_irrefl _), firstDayOf]
    split_ifs with hdec
    · congr 1 <;> omega
    · congr 1 <;> omega
  rw [← hnext, dayNumber_nextDay hlast, dayNumber_of_month (by omega) (by omega) le_rfl, firstDayOf]
  ring

/-- A month has 28 days at least. -/
theorem dayNumber_firstDayOf_le {i j : Nat} (h : i ≤ j) :
    dayNumber (firstDayOf i) + 28 * (j - i) ≤ dayNumber (firstDayOf j) := by
  induction j, h using Nat.le_induction with
  | base => simp
  | succ j _ ih =>
    have hbounds := daysInMonth_bounds (j / 12) (j % 12 + 1)
    rw [dayNumber_firstDayOf_succ]
    push_cast
    omega

theorem dayNumber_eq_firstDayOf (h : RealDay d) :
    dayNumber d = dayNumber (firstDayOf (monthIndex d)) + day d - 1 := by
  obtain ⟨y, m, k, rfl, hm, hm', hk, hk'⟩ := h.exists_parts
  have hlast := (daysInMonth_bounds y m).2
  rw [dayNumber_of_month hm' hk hk', monthIndex, year_ofParts (by omega) (by omega),
    month_ofParts (by omega) (by omega), day_ofParts (by omega), firstDayOf]
  congr 4 <;> omega

/-- A day that is not in the target month is as many days into the next one. -/
theorem addMonthsIso_spec (h : RealDay d) (n : Nat) :
    RealDay (addMonthsIso d n) ∧
      dayNumber (addMonthsIso d n) = dayNumber (firstDayOf (monthIndex d + n)) + day d - 1 := by
  obtain ⟨y, m, k, rfl, hm, hm', hk, hk'⟩ := h.exists_parts
  have hlast := (daysInMonth_bounds y m).2
  have hindex : monthIndex (IsoDate.ofParts y m k) = 12 * y + (m - 1) := by
    rw [monthIndex, year_ofParts (by omega) (by omega), month_ofParts (by omega) (by omega)]
  unfold addMonthsIso monthAfter
  rw [year_ofParts (by omega) (by omega), month_ofParts (by omega) (by omega),
    day_ofParts (by omega), hindex]
  dsimp only
  generalize hi : 12 * y + (m - 1) + n = i
  have hyear : y + (m - 1 + n) / 12 = i / 12 := by omega
  have hmonth : (m - 1 + n) % 12 = i % 12 := by omega
  rw [hyear, hmonth]
  have hlen := daysInMonth_bounds (i / 12) (i % 12 + 1)
  have hnext := dayNumber_firstDayOf_succ i
  have hlen' := daysInMonth_bounds ((i + 1) / 12) ((i + 1) % 12 + 1)
  split_ifs with hfits hdec
  · exact ⟨.ofParts (by omega) (by omega) hk hfits, dayNumber_of_month (by omega) hk hfits⟩
  · have hjan : firstDayOf (i + 1) = IsoDate.ofParts (i / 12 + 1) 1 1 := by
      unfold firstDayOf
      congr 1 <;> omega
    have hjan' : daysInMonth (i / 12 + 1) 1 = 31 := rfl
    refine ⟨.ofParts le_rfl (by omega) (by omega) (by omega), ?_⟩
    rw [dayNumber_of_month (by omega) (by omega) (by omega), ← hjan, hnext]
    omega
  · have hafter : firstDayOf (i + 1) = IsoDate.ofParts (i / 12) (i % 12 + 1 + 1) 1 := by
      unfold firstDayOf
      congr 1 <;> omega
    have hlen'' := daysInMonth_bounds (i / 12) (i % 12 + 1 + 1)
    refine ⟨.ofParts (by omega) (by omega) (by omega) (by omega), ?_⟩
    rw [dayNumber_of_month (by omega) (by omega) (by omega), ← hafter, hnext]
    omega

end Days

end Pwos
