import Pwos.Domain.Calendar

/-!
# The Jalali calendar

The calendar package is a parameter. What the program computes with it, what it relies on
(`JalaliCalendar.Lawful`), and the calendar of three years.
-/

namespace Pwos

structure JalaliDate where
  y : Int
  m : Nat
  d : Nat
  deriving DecidableEq, Repr

/-- The functions of the calendar package, as `lib/format.ts` wraps them. -/
structure JalaliCalendar where
  toJalali : IsoDate → JalaliDate
  jalaliToIso : Int → Nat → Nat → IsoDate
  jalaliMonthLength : Int → Nat → Nat

/-! ## Recurrence

`features/income/recurring.ts`. -/

/-- The month lengths of a year that is not a leap one. -/
def jalaliMonthDays (month : Nat) : Nat := if month ≤ 6 then 31 else if month ≤ 11 then 30 else 29

def clampDayOfMonth (day : Nat) : Nat := min 31 (max 1 day)

section Recurrence
variable (cal : JalaliCalendar)

/-- The next monthly occurrence after `isoDate`, on `dayOfMonth`. -/
def nextMonthlyDate (isoDate : IsoDate) (dayOfMonth : Nat) : IsoDate :=
  let date := cal.toJalali isoDate
  let year := if date.m = 12 then date.y + 1 else date.y
  let month := if date.m = 12 then 1 else date.m + 1
  cal.jalaliToIso year month (min (clampDayOfMonth dayOfMonth) (jalaliMonthDays month))

def jalaliDayOf (isoDate : IsoDate) : Nat := (cal.toJalali isoDate).d

/-- `months` later, on `day`, clamped to the length of the month. -/
def addJalaliMonths (iso : IsoDate) (months : Nat) (day : Nat) : IsoDate :=
  let date := cal.toJalali iso
  let index : Int := date.y * 12 + (date.m - 1) + months
  let year := index / 12
  let month := (index % 12).toNat + 1
  cal.jalaliToIso year month (min day (cal.jalaliMonthLength year month))

end Recurrence

/-! ## What the calendar does -/

/-- One month is before another. -/
def JalaliDate.monthBefore (a b : JalaliDate) : Prop := a.y < b.y ∨ a.y = b.y ∧ a.m < b.m

/-- There are twelve months, and a day comes before the first day of a month exactly when its
own month does. -/
structure JalaliCalendar.Lawful (cal : JalaliCalendar) : Prop where
  month : ∀ d, isIsoDate d → 0 < (cal.toJalali d).m ∧ (cal.toJalali d).m ≤ 12
  monthStart : ∀ d t, isIsoDate d → isIsoDate t →
    (d < cal.jalaliToIso (cal.toJalali t).y (cal.toJalali t).m 1 ↔
      (cal.toJalali d).monthBefore (cal.toJalali t))

/-! ## A calendar

The months as they fall in 1404, 1405 and 1406. -/

/-- The first days of the Jalali months in a Gregorian year, from Bahman on. -/
def firstDays : List Nat := [121, 220, 321, 421, 522, 622, 723, 823, 923, 1023, 1122, 1222]

def passedDays (monthDay : Nat) : Nat := (firstDays.filter (· ≤ monthDay)).length

/-- The months from Farvardin of the year 0 to the month of a day. -/
def monthsUntil (iso : IsoDate) : Int :=
  12 * (IsoDate.year iso - 621 : Int) + passedDays (iso % 10000) - 3

def monthFirst (months : Int) : Nat :=
  let since := months + 3
  if since % 12 = 0 then ((since / 12 + 620) * 10000 + 1222).toNat
  else ((since / 12 + 621) * 10000 + firstDays.getD ((since % 12).toNat - 1) 0).toNat

/-- Fewer days later than there are in a month. -/
def daysAfter (iso : IsoDate) (days : Nat) : IsoDate :=
  let last := daysInMonth (IsoDate.year iso) (IsoDate.month iso)
  let day := IsoDate.day iso + days
  if days = 0 then iso
  else if day ≤ last then iso + days
  else if IsoDate.month iso = 12 then IsoDate.ofParts (IsoDate.year iso + 1) 1 (day - last)
  else IsoDate.ofParts (IsoDate.year iso) (IsoDate.month iso + 1) (day - last)

def ordinaryYears : JalaliCalendar where
  toJalali iso :=
    let months := monthsUntil iso
    let first := monthFirst months
    { y := months / 12
      m := (months % 12).toNat + 1
      d := if first / 100 = iso / 100 then iso - first + 1
        else IsoDate.day iso + daysInMonth (IsoDate.year first) (IsoDate.month first) + 1 -
          IsoDate.day first }
  jalaliToIso y m d := daysAfter (monthFirst (12 * y + m - 1)) (d - 1)
  jalaliMonthLength _ m := jalaliMonthDays m

theorem length_filter_le_iff {l : List Nat} (hl : l.Pairwise (· < ·)) (a : Nat) {i : Nat}
    (hi : i < l.length) : (l.filter (· ≤ a)).length ≤ i ↔ a < l.getD i 0 := by
  induction l generalizing i with
  | nil => exact absurd hi (Nat.not_lt_zero i)
  | cons x l ih =>
    obtain ⟨hx, hl⟩ := List.pairwise_cons.mp hl
    by_cases hxa : x ≤ a
    · rw [List.filter_cons_of_pos (by simpa using hxa), List.length_cons]
      cases i with
      | zero => simpa using hxa
      | succ j => simpa using ih hl (Nat.lt_of_succ_lt_succ hi)
    · have hnone : (x :: l).filter (· ≤ a) = [] := by
        refine List.filter_eq_nil_iff.mpr fun y hy => ?_
        have hle : x ≤ y := by
          rcases List.mem_cons.mp hy with rfl | hy
          · exact le_rfl
          · exact (hx y hy).le
        simp only [decide_eq_true_eq]
        omega
      have hlt : a < (x :: l).getD i 0 := by
        cases i with
        | zero => simpa using hxa
        | succ j =>
          have hj : j < l.length := Nat.lt_of_succ_lt_succ hi
          have hmem := hx _ (List.getElem_mem hj)
          rw [List.getD_cons_succ, ← List.getElem_eq_getD (h := hj)]
          omega
      exact ⟨fun _ => hlt, fun _ => by simp [hnone]⟩

theorem passedDays_lt_iff {i : Nat} (hi : 0 < i ∧ i ≤ 12) (monthDay : Nat) :
    passedDays monthDay < i ↔ monthDay < firstDays.getD (i - 1) 0 := by
  have hlen : firstDays.length = 12 := rfl
  rw [← length_filter_le_iff (by decide) monthDay (by omega), passedDays]
  omega

theorem lt_monthFirst_iff (d : Nat) {months : Int} (h : -7455 ≤ months) :
    d < monthFirst months ↔ monthsUntil d < months := by
  have hpassed : passedDays (d % 10000) ≤ 12 := (List.length_filter_le _ _).trans (by decide)
  unfold monthFirst monthsUntil IsoDate.year
  dsimp only
  split
  · have hlast : passedDays (d % 10000) < 12 ↔ d % 10000 < 1222 := passedDays_lt_iff (by omega) _
    omega
  · rename_i hne
    have hnext := @passedDays_lt_iff ((months + 3) % 12).toNat (by omega) (d % 10000)
    have hfirst : firstDays.getD (((months + 3) % 12).toNat - 1) 0 < 10000 := by
      have hall : ∀ j < 12, firstDays.getD j 0 < 10000 := by decide
      exact hall _ (by omega)
    generalize firstDays.getD (((months + 3) % 12).toNat - 1) 0 = first at *
    omega

theorem ordinaryYears_lawful : ordinaryYears.Lawful where
  month d _ := by
    simp only [ordinaryYears]
    omega
  monthStart d t _ _ := by
    have hleast : -7455 ≤ monthsUntil t := by
      unfold monthsUntil
      omega
    have hmonths : 12 * (monthsUntil t / 12) + ((monthsUntil t % 12).toNat + 1 : Nat) - 1 =
        monthsUntil t := by omega
    have hfirst : ∀ iso, daysAfter iso (1 - 1) = iso := fun _ => rfl
    simp only [ordinaryYears, JalaliDate.monthBefore, hmonths, hfirst]
    rw [lt_monthFirst_iff d hleast]
    omega

end Pwos
