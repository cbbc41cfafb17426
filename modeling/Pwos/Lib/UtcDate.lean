import Mathlib.Tactic

/-!
# Dates in milliseconds

An instant is a number of milliseconds from the epoch, at most 10^8 days away from it. Its parts
are those of the Gregorian calendar in UTC, as ECMAScript defines them; `dateUTC` reads a year
below 100 as one of the 20th century.
-/

namespace Pwos

namespace UtcDate

def DAY_MS : Int := 86400000

def MAX_MS : Int := 8640000000000000

@[ext] structure Instant where
  ms : Int
  lower : -MAX_MS ≤ ms
  upper : ms ≤ MAX_MS
  deriving DecidableEq

/-- `new Date(ms)`; there is no instant outside the range. -/
def timeClip (ms : Int) : Option Instant :=
  if h : -MAX_MS ≤ ms ∧ ms ≤ MAX_MS then some ⟨ms, h.1, h.2⟩ else none

/-- The day on which a year begins. -/
def dayFromYear (y : Int) : Int :=
  365 * (y - 1970) + (y - 1969) / 4 - (y - 1901) / 100 + (y - 1601) / 400

def isLeap (y : Int) : Bool := dayFromYear (y + 1) - dayFromYear y = 366

/-- The days of a year before its month, counted from 0. -/
def daysBefore (leap : Bool) (month : Nat) : Int :=
  ([0, 31, 59, 90, 120, 151, 181, 212, 243, 273, 304, 334].getD month 0) +
    if leap && 2 ≤ month then 1 else 0

/-- The year of a day. -/
def yearOf (n : Int) : Int :=
  let y := n * 400 / 146097 + 1970
  if n < dayFromYear y then y - 1 else if dayFromYear (y + 1) ≤ n then y + 1 else y

/-- The month of a day, counted from 0. -/
def monthOf (n : Int) : Nat :=
  let y := yearOf n
  ((List.range 12).filter fun m => daysBefore (isLeap y) m ≤ n - dayFromYear y).length - 1

def dateOf (n : Int) : Int :=
  n - dayFromYear (yearOf n) - daysBefore (isLeap (yearOf n)) (monthOf n) + 1

def makeDay (year : Int) (month : Nat) (date : Int) : Int :=
  dayFromYear year + daysBefore (isLeap year) month + (date - 1)

/-- `Date.UTC(year, month, date)`. -/
def dateUTC (year : Int) (month : Nat) (date : Int) : Int :=
  makeDay (if 0 ≤ year ∧ year ≤ 99 then 1900 + year else year) month date * DAY_MS

namespace Instant
variable (t : Instant)

def getUTCFullYear : Int := yearOf (t.ms / DAY_MS)
def getUTCMonth : Nat := monthOf (t.ms / DAY_MS)
def getUTCDate : Int := dateOf (t.ms / DAY_MS)
/-- Sunday is 0. -/
def getUTCDay : Int := (t.ms / DAY_MS + 4) % 7
def getUTCHours : Int := t.ms % DAY_MS / 3600000
def getUTCMinutes : Int := t.ms % 3600000 / 60000
def getUTCSeconds : Int := t.ms % 60000 / 1000

end Instant

section Laws
variable {n y : Int} {ms : Int} {t : Instant}

theorem timeClip_eq_some : timeClip ms = some t ↔ t.ms = ms := by
  unfold timeClip
  split_ifs with h
  · rw [Option.some_inj, Instant.ext_iff]
    exact eq_comm
  · refine iff_of_false (by simp) ?_
    rintro rfl
    exact h ⟨t.lower, t.upper⟩

theorem timeClip_eq_none : timeClip ms = none ↔ ms < -MAX_MS ∨ MAX_MS < ms := by
  unfold timeClip
  split_ifs with h <;> grind

theorem dayFromYear_yearOf (n : Int) :
    dayFromYear (yearOf n) ≤ n ∧ n < dayFromYear (yearOf n + 1) := by
  unfold yearOf
  dsimp only
  split_ifs with hbefore hafter
  · rw [sub_add_cancel]
    refine ⟨?_, hbefore⟩
    unfold dayFromYear
    omega
  · refine ⟨hafter, ?_⟩
    unfold dayFromYear
    omega
  · exact ⟨not_lt.mp hbefore, not_le.mp hafter⟩

theorem dayFromYear_mono {y z : Int} (h : y ≤ z) : dayFromYear y ≤ dayFromYear z := by
  unfold dayFromYear
  omega

theorem makeDay_parts (n : Int) : makeDay (yearOf n) (monthOf n) (dateOf n) = n := by
  unfold makeDay dateOf
  ring

/-- The parts of a day give the day back, but in the first hundred years. -/
theorem dateUTC_parts (h : ¬(0 ≤ yearOf n ∧ yearOf n ≤ 99)) :
    dateUTC (yearOf n) (monthOf n) (dateOf n) = n * DAY_MS := by
  rw [dateUTC, if_neg h, makeDay_parts]

theorem daysBefore_bounds (leap : Bool) (m : Nat) :
    0 ≤ daysBefore leap m ∧ daysBefore leap m ≤ 335 := by
  by_cases hm : m < 12
  · interval_cases m <;> cases leap <;> decide
  · have hnone : [(0 : Int), 31, 59, 90, 120, 151, 181, 212, 243, 273, 304, 334][m]? = none :=
      List.getElem?_eq_none (by simpa using hm)
    unfold daysBefore
    rw [List.getD_eq_getElem?_getD, hnone, Option.getD_none]
    split_ifs <;> omega

/-- Of the parts of a day in the first hundred years, a day eighteen centuries later. -/
theorem dateUTC_later (h : 0 ≤ yearOf n ∧ yearOf n ≤ 99) :
    (n + 693000) * DAY_MS ≤ dateUTC (yearOf n) (monthOf n) (dateOf n) := by
  have hmonth := (daysBefore_bounds (isLeap (yearOf n)) (monthOf n)).2
  have hmonth' := (daysBefore_bounds (isLeap (1900 + yearOf n)) (monthOf n)).1
  have hyears : dayFromYear (yearOf n) + 693500 ≤ dayFromYear (1900 + yearOf n) := by
    unfold dayFromYear
    omega
  rw [dateUTC, if_pos h]
  unfold makeDay dateOf DAY_MS
  omega

end Laws

end UtcDate

end Pwos
