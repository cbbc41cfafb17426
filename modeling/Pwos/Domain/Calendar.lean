import Pwos.Domain.Accounting

/-!
# Calendar days

ISO days, read as the number `yyyymmdd`: they compare as their texts do. The month
arithmetic of `lib/format.ts` and of `features/planning/obligations.ts`.
-/

namespace Pwos

namespace IsoDate

def ofParts (year month day : Nat) : IsoDate := year * 10000 + month * 100 + day

def year (d : IsoDate) : Nat := d / 10000
def month (d : IsoDate) : Nat := d / 100 % 100
def day (d : IsoDate) : Nat := d % 100

end IsoDate

def isLeapYear (year : Nat) : Bool :=
  year % 4 = 0 && (year % 100 ≠ 0 || year % 400 = 0)

def daysInMonth (year month : Nat) : Nat :=
  if month = 2 then if isLeapYear year then 29 else 28
  else if month ∈ [4, 6, 9, 11] then 30
  else 31

/-- A day that exists, of a year with four digits. -/
def isIsoDate (d : IsoDate) : Bool :=
  0 < IsoDate.month d && IsoDate.month d ≤ 12 && 0 < IsoDate.day d &&
    IsoDate.day d ≤ daysInMonth (IsoDate.year d) (IsoDate.month d) && IsoDate.year d < 10000

/-- Days in the Gregorian calendar, counted from 1 March of the year 0. -/
def dayNumber (d : IsoDate) : Int :=
  let year : Int := IsoDate.year d - if IsoDate.month d ≤ 2 then 1 else 0
  let month := (IsoDate.month d + 9) % 12
  365 * year + year / 4 - year / 100 + year / 400 + (month * 306 + 5) / 10 + IsoDate.day d - 1

example : dayNumber 20260301 - dayNumber 20260228 = 1 := by decide

/-- The year and the month `months` after those of `d`. -/
def monthAfter (d : IsoDate) (months : Nat) : Nat × Nat :=
  let m := IsoDate.month d - 1 + months
  (IsoDate.year d + m / 12, m % 12 + 1)

/-- Clamped to the end of the target month. -/
def addMonthsClamped (d : IsoDate) (months : Nat) : IsoDate :=
  let (y, m) := monthAfter d months
  IsoDate.ofParts y m (min (IsoDate.day d) (daysInMonth y m))

/-- `setUTCMonth`: a day past the end of the target month runs into the next one. -/
def addMonthsIso (d : IsoDate) (months : Nat) : IsoDate :=
  let (y, m) := monthAfter d months
  let last := daysInMonth y m
  if IsoDate.day d ≤ last then IsoDate.ofParts y m (IsoDate.day d)
  else if m = 12 then IsoDate.ofParts (y + 1) 1 (IsoDate.day d - last)
  else IsoDate.ofParts y (m + 1) (IsoDate.day d - last)

example : addMonthsClamped 20250131 1 = 20250228 := by decide
example : addMonthsIso 20250131 1 = 20250303 := by decide

end Pwos
