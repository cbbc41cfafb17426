import Pwos.Domain.Months

/-!
# Monthly recurrence

`nextMonthlyDate` of `features/income/recurring.ts`, called again and again: it visits every
Jalali month once, on the chosen day or the last one that its own table of month lengths has.
The table gives Esfand 29 days, also in a leap year.
-/

namespace Pwos

/-! ## What the recurrence relies on -/

/-- Twelve months of the known lengths, and conversions that are inverse to each other in the
months after that of an ISO day. -/
structure JalaliCalendar.Inverts (cal : JalaliCalendar) : Prop where
  month : ∀ iso, isIsoDate iso → 0 < (cal.toJalali iso).m ∧ (cal.toJalali iso).m ≤ 12
  firstHalf : ∀ y m, 0 < m → m ≤ 6 → cal.jalaliMonthLength y m = 31
  secondHalf : ∀ y m, 6 < m → m ≤ 11 → cal.jalaliMonthLength y m = 30
  esfand : ∀ y, cal.jalaliMonthLength y 12 = 29 ∨ cal.jalaliMonthLength y 12 = 30
  roundTrip : ∀ iso, isIsoDate iso → ∀ date : JalaliDate,
    (cal.toJalali iso).monthBefore date → 0 < date.m → date.m ≤ 12 → 0 < date.d →
    date.d ≤ cal.jalaliMonthLength date.y date.m →
    cal.toJalali (cal.jalaliToIso date.y date.m date.d) = date

/-- The year and the month `n` months after those of a date. -/
def JalaliDate.monthsLater (date : JalaliDate) (n : Nat) : Int × Nat :=
  let index : Int := 12 * date.y + (date.m - 1) + n
  (index / 12, (index % 12).toNat + 1)

section Recurrence
variable {cal : JalaliCalendar} {iso : IsoDate} {day : Nat}

theorem monthsLater_spec (date : JalaliDate) (n : Nat) :
    0 < (date.monthsLater n).2 ∧ (date.monthsLater n).2 ≤ 12 ∧
      12 * (date.monthsLater n).1 + (date.monthsLater n).2 = 12 * date.y + date.m + n := by
  unfold JalaliDate.monthsLater
  dsimp only
  omega

theorem monthBefore_monthsLater {date : JalaliDate} (hm : date.m ≤ 12) {n : Nat} (hn : 0 < n)
    (d : Nat) : date.monthBefore ⟨(date.monthsLater n).1, (date.monthsLater n).2, d⟩ := by
  obtain ⟨hpos, hle, hsum⟩ := monthsLater_spec date n
  unfold JalaliDate.monthBefore
  dsimp only
  omega

theorem jalaliMonthDays_le (hcal : cal.Inverts) (y : Int) {m : Nat} (hm : 0 < m) (hm' : m ≤ 12) :
    jalaliMonthDays m ≤ cal.jalaliMonthLength y m ∧
      (jalaliMonthDays m < cal.jalaliMonthLength y m ↔
        m = 12 ∧ cal.jalaliMonthLength y 12 = 30) := by
  have hfirst := hcal.firstHalf y m hm
  have hsecond := hcal.secondHalf y m
  have hesfand := hcal.esfand y
  unfold jalaliMonthDays
  grind

theorem clampDayOfMonth_eq (hlow : 1 ≤ day) (hhigh : day ≤ 31) : clampDayOfMonth day = day := by
  unfold clampDayOfMonth
  omega

/-- One call, from any text whose month is known. -/
theorem nextMonthlyDate_eq (cal : JalaliCalendar) {date : JalaliDate}
    (hdate : cal.toJalali iso = date) (hm : 0 < date.m) (hm' : date.m ≤ 12) (day : Nat) :
    nextMonthlyDate cal iso day = cal.jalaliToIso (date.monthsLater 1).1 (date.monthsLater 1).2
      (min (clampDayOfMonth day) (jalaliMonthDays (date.monthsLater 1).2)) := by
  have hyear : (if date.m = 12 then date.y + 1 else date.y) = (date.monthsLater 1).1 := by
    unfold JalaliDate.monthsLater
    grind
  have hmonth : (if date.m = 12 then 1 else date.m + 1) = (date.monthsLater 1).2 := by
    unfold JalaliDate.monthsLater
    grind
  unfold nextMonthlyDate
  dsimp only
  rw [hdate, hyear, hmonth]

theorem monthsLater_succ {date : JalaliDate} (n d : Nat) :
    JalaliDate.monthsLater ⟨(date.monthsLater n).1, (date.monthsLater n).2, d⟩ 1 =
      date.monthsLater (n + 1) := by
  unfold JalaliDate.monthsLater
  refine Prod.ext ?_ ?_
  · dsimp only
    omega
  · dsimp only
    omega

/-- After `n` calls. -/
theorem iterate_nextMonthlyDate (hcal : cal.Inverts) (hiso : isIsoDate iso) (hlow : 1 ≤ day)
    (hhigh : day ≤ 31) (n : Nat) :
    let target := (cal.toJalali iso).monthsLater (n + 1)
    let result := (nextMonthlyDate cal · day)^[n + 1] iso
    result = cal.jalaliToIso target.1 target.2 (min day (jalaliMonthDays target.2)) ∧
      cal.toJalali result = ⟨target.1, target.2, min day (jalaliMonthDays target.2)⟩ := by
  obtain ⟨hm, hm'⟩ := hcal.month iso hiso
  -- a day of the target month comes back from its ISO text
  have hback (k : Nat) : let target := (cal.toJalali iso).monthsLater (k + 1)
      cal.toJalali (cal.jalaliToIso target.1 target.2 (min day (jalaliMonthDays target.2))) =
        ⟨target.1, target.2, min day (jalaliMonthDays target.2)⟩ := by
    obtain ⟨hpos, hle, -⟩ := monthsLater_spec (cal.toJalali iso) (k + 1)
    have hdays : 0 < jalaliMonthDays ((cal.toJalali iso).monthsLater (k + 1)).2 := by
      unfold jalaliMonthDays
      grind
    exact hcal.roundTrip iso hiso ⟨_, _, _⟩ (monthBefore_monthsLater hm' (Nat.succ_pos k) _) hpos
      hle (lt_min hlow hdays)
      ((min_le_right _ _).trans (jalaliMonthDays_le hcal _ hpos hle).1)
  induction n with
  | zero =>
    have hfirst := nextMonthlyDate_eq cal rfl hm hm' day
    rw [clampDayOfMonth_eq hlow hhigh] at hfirst
    dsimp only
    rw [Function.iterate_one, hfirst]
    exact ⟨rfl, hback 0⟩
  | succ n ih =>
    obtain ⟨hpos, hle, -⟩ := monthsLater_spec (cal.toJalali iso) (n + 1)
    have hnext := nextMonthlyDate_eq cal ih.2 hpos hle day
    rw [clampDayOfMonth_eq hlow hhigh, monthsLater_succ] at hnext
    dsimp only
    rw [Function.iterate_succ_apply', hnext]
    exact ⟨rfl, hback (n + 1)⟩

/-- Called `n` times, the function is in the `n`-th month after that of the day it began with, so
that it is in every later month once. There it is on the chosen day or, where the month is
shorter, on its last day, except in the Esfand of a leap year when the day is the 30th or 31st. -/
theorem nextMonthlyDate_visits (hcal : cal.Inverts) (hiso : isIsoDate iso) (hlow : 1 ≤ day)
    (hhigh : day ≤ 31) {n : Nat} (hn : 0 < n) :
    let target := (cal.toJalali iso).monthsLater n
    let result := (nextMonthlyDate cal · day)^[n] iso
    (0 < target.2 ∧ target.2 ≤ 12 ∧
      12 * target.1 + target.2 = 12 * (cal.toJalali iso).y + (cal.toJalali iso).m + n) ∧
    (cal.toJalali result).y = target.1 ∧ (cal.toJalali result).m = target.2 ∧
    (result = cal.jalaliToIso target.1 target.2
        (min day (cal.jalaliMonthLength target.1 target.2)) ∧
      (cal.toJalali result).d = min day (cal.jalaliMonthLength target.1 target.2) ↔
      ¬ (target.2 = 12 ∧ cal.jalaliMonthLength target.1 12 = 30 ∧ 30 ≤ day)) := by
  obtain ⟨k, rfl⟩ := Nat.exists_eq_add_of_lt hn
  rw [Nat.zero_add]
  obtain ⟨hresult, hdate⟩ := iterate_nextMonthlyDate hcal hiso hlow hhigh k
  obtain ⟨hpos, hle, hsum⟩ := monthsLater_spec (cal.toJalali iso) (k + 1)
  obtain ⟨hdays, hless⟩ :=
    jalaliMonthDays_le hcal ((cal.toJalali iso).monthsLater (k + 1)).1 hpos hle
  have hesfand : jalaliMonthDays 12 = 29 := rfl
  dsimp only
  rw [hdate, hresult]
  refine ⟨⟨hpos, hle, hsum⟩, rfl, rfl, ?_⟩
  dsimp only
  generalize (cal.toJalali iso).monthsLater (k + 1) = target at *
  constructor
  · rintro ⟨-, hd⟩ ⟨hlast, hleap, hthirty⟩
    rw [hlast, hleap, hesfand] at hd
    omega
  · intro hcond
    have hsame : min day (jalaliMonthDays target.2) =
        min day (cal.jalaliMonthLength target.1 target.2) := by
      rcases hdays.lt_or_eq with hlt | heq
      · obtain ⟨hlast, hleap⟩ := hless.mp hlt
        rw [hlast, hleap, hesfand]
        rw [hlast] at hcond
        omega
      · rw [heq]
    rw [hsame]
    exact ⟨rfl, rfl⟩

end Recurrence

/-! ## The calendar of the years 1375 to 1406

There a Jalali year is leap, and begins a day early, when the Gregorian year that it begins in is
leap. The rule is kept for all other years. -/

/-- How many days early the Jalali year begins that begins in a Gregorian one. -/
def nowruzShift (g : Nat) : Nat := if isLeapYear g then 1 else 0

/-- The first days of the Jalali months in a Gregorian year, before and since Nowruz. -/
def firstDaysWith (before since : Nat) : List Nat :=
  [121 - before, 220 - before, 321 - since, 421 - since, 522 - since, 622 - since, 723 - since,
    823 - since, 923 - since, 1023 - since, 1122 - since, 1222 - since]

def firstDaysIn (g : Nat) : List Nat := firstDaysWith (nowruzShift (g - 1)) (nowruzShift g)

def passedDaysIn (g monthDay : Nat) : Nat := ((firstDaysIn g).filter (· ≤ monthDay)).length

def recentMonthsUntil (iso : IsoDate) : Int :=
  12 * (IsoDate.year iso - 621 : Int) + passedDaysIn (IsoDate.year iso) (iso % 10000) - 3

def recentMonthFirst (months : Int) : Nat :=
  let g := ((months + 2) / 12 + 621).toNat
  g * 10000 + (firstDaysIn g).getD ((months + 2) % 12).toNat 0

def recentYears : JalaliCalendar where
  toJalali iso :=
    let months := recentMonthsUntil iso
    let first := recentMonthFirst months
    { y := months / 12
      m := (months % 12).toNat + 1
      d := if first / 100 = iso / 100 then iso - first + 1
        else IsoDate.day iso + daysInMonth (IsoDate.year first) (IsoDate.month first) + 1 -
          IsoDate.day first }
  jalaliToIso y m d := daysAfter (recentMonthFirst (12 * y + m - 1)) (d - 1)
  jalaliMonthLength y m :=
    if m = 12 ∧ isLeapYear (y + 621).toNat then 30 else jalaliMonthDays m

theorem isoParts (g : Nat) {md : Nat} (h : md < 10000) :
    IsoDate.year (g * 10000 + md : Nat) = g ∧ IsoDate.month (g * 10000 + md : Nat) = md / 100 ∧
      IsoDate.day (g * 10000 + md : Nat) = md % 100 := by
  unfold IsoDate.year IsoDate.month IsoDate.day
  refine ⟨?_, ?_, ?_⟩ <;> omega

theorem firstDaysIn_spec (g : Nat) : (firstDaysIn g).length = 12 ∧
    (firstDaysIn g).Pairwise (· < ·) ∧ ∀ md ∈ firstDaysIn g, md < 10000 := by
  unfold firstDaysIn firstDaysWith nowruzShift
  split_ifs <;> decide

theorem passedDaysIn_le (g monthDay : Nat) : passedDaysIn g monthDay ≤ 12 :=
  (List.length_filter_le _ _).trans (firstDaysIn_spec g).1.le

theorem firstDaysIn_lt (g i : Nat) : (firstDaysIn g).getD i 0 < 10000 := by
  rcases Nat.lt_or_ge i (firstDaysIn g).length with hlt | hge
  · rw [← List.getElem_eq_getD (h := hlt)]
    exact (firstDaysIn_spec g).2.2 _ (List.getElem_mem hlt)
  · rw [List.getD_eq_getElem?_getD, List.getElem?_eq_none hge]
    decide

theorem lt_recentMonthFirst_iff (d : Nat) {months : Int} (h : -7454 ≤ months) :
    d < recentMonthFirst months ↔ recentMonthsUntil d < months := by
  have hpassed := passedDaysIn_le (d / 10000) (d % 10000)
  obtain ⟨i, hi⟩ : ∃ i : Nat, ((months + 2) % 12).toNat = i := ⟨_, rfl⟩
  have hiff : passedDaysIn (d / 10000) (d % 10000) ≤ i ↔
      d % 10000 < (firstDaysIn (d / 10000)).getD i 0 :=
    length_filter_le_iff (firstDaysIn_spec _).2.1 (d % 10000) (by
      rw [(firstDaysIn_spec _).1]
      omega)
  have hfirst := firstDaysIn_lt ((months + 2) / 12 + 621).toNat i
  have hyear : IsoDate.year d = d / 10000 := rfl
  unfold recentMonthFirst recentMonthsUntil
  dsimp only
  rw [hi, hyear]
  rcases lt_trichotomy (d / 10000) ((months + 2) / 12 + 621).toNat with hy | hy | hy
  · generalize (firstDaysIn ((months + 2) / 12 + 621).toNat).getD i 0 = first at *
    generalize passedDaysIn (d / 10000) (d % 10000) = passed at *
    omega
  · rw [← hy] at hfirst ⊢
    generalize (firstDaysIn (d / 10000)).getD i 0 = first at *
    generalize passedDaysIn (d / 10000) (d % 10000) = passed at *
    omega
  · generalize (firstDaysIn ((months + 2) / 12 + 621).toNat).getD i 0 = first at *
    generalize passedDaysIn (d / 10000) (d % 10000) = passed at *
    omega

/-- Some days after a day of one month come before a day of the next. -/
theorem daysAfter_lt {g md md' k : Nat} (hmd : md < 10000) (hm : md / 100 < 12)
    (hnext : md' / 100 = md / 100 + 1) (hday : md % 100 ≤ 28)
    (hk : md % 100 + k < daysInMonth g (md / 100) + md' % 100) :
    (daysAfter (g * 10000 + md : Nat) k : Nat) < g * 10000 + md' := by
  obtain ⟨hy, hmo, hd⟩ := isoParts g hmd
  have hlast := daysInMonth_le g (md / 100)
  unfold daysAfter IsoDate.ofParts
  rw [hy, hmo, hd]
  dsimp only
  generalize daysInMonth g (md / 100) = last at *
  split_ifs
  · show g * 10000 + md < _
    omega
  · show g * 10000 + md + k < _
    omega
  · omega
  · show g * 10000 + (md / 100 + 1) * 100 + (md % 100 + k - last) < _
    omega

/-- The same across the end of a year. -/
theorem daysAfter_lt_year {g md md' k : Nat} (hmd : md < 10000) (hm : md / 100 = 12)
    (hnext : md' / 100 = 1) (hk : md % 100 + k < 31 + md' % 100) :
    (daysAfter (g * 10000 + md : Nat) k : Nat) < (g + 1) * 10000 + md' := by
  obtain ⟨hy, hmo, hd⟩ := isoParts g hmd
  have hlast : daysInMonth g 12 = 31 := rfl
  unfold daysAfter IsoDate.ofParts
  rw [hy, hmo, hd, hm, hlast]
  dsimp only
  split_ifs
  · show g * 10000 + md < _
    omega
  · show g * 10000 + md + k < _
    omega
  · show (g + 1) * 10000 + 1 * 100 + (md % 100 + k - 31) < _
    omega
  · exact absurd rfl ‹¬12 = 12›

theorem le_daysAfter {g md k : Nat} (hmd : md < 10000) (hday : md % 100 ≤ 28) :
    g * 10000 + md ≤ (daysAfter (g * 10000 + md : Nat) k : Nat) := by
  obtain ⟨hy, hmo, hd⟩ := isoParts g hmd
  unfold daysAfter IsoDate.ofParts
  rw [hy, hmo, hd]
  dsimp only
  split_ifs with h0 hfit hdec
  · exact le_rfl
  · exact Nat.le_add_right _ _
  · show _ ≤ (g + 1) * 10000 + 1 * 100 + _
    omega
  · show _ ≤ g * 10000 + (md / 100 + 1) * 100 + _
    omega

/-- The day of the month is read off again. -/
theorem daysAfter_day {g md k : Nat} (hmd : md < 10000)
    (hday : 0 < md % 100) (hday' : md % 100 ≤ 28) (hk : k ≤ 31) :
    let first : Nat := g * 10000 + md
    let iso : Nat := daysAfter first k
    (if first / 100 = iso / 100 then iso - first + 1
      else IsoDate.day iso + daysInMonth (IsoDate.year first) (IsoDate.month first) + 1 -
        IsoDate.day first) = k + 1 := by
  obtain ⟨hy, hmo, hd⟩ := isoParts g hmd
  have hlow : 28 ≤ daysInMonth g (md / 100) := by
    unfold daysInMonth
    grind
  have hhigh := daysInMonth_le g (md / 100)
  dsimp only
  rw [hy, hmo, hd]
  have hval : (daysAfter (g * 10000 + md : Nat) k : Nat) =
      if k = 0 then g * 10000 + md
      else if md % 100 + k ≤ daysInMonth g (md / 100) then g * 10000 + md + k
      else if md / 100 = 12 then (g + 1) * 10000 + 100 + (md % 100 + k - daysInMonth g (md / 100))
      else g * 10000 + (md / 100 + 1) * 100 + (md % 100 + k - daysInMonth g (md / 100)) := by
    unfold daysAfter IsoDate.ofParts
    rw [hy, hmo, hd]
  rw [hval]
  unfold IsoDate.day
  generalize daysInMonth g (md / 100) = last at *
  split_ifs <;> omega

/-- The length of a Jalali month by its place among those that begin in a Gregorian year. -/
def lengthAt (before i : Nat) : Nat :=
  if i = 1 then 29 + before else jalaliMonthDays ((i + 10) % 12 + 1)

/-- The length of a Gregorian month. -/
def lastDayWith (since month : Nat) : Nat :=
  if month = 2 then 28 + since else if month ∈ [4, 6, 9, 11] then 30 else 31

theorem daysInMonth_eq (g m : Nat) : daysInMonth g m = lastDayWith (nowruzShift g) m := by
  unfold daysInMonth lastDayWith nowruzShift
  grind

theorem nowruzShift_le (g : Nat) : nowruzShift g < 2 := by
  unfold nowruzShift
  grind

/-- Each month ends where the next one begins. -/
theorem firstDaysWith_next : ∀ before < 2, ∀ since < 2, ∀ i < 11,
    let md := (firstDaysWith before since).getD i 0
    let md' := (firstDaysWith before since).getD (i + 1) 0
    md / 100 < 12 ∧ md' / 100 = md / 100 + 1 ∧
      md % 100 + lengthAt before i = lastDayWith since (md / 100) + md' % 100 := by
  decide

theorem firstDaysWith_bounds : ∀ before < 2, ∀ since < 2, ∀ i < 12,
    let md := (firstDaysWith before since).getD i 0
    0 < md % 100 ∧ md % 100 ≤ 28 := by
  decide

/-- The last month of a Gregorian year ends where the first one of the next begins. -/
theorem firstDaysWith_last : ∀ before < 2, ∀ since < 2, ∀ after < 2,
    let md := (firstDaysWith before since).getD 11 0
    let md' := (firstDaysWith since after).getD 0 0
    md / 100 = 12 ∧ md' / 100 = 1 ∧ md % 100 + lengthAt before 11 = 31 + md' % 100 := by
  decide

/-- The months follow each other. -/
theorem daysAfter_recentMonthFirst (g : Nat) {i k : Nat} (hi : i < 12)
    (hk : k < lengthAt (nowruzShift (g - 1)) i) :
    (daysAfter (g * 10000 + (firstDaysIn g).getD i 0 : Nat) k : Nat) <
      if i = 11 then (g + 1) * 10000 + (firstDaysIn (g + 1)).getD 0 0
      else g * 10000 + (firstDaysIn g).getD (i + 1) 0 := by
  have hsmall := firstDaysIn_lt g i
  have hbefore := nowruzShift_le (g - 1)
  have hsince := nowruzShift_le g
  split
  · subst i
    obtain ⟨hm, hm', hlen⟩ := firstDaysWith_last _ hbefore _ hsince _ (nowruzShift_le (g + 1))
    apply daysAfter_lt_year hsmall hm
    · unfold firstDaysIn
      rwa [Nat.add_sub_cancel]
    · unfold firstDaysIn
      rw [Nat.add_sub_cancel]
      omega
  · obtain ⟨hm, hm', hlen⟩ := firstDaysWith_next _ hbefore _ hsince i (by omega)
    obtain ⟨-, hday⟩ := firstDaysWith_bounds _ hbefore _ hsince i hi
    apply daysAfter_lt hsmall hm hm' hday
    rw [daysInMonth_eq]
    unfold firstDaysIn
    omega

theorem recentMonthFirst_succ {months : Int} (h : -7454 ≤ months) :
    let g := ((months + 2) / 12 + 621).toNat
    let i := ((months + 2) % 12).toNat
    recentMonthFirst (months + 1) =
      if i = 11 then (g + 1) * 10000 + (firstDaysIn (g + 1)).getD 0 0
      else g * 10000 + (firstDaysIn g).getD (i + 1) 0 := by
  unfold recentMonthFirst
  dsimp only
  split
  · have hg : ((months + 1 + 2) / 12 + 621).toNat = ((months + 2) / 12 + 621).toNat + 1 := by omega
    have hi : ((months + 1 + 2) % 12).toNat = 0 := by omega
    rw [hg, hi]
  · have hg : ((months + 1 + 2) / 12 + 621).toNat = ((months + 2) / 12 + 621).toNat := by omega
    have hi : ((months + 1 + 2) % 12).toNat = ((months + 2) % 12).toNat + 1 := by omega
    rw [hg, hi]

theorem lengthAt_recentYears {y : Int} {m : Nat} (hy : -622 ≤ y) (hm : 0 < m) (hm' : m ≤ 12)
    (hfirst : -7454 ≤ 12 * y + m - 1) :
    recentYears.jalaliMonthLength y m =
      lengthAt (nowruzShift (((12 * y + m - 1 + 2) / 12 + 621).toNat - 1))
        ((12 * y + m - 1 + 2) % 12).toNat := by
  unfold lengthAt recentYears
  dsimp only
  by_cases hlast : m = 12
  · subst hlast
    have hg : ((12 * y + (12 : Nat) - 1 + 2) / 12 + 621).toNat - 1 = (y + 621).toNat := by omega
    have hi : ((12 * y + (12 : Nat) - 1 + 2) % 12).toNat = 1 := by omega
    rw [hg, hi, if_pos rfl, nowruzShift]
    have hdays : jalaliMonthDays 12 = 29 := rfl
    split_ifs <;> grind
  · have hi : ((12 * y + m - 1 + 2) % 12).toNat ≠ 1 := by omega
    have hback : (((12 * y + m - 1 + 2) % 12).toNat + 10) % 12 + 1 = m := by omega
    rw [if_neg fun hno => hlast hno.1, if_neg hi, hback]

/-- A day that `recentYears` makes is in the month it is made from. -/
theorem recentYears_jalaliToIso_bounds {y : Int} {m d : Nat} (hmonths : -7454 ≤ 12 * y + m - 1)
    (hm : 0 < m) (hm' : m ≤ 12) (hd : 0 < d) (hd' : d ≤ recentYears.jalaliMonthLength y m) :
    recentMonthFirst (12 * y + m - 1) ≤ (recentYears.jalaliToIso y m d : Nat) ∧
      (recentYears.jalaliToIso y m d : Nat) < recentMonthFirst (12 * y + m - 1 + 1) := by
  rw [lengthAt_recentYears (by omega) hm hm' hmonths] at hd'
  have hfirst : recentMonthFirst (12 * y + m - 1) =
    ((12 * y + m - 1 + 2) / 12 + 621).toNat * 10000 +
      (firstDaysIn ((12 * y + m - 1 + 2) / 12 + 621).toNat).getD
        ((12 * y + m - 1 + 2) % 12).toNat 0 := rfl
  have hnext := recentMonthFirst_succ hmonths
  simp only [recentYears]
  dsimp only at hnext
  generalize hg : ((12 * y + m - 1 + 2) / 12 + 621).toNat = g at *
  generalize hi : ((12 * y + m - 1 + 2) % 12).toNat = i at *
  have hi12 : i < 12 := by omega
  obtain ⟨-, hday⟩ :=
    firstDaysWith_bounds _ (nowruzShift_le (g - 1)) _ (nowruzShift_le g) i hi12
  have hlow := le_daysAfter (g := g) (k := d - 1) (firstDaysIn_lt g i) hday
  have hhigh := daysAfter_recentMonthFirst g (k := d - 1) hi12 (by omega)
  rw [← hnext] at hhigh
  rw [← hfirst] at hlow hhigh
  exact ⟨hlow, hhigh⟩

theorem recentMonthsUntil_ge (iso : IsoDate) : -7455 ≤ recentMonthsUntil iso := by
  unfold recentMonthsUntil
  omega

/-- A month after that of a day is among those that the calendar counts. -/
theorem monthBefore_recentYears {iso : IsoDate} {date : JalaliDate} (hm : 0 < date.m)
    (hbefore : (recentYears.toJalali iso).monthBefore date) :
    recentMonthsUntil iso < 12 * date.y + date.m - 1 := by
  simp only [recentYears, JalaliDate.monthBefore] at hbefore
  omega

theorem recentYears_inverts : recentYears.Inverts where
  month iso _ := by
    simp only [recentYears]
    omega
  firstHalf y m hm hm' := by
    simp only [recentYears, jalaliMonthDays]
    grind
  secondHalf y m hm hm' := by
    simp only [recentYears, jalaliMonthDays]
    grind
  esfand y := by
    simp only [recentYears, jalaliMonthDays]
    grind
  roundTrip iso _ date hbefore hm hm' hd hd' := by
    have hmonths : -7454 ≤ 12 * date.y + date.m - 1 := by
      have := monthBefore_recentYears hm hbefore
      have := recentMonthsUntil_ge iso
      omega
    obtain ⟨y, m, d⟩ := date
    dsimp only at hm hm' hd hd' hmonths
    obtain ⟨hlow, hhigh⟩ := recentYears_jalaliToIso_bounds hmonths hm hm' hd hd'
    rw [lengthAt_recentYears (by omega) hm hm' hmonths] at hd'
    simp only [recentYears] at hlow hhigh
    have hfirst : recentMonthFirst (12 * y + m - 1) =
      ((12 * y + m - 1 + 2) / 12 + 621).toNat * 10000 +
        (firstDaysIn ((12 * y + m - 1 + 2) / 12 + 621).toNat).getD
          ((12 * y + m - 1 + 2) % 12).toNat 0 := rfl
    generalize hg : ((12 * y + m - 1 + 2) / 12 + 621).toNat = g at *
    generalize hi : ((12 * y + m - 1 + 2) % 12).toNat = i at *
    have hi12 : i < 12 := by omega
    obtain ⟨hday, hday'⟩ :=
      firstDaysWith_bounds _ (nowruzShift_le (g - 1)) _ (nowruzShift_le g) i hi12
    have hlength : lengthAt (nowruzShift (g - 1)) i ≤ 31 := by
      have := nowruzShift_le (g - 1)
      unfold lengthAt jalaliMonthDays
      grind
    have hread := daysAfter_day (g := g) (k := d - 1) (firstDaysIn_lt g i) hday hday' (by omega)
    dsimp only at hread
    rw [← hfirst] at hread
    -- the day lies in the month it was made from
    have hmonth : recentMonthsUntil (daysAfter (recentMonthFirst (12 * y + m - 1)) (d - 1)) =
        12 * y + m - 1 := by
      have hge := (lt_recentMonthFirst_iff (daysAfter (recentMonthFirst (12 * y + m - 1)) (d - 1))
        hmonths).not.mp (Nat.not_lt.mpr hlow)
      have hlater : -7454 ≤ 12 * y + m - 1 + 1 := by omega
      have hlt := (lt_recentMonthFirst_iff (daysAfter (recentMonthFirst (12 * y + m - 1)) (d - 1))
        hlater).mp hhigh
      omega
    simp only [recentYears]
    rw [hmonth, hread, JalaliDate.mk.injEq]
    refine ⟨?_, ?_, ?_⟩ <;> omega

/-- A salary on the 25th, two months on. -/
theorem nextMonthlyDate_visits_april :
    recentYears.toJalali 20250210 = ⟨1403, 11, 22⟩ ∧
      (nextMonthlyDate recentYears · 25)^[2] 20250210 = 20250414 ∧
      (recentYears.toJalali ((nextMonthlyDate recentYears · 25)^[2] 20250210)).m = 1 := by
  have hvisits := nextMonthlyDate_visits recentYears_inverts (by decide : isIsoDate 20250210)
    (by decide : 1 ≤ 25) (by decide) (by decide : 0 < 2)
  exact ⟨by decide, by decide, hvisits.2.2.1⟩

/-- From Bahman of the leap year 1403 the 30th comes on 29 Esfand, a day before the last. -/
theorem nextMonthlyDate_of_leap_esfand : recentYears.Inverts ∧ isIsoDate 20250210 ∧
    recentYears.toJalali 20250210 = ⟨1403, 11, 22⟩ ∧ recentYears.jalaliMonthLength 1403 12 = 30 ∧
    nextMonthlyDate recentYears 20250210 30 = 20250319 ∧
    recentYears.jalaliToIso 1403 12 (min 30 (recentYears.jalaliMonthLength 1403 12)) =
      20250320 :=
  ⟨recentYears_inverts, by decide⟩

/-! ## The order of days -/

/-- A day that the month has. -/
def JalaliCalendar.HasDay (cal : JalaliCalendar) (date : JalaliDate) : Prop :=
  0 < date.m ∧ date.m ≤ 12 ∧ 0 < date.d ∧ date.d ≤ cal.jalaliMonthLength date.y date.m

/-- Days of the months after that of an ISO day come after it, and in the order of their months. -/
structure JalaliCalendar.Ordered (cal : JalaliCalendar) : Prop where
  day : ∀ iso, isIsoDate iso →
    0 < (cal.toJalali iso).m ∧ (cal.toJalali iso).m ≤ 12 ∧ 0 < (cal.toJalali iso).d
  length : ∀ y m, 0 < m → m ≤ 12 → 0 < cal.jalaliMonthLength y m
  after : ∀ iso, isIsoDate iso → ∀ date : JalaliDate, (cal.toJalali iso).monthBefore date →
    cal.HasDay date → iso < cal.jalaliToIso date.y date.m date.d
  increasing : ∀ iso, isIsoDate iso → ∀ a b : JalaliDate, (cal.toJalali iso).monthBefore a →
    a.monthBefore b → cal.HasDay a → cal.HasDay b →
    cal.jalaliToIso a.y a.m a.d < cal.jalaliToIso b.y b.m b.d

theorem recentMonthFirst_mono {months later : Int} (h : -7454 ≤ months) (hle : months ≤ later) :
    recentMonthFirst months ≤ recentMonthFirst later := by
  have hself := (lt_recentMonthFirst_iff (recentMonthFirst later) (h.trans hle)).not.mp (lt_irrefl _)
  refine Nat.not_lt.mp fun hlt => ?_
  have := (lt_recentMonthFirst_iff (recentMonthFirst later) h).mp hlt
  omega

theorem recentYears_ordered : recentYears.Ordered where
  day iso _ := by
    have hdays : IsoDate.day (recentMonthFirst (recentMonthsUntil iso)) ≤ 28 := by
      obtain ⟨i, hi⟩ : ∃ i : Nat, ((recentMonthsUntil iso + 2) % 12).toNat = i := ⟨_, rfl⟩
      have hi12 : i < 12 := by omega
      unfold recentMonthFirst
      dsimp only
      rw [hi, (isoParts _ (firstDaysIn_lt _ i)).2.2]
      exact (firstDaysWith_bounds _ (nowruzShift_le _) _ (nowruzShift_le _) i hi12).2
    have hlast : 28 ≤ daysInMonth (IsoDate.year (recentMonthFirst (recentMonthsUntil iso)))
        (IsoDate.month (recentMonthFirst (recentMonthsUntil iso))) := by
      unfold daysInMonth
      grind
    simp only [recentYears]
    refine ⟨by omega, by omega, ?_⟩
    split <;> omega
  length y m hm hm' := by
    simp only [recentYears, jalaliMonthDays]
    grind
  after iso _ date hbefore hday := by
    obtain ⟨hm, hm', hd, hd'⟩ := hday
    have hlater := monthBefore_recentYears hm hbefore
    have hleast := recentMonthsUntil_ge iso
    have hlow := (recentYears_jalaliToIso_bounds (by omega) hm hm' hd hd').1
    exact lt_of_lt_of_le ((lt_recentMonthFirst_iff iso (by omega)).mpr hlater) hlow
  increasing iso _ a b hbefore hab ha hb := by
    obtain ⟨hm, hm', hd, hd'⟩ := ha
    obtain ⟨hmb, hmb', hdb, hdb'⟩ := hb
    have hlater := monthBefore_recentYears hm hbefore
    have hleast := recentMonthsUntil_ge iso
    have hmonths : 12 * a.y + a.m - 1 + 1 ≤ 12 * b.y + b.m - 1 := by
      unfold JalaliDate.monthBefore at hab
      omega
    have hhigh := (recentYears_jalaliToIso_bounds (by omega) hm hm' hd hd').2
    have hlow := (recentYears_jalaliToIso_bounds (by omega) hmb hmb' hdb hdb').1
    exact lt_of_lt_of_le hhigh ((recentMonthFirst_mono (by omega) hmonths).trans hlow)

end Pwos
