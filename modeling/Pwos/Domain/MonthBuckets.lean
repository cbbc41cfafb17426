import Pwos.Domain.Months

/-!
# The months back from a day

`recentJalaliMonths` of `lib/format.ts` over any type of days: the loop steps back month by month
and takes the first day of a month for the end of the one before. With conversions that are inverse
to each other and keep the order, its ranges are the months themselves, one for each.
-/

namespace Pwos

/-- The functions of the calendar package, as `lib/format.ts` wraps them, on days of any kind. -/
structure DayCalendar (D : Type) where
  toJalali : D → JalaliDate
  fromJalali : Int → Nat → Nat → D
  monthLength : Int → Nat → Nat

/-- The days `[start, stop)`. -/
structure DayRange (D : Type) where
  start : D
  stop : D
  deriving DecidableEq, Repr

namespace DayCalendar
variable {D : Type} (cal : DayCalendar D)

/-- One pass of the loop for each month, backwards from the first day after the last one. -/
def monthsBack : Nat → Int → Nat → D → List (DayRange D) → List (DayRange D)
  | 0, _, _, _, out => out
  | n + 1, y, m, stop, out =>
    let year := if m ≤ 1 then y - 1 else y
    let month := if m ≤ 1 then 12 else m - 1
    let start := cal.fromJalali year month 1
    monthsBack n year month start ({ start, stop } :: out)

def recentJalaliMonths (months : Nat) (today : D) : List (DayRange D) :=
  let date := cal.toJalali today
  let year := if date.m + 1 > 12 then date.y + 1 else date.y
  let month := if date.m + 1 > 12 then 1 else date.m + 1
  cal.monthsBack (max 1 months) year month (cal.fromJalali year month 1) []

end DayCalendar

/-- The calendar of the ISO texts. -/
def JalaliCalendar.days (cal : JalaliCalendar) : DayCalendar IsoDate where
  toJalali := cal.toJalali
  fromJalali := cal.jalaliToIso
  monthLength := cal.jalaliMonthLength

/-- On ISO texts these are the ranges of the month reports. -/
theorem recentJalaliMonths_days (cal : JalaliCalendar) (months : Nat) (today : IsoDate) :
    recentJalaliMonths cal months today =
      (cal.days.recentJalaliMonths months today).map fun r => ⟨r.start, r.stop⟩ := by
  have hback (n : Nat) (y : Int) (m : Nat) (stop : IsoDate) (out : List (DayRange IsoDate)) :
      monthsBack cal n y m stop (out.map fun r => ⟨r.start, r.stop⟩) =
        (cal.days.monthsBack n y m stop out).map fun r => ⟨r.start, r.stop⟩ := by
    induction n generalizing y m stop out with
    | zero => rfl
    | succ n ih =>
      let year := if m ≤ 1 then y - 1 else y
      let month := if m ≤ 1 then 12 else m - 1
      exact ih year month (cal.jalaliToIso year month 1)
        (⟨cal.jalaliToIso year month 1, stop⟩ :: out)
  exact hback _ _ _ _ []

/-! ## What the calendar does -/

/-- The months before that of the date, counted from the year 0. -/
def JalaliDate.monthNumber (date : JalaliDate) : Int := 12 * date.y + date.m - 1

def JalaliDate.before (a b : JalaliDate) : Prop :=
  a.y < b.y ∨ a.y = b.y ∧ (a.m < b.m ∨ a.m = b.m ∧ a.d < b.d)

namespace DayCalendar
variable {D : Type} [LinearOrder D] (cal : DayCalendar D)

/-- A day that the month has. -/
def HasDay (date : JalaliDate) : Prop :=
  0 < date.m ∧ date.m ≤ 12 ∧ 0 < date.d ∧ date.d ≤ cal.monthLength date.y date.m

/-- The conversions are inverse to each other and strictly monotone. -/
structure Lawful : Prop where
  length : ∀ y m, 0 < m → m ≤ 12 → 0 < cal.monthLength y m
  hasDay : ∀ d, cal.HasDay (cal.toJalali d)
  fromJalali_toJalali : ∀ d,
    cal.fromJalali (cal.toJalali d).y (cal.toJalali d).m (cal.toJalali d).d = d
  toJalali_fromJalali : ∀ date, cal.HasDay date →
    cal.toJalali (cal.fromJalali date.y date.m date.d) = date
  fromJalali_lt : ∀ a b, cal.HasDay a → cal.HasDay b → a.before b →
    cal.fromJalali a.y a.m a.d < cal.fromJalali b.y b.m b.d

/-- The first day of the month with a number. -/
def firstDay (number : Int) : D := cal.fromJalali (number / 12) ((number % 12).toNat + 1) 1

def month (number : Int) : DayRange D := ⟨cal.firstDay number, cal.firstDay (number + 1)⟩

variable {cal} {number : Int} {d : D}

theorem Lawful.hasDay_first (h : cal.Lawful) (number : Int) :
    cal.HasDay ⟨number / 12, (number % 12).toNat + 1, 1⟩ := by
  have hmonths : (number % 12).toNat + 1 ≤ 12 := by omega
  exact ⟨Nat.succ_pos _, hmonths, one_pos, h.length _ _ (Nat.succ_pos _) hmonths⟩

/-- A day comes before the first day of a month exactly when its own month does. -/
theorem Lawful.lt_firstDay_iff (h : cal.Lawful) (number : Int) (d : D) :
    d < cal.firstDay number ↔ (cal.toJalali d).monthNumber < number := by
  have hfirst := h.hasDay_first number
  have hday := h.hasDay d
  have hback := h.fromJalali_toJalali d
  have hbefore := h.fromJalali_lt
  generalize cal.toJalali d = date at *
  obtain ⟨hm, hm', hd, -⟩ := id hday
  obtain ⟨y, m, k⟩ := date
  simp only [JalaliDate.monthNumber, firstDay] at *
  constructor
  · intro hlt
    by_contra hnot
    -- a day of the month or of a later one is the first day or comes after it
    have hle : cal.fromJalali (number / 12) ((number % 12).toNat + 1) 1 ≤ d := by
      rw [← hback]
      by_cases heq : y = number / 12 ∧ m = (number % 12).toNat + 1 ∧ k = 1
      · obtain ⟨rfl, rfl, rfl⟩ := heq
        exact le_rfl
      · refine (hbefore _ _ hfirst hday ?_).le
        simp only [JalaliDate.before]
        omega
    exact absurd hlt (not_lt.mpr hle)
  · intro hlt
    rw [← hback]
    refine hbefore _ _ hday hfirst ?_
    simp only [JalaliDate.before]
    omega

theorem Lawful.firstDay_le_iff (h : cal.Lawful) (number : Int) (d : D) :
    cal.firstDay number ≤ d ↔ number ≤ (cal.toJalali d).monthNumber := by
  rw [← not_lt, h.lt_firstDay_iff, not_lt]

theorem Lawful.firstDay_strictMono (h : cal.Lawful) : StrictMono cal.firstDay := by
  intro a b hab
  have hback : cal.toJalali (cal.firstDay a) = ⟨a / 12, (a % 12).toNat + 1, 1⟩ :=
    h.toJalali_fromJalali _ (h.hasDay_first a)
  rw [h.lt_firstDay_iff, hback]
  simp only [JalaliDate.monthNumber]
  omega

end DayCalendar

/-- A day lies in a half-open range. -/
def DayRange.contains {D : Type} [LinearOrder D] (b : DayRange D) (d : D) : Bool :=
  b.start ≤ d && d < b.stop

theorem DayRange.contains_iff {D : Type} [LinearOrder D] {b : DayRange D} {d : D} :
    b.contains d ↔ b.start ≤ d ∧ d < b.stop := by
  simp [DayRange.contains]

namespace DayCalendar
variable {D : Type} [LinearOrder D] {cal : DayCalendar D} {today d : D} {n : Nat}

theorem Lawful.month_contains (h : cal.Lawful) (number : Int) (d : D) :
    (cal.month number).contains d ↔ (cal.toJalali d).monthNumber = number := by
  rw [DayRange.contains_iff, month, h.firstDay_le_iff, h.lt_firstDay_iff]
  omega

/-! ## The loop -/

omit [LinearOrder D] in
/-- After `n` passes from the first day of a month, the `n` months before it stand in the list. -/
theorem monthsBack_eq (n : Nat) {y : Int} {m : Nat} (hm : 0 < m ∧ m ≤ 12)
    (out : List (DayRange D)) : cal.monthsBack n y m (cal.firstDay (12 * y + m - 1)) out =
      ((List.range n).map fun k => cal.month (12 * y + m - 2 - (k : Nat))).reverse ++ out := by
  induction n generalizing y m out with
  | zero => rfl
  | succ n ih =>
    obtain ⟨year, hyear⟩ : ∃ year, year = if m ≤ 1 then y - 1 else y := ⟨_, rfl⟩
    obtain ⟨month', hmonth⟩ : ∃ month', month' = if m ≤ 1 then 12 else m - 1 := ⟨_, rfl⟩
    have hstep : cal.monthsBack (n + 1) y m (cal.firstDay (12 * y + m - 1)) out =
        cal.monthsBack n year month' (cal.fromJalali year month' 1)
          (⟨cal.fromJalali year month' 1, cal.firstDay (12 * y + m - 1)⟩ :: out) := by
      rw [hyear, hmonth]
      rfl
    have hnumber : 12 * year + month' - 1 = 12 * y + m - 2 := by grind
    have hrange : 0 < month' ∧ month' ≤ 12 := by grind
    have hstart : cal.fromJalali year month' 1 = cal.firstDay (12 * year + month' - 1) := by
      have hdiv : (12 * year + month' - 1) / 12 = year := by omega
      have hmod : ((12 * year + month' - 1) % 12).toNat + 1 = month' := by omega
      rw [firstDay, hdiv, hmod]
    have hshift (k : Nat) :
        cal.month (12 * year + month' - 2 - k) = cal.month (12 * y + m - 2 - (k + 1 : Nat)) := by
      congr 1
      omega
    have hlast : cal.month (12 * y + m - 2 - (0 : Nat)) =
        ⟨cal.firstDay (12 * year + month' - 1), cal.firstDay (12 * y + m - 1)⟩ := by
      have hnext : 12 * y + m - 2 - (0 : Nat) + 1 = 12 * y + m - 1 := by omega
      rw [month, hnext, hnumber, Nat.cast_zero, sub_zero]
    rw [hstep, hstart, ih hrange, List.range_succ_eq_map, List.map_cons, List.map_map,
      List.reverse_cons, List.append_assoc, hlast]
    simp only [hshift]
    rfl

/-- From the last one back, the ranges are the months up to that of the day. -/
theorem reverse_recentJalaliMonths (h : cal.Lawful) (n : Nat) (today : D) :
    (cal.recentJalaliMonths n today).reverse = (List.range (max 1 n)).map fun k =>
      cal.month ((cal.toJalali today).monthNumber - (k : Nat)) := by
  obtain ⟨hm, hm', -⟩ := h.hasDay today
  obtain ⟨year, hyear⟩ : ∃ year, year = if (cal.toJalali today).m + 1 > 12
    then (cal.toJalali today).y + 1 else (cal.toJalali today).y := ⟨_, rfl⟩
  obtain ⟨month', hmonth⟩ : ∃ month', month' = if (cal.toJalali today).m + 1 > 12
    then 1 else (cal.toJalali today).m + 1 := ⟨_, rfl⟩
  have hstart : cal.fromJalali year month' 1 = cal.firstDay (12 * year + month' - 1) := by
    have hdiv : (12 * year + month' - 1) / 12 = year := by grind
    have hmod : ((12 * year + month' - 1) % 12).toNat + 1 = month' := by grind
    rw [firstDay, hdiv, hmod]
  have hcall : cal.recentJalaliMonths n today =
      cal.monthsBack (max 1 n) year month' (cal.fromJalali year month' 1) [] := by
    rw [hyear, hmonth]
    rfl
  have hnumber : 12 * year + month' - 2 = (cal.toJalali today).monthNumber := by
    unfold JalaliDate.monthNumber
    grind
  rw [hcall, hstart, monthsBack_eq _ (by grind), List.append_nil, List.reverse_reverse, hnumber]

theorem getElem?_reverse_recentJalaliMonths (h : cal.Lawful) (hn : 1 ≤ n) {k : Nat}
    {b : DayRange D} (hb : (cal.recentJalaliMonths n today).reverse[k]? = some b) :
    k < n ∧ b = cal.month ((cal.toJalali today).monthNumber - k) := by
  rw [reverse_recentJalaliMonths h, max_eq_right hn, List.getElem?_map,
    Option.map_eq_some_iff] at hb
  obtain ⟨j, hj, rfl⟩ := hb
  obtain ⟨hlt, rfl⟩ := List.getElem?_eq_some_iff.mp hj
  rw [List.getElem_range]
  exact ⟨by simpa using hlt, rfl⟩

theorem recentJalaliMonths_eq (h : cal.Lawful) (hn : 1 ≤ n) (today : D) :
    cal.recentJalaliMonths n today = ((List.range n).map fun k =>
      cal.month ((cal.toJalali today).monthNumber - (k : Nat))).reverse := by
  rw [← List.reverse_eq_iff, reverse_recentJalaliMonths h, max_eq_right hn]

/-- The ranges are the months up to that of today, from the first on and without a gap, so that a
day of the window lies in exactly one of them. -/
theorem recentJalaliMonths_partition (h : cal.Lawful) (hn : 1 ≤ n) (today : D) :
    let bs := cal.recentJalaliMonths n today
    bs.length = n ∧ bs.IsChain (fun a b => a.stop = b.start) ∧
    bs.Pairwise (fun a b => a.start < b.start) ∧ (∀ b ∈ bs, b.start < b.stop) ∧
    (∀ (k : Nat) b, bs.reverse[k]? = some b → ∀ d, b.contains d ↔
      (cal.toJalali d).monthNumber = (cal.toJalali today).monthNumber - k) ∧
    ∀ first ∈ bs.head?, ∀ last ∈ bs.getLast?, ∀ d, first.start ≤ d → d < last.stop →
      (bs.filter (·.contains d)).length = 1 := by
  have hget (k : Nat) (b : DayRange D)
      (hb : (cal.recentJalaliMonths n today).reverse[k]? = some b) :
      b = cal.month ((cal.toJalali today).monthNumber - k) :=
    (getElem?_reverse_recentJalaliMonths h hn hb).2
  have heq := recentJalaliMonths_eq h hn today
  have hmono := h.firstDay_strictMono
  generalize (cal.toJalali today).monthNumber = number at *
  generalize cal.recentJalaliMonths n today = bs at *
  subst heq
  refine ⟨by simp, ?_, ?_, ?_, fun k b hb d => ?_, fun first hfirst last hlast d hlow hhigh => ?_⟩
  · rw [List.isChain_reverse, List.isChain_map, List.isChain_iff_getElem]
    intro i hi
    simp only [List.getElem_range, month]
    congr 1
    push_cast
    ring
  · rw [List.pairwise_reverse, List.pairwise_map]
    exact List.pairwise_lt_range.imp fun hlt => hmono (by omega)
  · intro b hb
    obtain ⟨k, -, rfl⟩ := List.mem_map.mp (List.mem_reverse.mp hb)
    exact hmono (lt_add_one _)
  · rw [hget k b hb]
    exact h.month_contains _ d
  · obtain ⟨j, rfl⟩ : ∃ j, n = j + 1 := ⟨n - 1, by omega⟩
    have hfirst : first = cal.month (number - j) := by
      simpa [List.range_succ, eq_comm] using hfirst
    have hlast : last = cal.month number := by
      simpa [List.range_succ_eq_map, eq_comm] using hlast
    rw [hfirst, month, h.firstDay_le_iff] at hlow
    rw [hlast, month, h.lt_firstDay_iff] at hhigh
    -- of the months of the window, one is that of the day
    have hcount (k : Nat) : (cal.month (number - k)).contains d ↔
        (k == (number - (cal.toJalali d).monthNumber).toNat) = true := by
      rw [h.month_contains, beq_iff_eq]
      omega
    rw [← List.countP_eq_length_filter, List.countP_reverse, List.countP_map]
    exact (List.countP_congr fun k _ => hcount k).trans
      (List.count_eq_one_of_mem List.nodup_range (List.mem_range.mpr (by omega)))

end DayCalendar

/-! ## A calendar

Days before and after 1 Farvardin 1405 (2026-03-21), in years of 365 days. -/

def ordinaryDays : DayCalendar Int where
  toJalali d :=
    let r := (d % 365).toNat
    { y := 1405 + d / 365
      m := if r < 186 then r / 31 + 1 else (r - 186) / 30 + 7
      d := if r < 186 then r % 31 + 1 else (r - 186) % 30 + 1 }
  fromJalali y m d :=
    365 * (y - 1405) + (if m ≤ 7 then 31 * (m - 1) else 30 * (m - 7) + 186 : Nat) + (d - 1 : Nat)
  monthLength _ m := jalaliMonthDays m

theorem ordinaryDays_lawful : ordinaryDays.Lawful where
  length y m hm hm' := by
    simp only [ordinaryDays, jalaliMonthDays]
    grind
  hasDay d := by
    simp only [ordinaryDays, DayCalendar.HasDay, jalaliMonthDays]
    split_ifs <;> omega
  fromJalali_toJalali d := by
    simp only [ordinaryDays]
    split_ifs <;> omega
  toJalali_fromJalali date hdate := by
    obtain ⟨y, m, d⟩ := date
    obtain ⟨hm, hm', hd, hd'⟩ := hdate
    simp only [ordinaryDays, jalaliMonthDays] at hm hm' hd hd'
    obtain ⟨r, hr⟩ : ∃ r, r = (if m ≤ 7 then 31 * (m - 1) else 30 * (m - 7) + 186) + (d - 1) :=
      ⟨_, rfl⟩
    have hday : ordinaryDays.fromJalali y m d = 365 * (y - 1405) + (r : Nat) := by
      simp only [ordinaryDays, hr]
      push_cast
      ring
    have hlt : r < 365 := by
      split_ifs at hd' hr <;> omega
    have hyear : (365 * (y - 1405) + (r : Int)) / 365 = y - 1405 := by omega
    have hrest : ((365 * (y - 1405) + (r : Int)) % 365).toNat = r := by omega
    dsimp only
    rw [hday]
    simp only [ordinaryDays, hyear, hrest, JalaliDate.mk.injEq]
    split_ifs at hd' hr ⊢ <;> omega
  fromJalali_lt a b ha hb hab := by
    obtain ⟨hm, hm', hd, hd'⟩ := ha
    obtain ⟨hmb, hmb', hdb, hdb'⟩ := hb
    simp only [ordinaryDays, jalaliMonthDays, JalaliDate.before] at *
    split_ifs at * <;> omega

/-- Aban and Mehr 1405. -/
theorem recentJalaliMonths_partition_aban :
    (ordinaryDays.recentJalaliMonths 2 222) = [⟨186, 216⟩, ⟨216, 246⟩] ∧
    ((ordinaryDays.recentJalaliMonths 2 222).filter (·.contains 215)).length = 1 := by
  obtain ⟨-, -, -, -, -, hone⟩ :=
    DayCalendar.recentJalaliMonths_partition ordinaryDays_lawful (by decide : 1 ≤ 2) (222 : Int)
  exact ⟨by decide, hone ⟨186, 216⟩ (by decide) ⟨216, 246⟩ (by decide) 215 (by decide) (by decide)⟩

end Pwos
