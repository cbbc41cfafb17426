import Pwos.Domain.Jalali
import Pwos.Lib.Sums

/-!
# Month ranges

`recentJalaliMonths` of `lib/format.ts`: the last months up to the current one, as half-open
ranges of days. They follow each other without a gap, so that sums by month add up to the
sum over the days of any run of them.
-/

namespace Pwos

/-- A Jalali month `[start, stop)`. -/
structure JalaliMonth where
  start : IsoDate
  stop : IsoDate
  deriving DecidableEq, Repr

def JalaliMonth.contains (b : JalaliMonth) (d : IsoDate) : Bool := b.start ≤ d && d < b.stop

/-- One pass of the loop for each month, backwards from the first day after the last one. -/
def monthsBack (cal : JalaliCalendar) :
    Nat → Int → Nat → IsoDate → List JalaliMonth → List JalaliMonth
  | 0, _, _, _, out => out
  | n + 1, y, m, stop, out =>
    let year := if m ≤ 1 then y - 1 else y
    let month := if m ≤ 1 then 12 else m - 1
    let start := cal.jalaliToIso year month 1
    monthsBack cal n year month start ({ start, stop } :: out)

def recentJalaliMonths (cal : JalaliCalendar) (months : Nat) (today : IsoDate) :
    List JalaliMonth :=
  let date := cal.toJalali today
  let year := if date.m + 1 > 12 then date.y + 1 else date.y
  let month := if date.m + 1 > 12 then 1 else date.m + 1
  monthsBack cal (max 1 months) year month (cal.jalaliToIso year month 1) []

example : recentJalaliMonths ordinaryYears 2 20261025 =
    [⟨20260923, 20261023⟩, ⟨20261023, 20261122⟩] := by decide

/-! ## Ranges that follow each other -/

/-- The ranges lead from `s` to `t` without a gap. -/
def Spans (s t : IsoDate) : List JalaliMonth → Prop
  | [] => s = t
  | b :: bs => b.start = s ∧ Spans b.stop t bs

/-- Every month begins before it ends, on days that exist. -/
def Rising (bs : List JalaliMonth) : Prop :=
  ∀ b ∈ bs, b.start < b.stop ∧ isIsoDate b.start ∧ isIsoDate b.stop

instance (bs : List JalaliMonth) : Decidable (Rising bs) :=
  inferInstanceAs (Decidable (∀ b ∈ bs, _))

theorem monthsBack_spans (cal : JalaliCalendar) {t : IsoDate} (n : Nat) {y : Int} {m : Nat}
    {stop : IsoDate} {out : List JalaliMonth} (h : Spans stop t out) :
    ∃ s, Spans s t (monthsBack cal n y m stop out) := by
  induction n generalizing y m stop out with
  | zero => exact ⟨stop, h⟩
  | succ n ih => exact ih ⟨rfl, h⟩

theorem recentJalaliMonths_spans (cal : JalaliCalendar) (months : Nat) (today : IsoDate) :
    ∃ s t, Spans s t (recentJalaliMonths cal months today) := by
  have hback (n : Nat) (y : Int) (m : Nat) (stop : IsoDate) :
      ∃ s t, Spans s t (monthsBack cal n y m stop []) := by
    have hnil : Spans stop stop [] := rfl
    obtain ⟨s, h⟩ := monthsBack_spans cal n hnil
    exact ⟨s, stop, h⟩
  exact hback _ _ _ _

section Spans
variable {s t : IsoDate} {bs : List JalaliMonth}

theorem Rising.tail {b : JalaliMonth} (h : Rising (b :: bs)) : Rising bs :=
  fun c hc => h c (List.mem_cons_of_mem b hc)

theorem Spans.le (h : Spans s t bs) (hr : Rising bs) : s ≤ t := by
  induction bs generalizing s with
  | nil => exact Nat.le_of_eq h
  | cons b bs ih =>
    have hb := (hr b List.mem_cons_self).1
    rw [← h.1]
    exact hb.le.trans (ih h.2 hr.tail)

theorem Spans.bounds (h : Spans s t bs) (hr : Rising bs) {b : JalaliMonth} (hb : b ∈ bs) :
    s ≤ b.start ∧ b.stop ≤ t := by
  induction bs generalizing s with
  | nil => cases hb
  | cons c bs ih =>
    obtain ⟨hstart, hrest⟩ := h
    rcases List.mem_cons.mp hb with rfl | hb
    · exact ⟨Nat.le_of_eq hstart.symm, hrest.le hr.tail⟩
    · obtain ⟨hlow, hhigh⟩ := ih hrest hr.tail hb
      have hc := (hr c List.mem_cons_self).1
      exact ⟨(hstart ▸ hc.le).trans hlow, hhigh⟩

/-- Of two of the months, one ends before the other begins. -/
theorem Spans.apart (h : Spans s t bs) (hr : Rising bs) {b c : JalaliMonth} (hb : b ∈ bs)
    (hc : c ∈ bs) : b = c ∨ b.stop ≤ c.start ∨ c.stop ≤ b.start := by
  induction bs generalizing s with
  | nil => cases hb
  | cons a bs ih =>
    rcases List.mem_cons.mp hb with rfl | hb' <;> rcases List.mem_cons.mp hc with rfl | hc'
    · exact .inl rfl
    · exact .inr (.inl (h.2.bounds hr.tail hc').1)
    · exact .inr (.inr (h.2.bounds hr.tail hb').1)
    · exact ih h.2 hr.tail hb' hc'

/-- A month lies in a range of whole months as soon as one of its days does. -/
theorem Spans.inside_iff (h : Spans s t bs) (hr : Rising bs) {b c e : JalaliMonth} (hb : b ∈ bs)
    (hc : c ∈ bs) (he : e ∈ bs) {d : IsoDate} (hd : b.contains d) :
    (c.start ≤ b.start ∧ b.start < e.stop) ↔ (c.start ≤ d ∧ d < e.stop) := by
  simp only [JalaliMonth.contains, Bool.and_eq_true, decide_eq_true_eq] at hd
  have hfrom := h.apart hr hb hc
  have hto := h.apart hr hb he
  have hrises := (hr c hc).1
  have hrises' := (hr e he).1
  grind

variable {α M : Type} [AddCommMonoid M]

/-- The rows of the span, month by month. -/
theorem Spans.sum_eq (h : Spans s t bs) (hr : Rising bs) (day : α → IsoDate) (f : α → M)
    (xs : List α) : (bs.map fun b => ((xs.filter fun x => b.contains (day x)).map f).sum).sum =
      ((xs.filter fun x => s ≤ day x && day x < t).map f).sum := by
  induction bs generalizing s with
  | nil =>
    subst h
    symm
    apply sum_filter_eq_zero
    intro x _
    grind
  | cons b bs ih =>
    obtain ⟨rfl, hrest⟩ := h
    have hb := (hr b List.mem_cons_self).1
    have hle := hrest.le hr.tail
    rw [List.map_cons, List.sum_cons, ih hrest hr.tail,
      sum_filter_split (fun x => b.start ≤ day x && day x < t) (fun x => day x < b.stop)]
    congr 4 <;> funext x <;> grind [JalaliMonth.contains]

/-- The same when every row falls into one of the months. -/
theorem Spans.sum_all (h : Spans s t bs) (hr : Rising bs) (day : α → IsoDate) (f : α → M)
    {xs : List α} (hin : ∀ x ∈ xs, ∃ b ∈ bs, b.contains (day x)) :
    (bs.map fun b => ((xs.filter fun x => b.contains (day x)).map f).sum).sum =
      (xs.map f).sum := by
  have hall : xs.filter (fun x => s ≤ day x && day x < t) = xs := by
    apply List.filter_eq_self.mpr
    intro x hx
    obtain ⟨b, hb, hday⟩ := hin x hx
    obtain ⟨hlow, hhigh⟩ := h.bounds hr hb
    unfold JalaliMonth.contains at hday
    grind
  rw [h.sum_eq hr, hall]

/-- The same for a range of whole months of the span. -/
theorem Spans.sum_range (h : Spans s t bs) (hr : Rising bs) {c e : JalaliMonth} (hc : c ∈ bs)
    (he : e ∈ bs) (day : α → IsoDate) (f : α → M) (xs : List α) :
    ((bs.filter fun b => c.start ≤ b.start && b.start < e.stop).map fun b =>
        ((xs.filter fun x => b.contains (day x)).map f).sum).sum =
      ((xs.filter fun x => c.start ≤ day x && day x < e.stop).map f).sum := by
  have hmonth : ∀ b ∈ bs,
      (if c.start ≤ b.start && b.start < e.stop
        then ((xs.filter fun x => b.contains (day x)).map f).sum else 0) =
      ((((xs.filter fun x => c.start ≤ day x && day x < e.stop)).filter
        fun x => b.contains (day x)).map f).sum := by
    intro b hb
    rw [List.filter_filter]
    split
    · rename_i hin
      congr 2
      apply List.filter_congr
      intro x _
      have := h.inside_iff hr hb hc he (d := day x)
      grind
    · rename_i hout
      symm
      apply sum_filter_eq_zero
      intro x _
      have := h.inside_iff hr hb hc he (d := day x)
      grind
  rw [sum_filter_eq_ite, List.map_congr_left hmonth, h.sum_eq hr, List.filter_filter]
  have hlow := (h.bounds hr hc).1
  have hhigh := (h.bounds hr he).2
  congr 2
  apply List.filter_congr
  intro x _
  grind

/-- A report by month: a month without rows has no line. What a column of its lines adds up to. -/
theorem sum_by_month {β : Type} {rows : List α} {day : α → IsoDate} {f : α → M}
    {line : JalaliMonth → Option β} {month : β → IsoDate} {column : β → M} (p : IsoDate → Bool)
    (hnone : ∀ b, (rows.filter fun x => b.contains (day x)) = [] → line b = none)
    (hsome : ∀ b x xs, (rows.filter fun x => b.contains (day x)) = x :: xs →
      ∃ l, line b = some l ∧ month l = b.start ∧ column l = ((x :: xs).map f).sum)
    (bs : List JalaliMonth) :
    (((bs.filterMap line).filter (p <| month ·)).map column).sum =
      ((bs.filter (p ·.start)).map fun b =>
        ((rows.filter fun x => b.contains (day x)).map f).sum).sum := by
  induction bs with
  | nil => rfl
  | cons b bs ih =>
    rw [sum_filter_cons, ← ih]
    cases hrows : rows.filter fun x => b.contains (day x) with
    | nil => simp [hnone b hrows]
    | cons x xs =>
      obtain ⟨l, hl, hmonth, hcolumn⟩ := hsome b x xs hrows
      rw [List.filterMap_cons_some hl, sum_filter_cons, hmonth, hcolumn]

end Spans

/-! ## The day before -/

def IsoDate.dayBefore (d : IsoDate) : IsoDate :=
  if 1 < d.day then d - 1
  else if 1 < d.month then .ofParts d.year (d.month - 1) (daysInMonth d.year (d.month - 1))
  else .ofParts (d.year - 1) 12 31

theorem isIsoDate_iff (d : IsoDate) : isIsoDate d ↔ 0 < d.month ∧ d.month ≤ 12 ∧ 0 < d.day ∧
    d.day ≤ daysInMonth d.year d.month ∧ d.year < 10000 := by
  simp [isIsoDate, and_assoc]

theorem daysInMonth_le (y m : Nat) : daysInMonth y m ≤ 31 := by
  unfold daysInMonth
  grind

theorem le_dayBefore_iff {d t : Nat} (hd : isIsoDate d) (ht : isIsoDate t) (hfirst : 101 < t) :
    d ≤ IsoDate.dayBefore t ↔ d < t := by
  obtain ⟨hd₁, hd₂, hd₃, hd₄, -⟩ := (isIsoDate_iff d).mp hd
  obtain ⟨ht₁, ht₂, ht₃, ht₄, -⟩ := (isIsoDate_iff t).mp ht
  have hlast := daysInMonth_le (IsoDate.year t) (IsoDate.month t - 1)
  have hdays := daysInMonth_le (IsoDate.year d) (IsoDate.month d)
  have hsame : IsoDate.year d = IsoDate.year t → IsoDate.month d = IsoDate.month t - 1 →
      IsoDate.day d ≤ daysInMonth (IsoDate.year t) (IsoDate.month t - 1) := by
    intro hy hm
    rwa [hy, hm] at hd₄
  have hday : IsoDate.dayBefore t =
      if 1 < t % 100 then t - 1
      else if 1 < t / 100 % 100 then t / 10000 * 10000 + (t / 100 % 100 - 1) * 100 +
        daysInMonth (IsoDate.year t) (IsoDate.month t - 1)
      else (t / 10000 - 1) * 10000 + 12 * 100 + 31 := rfl
  rw [hday]
  generalize daysInMonth (IsoDate.year t) (IsoDate.month t - 1) = n at *
  generalize daysInMonth (IsoDate.year d) (IsoDate.month d) = k at *
  simp only [IsoDate.year, IsoDate.month, IsoDate.day] at hd₁ hd₂ hd₃ hd₄ ht₁ ht₂ ht₃ ht₄ hsame
  split_ifs <;> omega

end Pwos
