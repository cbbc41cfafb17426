import Pwos.Domain.Months
import Pwos.Lib.Digits

/-!
# Adding months

`addMonthsClamped` of `features/planning/obligations.ts` and `addMonthsIso` of `lib/format.ts`
as they write their results, for any number of months back or ahead. A comment of the first
says that the two agree; they do so when the day exists in the month they arrive at.
-/

namespace Pwos

/-! ## Days of a `Date` -/

/-- A day in UTC, as a `Date` holds it. -/
structure UtcDay where
  year : Int
  month : Nat
  day : Nat
  deriving DecidableEq, Repr

/-- The length of a month of any year. -/
def utcMonthLength (year : Int) (month : Nat) : Nat :=
  if month = 2 then
    if year % 4 = 0 ∧ (year % 100 ≠ 0 ∨ year % 400 = 0) then 29 else 28
  else if month ∈ [4, 6, 9, 11] then 30
  else 31

theorem utcMonthLength_natCast (y m : Nat) : utcMonthLength y m = daysInMonth y m := by
  unfold utcMonthLength daysInMonth isLeapYear
  grind

theorem utcMonthLength_le (y : Int) (m : Nat) : utcMonthLength y m ≤ 31 := by
  unfold utcMonthLength
  grind

/-- `Date.UTC` reads the years 0 to 99 as those of the twentieth century. -/
def utcYear (year : Int) : Int := if 0 ≤ year ∧ year ≤ 99 then 1900 + year else year

/-- The year and the month of the months counted from January of the year 0. -/
def monthOfIndex (index : Int) : Int × Nat := (index / 12, (index % 12).toNat + 1)

namespace UtcDay

/-- Days from 1 January 1970. -/
def time (d : UtcDay) : Int :=
  let year := d.year - if d.month ≤ 2 then 1 else 0
  let month := (d.month + 9) % 12
  365 * year + year / 4 - year / 100 + year / 400 + (month * 306 + 5) / 10 + d.day - 1 - 719468

/-- A `Date` reaches 100 million days to either side of 1970. -/
def Valid (d : UtcDay) : Prop := -100000000 ≤ d.time ∧ d.time ≤ 100000000

instance (d : UtcDay) : Decidable d.Valid := inferInstanceAs (Decidable (_ ∧ _))

example : time ⟨1970, 1, 1⟩ = 0 := by decide

theorem valid_of_year {year : Int} {month day : Nat} (hlow : 0 ≤ year) (hhigh : year ≤ 20000)
    (hd : day ≤ 31) : Valid ⟨year, month, day⟩ := by
  unfold Valid time
  dsimp only
  constructor <;> split <;> omega

end UtcDay

/-! ## Their texts -/

/-- `String(n)` of a whole number. -/
def intText (n : Int) : List Char :=
  (if n < 0 then ['-'] else []) ++ Nat.toDigits 10 n.natAbs

/-- A day with its year as given. -/
def dateText (year month day : List Char) : List Char := year ++ '-' :: (month ++ '-' :: day)

/-- The year in `toISOString`: outside of four digits it has a sign and six. -/
def isoYearText (year : Int) : List Char :=
  if 0 ≤ year ∧ year ≤ 9999 then padStart 4 year.toNat
  else (if year < 0 then '-' else '+') :: padStart 6 year.natAbs

/-- `toISOString().slice(0, 10)`. -/
def UtcDay.isoText (d : UtcDay) : List Char :=
  (dateText (isoYearText d.year) (padStart 2 d.month) (padStart 2 d.day)).take 10

/-- `yyyy-mm-dd`. -/
def IsoDate.text (d : IsoDate) : List Char :=
  dateText (padStart 4 d.year) (padStart 2 d.month) (padStart 2 d.day)

example : IsoDate.text 20260305 = "2026-03-05".toList := by decide

/-! ## The two functions -/

/-- The month `months` after that of a day, where its year is read as `year`. -/
def monthStep (year : Int) (iso : IsoDate) (months : Int) : Int × Nat :=
  monthOfIndex (12 * year + (IsoDate.month iso - 1) + months)

/-- Outside of the range of a `Date` the parts of a day are `NaN`. -/
def addMonthsClampedText (iso : IsoDate) (months : Int) : List Char :=
  let target := monthStep (utcYear (IsoDate.year iso)) iso months
  let last := utcMonthLength (utcYear target.1) target.2
  if UtcDay.Valid ⟨target.1, target.2, 1⟩ then
    dateText (intText target.1) (padStart 2 target.2)
      (if UtcDay.Valid ⟨utcYear target.1, target.2, last⟩
        then padStart 2 (min (IsoDate.day iso) last) else "NaN".toList)
  else "NaN-NaN-NaN".toList

/-- `setUTCMonth`: a day past the end of the month runs into the next one. -/
def setUTCMonth (iso : IsoDate) (months : Int) : UtcDay :=
  let target := monthStep (IsoDate.year iso) iso months
  let last := utcMonthLength target.1 target.2
  if IsoDate.day iso ≤ last then ⟨target.1, target.2, IsoDate.day iso⟩
  else if target.2 = 12 then ⟨target.1 + 1, 1, IsoDate.day iso - last⟩
  else ⟨target.1, target.2 + 1, IsoDate.day iso - last⟩

/-- `none` where `toISOString` throws. -/
def addMonthsIsoText (iso : IsoDate) (months : Int) : Option (List Char) :=
  let d := setUTCMonth iso months
  if d.Valid then some d.isoText else none

example : addMonthsClampedText 20250131 1 = "2025-02-28".toList := by decide
example : addMonthsIsoText 20250131 1 = some "2025-03-03".toList := by decide

/-! ## The two agree -/

theorem monthStep_spec (year : Int) (iso : IsoDate) (months : Int) :
    0 < (monthStep year iso months).2 ∧ (monthStep year iso months).2 ≤ 12 ∧
      12 * (monthStep year iso months).1 + (monthStep year iso months).2 =
        12 * year + IsoDate.month iso + months := by
  unfold monthStep monthOfIndex
  dsimp only
  omega

/-- Reading the year differently moves the target by whole years. -/
theorem monthStep_shift (year shift : Int) (iso : IsoDate) (months : Int) :
    monthStep (shift + year) iso months =
      (shift + (monthStep year iso months).1, (monthStep year iso months).2) := by
  unfold monthStep monthOfIndex
  refine Prod.ext ?_ ?_
  · dsimp only
    omega
  · dsimp only
    congr 2
    omega

theorem isDigit_dateText {y m d : List Char} {c : Char} (hy : ∀ c ∈ y, c.isDigit ∨ c = '-' ∨ c = '+')
    (hm : ∀ c ∈ m, c.isDigit) (hd : ∀ c ∈ d, c.isDigit) (h : c ∈ dateText y m d) :
    c.isDigit ∨ c = '-' ∨ c = '+' := by
  unfold dateText at h
  grind

/-- `toISOString` writes digits and signs, and four digits before the first dash where the
year has that many. -/
theorem not_mem_isoText (d : UtcDay) : 'N' ∉ d.isoText := by
  intro h
  have hyear : ∀ c ∈ isoYearText d.year, c.isDigit ∨ c = '-' ∨ c = '+' := by
    intro c hc
    unfold isoYearText at hc
    have hpad := @isDigit_of_mem_padStart
    grind
  have hchar := isDigit_dateText hyear (fun c hc => isDigit_of_mem_padStart hc)
    (fun c hc => isDigit_of_mem_padStart hc) (List.mem_of_mem_take h)
  revert hchar
  decide

theorem isoText_of_year {year : Int} {month day : Nat} (hlow : 0 ≤ year) (hhigh : year ≤ 9999)
    (hm : month < 100) (hd : day < 100) : UtcDay.isoText ⟨year, month, day⟩ =
      dateText (padStart 4 year.toNat) (padStart 2 month) (padStart 2 day) := by
  have hy := length_padStart (w := 4) (n := year.toNat) (by decide) (by omega)
  have hm := length_padStart (w := 2) (by decide) hm
  have hd := length_padStart (w := 2) (by decide) hd
  unfold UtcDay.isoText isoYearText
  rw [if_pos ⟨hlow, hhigh⟩]
  apply List.take_of_length_le
  simp only [dateText, List.length_append, List.length_cons]
  omega

theorem isoText_of_far {d : UtcDay} (h : ¬ (0 ≤ d.year ∧ d.year ≤ 9999)) :
    d.isoText.length = 10 ∧ ∃ c, d.isoText[4]? = some c ∧ c.isDigit := by
  have hy := le_length_padStart (w := 6) (n := d.year.natAbs)
  have hm := le_length_padStart (w := 2) (n := d.month)
  have hd := le_length_padStart (w := 2) (n := d.day)
  unfold UtcDay.isoText isoYearText
  rw [if_neg h]
  constructor
  · simp only [dateText, List.length_take, List.length_append, List.length_cons]
    omega
  · refine ⟨(padStart 6 d.year.natAbs)[3], ?_, isDigit_of_mem_padStart (List.getElem_mem _)⟩
    rw [List.getElem?_take_of_lt (by decide), dateText, List.getElem?_append_left (by grind),
      List.getElem?_cons_succ, List.getElem?_eq_getElem]

/-- A date written with an unpadded year is the one `toISOString` writes only where both have
four digits in the year, and the same day. -/
theorem parts_of_isoText {d : UtcDay} {year : Int} {month day : Nat} (hdm : d.month < 100)
    (hdd : d.day < 100) (hm : month < 100) (hday : day < 100)
    (h : d.isoText = dateText (intText year) (padStart 2 month) (padStart 2 day)) :
    1000 ≤ year ∧ year ≤ 9999 ∧ d = ⟨year, month, day⟩ := by
  have hmlen := length_padStart (w := 2) (by decide) hm
  have hdlen := length_padStart (w := 2) (by decide) hday
  have hlen := congrArg List.length h
  by_cases hyear : 0 ≤ d.year ∧ d.year ≤ 9999
  swap
  · -- the fifth character is a digit of the year on one side and the dash on the other
    obtain ⟨hten, c, hc, hdigit⟩ := isoText_of_far hyear
    have hfour : (intText year).length = 4 := by
      simp only [hten, dateText, List.length_append, List.length_cons] at hlen
      omega
    rw [h, dateText, List.getElem?_append_right (by omega), hfour] at hc
    obtain rfl : '-' = c := by simpa using hc
    cases hdigit
  rw [isoText_of_year hyear.1 hyear.2 hdm hdd] at h hlen
  have hylen := length_padStart (w := 4) (n := d.year.toNat) (by decide) (by omega)
  have hdmlen := length_padStart (w := 2) (by decide) hdm
  have hddlen := length_padStart (w := 2) (by decide) hdd
  have hfour : (intText year).length = 4 := by
    simp only [dateText, List.length_append, List.length_cons] at hlen
    omega
  obtain ⟨htext, hrest⟩ := List.append_inj h (by omega)
  obtain ⟨hmonth, hlast⟩ := List.append_inj (List.cons_inj_right _ |>.mp hrest) (by omega)
  have hnonneg : ¬ year < 0 := by
    intro hneg
    have hdash : '-' ∈ padStart 4 d.year.toNat := by
      rw [htext, intText, if_pos hneg]
      exact List.mem_append_left _ List.mem_cons_self
    cases isDigit_of_mem_padStart hdash
  rw [intText, if_neg hnonneg, List.nil_append] at htext hfour
  have hvalue : d.year.toNat = year.natAbs := by
    have hdigits := congrArg (Nat.ofDigitChars 10 · 0) htext
    simpa using hdigits
  have hlarge := (Nat.length_toDigits_le_iff (b := 10) (n := year.natAbs) (k := 3) (by decide)
    (by decide)).not.mp (by omega)
  obtain rfl := padStart_injective hmonth
  obtain rfl := padStart_injective (List.cons_inj_right _ |>.mp hlast)
  have hsame : d.year = year := by omega
  refine ⟨by omega, by omega, ?_⟩
  rw [← hsame]

theorem setUTCMonth_parts (iso : IsoDate) (months : Int) :
    (setUTCMonth iso months).month ≤ 12 ∧ (setUTCMonth iso months).day ≤ IsoDate.day iso := by
  have hstep := monthStep_spec (IsoDate.year iso) iso months
  unfold setUTCMonth
  grind

section Agree
variable {d : IsoDate} {months : Int}

theorem agree_of_day_exists (hyear : 100 ≤ IsoDate.year d)
    (hlow : 1000 ≤ (monthStep (IsoDate.year d) d months).1)
    (hhigh : (monthStep (IsoDate.year d) d months).1 ≤ 9999)
    (hday : IsoDate.day d ≤ utcMonthLength (monthStep (IsoDate.year d) d months).1
      (monthStep (IsoDate.year d) d months).2) :
    addMonthsIsoText d months = some (addMonthsClampedText d months) := by
  have hmonth := (monthStep_spec (IsoDate.year d) d months).2.1
  have hsame : utcYear (IsoDate.year d) = IsoDate.year d := if_neg (by omega)
  have hroll : setUTCMonth d months = ⟨(monthStep (IsoDate.year d) d months).1,
      (monthStep (IsoDate.year d) d months).2, IsoDate.day d⟩ := if_pos hday
  unfold addMonthsIsoText addMonthsClampedText
  dsimp only
  rw [hroll, hsame]
  generalize monthStep (IsoDate.year d) d months = target at *
  have htarget : utcYear target.1 = target.1 := if_neg (by omega)
  have hlast := utcMonthLength_le target.1 target.2
  have hdigits : padStart 4 target.1.toNat = intText target.1 := by
    rw [padStart_eq (by decide) (by omega), intText, if_neg (by omega), List.nil_append]
    congr 1
    omega
  rw [htarget, if_pos (UtcDay.valid_of_year (by omega) (by omega) (by omega)),
    if_pos (UtcDay.valid_of_year (by omega) (by omega) (by omega)),
    if_pos (UtcDay.valid_of_year (by omega) (by omega) (by omega)), min_eq_left hday,
    isoText_of_year (by omega) (by omega) (by omega) (by omega), hdigits]

theorem day_exists_of_agree
    (h : addMonthsIsoText d months = some (addMonthsClampedText d months)) :
    100 ≤ IsoDate.year d ∧ 1000 ≤ (monthStep (IsoDate.year d) d months).1 ∧
      (monthStep (IsoDate.year d) d months).1 ≤ 9999 ∧
      IsoDate.day d ≤ utcMonthLength (monthStep (IsoDate.year d) d months).1
        (monthStep (IsoDate.year d) d months).2 := by
  have hparts := setUTCMonth_parts d months
  have hdaylt : IsoDate.day d < 100 := Nat.mod_lt d (by decide)
  have htext : (setUTCMonth d months).isoText = addMonthsClampedText d months := by
    unfold addMonthsIsoText at h
    dsimp only at h
    split at h
    · exact Option.some.inj h
    · cases h
  have hno := not_mem_isoText (setUTCMonth d months)
  unfold addMonthsClampedText at htext
  dsimp only at htext
  have hclamped := (monthStep_spec (utcYear (IsoDate.year d)) d months).2.1
  generalize htarget : monthStep (utcYear (IsoDate.year d)) d months = target at htext hclamped
  -- a text with `NaN` in it is none of `toISOString`
  split at htext
  swap
  · rw [htext] at hno
    exact absurd hno (by decide)
  split at htext
  swap
  · rw [htext] at hno
    exact absurd (List.mem_append_right _ (List.mem_cons_of_mem _ (List.mem_append_right _
      (List.mem_cons_of_mem _ (by decide))))) hno
  have hlast := utcMonthLength_le (utcYear target.1) target.2
  obtain ⟨hlow, hhigh, hday⟩ := parts_of_isoText (by omega) (by omega) (by omega) (by omega) htext
  have hdm : (setUTCMonth d months).month = target.2 := by rw [hday]
  have hdy : (setUTCMonth d months).year = target.1 := by rw [hday]
  have hiso := (monthStep_spec (IsoDate.year d) d months).1
  -- a year read as one of the twentieth century is not the year arrived at
  have hyear : 100 ≤ IsoDate.year d := by
    by_contra hsmall
    have hshift := monthStep_shift (IsoDate.year d) 1900 d months
    rw [utcYear, if_pos (by omega), hshift] at htarget
    unfold setUTCMonth at hdy
    grind
  have hsame : utcYear (IsoDate.year d) = IsoDate.year d := if_neg (by omega)
  rw [hsame] at htarget
  rw [htarget]
  refine ⟨hyear, hlow, hhigh, ?_⟩
  by_contra hmissing
  unfold setUTCMonth at hdm
  grind

end Agree

/-- The two functions return the same date exactly when the day exists in the month arrived at,
the year of the date is 100 or later and the year arrived at has four digits. -/
theorem addMonths_agree_iff (d : IsoDate) (months : Int) :
    addMonthsIsoText d months = some (addMonthsClampedText d months) ↔
      100 ≤ IsoDate.year d ∧ 1000 ≤ (monthStep (IsoDate.year d) d months).1 ∧
        (monthStep (IsoDate.year d) d months).1 ≤ 9999 ∧
        IsoDate.day d ≤ utcMonthLength (monthStep (IsoDate.year d) d months).1
          (monthStep (IsoDate.year d) d months).2 :=
  ⟨day_exists_of_agree, fun ⟨hyear, hlow, hhigh, hday⟩ =>
    agree_of_day_exists hyear hlow hhigh hday⟩

/-- A month after 31 January is 28 February for one, and 3 March for the other. -/
theorem addMonths_differ : isIsoDate 20250131 ∧
    addMonthsIsoText 20250131 1 ≠ some (addMonthsClampedText 20250131 1) := by
  decide

/-! ## As numbers

From the year 1000 on a text is that of the number which stands for the day. -/

section Numbers
variable {y m k : Nat}

theorem ofParts_year (hm : m < 100) (hk : k < 100) : IsoDate.year (.ofParts y m k) = y := by
  unfold IsoDate.year IsoDate.ofParts
  omega

theorem ofParts_month (hm : m < 100) (hk : k < 100) : IsoDate.month (.ofParts y m k) = m := by
  unfold IsoDate.month IsoDate.ofParts
  omega

theorem ofParts_day (hk : k < 100) : IsoDate.day (.ofParts y m k) = k := by
  unfold IsoDate.day IsoDate.ofParts
  omega

theorem ofParts_text (hm : m < 100) (hk : k < 100) :
    (IsoDate.ofParts y m k).text = dateText (padStart 4 y) (padStart 2 m) (padStart 2 k) := by
  rw [IsoDate.text, ofParts_year hm hk, ofParts_month hm hk, ofParts_day hk]

theorem monthAfter_le (d : IsoDate) (n : Nat) : (monthAfter d n).2 ≤ 12 := by
  unfold monthAfter
  dsimp only
  omega

theorem monthStep_natCast {d : IsoDate} (hd : 0 < IsoDate.month d) (n : Nat) :
    monthStep (IsoDate.year d) d n = (((monthAfter d n).1 : Int), (monthAfter d n).2) := by
  unfold monthStep monthOfIndex monthAfter
  refine Prod.ext ?_ ?_
  · dsimp only
    omega
  · dsimp only
    omega

/-- Days of years with four digits compare as their texts do. -/
theorem text_lt_iff {d e : IsoDate} (hd : IsoDate.year d < 10000) (he : IsoDate.year e < 10000) :
    d.text < e.text ↔ (d : Nat) < e := by
  have hlen {w n k : Nat} (hw : 0 < w) (hn : n < 10 ^ w) (hk : k < 10 ^ w) :
      (padStart w n).length = (padStart w k).length := by
    rw [length_padStart hw hn, length_padStart hw hk]
  have hlt {w n k : Nat} (hw : 0 < w) (hn : n < 10 ^ w) (hk : k < 10 ^ w) :
      padStart w n < padStart w k ↔ n < k := by
    rw [lt_iff_value (hlen hw hn hk) (fun _ h => isDigit_of_mem_padStart h)
      fun _ h => isDigit_of_mem_padStart h, ofDigitChars_padStart, ofDigitChars_padStart]
  have heq {w n k : Nat} : padStart w n = padStart w k ↔ n = k := padStart_injective.eq_iff
  have hday (a : IsoDate) : IsoDate.day a < 10 ^ 2 := Nat.mod_lt a (by decide)
  have hmonth (a : IsoDate) : IsoDate.month a < 10 ^ 2 := Nat.mod_lt _ (by decide)
  unfold IsoDate.text dateText
  rw [append_lt_append_iff (hlen (by decide) hd he), List.cons_lt_cons_iff,
    append_lt_append_iff (hlen (by decide) (hmonth d) (hmonth e)), List.cons_lt_cons_iff,
    hlt (by decide) hd he, hlt (by decide) (hmonth d) (hmonth e),
    hlt (by decide) (hday d) (hday e), heq, heq]
  simp only [lt_irrefl, false_or, true_and]
  unfold IsoDate.year IsoDate.month IsoDate.day
  have hparts : ∀ a b : Nat, a / 10000 < b / 10000 ∨ a / 10000 = b / 10000 ∧
      (a / 100 % 100 < b / 100 % 100 ∨ a / 100 % 100 = b / 100 % 100 ∧ a % 100 < b % 100) ↔
      a < b := by omega
  exact hparts d e

variable {d : IsoDate} {n : Nat}

theorem addMonthsClampedText_eq (hd : isIsoDate d) (hlow : 1000 ≤ IsoDate.year d)
    (hhigh : (monthAfter d n).1 ≤ 20000) :
    addMonthsClampedText d n = (addMonthsClamped d n).text := by
  obtain ⟨hmonth, -⟩ := (isIsoDate_iff d).mp hd
  have hle := monthAfter_le d n
  have hdays := daysInMonth_le (monthAfter d n).1 (monthAfter d n).2
  have hyears : IsoDate.year d ≤ (monthAfter d n).1 := Nat.le_add_right _ _
  have hsame : utcYear (IsoDate.year d) = IsoDate.year d := if_neg (by omega)
  have htarget : utcYear ((monthAfter d n).1 : Nat) = (monthAfter d n).1 := if_neg (by omega)
  have hdigits : intText ((monthAfter d n).1 : Nat) = padStart 4 (monthAfter d n).1 := by
    rw [padStart_eq (by decide) (by omega), intText, if_neg (by omega), List.nil_append,
      Int.natAbs_natCast]
  unfold addMonthsClampedText
  dsimp only
  rw [hsame, monthStep_natCast hmonth]
  dsimp only
  rw [htarget, utcMonthLength_natCast, if_pos (UtcDay.valid_of_year (by omega) (by omega) (by omega)),
    if_pos (UtcDay.valid_of_year (by omega) (by omega) (by omega)), hdigits, addMonthsClamped,
    ofParts_text (by omega) (by omega)]

theorem addMonthsIsoText_eq (hd : isIsoDate d) (hhigh : (monthAfter d n).1 ≤ 9999) :
    addMonthsIsoText d n = some (addMonthsIso d n).text := by
  obtain ⟨hmonth, -, -, hlast, -⟩ := (isIsoDate_iff d).mp hd
  have hle := monthAfter_le d n
  have hdays := daysInMonth_le (IsoDate.year d) (IsoDate.month d)
  have htext : ∀ y m k : Nat, y ≤ 9999 → m < 100 → k ≤ 31 →
      (if UtcDay.Valid ⟨y, m, k⟩ then some (UtcDay.isoText ⟨y, m, k⟩) else none) =
        some (IsoDate.ofParts y m k).text := by
    intro y m k hy hm hk
    rw [if_pos (UtcDay.valid_of_year (by omega) (by omega) hk),
      isoText_of_year (by omega) (by omega) hm (by omega), ofParts_text hm (by omega),
      Int.toNat_natCast]
  have hdecember : (monthAfter d n).2 = 12 → IsoDate.day d ≤
      daysInMonth (monthAfter d n).1 (monthAfter d n).2 := by
    intro h
    rw [h]
    exact hlast.trans hdays
  unfold addMonthsIsoText setUTCMonth addMonthsIso
  dsimp only
  rw [monthStep_natCast hmonth]
  dsimp only
  rw [utcMonthLength_natCast]
  by_cases hday : IsoDate.day d ≤ daysInMonth (monthAfter d n).1 (monthAfter d n).2
  · rw [if_pos hday, if_pos hday]
    exact htext _ _ _ hhigh (by omega) (by omega)
  · have hnot : (monthAfter d n).2 ≠ 12 := fun h => hday (hdecember h)
    rw [if_neg hday, if_neg hday, if_neg hnot, if_neg hnot]
    exact htext _ _ _ hhigh (by omega) (by omega)

end Numbers

end Pwos
