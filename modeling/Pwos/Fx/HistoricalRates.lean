import Pwos.Domain.Days
import Pwos.Lib.BinarySearch
import Pwos.Rwa.UsdRate

/-!
# The bundled history of the dollar

`features/fx/historicalUsdIrt.ts`: daily closes from a first day on, looked up by binary search.
-/

namespace Pwos

/-- The parsed series: days after the first one, in order, each with its rate. -/
structure UsdIrtSeries where
  first : IsoDate
  days : Array Nat
  rates : Array Nat
  first_real : isIsoDate first = true
  sorted : ∀ j, (hj : j < days.size) → ∀ i, (h : i < j) → days[i] < days[j]

def HISTORICAL_MAX_GAP_DAYS : Int := 16

namespace UsdIrtSeries
variable (s : UsdIrtSeries)

/-- The date of a day of the series. -/
def dateAt (i : Nat) : IsoDate := addDays s.first (s.days.getD i 0)

/-- The index of the last day up to `target`, or -1. -/
def search (target : Int) : Int :=
  lastPassing (fun mid => s.days.getD mid.toNat 0 ≤ target) 0 (s.days.size - 1) (-1)

/-- The daily close of `date`, or of the last trading day before it. -/
def historicalUsdIrtOnOrBefore (date : IsoDate) : Option DatedRate :=
  if ¬ isIsoDate date then none
  else
    let target := dayNumber date - dayNumber s.first
    if target < 0 ∨ s.days.size = 0 then none
    else
      let hit := s.search target
      if hit < 0 ∨ HISTORICAL_MAX_GAP_DAYS < target - s.days.getD hit.toNat 0 then none
      else some ⟨.ofInt (s.rates.getD hit.toNat 0), s.dateAt hit.toNat⟩

/-- A trading day of the series that may answer for `date`. -/
def Answers (date day : IsoDate) : Prop :=
  ∃ i, i < s.days.size ∧ s.dateAt i = day ∧ day ≤ date ∧
    dayNumber date - dayNumber day ≤ HISTORICAL_MAX_GAP_DAYS

variable {s} {date day : IsoDate} {i : Nat}

theorem realDay_dateAt (s : UsdIrtSeries) (i : Nat) : RealDay (s.dateAt i) :=
  realDay_addDays (.of_isIsoDate s.first_real) _

theorem dateAt_le_iff (hdate : isIsoDate date = true) :
    s.dateAt i ≤ date ↔ (s.days.getD i 0 : Int) ≤ dayNumber date - dayNumber s.first := by
  rw [← dayNumber_le_iff (s.realDay_dateAt i) (.of_isIsoDate hdate), dateAt,
    dayNumber_addDays (.of_isIsoDate s.first_real)]
  omega

theorem days_mono {j : Nat} (hij : i ≤ j) (hj : j < s.days.size) :
    s.days.getD i 0 ≤ s.days.getD j 0 := by
  rcases hij.eq_or_lt with rfl | hlt
  · exact le_rfl
  · have hi : i < s.days.size := hlt.trans hj
    simp only [Array.getD, hi, hj, dif_pos]
    exact (s.sorted j hj i hlt).le

/-- The search finds the last day that is not too late. -/
theorem search_spec (s : UsdIrtSeries) (target : Int) :
    s.search target < s.days.size ∧ ∀ i, i < s.days.size →
      ((s.days.getD i 0 : Int) ≤ target ↔ (i : Int) ≤ s.search target) := by
  have hmono : ∀ i j : Int, 0 ≤ i → i ≤ j → j < s.days.size →
      decide ((s.days.getD j.toNat 0 : Int) ≤ target) = true →
        decide ((s.days.getD i.toNat 0 : Int) ≤ target) = true := by
    intro i j hi hij hj hpass
    rw [decide_eq_true_eq] at hpass ⊢
    have hle := s.days_mono (i := i.toNat) (j := j.toNat) (by omega) (by omega)
    omega
  obtain ⟨-, hhigh, hbelow, habove⟩ :=
    (window_start (n := s.days.size) (by omega)).last hmono
  unfold search
  refine ⟨hhigh, fun i hi => ?_⟩
  constructor
  · intro hpass
    by_contra hnot
    have hfail := habove i (by omega) (by omega)
    rw [decide_eq_false_iff_not, Int.toNat_natCast] at hfail
    exact hfail hpass
  · intro hle
    have hpass := hbelow i (by omega) hle
    rwa [decide_eq_true_eq, Int.toNat_natCast] at hpass

theorem historicalUsdIrtOnOrBefore_some {past : DatedRate} (hdate : isIsoDate date = true)
    (h : s.historicalUsdIrtOnOrBefore date = some past) :
    IsGreatest {day | s.Answers date day} past.effectiveDate ∧
      ∃ i, i < s.days.size ∧ past = ⟨.ofInt (s.rates.getD i 0), s.dateAt i⟩ := by
  obtain ⟨hhigh, hlast⟩ := s.search_spec (dayNumber date - dayNumber s.first)
  unfold historicalUsdIrtOnOrBefore at h
  rw [if_neg (not_not.mpr hdate)] at h
  dsimp only at h
  generalize s.search (dayNumber date - dayNumber s.first) = hit at *
  split at h
  · cases h
  split at h
  · cases h
  rename_i hhit
  obtain rfl := Option.some.inj h
  push Not at hhit
  obtain ⟨j, rfl⟩ := Int.eq_ofNat_of_zero_le hhit.1
  have hj : j < s.days.size := by omega
  have hgap : dayNumber date - dayNumber (s.dateAt j) ≤ HISTORICAL_MAX_GAP_DAYS := by
    rw [dateAt, dayNumber_addDays (.of_isIsoDate s.first_real)]
    have := hhit.2
    rw [Int.toNat_natCast] at this
    omega
  refine ⟨⟨⟨j, hj, rfl, (dateAt_le_iff hdate).mpr ((hlast j hj).mpr le_rfl), hgap⟩, ?_⟩, j, hj, rfl⟩
  rintro day ⟨i, hi, rfl, hle, -⟩
  have hij : i ≤ j := by
    have := (hlast i hi).mp ((dateAt_le_iff hdate).mp hle)
    omega
  rw [Int.toNat_natCast, ← dayNumber_le_iff (s.realDay_dateAt i) (s.realDay_dateAt j), dateAt, dateAt,
    dayNumber_addDays (.of_isIsoDate s.first_real), dayNumber_addDays (.of_isIsoDate s.first_real)]
  have := s.days_mono hij hj
  omega

theorem historicalUsdIrtOnOrBefore_none (hdate : isIsoDate date = true)
    (h : s.historicalUsdIrtOnOrBefore date = none) (day : IsoDate) : ¬ s.Answers date day := by
  rintro ⟨i, hi, rfl, hle, hgap⟩
  obtain ⟨hhigh, hlast⟩ := s.search_spec (dayNumber date - dayNumber s.first)
  have htarget := (dateAt_le_iff hdate).mp hle
  rw [dateAt, dayNumber_addDays (.of_isIsoDate s.first_real)] at hgap
  unfold historicalUsdIrtOnOrBefore at h
  rw [if_neg (not_not.mpr hdate)] at h
  dsimp only at h
  generalize s.search (dayNumber date - dayNumber s.first) = hit at *
  have hhit := (hlast i hi).mp htarget
  obtain ⟨j, rfl⟩ := Int.eq_ofNat_of_zero_le (by omega : 0 ≤ hit)
  have hmono := s.days_mono (i := i) (j := j) (by omega) (by omega)
  rw [if_neg (by omega), if_neg (by rw [Int.toNat_natCast]; omega)] at h
  cases h

/-! ## The greatest day on or before a date -/

/-- Where a date stands in the series: its days after the first one. -/
def place (s : UsdIrtSeries) (date : IsoDate) : Int := dayNumber date - dayNumber s.first

/-- Before the first day, and in an empty series, the search finds nothing. -/
theorem historicalUsdIrtOnOrBefore_eq (hdate : isIsoDate date = true) :
    s.historicalUsdIrtOnOrBefore date =
      let hit := s.search (s.place date)
      if hit < 0 ∨ HISTORICAL_MAX_GAP_DAYS < s.place date - s.days.getD hit.toNat 0 then none
      else some ⟨.ofInt (s.rates.getD hit.toNat 0), s.dateAt hit.toNat⟩ := by
  obtain ⟨hhigh, hlast⟩ := s.search_spec (s.place date)
  unfold historicalUsdIrtOnOrBefore
  rw [if_neg (not_not.mpr hdate)]
  dsimp only
  rw [← place]
  generalize s.search (s.place date) = hit at *
  by_cases hnone : s.place date < 0 ∨ s.days.size = 0
  · have hhit : hit < 0 := by
      by_contra hpos
      obtain ⟨j, rfl⟩ := Int.eq_ofNat_of_zero_le (not_lt.mp hpos)
      have hj : j < s.days.size := by omega
      have := (hlast j hj).mpr le_rfl
      omega
    rw [if_pos hnone, if_pos (.inl hhit)]
  · rw [if_neg hnone]

/-- What the search finds, as the greatest day that is not too late. -/
theorem isGreatest_search {j : Nat} (hj : j < s.days.size)
    (hhit : s.search (s.place date) = j) :
    IsGreatest {d | d ∈ s.days ∧ (d : Int) ≤ s.place date} s.days[j] := by
  have hlast := (s.search_spec (s.place date)).2
  rw [hhit] at hlast
  have hget (i : Nat) (hi : i < s.days.size) : s.days.getD i 0 = s.days[i] := by
    simp only [Array.getD, hi, dif_pos]
    rfl
  refine ⟨⟨Array.getElem_mem hj, hget j hj ▸ (hlast j hj).mpr le_rfl⟩, ?_⟩
  rintro d ⟨hd, hle⟩
  obtain ⟨i, hi, rfl⟩ := Array.mem_iff_getElem.mp hd
  have hij : (i : Int) ≤ j := (hlast i hi).mp (by rwa [hget i hi])
  rw [← hget i hi, ← hget j hj]
  exact s.days_mono (by omega) hj

/-- The answer is the rate and the date of the greatest day on or before the date, and there is
none exactly when every such day is too long ago. -/
theorem onOrBefore_greatest (hrates : s.rates.size = s.days.size) (hdate : isIsoDate date = true) :
    (∀ past, s.historicalUsdIrtOnOrBefore date = some past ↔
      ∃ (i : Nat) (_ : i < s.days.size) (_ : i < s.rates.size),
        IsGreatest {d | d ∈ s.days ∧ (d : Int) ≤ s.place date} s.days[i] ∧
        s.place date - s.days[i] ≤ HISTORICAL_MAX_GAP_DAYS ∧
        past = ⟨.ofInt s.rates[i], addDays s.first s.days[i]⟩) ∧
    (s.historicalUsdIrtOnOrBefore date = none ↔ ∀ d ∈ s.days, (d : Int) ≤ s.place date →
      HISTORICAL_MAX_GAP_DAYS < s.place date - d) ∧
    ∀ past, s.historicalUsdIrtOnOrBefore date = some past → past.effectiveDate ≤ date := by
  obtain ⟨hhigh, hlast⟩ := s.search_spec (s.place date)
  have heq := historicalUsdIrtOnOrBefore_eq (s := s) hdate
  dsimp only at heq
  rw [heq]
  have hget (i : Nat) (hi : i < s.days.size) : s.days.getD i 0 = s.days[i] := by
    simp only [Array.getD, hi, dif_pos]
    rfl
  by_cases hneg : s.search (s.place date) < 0
  · have hlate (d : Nat) (hd : d ∈ s.days) : ¬ (d : Int) ≤ s.place date := by
      obtain ⟨i, hi, rfl⟩ := Array.mem_iff_getElem.mp hd
      rw [← hget i hi, hlast i hi]
      omega
    rw [if_pos (.inl hneg)]
    refine ⟨fun past => ⟨fun h => (by cases h), ?_⟩,
      ⟨fun _ d hd hle => absurd hle (hlate d hd), fun _ => rfl⟩, fun past h => (by cases h)⟩
    rintro ⟨i, hi, -, hgreatest, -⟩
    exact absurd hgreatest.1.2 (hlate _ hgreatest.1.1)
  · obtain ⟨j, hj⟩ := Int.eq_ofNat_of_zero_le (not_lt.mp hneg)
    have hsize : j < s.days.size := by omega
    have hrate : j < s.rates.size := hrates ▸ hsize
    have hgreatest := isGreatest_search hsize hj
    have hgetRate : s.rates.getD j 0 = s.rates[j] := by
      simp only [Array.getD, hrate, dif_pos]
      rfl
    rw [hj, Int.toNat_natCast, hget j hsize, hgetRate, dateAt, hget j hsize]
    by_cases hgap : HISTORICAL_MAX_GAP_DAYS < s.place date - s.days[j]
    · rw [if_pos (.inr hgap)]
      refine ⟨fun past => ⟨fun h => (by cases h), ?_⟩, ⟨fun _ d hd hle => ?_, fun _ => rfl⟩,
        fun past h => (by cases h)⟩
      · rintro ⟨i, hi, -, hother, hnear, -⟩
        have := hother.unique hgreatest
        omega
      · have := hgreatest.2 ⟨hd, hle⟩
        omega
    · rw [if_neg (by omega)]
      refine ⟨fun past => ⟨fun h => ?_, ?_⟩, ⟨fun h => (by cases h), fun h => ?_⟩, fun past h => ?_⟩
      · exact ⟨j, hsize, hrate, hgreatest, not_lt.mp hgap, (Option.some.inj h).symm⟩
      · rintro ⟨i, hi, hi', hother, -, rfl⟩
        have hdays := hother.unique hgreatest
        have hij : i = j := by
          rcases lt_trichotomy i j with hlt | rfl | hlt
          · exact absurd hdays (s.sorted j hsize i hlt).ne
          · rfl
          · exact absurd hdays (s.sorted i hi j hlt).ne'
        subst hij
        rfl
      · exact absurd (h _ hgreatest.1.1 hgreatest.1.2) hgap
      · obtain rfl := Option.some.inj h
        have hle := (dateAt_le_iff (s := s) (i := j) hdate).mpr ((hlast j hsize).mpr hj.ge)
        rwa [dateAt, hget j hsize] at hle

/-- Three closes at the end of a year, asked for on a holiday. -/
theorem onOrBefore_holiday : ∃ s : UsdIrtSeries,
    s.first = 20260318 ∧ s.days = #[0, 1, 3] ∧ s.rates = #[161000, 162000, 163500] ∧
    s.historicalUsdIrtOnOrBefore 20260330 = some ⟨.ofInt 163500, 20260321⟩ ∧
    s.historicalUsdIrtOnOrBefore 20260407 = none := by
  let s : UsdIrtSeries :=
    { first := 20260318
      days := #[0, 1, 3]
      rates := #[161000, 162000, 163500]
      first_real := by decide
      sorted := by decide }
  have hmem (d : Nat) : d ∈ s.days ↔ d = 0 ∨ d = 1 ∨ d = 3 := by simp [s]
  have hplace : s.place 20260330 = 12 ∧ s.place 20260407 = 20 := by decide
  have hgap : HISTORICAL_MAX_GAP_DAYS = 16 := rfl
  obtain ⟨hsome, -, -⟩ := onOrBefore_greatest (s := s) rfl (by decide : isIsoDate 20260330 = true)
  obtain ⟨-, hnone, -⟩ := onOrBefore_greatest (s := s) rfl (by decide : isIsoDate 20260407 = true)
  refine ⟨s, rfl, rfl, rfl, (hsome _).mpr ⟨2, by decide, by decide, ⟨⟨?_, by decide⟩, ?_⟩,
    by decide, by decide⟩, hnone.mpr ?_⟩
  · exact (hmem 3).mpr (by decide)
  · rintro d ⟨hd, -⟩
    have hd := (hmem d).mp hd
    change d ≤ 3
    omega
  · intro d hd _
    have hd := (hmem d).mp hd
    omega

end UsdIrtSeries

end Pwos
