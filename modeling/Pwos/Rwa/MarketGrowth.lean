import Pwos.Domain.Days

/-!
# Market growth from the first price on

`features/rwa/realEstate/market/forward.ts`: growth over a month, three, six and every year, from
the first price to a price recorded near the day. The search for such a price comes before the
question whether the day has come, so a day ahead may be answered with a price of today.
-/

namespace Pwos

namespace Market

open IsoDate

def STALE_AFTER_DAYS : Int := 45

structure MarketPoint where
  date : IsoDate
  ppsqmToman : ℚ
  usdRate : ℚ
  ppsqmUsd : ℚ
  deriving DecidableEq, Repr

inductive Outcome where
  | pending
  | missing
  | available (observed : MarketPoint) (tomanPct usdPct : ℚ)
  deriving DecidableEq, Repr

structure HorizonResult where
  months : Nat
  targetDate : IsoDate
  outcome : Outcome
  deriving DecidableEq, Repr

structure SinceStart where
  fromPoint : MarketPoint
  toPoint : MarketPoint
  days : Int
  tomanPct : ℚ
  usdPct : ℚ
  deriving DecidableEq, Repr

structure MarketGrowth where
  baseline : MarketPoint
  latest : MarketPoint
  points : List MarketPoint
  horizons : List HorizonResult
  sinceStart : Option SinceStart
  daysSinceLatest : Int
  stale : Bool
  deriving DecidableEq, Repr

/-! ## Dates as texts -/

/-- `Date.parse(iso.slice(0, 10))`: a year past 9999 has a sign and six digits, and then the text
ends after the month. -/
def parsedDay (d : IsoDate) : Int :=
  dayNumber (if year d ≤ 9999 then d else ofParts (year d) (month d) 1)

def daysBetween (fromDate toDate : IsoDate) : Int := parsedDay toDate - parsedDay fromDate

/-- `targetDate > todayIso`; a sign sorts before the digits. -/
def isAfter (targetDate today : IsoDate) : Bool := year targetDate ≤ 9999 && today < targetDate

def monthsBetween (fromDate toDate : IsoDate) : Int :=
  ((year toDate : Int) - year fromDate) * 12 + ((month toDate : Int) - month fromDate) -
    if day toDate < day fromDate then 1 else 0

/-! ## The horizons -/

/-- A month, three, six and the years, at least five of them and one that is not over. -/
def horizonsFor (baselineDate today : IsoDate) : List Nat :=
  let elapsedYears := (max 0 (monthsBetween baselineDate today) / 12).toNat
  let years := max 5 (elapsedYears + 1)
  [1, 3, 6] ++ (List.range years).map fun i => (i + 1) * 12

def toleranceDays (months : Nat) : Nat := if months ≤ 6 then 10 else 31

def gap (target : IsoDate) (p : MarketPoint) : Nat := (daysBetween target p.date).natAbs

/-- One turn of the loop of `nearest`, with the best point and its gap. -/
def nearestStep (target : IsoDate) (maxDays : Nat) (after : IsoDate)
    (best : Option (MarketPoint × Nat)) (p : MarketPoint) : Option (MarketPoint × Nat) :=
  if p.date ≤ after then best
  else if gap target p ≤ maxDays && best.all (gap target p < ·.2) then some (p, gap target p)
  else best

def nearest (points : List MarketPoint) (target : IsoDate) (maxDays : Nat) (after : IsoDate) :
    Option MarketPoint :=
  (points.foldl (nearestStep target maxDays after) none).map Prod.fst

section Growth
-- the change in percent, which the code takes in doubles
variable (pctChange : ℚ → ℚ → ℚ)

def horizonResult (points : List MarketPoint) (baseline : MarketPoint) (today : IsoDate)
    (months : Nat) : HorizonResult :=
  let targetDate := addMonthsIso baseline.date months
  { months, targetDate
    outcome :=
      match nearest points targetDate (toleranceDays months) baseline.date with
      | some p => .available p (pctChange baseline.ppsqmToman p.ppsqmToman)
          (pctChange baseline.ppsqmUsd p.ppsqmUsd)
      | none => if isAfter targetDate today then .pending else .missing }

/-- The points by their dates, which are different. -/
def byDate (input : List MarketPoint) : List MarketPoint :=
  input.mergeSort fun a b => a.date ≤ b.date

def growthOf (points : List MarketPoint) (baseline latest : MarketPoint) (today : IsoDate) :
    MarketGrowth :=
  let daysSinceLatest := max 0 (daysBetween latest.date today)
  { baseline, latest, points
    horizons := (horizonsFor baseline.date today).map
      (horizonResult pctChange points baseline today)
    sinceStart :=
      if 1 < points.length then
        some { fromPoint := baseline, toPoint := latest
               days := daysBetween baseline.date latest.date
               tomanPct := pctChange baseline.ppsqmToman latest.ppsqmToman
               usdPct := pctChange baseline.ppsqmUsd latest.ppsqmUsd }
      else none
    daysSinceLatest, stale := STALE_AFTER_DAYS < daysSinceLatest }

def marketGrowth (input : List MarketPoint) (today : IsoDate) : Option MarketGrowth :=
  match (byDate input).head?, (byDate input).getLast? with
  | some baseline, some latest => some (growthOf pctChange (byDate input) baseline latest today)
  | _, _ => none

end Growth

/-! ## The nearest point -/

section Nearest
variable {points : List MarketPoint} {target after : IsoDate} {maxDays : Nat} {p : MarketPoint}

/-- After the start, and near enough. -/
structure Near (target : IsoDate) (maxDays : Nat) (after : IsoDate) (p : MarketPoint) : Prop where
  later : after < p.date
  close : gap target p ≤ maxDays

/-- What the loop has after the points it has seen. -/
def BestOf (target : IsoDate) (maxDays : Nat) (after : IsoDate) (points : List MarketPoint) :
    Option (MarketPoint × Nat) → Prop
  | none => ∀ p ∈ points, ¬Near target maxDays after p
  | some (p, g) => p ∈ points ∧ Near target maxDays after p ∧ g = gap target p ∧
      ∀ q ∈ points, Near target maxDays after q → gap target p ≤ gap target q

theorem BestOf.step {best : Option (MarketPoint × Nat)}
    (h : BestOf target maxDays after points best) (p : MarketPoint) :
    BestOf target maxDays after (points ++ [p]) (nearestStep target maxDays after best p) := by
  unfold nearestStep
  split_ifs with hearly hcloser
  · have hnot : ¬Near target maxDays after p := fun hp => absurd hp.later (not_lt.mpr hearly)
    cases best <;> grind [BestOf]
  · have hp : Near target maxDays after p := ⟨not_le.mp hearly, by simp at hcloser; exact hcloser.1⟩
    cases best <;> grind [BestOf]
  · cases best <;> grind [BestOf, Near]

theorem bestOf_foldl (target : IsoDate) (maxDays : Nat) (after : IsoDate)
    (points : List MarketPoint) : BestOf target maxDays after points
      (points.foldl (nearestStep target maxDays after) none) := by
  induction points using List.reverseRecOn with
  | nil => simp [BestOf]
  | append_singleton points p ih =>
    rw [List.foldl_append]
    exact ih.step p

theorem nearest_eq_none : nearest points target maxDays after = none ↔
    ∀ p ∈ points, ¬Near target maxDays after p := by
  have hbest := bestOf_foldl target maxDays after points
  unfold nearest
  cases hfold : points.foldl (nearestStep target maxDays after) none with
  | none =>
    rw [hfold] at hbest
    exact iff_of_true rfl hbest
  | some best =>
    rw [hfold] at hbest
    exact iff_of_false (by simp) fun hnone => hnone _ hbest.1 hbest.2.1

theorem nearest_spec (h : nearest points target maxDays after = some p) :
    p ∈ points ∧ Near target maxDays after p ∧
      ∀ q ∈ points, Near target maxDays after q → gap target p ≤ gap target q := by
  have hbest := bestOf_foldl target maxDays after points
  obtain ⟨⟨q, g⟩, hfold, rfl⟩ := Option.map_eq_some_iff.mp h
  rw [hfold] at hbest
  exact ⟨hbest.1, hbest.2.1, hbest.2.2.2⟩

end Nearest

/-! ## The targets -/

section Targets
variable {d today : IsoDate} {m n : Nat}

/-- Targets are as far apart as their months, of 28 days at least. -/
theorem dayNumber_addMonthsIso_le (h : RealDay d) (hle : m ≤ n) :
    dayNumber (addMonthsIso d m) + 28 * (n - m) ≤ dayNumber (addMonthsIso d n) := by
  have hfirst := dayNumber_firstDayOf_le (i := monthIndex d + m) (j := monthIndex d + n) (by omega)
  rw [(addMonthsIso_spec h m).2, (addMonthsIso_spec h n).2]
  push_cast at hfirst
  omega

theorem horizonsFor_pairwise (d today : IsoDate) : (horizonsFor d today).Pairwise fun m n =>
    m < n ∧ toleranceDays m + toleranceDays n < 28 * (n - m) := by
  unfold horizonsFor
  dsimp only
  rw [List.pairwise_append]
  refine ⟨by decide, ?_, ?_⟩
  · rw [List.pairwise_map]
    refine List.pairwise_lt_range.imp ?_
    intro i j hij
    unfold toleranceDays
    split_ifs <;> omega
  · intro m hm n hn
    obtain ⟨i, -, rfl⟩ := List.mem_map.mp hn
    unfold toleranceDays
    fin_cases hm <;> split_ifs <;> omega

/-- The last horizon is the first multiple of a year after today, or a later one. -/
theorem horizonsFor_getLast? (d today : IsoDate) : ∃ n, (horizonsFor d today).getLast? = some n ∧
    monthsBetween d today < n := by
  unfold horizonsFor
  dsimp only
  generalize hy : max 5 ((max 0 (monthsBetween d today) / 12).toNat + 1) = years
  obtain ⟨k, rfl⟩ : ∃ k, years = k + 1 := ⟨years - 1, by omega⟩
  refine ⟨(k + 1) * 12, ?_, ?_⟩
  · rw [List.range_succ, List.map_append, ← List.append_assoc, List.map_singleton,
      List.getLast?_concat]
  · push_cast
    omega

theorem le_addMonthsIso (hd : RealDay d) (htoday : RealDay today) (h : monthsBetween d today < n) :
    today ≤ addMonthsIso d n := by
  obtain ⟨htarget, hnumber⟩ := addMonthsIso_spec hd n
  rw [← dayNumber_le_iff htoday htarget, hnumber, dayNumber_eq_firstDayOf htoday]
  have hlast := htoday.day_le
  have hpos := hd.day_pos
  have hmonth := hd.month_pos
  have hmonth' := htoday.month_pos
  have hmonth'' := htoday.month_le
  unfold monthsBetween at h
  by_cases hsame : monthIndex today = monthIndex d + n
  · have hday : day today ≤ day d := by
      unfold monthIndex at hsame
      split_ifs at h <;> omega
    rw [hsame]
    omega
  · have hlt : monthIndex today + 1 ≤ monthIndex d + n := by
      unfold monthIndex at *
      split_ifs at h <;> omega
    have hyear : monthIndex today / 12 = year today := by
      unfold monthIndex
      omega
    have hindex : monthIndex today % 12 + 1 = month today := by
      unfold monthIndex
      omega
    have hnext := dayNumber_firstDayOf_succ (monthIndex today)
    have hle := dayNumber_firstDayOf_le hlt
    rw [hyear, hindex] at hnext
    omega

end Targets

/-! ## What the module promises -/

/-- Days between the target and a point. -/
def distance (target : IsoDate) (p : MarketPoint) : Nat :=
  (dayNumber p.date - dayNumber target).natAbs

/-- Points of different days, none of which is to come. -/
structure IsSeries (input : List MarketPoint) (today : IsoDate) : Prop where
  nonempty : input ≠ []
  real : ∀ p ∈ input, isIsoDate p.date
  distinct : (input.map (·.date)).Nodup
  past : ∀ p ∈ input, p.date ≤ today
  today : isIsoDate today

/-- A point after the first day, as near to the target as the horizon asks for. -/
structure Serves (first : IsoDate) (months : Nat) (target : IsoDate) (p : MarketPoint) : Prop where
  later : first < p.date
  close : distance target p ≤ toleranceDays months

def HorizonResult.observed (h : HorizonResult) : Option MarketPoint :=
  match h.outcome with
  | .available p _ _ => some p
  | _ => none

structure Answers (input : List MarketPoint) (first today : IsoDate) (h : HorizonResult) :
    Prop where
  target : h.targetDate = addMonthsIso first h.months
  pending : h.outcome = .pending ↔ today < h.targetDate
  available : ¬today < h.targetDate →
    (h.observed.isSome ↔ ∃ p ∈ input, Serves first h.months h.targetDate p)
  missing : ¬today < h.targetDate →
    (h.outcome = .missing ↔ ¬∃ p ∈ input, Serves first h.months h.targetDate p)
  nearest : ∀ p, h.observed = some p → p ∈ input ∧ Serves first h.months h.targetDate p ∧
    ∀ q ∈ input, Serves first h.months h.targetDate q →
      distance h.targetDate p ≤ distance h.targetDate q

structure MarketGrowth.Sound (g : MarketGrowth) (input : List MarketPoint) (today : IsoDate) :
    Prop where
  baseline : g.baseline ∈ input ∧ ∀ p ∈ input, g.baseline.date ≤ p.date
  answers : ∀ h ∈ g.horizons, Answers input g.baseline.date today h
  apart : g.horizons.Pairwise fun h h' => ∀ p, h.observed = some p → h'.observed ≠ some p
  last : ∃ h, g.horizons.getLast? = some h ∧ today ≤ h.targetDate

/-- No target to come, counted from the first point, is beyond the years of four digits or near
a point. -/
def NoEarlyAnswer (input : List MarketPoint) (today : IsoDate) : Prop :=
  ∀ b ∈ input, (∀ p ∈ input, b.date ≤ p.date) →
    ∀ months ∈ horizonsFor b.date today, today < addMonthsIso b.date months →
      year (addMonthsIso b.date months) ≤ 9999 ∧
        ∀ p ∈ input, ¬Serves b.date months (addMonthsIso b.date months) p

section Soundness
variable {pctChange : ℚ → ℚ → ℚ} {input points : List MarketPoint} {baseline p : MarketPoint}
  {first today target : IsoDate} {months : Nat} {g : MarketGrowth}

theorem gap_eq (htarget : year target ≤ 9999) (hp : isIsoDate p.date) :
    gap target p = distance target p := by
  have hyear : year p.date ≤ 9999 := by
    simp only [isIsoDate, Bool.and_eq_true, decide_eq_true_eq] at hp
    exact Nat.le_of_lt_succ hp.2
  unfold gap distance daysBetween parsedDay
  rw [if_pos htarget, if_pos hyear]

theorem near_iff (htarget : year target ≤ 9999) (hp : isIsoDate p.date) :
    Near target (toleranceDays months) first p ↔ Serves first months target p := by
  constructor
  · rintro ⟨hlater, hclose⟩
    exact ⟨hlater, gap_eq htarget hp ▸ hclose⟩
  · rintro ⟨hlater, hclose⟩
    exact ⟨hlater, (gap_eq htarget hp).symm ▸ hclose⟩

theorem year_mono {d e : IsoDate} (h : d ≤ e) : year d ≤ year e := Nat.div_le_div_right h

/-- One horizon is answered as it should be, exactly if it is not answered early. -/
theorem horizonResult_answers_iff (h : IsSeries input today)
    (hpoints : ∀ p, p ∈ points ↔ p ∈ input) :
    Answers input baseline.date today
        (horizonResult pctChange points baseline today months) ↔
      (today < addMonthsIso baseline.date months →
        year (addMonthsIso baseline.date months) ≤ 9999 ∧
          ∀ p ∈ input, ¬Serves baseline.date months (addMonthsIso baseline.date months) p) := by
  set target := addMonthsIso baseline.date months with htarget
  have hnone : year target ≤ 9999 →
      (nearest points target (toleranceDays months) baseline.date = none ↔
        ∀ p ∈ input, ¬Serves baseline.date months target p) := by
    intro hyear
    rw [nearest_eq_none]
    exact ⟨fun hn p hp hs => hn p ((hpoints p).mpr hp) ((near_iff hyear (h.real p hp)).mpr hs),
      fun hn p hp hs => hn p ((hpoints p).mp hp)
        ((near_iff hyear (h.real p ((hpoints p).mp hp))).mp hs)⟩
  constructor
  · intro hanswers hfuture
    have hpending := hanswers.pending.mpr hfuture
    unfold horizonResult at hpending
    dsimp only at hpending
    rw [← htarget] at hpending
    split at hpending
    · cases hpending
    · rename_i hn
      split_ifs at hpending with hafter
      have hyear : year target ≤ 9999 := by
        unfold isAfter at hafter
        simp at hafter
        exact hafter.1
      exact ⟨hyear, (hnone hyear).mp hn⟩
  · intro hcond
    have hyear : year target ≤ 9999 := by
      by_cases hfuture : today < target
      · exact (hcond hfuture).1
      · have htoday := h.today
        simp only [isIsoDate, Bool.and_eq_true, decide_eq_true_eq] at htoday
        exact (year_mono (not_lt.mp hfuture)).trans (Nat.le_of_lt_succ htoday.2)
    cases hnear : nearest points target (toleranceDays months) baseline.date with
    | none =>
      have hno := (hnone hyear).mp hnear
      have hnot : ¬∃ p ∈ input, Serves baseline.date months target p := by simpa using hno
      have hresult : horizonResult pctChange points baseline today months =
          ⟨months, target, if today < target then .pending else .missing⟩ := by
        unfold horizonResult isAfter
        dsimp only
        rw [← htarget, hnear]
        simp [hyear]
      rw [hresult]
      by_cases hfuture : today < target
      · rw [if_pos hfuture]
        exact ⟨htarget, iff_of_true rfl hfuture, fun h => absurd hfuture h,
          fun h => absurd hfuture h, by simp [HorizonResult.observed]⟩
      · rw [if_neg hfuture]
        exact ⟨htarget, iff_of_false (by simp) hfuture,
          fun _ => iff_of_false (by simp [HorizonResult.observed]) hnot,
          fun _ => iff_of_true rfl hnot, by simp [HorizonResult.observed]⟩
    | some p =>
      obtain ⟨hp, hclose, hbest⟩ := nearest_spec hnear
      have hp' := (hpoints p).mp hp
      have hserves := (near_iff hyear (h.real p hp')).mp hclose
      have hpast : ¬today < target := fun hfuture => (hcond hfuture).2 p hp' hserves
      have hmin : ∀ q ∈ input, Serves baseline.date months target q →
          distance target p ≤ distance target q := by
        intro q hq hs
        rw [← gap_eq hyear (h.real p hp'), ← gap_eq hyear (h.real q hq)]
        exact hbest q ((hpoints q).mpr hq) ((near_iff hyear (h.real q hq)).mpr hs)
      have hresult : horizonResult pctChange points baseline today months =
          ⟨months, target, .available p (pctChange baseline.ppsqmToman p.ppsqmToman)
            (pctChange baseline.ppsqmUsd p.ppsqmUsd)⟩ := by
        unfold horizonResult
        dsimp only
        rw [← htarget, hnear]
      rw [hresult]
      refine ⟨htarget, iff_of_false (by simp) hpast,
        fun _ => iff_of_true rfl ⟨p, hp', hserves⟩,
        fun _ => iff_of_false (by simp) (not_not_intro ⟨p, hp', hserves⟩), ?_⟩
      rintro q ⟨⟩
      exact ⟨hp', hserves, hmin⟩

/-- No point is near enough to the targets of two horizons. -/
theorem not_serves_two {n : Nat} (hfirst : RealDay first) (hlt : months < n)
    (htol : toleranceDays months + toleranceDays n < 28 * (n - months))
    (h : Serves first months (addMonthsIso first months) p) :
    ¬Serves first n (addMonthsIso first n) p := by
  intro hn
  have hapart := dayNumber_addMonthsIso_le hfirst hlt.le
  have hclose := h.close
  have hclose' := hn.close
  unfold distance at hclose hclose'
  omega

theorem byDate_perm (input : List MarketPoint) : (byDate input).Perm input :=
  List.mergeSort_perm _ _

theorem byDate_pairwise (input : List MarketPoint) :
    (byDate input).Pairwise fun a b => a.date ≤ b.date := by
  let early (a b : MarketPoint) : Bool := a.date ≤ b.date
  have htrans : ∀ a b c, early a b → early b c → early a c := by
    intro a b c
    simpa [early] using le_trans
  have htotal : ∀ a b, early a b || early b a := by
    intro a b
    simpa [early] using le_total _ _
  simpa [byDate, early] using List.pairwise_mergeSort htrans htotal input

theorem growthOf_sound_iff {latest : MarketPoint} (h : IsSeries input today)
    (hbase : baseline ∈ input) (hfirst : ∀ p ∈ input, baseline.date ≤ p.date) :
    (growthOf pctChange (byDate input) baseline latest today).Sound input today ↔
      NoEarlyAnswer input today := by
  have hmem : ∀ p, p ∈ byDate input ↔ p ∈ input := fun p => (byDate_perm input).mem_iff
  have hreal := RealDay.of_isIsoDate (h.real baseline hbase)
  constructor
  · intro hsound b hb hleast months hmonths
    obtain hsame := le_antisymm (hfirst b hb) (hleast baseline hbase)
    rw [← hsame] at hmonths ⊢
    exact (horizonResult_answers_iff h hmem).mp
      (hsound.answers _ (List.mem_map_of_mem hmonths))
  · intro hearly
    have hanswers : ∀ months ∈ horizonsFor baseline.date today, Answers input baseline.date today
        (horizonResult pctChange (byDate input) baseline today months) :=
      fun months hmonths =>
        (horizonResult_answers_iff h hmem).mpr (hearly baseline hbase hfirst months hmonths)
    refine ⟨⟨hbase, hfirst⟩, List.forall_mem_map.mpr hanswers, ?_, ?_⟩
    · refine List.pairwise_map.mpr ((horizonsFor_pairwise _ _).imp_of_mem ?_)
      rintro m n hm hn ⟨hlt, htol⟩ p hp hp'
      exact not_serves_two hreal hlt htol ((hanswers m hm).nearest p hp).2.1
        ((hanswers n hn).nearest p hp').2.1
    · obtain ⟨n, hlast, hlt⟩ := horizonsFor_getLast? baseline.date today
      refine ⟨_, by rw [growthOf, List.getLast?_map, hlast, Option.map_some], ?_⟩
      exact le_addMonthsIso hreal (.of_isIsoDate h.today) hlt

/-- The horizons are answered as the module promises, exactly when none is answered early. -/
theorem marketGrowth_sound_iff (pctChange : ℚ → ℚ → ℚ) (h : IsSeries input today) :
    ∃ g, marketGrowth pctChange input today = some g ∧
      (g.Sound input today ↔ NoEarlyAnswer input today) := by
  have hsorted := byDate_pairwise input
  have hperm := byDate_perm input
  cases hlist : byDate input with
  | nil =>
    rw [hlist] at hperm
    exact absurd hperm.nil_eq.symm h.nonempty
  | cons baseline rest =>
    rw [hlist] at hsorted hperm
    obtain ⟨latest, hlatest⟩ : ∃ latest, (baseline :: rest).getLast? = some latest :=
      ⟨_, List.getLast?_eq_some_getLast (List.cons_ne_nil _ _)⟩
    have hgrowth : marketGrowth pctChange input today =
        some (growthOf pctChange (byDate input) baseline latest today) := by
      unfold marketGrowth
      rw [hlist, hlatest]
      rfl
    refine ⟨_, hgrowth, growthOf_sound_iff h (hperm.mem_iff.mp (by simp)) ?_⟩
    intro p hp
    rcases List.mem_cons.mp (hperm.mem_iff.mpr hp) with rfl | hp
    · exact le_rfl
    · exact (List.pairwise_cons.mp hsorted).1 p hp

end Soundness

/-- The change in percent with two digits, without the rounding of doubles. -/
def exactPctChange (fromValue toValue : ℚ) : ℚ :=
  if 0 < fromValue then ⌊(toValue / fromValue - 1) * 10000 + 1 / 2⌋ / 100 else 0

/-- Prices of 1 and 25 January. -/
def twoPrices : List MarketPoint :=
  [⟨20260101, 100000000, 100000, 1000⟩, ⟨20260125, 105000000, 100000, 1050⟩]

theorem twoPrices_isSeries : IsSeries twoPrices 20260125 :=
  ⟨by decide, by decide, by decide, by decide, by decide⟩

theorem twoPrices_sound_iff : ∃ g, marketGrowth exactPctChange twoPrices 20260125 = some g ∧
    (g.Sound twoPrices 20260125 ↔ NoEarlyAnswer twoPrices 20260125) :=
  marketGrowth_sound_iff exactPctChange twoPrices_isSeries

/-- On 25 January the month that ends on 1 February has an answer already. -/
theorem a_month_to_come_is_answered : IsSeries twoPrices 20260125 ∧
    ∃ g, marketGrowth exactPctChange twoPrices 20260125 = some g ∧
      (∃ h ∈ g.horizons, h.targetDate = 20260201 ∧ (h.observed.map (·.date)) = some 20260125 ∧
        h.outcome ≠ .pending) ∧ ¬g.Sound twoPrices 20260125 := by
  have hsorted : byDate twoPrices = twoPrices := List.mergeSort_of_pairwise (by decide)
  have hgrowth : marketGrowth exactPctChange twoPrices 20260125 =
      some (growthOf exactPctChange twoPrices ⟨20260101, 100000000, 100000, 1000⟩
        ⟨20260125, 105000000, 100000, 1050⟩ 20260125) := by
    unfold marketGrowth
    rw [hsorted]
    rfl
  have hanswer : ∃ h ∈ (growthOf exactPctChange twoPrices ⟨20260101, 100000000, 100000, 1000⟩
      ⟨20260125, 105000000, 100000, 1050⟩ 20260125).horizons, h.targetDate = 20260201 ∧
        (h.observed.map (·.date)) = some 20260125 ∧ h.outcome ≠ .pending := by
    decide
  refine ⟨twoPrices_isSeries, _, hgrowth, hanswer, fun hsound => ?_⟩
  obtain ⟨h, hmem, htarget, -, hpending⟩ := hanswer
  have hfuture : (20260125 : IsoDate) < h.targetDate := htarget ▸ (by decide)
  exact hpending ((hsound.answers h hmem).pending.mpr hfuture)

end Market

end Pwos
