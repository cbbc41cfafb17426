import Pwos.Fx.HistoricalRates
import Pwos.Fx.Rates
import Pwos.Rwa.Purchase

/-!
# The rate of a date

Which rate `resolveUsdRateForDate` chooses from the table and the bundled history, and what
`resolveAutomaticPurchaseRate` lets through for a day in the past.
-/

namespace Pwos

section Rate
variable (s : UsdIrtSeries) (db : Db) (env : Env)

/-- There is a rate of `day` for `date`: recorded, or for a past date in the history. -/
def RateAvailable (date day : IsoDate) : Prop :=
  (∃ r ∈ db.exchangeRates, r.IsUsdIrt ∧ r.effectiveDate = day ∧ day ≤ date) ∨
    (date < env.today ∧ s.Answers date day)

/-- `rate` is a rate of `day`. -/
def RateOf (day : IsoDate) (rate : Decimal) : Prop :=
  (∃ r ∈ db.exchangeRates, r.IsUsdIrt ∧ r.effectiveDate = day ∧ r.rate = rate) ∨
    ∃ i, i < s.days.size ∧ s.dateAt i = day ∧ rate = .ofInt (s.rates.getD i 0)

/-- The recorded rate of the last day up to `date`. -/
def rowBefore (date : IsoDate) : Option ExchangeRate :=
  latestBy (·.effectiveDate)
    (db.exchangeRates.filter fun r => r.IsUsdIrt ∧ r.effectiveDate ≤ date)

/-- The history, for past days, unless the table is closer. -/
def closerHistory (date : IsoDate) : Option DatedRate :=
  (if date < env.today then s.historicalUsdIrtOnOrBefore date else none).filter fun past =>
    ∀ b ∈ rowBefore db date, b.effectiveDate ≤ past.effectiveDate

variable {s db env} {date day : IsoDate} {userId : Option Uuid} {r : ExchangeRate}

theorem rowBefore_some (h : rowBefore db date = some r) : r ∈ db.exchangeRates ∧ r.IsUsdIrt ∧
    IsGreatest {day | ∃ r ∈ db.exchangeRates, r.IsUsdIrt ∧ r.effectiveDate = day ∧ day ≤ date}
      r.effectiveDate := by
  have hmem := List.mem_filter.mp (mem_of_firstBy h)
  obtain ⟨husd, hle⟩ := of_decide_eq_true hmem.2
  refine ⟨hmem.1, husd, ⟨r, hmem.1, husd, rfl, hle⟩, ?_⟩
  rintro day ⟨m, hm, hmusd, rfl, hmle⟩
  exact latestBy_le h (List.mem_filter.mpr ⟨hm, decide_eq_true ⟨hmusd, hmle⟩⟩)

theorem rowBefore_none (h : rowBefore db date = none) (hr : r ∈ db.exchangeRates)
    (husd : r.IsUsdIrt) : ¬ r.effectiveDate ≤ date := by
  intro hle
  have hempty := firstBy_eq_none_iff.mp h
  have hmem : r ∈ db.exchangeRates.filter fun r => r.IsUsdIrt ∧ r.effectiveDate ≤ date :=
    List.mem_filter.mpr ⟨hr, decide_eq_true ⟨husd, hle⟩⟩
  rw [hempty] at hmem
  cases hmem

/-- With positive rates in the table the look-up goes: the row of the day, the history if it is
closer, the row before, the user's rate. -/
theorem resolveUsdRateForDate_run (hpos : ∀ r ∈ db.exchangeRates, r.IsUsdIrt → 0 < r.rate) :
    (resolveUsdRateForDate s.historicalUsdIrtOnOrBefore env date userId).answer db =
      match db.exchangeRates.find? fun r => r.IsUsdIrt ∧ r.effectiveDate = date with
      | some row => .ok ⟨row.rate, row.effectiveDate, .exact, true⟩
      | none =>
        match closerHistory s db env date, rowBefore db date with
        | some past, _ =>
          .ok ⟨past.rate, past.effectiveDate, .historical, past.effectiveDate = date⟩
        | none, some row => .ok ⟨row.rate, row.effectiveDate, .nearest, false⟩
        | none, none => (do
          let snap ← getLatestUsdIrtRateForUser userId
          let source :=
            if snap.source ∈ [.fallback, .named "fallback"] then .fallback else .current
          pure ⟨snap.rate, date, source, false⟩ : Sql UsdRateResolution).answer db := by
  have hrow : (rowBefore db date).filter (0 < ·.rate) = rowBefore db date := by
    cases h : rowBefore db date with
    | none => rfl
    | some r =>
      have hspec := rowBefore_some h
      simp [Option.filter, hpos r hspec.1 hspec.2.1]
  unfold resolveUsdRateForDate Tx.answer
  rw [Tx.run_read_bind]
  cases hexact : db.exchangeRates.find? fun r => r.IsUsdIrt ∧ r.effectiveDate = date with
  | some row =>
    have hfound := List.find?_some hexact
    simp only [decide_eq_true_eq] at hfound
    have hfilter : (some row).filter (fun r : ExchangeRate => 0 < r.rate) = some row := by
      simp [Option.filter, hpos row (List.mem_of_find?_eq_some hexact) hfound.1]
    rw [hfilter]
    rfl
  | none =>
    have hnone : (none : Option ExchangeRate).filter (fun r : ExchangeRate => 0 < r.rate) = none := rfl
    rw [hnone]
    dsimp only
    rw [Tx.run_read_bind]
    unfold closerHistory
    generalize hb : rowBefore db date = before at *
    unfold rowBefore at hb
    rw [hb, hrow]
    generalize Option.filter _ (if date < env.today then _ else _) = closer
    cases closer <;> cases before <;> rfl

theorem closerHistory_some {past : DatedRate} (hdate : isIsoDate date = true)
    (h : closerHistory s db env date = some past) :
    IsGreatest {day | RateAvailable s db env date day} past.effectiveDate ∧
      RateOf s db past.effectiveDate past.rate := by
  obtain ⟨hpast, hcloser⟩ := Option.filter_eq_some_iff.mp h
  split at hpast
  · rename_i hold
    obtain ⟨hgreatest, i, hi, rfl⟩ := UsdIrtSeries.historicalUsdIrtOnOrBefore_some hdate hpast
    refine ⟨⟨.inr ⟨hold, hgreatest.1⟩, ?_⟩, .inr ⟨i, hi, rfl, rfl⟩⟩
    rintro day (hrow | ⟨-, hanswers⟩)
    · cases hbefore : rowBefore db date with
      | none =>
        obtain ⟨r, hr, husd, rfl, hle⟩ := hrow
        exact absurd hle (rowBefore_none hbefore hr husd)
      | some b =>
        rw [hbefore] at hcloser
        have hb : b.effectiveDate ≤ s.dateAt i := by simpa using hcloser
        exact ((rowBefore_some hbefore).2.2.2 hrow).trans hb
    · exact hgreatest.2 hanswers
  · cases hpast

theorem closerHistory_none (hdate : isIsoDate date = true) (h : closerHistory s db env date = none)
    (hold : date < env.today) (hday : s.Answers date day) :
    ∃ b, rowBefore db date = some b ∧ day ≤ b.effectiveDate := by
  unfold closerHistory at h
  rw [if_pos hold] at h
  cases hpast : s.historicalUsdIrtOnOrBefore date with
  | none => exact absurd hday (UsdIrtSeries.historicalUsdIrtOnOrBefore_none hdate hpast day)
  | some past =>
    obtain ⟨hgreatest, -⟩ := UsdIrtSeries.historicalUsdIrtOnOrBefore_some hdate hpast
    rw [hpast, Option.filter_eq_none_iff] at h
    have hfar := h past rfl
    cases hbefore : rowBefore db date with
    | none => simp [hbefore] at hfar
    | some b =>
      have hlt : past.effectiveDate < b.effectiveDate := by simpa [hbefore] using hfar
      exact ⟨b, rfl, (hgreatest.2 hday).trans hlt.le⟩

theorem RateAvailable.le (h : RateAvailable s db env date day) : day ≤ date := by
  rcases h with ⟨_, _, _, _, hle⟩ | ⟨_, _, _, _, hle, _⟩ <;> exact hle

theorem resolveUsdRateForDate_latest (hdate : isIsoDate date = true)
    (hpos : ∀ r ∈ db.exchangeRates, r.IsUsdIrt → 0 < r.rate)
    (h : ∃ day, RateAvailable s db env date day) :
    ∃ resolved, (resolveUsdRateForDate s.historicalUsdIrtOnOrBefore env date userId).answer db =
        .ok resolved ∧
      IsGreatest {day | RateAvailable s db env date day} resolved.effectiveDate ∧
      RateOf s db resolved.effectiveDate resolved.rate := by
  rw [resolveUsdRateForDate_run hpos]
  cases hexact : db.exchangeRates.find? fun r => r.IsUsdIrt ∧ r.effectiveDate = date with
  | some row =>
    have hfound := List.find?_some hexact
    simp only [decide_eq_true_eq] at hfound
    have hmem := List.mem_of_find?_eq_some hexact
    refine ⟨_, rfl, ⟨.inl ⟨row, hmem, hfound.1, rfl, hfound.2.le⟩, fun day hday => ?_⟩,
      .inl ⟨row, hmem, hfound.1, rfl, rfl⟩⟩
    exact hfound.2 ▸ hday.le
  | none =>
    dsimp only
    cases hclose : closerHistory s db env date with
    | some past => exact ⟨_, rfl, closerHistory_some hdate hclose⟩
    | none =>
      cases hbefore : rowBefore db date with
      | some b =>
        obtain ⟨hmem, husd, hgreatest⟩ := rowBefore_some hbefore
        refine ⟨_, rfl, ⟨.inl hgreatest.1, ?_⟩, .inl ⟨b, hmem, husd, rfl, rfl⟩⟩
        rintro day (hrow | ⟨hold, hday⟩)
        · exact hgreatest.2 hrow
        · obtain ⟨c, hc, hle⟩ := closerHistory_none hdate hclose hold hday
          rw [hbefore] at hc
          cases hc
          exact hle
      | none =>
        obtain ⟨day, ⟨r, hr, husd, rfl, hle⟩ | ⟨hold, hday⟩⟩ := h
        · exact absurd hle (rowBefore_none hbefore hr husd)
        · obtain ⟨c, hc, -⟩ := closerHistory_none hdate hclose hold hday
          rw [hbefore] at hc
          cases hc

theorem resolveUsdRateForDateToFreeze_source {history : IsoDate → Option DatedRate}
    {resolved : UsdRateResolution} {db' : Db}
    (h : (resolveUsdRateForDateToFreeze history env date userId).run db = .ok (resolved, db')) :
    resolved.source ≠ .fallback := by
  obtain ⟨x, db₁, -, h⟩ := Tx.run_bind_ok.mp h
  rw [Tx.run_require_bind] at h
  split at h
  · rename_i hsource
    cases h
    exact hsource
  · cases h

theorem resolveAutomaticPurchaseRate_past {history : IsoDate → Option DatedRate}
    {resolved : UsdRateResolution} (hpast : date < env.today)
    (h : (resolveAutomaticPurchaseRate history env date userId).answer db = .ok resolved) :
    0 ≤ dayNumber date - dayNumber resolved.effectiveDate ∧
      dayNumber date - dayNumber resolved.effectiveDate ≤ 16 ∧
      resolved.source ≠ .current ∧ resolved.source ≠ .fallback := by
  obtain ⟨⟨x, db'⟩, hrun, rfl⟩ : ∃ r, (resolveAutomaticPurchaseRate history env date userId).run db =
      .ok r ∧ r.1 = resolved := by
    unfold Tx.answer at h
    cases hr : (resolveAutomaticPurchaseRate history env date userId).run db with
    | error e => rw [hr] at h; cases h
    | ok r => rw [hr] at h; exact ⟨r, rfl, Except.ok.inj h⟩
  unfold resolveAutomaticPurchaseRate at hrun
  rw [Tx.run_require_bind] at hrun
  split at hrun
  · have hnotoday : currentPurchaseRate env date userId = pure none :=
      if_neg fun htoday => hpast.ne htoday.1
    rw [hnotoday] at hrun
    obtain ⟨current, db₀, hnone, hrun⟩ := Tx.run_bind_ok.mp hrun
    cases hnone
    obtain ⟨result, db₁, hfreeze, hrun⟩ := Tx.run_bind_ok.mp hrun
    have hsource := resolveUsdRateForDateToFreeze_source hfreeze
    dsimp only at hrun
    rw [Tx.run_require_bind] at hrun
    split at hrun
    · rename_i hgap
      cases hrun
      push Not at hgap
      exact ⟨hgap.2.1, hgap.2.2, hgap.1 hpast, hsource⟩
    · cases hrun
  · cases hrun

/-- Where there is a rate of some day for the date, the rate of the last such day is chosen. For a
day in the past an automatic purchase rate is at most 16 days old and not the current one. -/
theorem usdRate_of_date (s : UsdIrtSeries) (db : Db) (env : Env) (date : IsoDate)
    (userId : Option Uuid) (hdate : isIsoDate date = true)
    (hpos : ∀ r ∈ db.exchangeRates, r.IsUsdIrt → 0 < r.rate) :
    ((∃ day, RateAvailable s db env date day) →
      ∃ resolved, (resolveUsdRateForDate s.historicalUsdIrtOnOrBefore env date userId).answer db =
          .ok resolved ∧
        IsGreatest {day | RateAvailable s db env date day} resolved.effectiveDate ∧
        resolved.effectiveDate ≤ date ∧ RateOf s db resolved.effectiveDate resolved.rate) ∧
    ∀ resolved,
      (resolveAutomaticPurchaseRate s.historicalUsdIrtOnOrBefore env date userId).answer db =
        .ok resolved → date < env.today →
      0 ≤ dayNumber date - dayNumber resolved.effectiveDate ∧
        dayNumber date - dayNumber resolved.effectiveDate ≤ 16 ∧
        resolved.source ≠ .current ∧ resolved.source ≠ .fallback := by
  refine ⟨fun h => ?_, fun resolved h hpast => resolveAutomaticPurchaseRate_past hpast h⟩
  obtain ⟨resolved, hrun, hgreatest, hrate⟩ := resolveUsdRateForDate_latest hdate hpos h
  exact ⟨resolved, hrun, hgreatest, hgreatest.1.le, hrate⟩

end Rate

/-- Closes of the first, the third and the sixth of March. -/
def marchSeries : UsdIrtSeries where
  first := 20260301
  days := #[0, 2, 5]
  rates := #[100000, 110000, 120000]
  first_real := by decide
  sorted := by decide

/-- For the eighth, the sixth is closer than a recorded rate of the fourth. -/
theorem usdRate_of_the_eighth :
    ∃ resolved, (resolveUsdRateForDate marchSeries.historicalUsdIrtOnOrBefore
      { entryId := 1, today := 20260320 } 20260308 none).answer
        { exchangeRates := [⟨"USD", "IRT", 20260304, .ofInt 115000, none⟩] } = .ok resolved ∧
      resolved.effectiveDate ≤ 20260308 := by
  obtain ⟨resolved, hrun, -, hle, -⟩ := (usdRate_of_date marchSeries
    { exchangeRates := [⟨"USD", "IRT", 20260304, .ofInt 115000, none⟩] }
    { entryId := 1, today := 20260320 } 20260308 none (by decide) (by decide)).1
      ⟨20260304, .inl (by decide)⟩
  exact ⟨resolved, hrun, hle⟩

end Pwos
