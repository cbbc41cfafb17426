import Pwos.Analytics.CapitalFlows
import Pwos.Domain.Days
import Pwos.Domain.Rounding
import Pwos.Lib.OrderedMap
import Pwos.Lib.Sums
import Pwos.Portfolio.Report

/-!
# Growth and its attribution

`getAnalyticsSummary` of `features/analytics/service.ts`, with `calculateGrowth` and
`calculateAttribution`. Growth starts from the oldest stored total, an item of the attribution
from what the asset cost, so the items miss the growth by the difference of the two
(`sum_absoluteChange`).
-/

namespace Pwos

/-! ## Growth -/

structure GrowthCalculationInput where
  startingValue : Decimal
  endingValue : Decimal
  externalInflows : Option Decimal := none
  externalOutflows : Option Decimal := none
  netExternalFlow : Option Decimal := none
  periodStart : IsoDate := .ofParts 2025 1 1
  periodEnd : IsoDate := .ofParts 2026 8 2
  hasMissingData : Bool := false
  missingDataReason : Option String := none

inductive CalculationStatus where
  | complete | missingData
  deriving DecidableEq, Repr

structure GrowthSummary where
  periodStart : IsoDate
  periodEnd : IsoDate
  startingValue : Decimal
  endingValue : Decimal
  absoluteChange : Decimal
  percentageChange : Decimal
  netExternalCapitalFlows : Decimal
  netInvestmentReturn : Decimal
  adjustedWealthReturnPercentage : Decimal
  calculationVersion : String := "v1.0"
  calculationStatus : CalculationStatus
  missingDataWarning : Option String
  deriving DecidableEq, Repr

/-- The part as a percentage of the whole, with two digits. -/
def percentOf (part whole : Decimal) : Decimal := ((part.div whole).mul (.ofInt 100)).toFixed 2

def calculateGrowth (input : GrowthCalculationInput) : GrowthSummary :=
  if input.hasMissingData then
    { periodStart := input.periodStart, periodEnd := input.periodEnd
      startingValue := input.startingValue, endingValue := input.endingValue
      absoluteChange := 0, percentageChange := 0, netExternalCapitalFlows := 0
      netInvestmentReturn := 0, adjustedWealthReturnPercentage := 0
      calculationStatus := .missingData
      missingDataWarning := some (input.missingDataReason.getD
        "Historical performance unavailable because market price data is missing.") }
  else
    let start := input.startingValue
    let absoluteChange := input.endingValue - start
    let netExternalFlows := input.netExternalFlow.getD
      (input.externalInflows.getD 0 - input.externalOutflows.getD 0)
    let netInvestmentReturn := absoluteChange - netExternalFlows
    let capitalBase := start + netExternalFlows
    { periodStart := input.periodStart, periodEnd := input.periodEnd
      startingValue := start, endingValue := input.endingValue
      absoluteChange
      percentageChange := if start = 0 then 0 else percentOf absoluteChange start
      netExternalCapitalFlows := netExternalFlows
      netInvestmentReturn
      adjustedWealthReturnPercentage :=
        if capitalBase ≤ 0 then 0 else percentOf netInvestmentReturn capitalBase
      calculationStatus := .complete
      missingDataWarning := none }

/-! ## Attribution -/

structure AssetPeriodValue where
  assetId : Uuid
  symbol : String
  startingValue : Decimal
  endingValue : Decimal

structure AssetAttributionItem where
  assetId : Uuid
  symbol : String
  startingValue : Decimal
  endingValue : Decimal
  absoluteChange : Decimal
  percentageChange : Decimal
  contributionPercentage : Decimal
  deriving DecidableEq, Repr

structure AttributionReport where
  topWinner : Option AssetAttributionItem
  topLoser : Option AssetAttributionItem
  largestContributor : Option AssetAttributionItem
  largestRiskSource : Option AssetAttributionItem
  attributions : List AssetAttributionItem
  deriving DecidableEq, Repr

def AssetPeriodValue.attribution (totalGrowth : Decimal) (item : AssetPeriodValue) :
    AssetAttributionItem :=
  let absChange := item.endingValue - item.startingValue
  { assetId := item.assetId, symbol := item.symbol
    startingValue := item.startingValue, endingValue := item.endingValue
    absoluteChange := absChange
    percentageChange := if item.startingValue = 0 then 0 else percentOf absChange item.startingValue
    contributionPercentage := if totalGrowth = 0 then 0 else percentOf absChange totalGrowth.abs }

/-- The items, the largest change first, as doubles compare. -/
def calculateAttribution (items : List AssetPeriodValue) (totalGrowth : Decimal) :
    AttributionReport :=
  let attributions := items.map (·.attribution totalGrowth)
  let sorted := attributions.mergeSort fun a b =>
    b.absoluteChange.toNumber ≤ a.absoluteChange.toNumber
  let topWinner := sorted.find? (0 < ·.absoluteChange)
  let topLoser := sorted.reverse.find? (·.absoluteChange < 0)
  { topWinner, topLoser, largestContributor := topWinner
    largestRiskSource := topLoser <|> sorted.head?, attributions := sorted }

/-! ## The summary -/

/-- A day of the history and what was worth then. -/
structure HistoryPoint where
  snapshotDate : IsoDate
  totalPortfolioValue : Decimal
  deriving DecidableEq, Repr

structure LegacySnapshot where
  asOf : IsoDate
  totalAssets : Decimal
  deriving DecidableEq, Repr

/-- What the queries of the summary find. -/
structure AnalyticsInput where
  portfolio : PortfolioInput
  marks : List PositionMark
  valuationDate : IsoDate
  rawSnapshots : List HistoryPoint
  legacyHistory : List LegacySnapshot
  /-- The value of assets that are gone, inside the stored totals of a day. -/
  ghostByDate : OrderedMap IsoDate Decimal
  db : Db
  reader : Reader

namespace AnalyticsInput
variable (a : AnalyticsInput)

def adjustedSnapshots : List HistoryPoint :=
  a.rawSnapshots.map fun s =>
    { s with totalPortfolioValue :=
        s.totalPortfolioValue - (a.ghostByDate.lookup s.snapshotDate).getD 0 }

/-- A portfolio snapshot goes before a legacy one of its day. -/
def historyByDate : OrderedMap IsoDate Decimal :=
  let portfolio := a.adjustedSnapshots.foldl
    (fun m s => m.set s.snapshotDate s.totalPortfolioValue) .empty
  a.legacyHistory.foldl
    (fun m s => if (m.lookup s.asOf).isSome then m else m.set s.asOf s.totalAssets) portfolio

def history : List HistoryPoint :=
  (a.historyByDate.entries.map fun e => ⟨e.1, e.2⟩).mergeSort fun s t =>
    s.snapshotDate ≤ t.snapshotDate

def valuation : PortfolioSummary := getPortfolioValuation a.portfolio a.marks

/-- The snapshot the period starts from. -/
def startingSnapshot : Option HistoryPoint := a.history.head?

def capitalFlows : CapitalFlowsSummary :=
  getExternalCapitalFlows a.db a.reader
    (a.startingSnapshot.elim (.ofParts 2025 1 1) fun s => nextDay s.snapshotDate) a.valuationDate

def growth : GrowthSummary :=
  calculateGrowth
    { startingValue := a.startingSnapshot.elim 0 (·.totalPortfolioValue)
      endingValue := a.valuation.totalNetWorth
      netExternalFlow := some a.capitalFlows.netExternalCapitalFlow
      periodStart := a.startingSnapshot.elim (.ofParts 2025 1 1) (·.snapshotDate)
      periodEnd := a.valuationDate
      hasMissingData := a.startingSnapshot.isNone
      missingDataReason := some ("برای محاسبه «بازده تعدیل‌شده» به حداقل یک اسنپ‌شات تاریخی نیاز است؛ " ++
        "بدون نقطه شروع واقعی، بازده قابل محاسبه نیست. با «ثبت اسنپ‌شات امروز» شروع کنید.") }

/-- The cost of an asset stands for its value at the start. -/
def periodValues : List AssetPeriodValue :=
  a.valuation.assetValuations.map fun v =>
    { assetId := v.assetId, symbol := v.symbol
      startingValue := v.costBasis, endingValue := v.currentValue }

end AnalyticsInput

structure AnalyticsSummary where
  growth : GrowthSummary
  attribution : AttributionReport

def getAnalyticsSummary (a : AnalyticsInput) : AnalyticsSummary where
  growth := a.growth
  attribution := calculateAttribution a.periodValues a.growth.absoluteChange

/-! ## The items add up -/

section Rows
variable (rate : Decimal) {rows : List AssetValuation} {t : Totals}

/-- The rows are of different assets and add up to the net worth. -/
structure AddUp (rows : List AssetValuation) (t : Totals) : Prop where
  nodup : (rows.map (·.assetId)).Nodup
  worth : t.netWorth = (rows.map (·.currentValue)).sum

theorem foldl_totals_netWorth (rows : List AssetValuation) (t : Totals) :
    (rows.foldl Totals.add t).netWorth = t.netWorth + (rows.map (·.currentValue)).sum := by
  induction rows generalizing t with
  | nil => simp
  | cons v rows ih =>
    rw [List.foldl_cons, ih, List.map_cons, List.sum_cons, ← add_assoc]
    rfl

theorem PortfolioInput.addUp (p : PortfolioInput) : AddUp p.rows p.totals where
  nodup := p.rows_nodup
  worth := by
    have hzero : ({} : Totals).netWorth = 0 := rfl
    rw [totals, foldl_totals_netWorth, hzero, zero_add]

/-- To change the value of the one row of an asset changes the sum by as much. -/
theorem sum_value_update {v : AssetValuation} {usd toman : Decimal}
    (hnd : (rows.map (·.assetId)).Nodup) (hv : v ∈ rows) :
    ((rows.map fun w => if w.assetId = v.assetId then w.addMark usd toman else w).map
        (·.currentValue)).sum = (rows.map (·.currentValue)).sum + usd := by
  induction rows with
  | nil => cases hv
  | cons w rows ih =>
    obtain ⟨hw, hnd⟩ := List.nodup_cons.mp hnd
    simp only [List.map_cons, List.sum_cons]
    rcases List.mem_cons.mp hv with rfl | hv
    · have hrest : rows.map (fun w => if w.assetId = v.assetId then w.addMark usd toman else w) =
          rows := by
        refine (List.map_congr_left fun u hu => if_neg fun heq => hw ?_).trans (List.map_id rows)
        exact List.mem_map.mpr ⟨u, hu, heq⟩
      rw [if_pos rfl, hrest]
      exact add_right_comm _ _ _
    · have hne : w.assetId ≠ v.assetId := fun heq => hw (List.mem_map.mpr ⟨v, hv, heq.symm⟩)
      rw [if_neg hne, ih hnd hv, add_assoc]

/-- A mark moves a row and the net worth alike, and no cost. -/
theorem AddUp.addMark (h : AddUp rows t) (m : PositionMark) :
    AddUp (addMark rate (rows, t) m).1 (addMark rate (rows, t) m).2 ∧
      (Pwos.addMark rate (rows, t) m).1.map (·.costBasis) = rows.map (·.costBasis) := by
  unfold Pwos.addMark
  dsimp only
  split
  · exact ⟨h, rfl⟩
  · rename_i v hfound
    have hv : v ∈ rows := List.mem_of_find?_eq_some hfound
    have hid : v.assetId = m.assetId := by simpa using List.find?_some hfound
    have hids : ∀ usd toman : Decimal, (rows.map fun w =>
        if w.assetId = m.assetId then w.addMark usd toman else w).map (·.assetId) =
          rows.map (·.assetId) := by
      intro usd toman
      rw [List.map_map]
      refine List.map_congr_left fun w _ => ?_
      dsimp only [Function.comp_apply]
      split <;> rfl
    refine ⟨⟨?_, ?_⟩, ?_⟩
    · rw [hids]
      exact h.nodup
    · rw [← hid, sum_value_update h.nodup hv, ← h.worth]
    · rw [List.map_map]
      refine List.map_congr_left fun w _ => ?_
      dsimp only [Function.comp_apply]
      split <;> rfl

theorem AddUp.foldl_addMark (h : AddUp rows t) (marks : List PositionMark) :
    AddUp (marks.foldl (Pwos.addMark rate) (rows, t)).1
        (marks.foldl (Pwos.addMark rate) (rows, t)).2 ∧
      (marks.foldl (Pwos.addMark rate) (rows, t)).1.map (·.costBasis) =
        rows.map (·.costBasis) := by
  induction marks generalizing rows t with
  | nil => exact ⟨h, rfl⟩
  | cons m marks ih =>
    obtain ⟨hadds, hcosts⟩ := h.addMark rate m
    obtain ⟨hrun, hkept⟩ := ih hadds
    exact ⟨hrun, hkept.trans hcosts⟩

end Rows

/-- What the rows of the valuation cost. -/
def PortfolioInput.totalCost (p : PortfolioInput) : Decimal := (p.rows.map (·.costBasis)).sum

theorem valuation_sums (p : PortfolioInput) (marks : List PositionMark) :
    let v := getPortfolioValuation p marks
    (v.assetValuations.map (·.currentValue)).sum = v.totalNetWorth ∧
      (v.assetValuations.map (·.costBasis)).sum = p.totalCost := by
  obtain ⟨hadds, hcosts⟩ := p.addUp.foldl_addMark p.rate marks
  unfold getPortfolioValuation
  dsimp only
  constructor
  · rw [hadds.worth, List.map_map]
    refine congrArg List.sum (List.map_congr_left fun v _ => ?_)
    dsimp only [Function.comp_apply]
    split <;> rfl
  · rw [PortfolioInput.totalCost, ← hcosts, List.map_map]
    refine congrArg List.sum (List.map_congr_left fun v _ => ?_)
    dsimp only [Function.comp_apply]
    split <;> rfl

theorem sum_attributions (items : List AssetPeriodValue) (totalGrowth : Decimal) :
    ((calculateAttribution items totalGrowth).attributions.map (·.absoluteChange)).sum =
      (items.map (·.endingValue)).sum - (items.map (·.startingValue)).sum := by
  have hperm := List.mergeSort_perm (items.map (·.attribution totalGrowth))
    fun a b => b.absoluteChange.toNumber ≤ a.absoluteChange.toNumber
  refine ((hperm.map (·.absoluteChange)).sum_eq).trans ?_
  rw [List.map_map]
  exact sum_map_sub _ _ items

section Summary
variable {a : AnalyticsInput} {s : HistoryPoint}

/-- The items change by the growth, and by what the oldest total is above the costs. -/
theorem sum_absoluteChange (h : a.startingSnapshot = some s) :
    ((getAnalyticsSummary a).attribution.attributions.map (·.absoluteChange)).sum =
      (getAnalyticsSummary a).growth.absoluteChange +
        (s.totalPortfolioValue - a.portfolio.totalCost) := by
  obtain ⟨hworth, hcost⟩ := valuation_sums a.portfolio a.marks
  have hgrowth : a.growth.absoluteChange = a.valuation.totalNetWorth - s.totalPortfolioValue := by
    unfold AnalyticsInput.growth calculateGrowth
    simp [h]
  have hends : (a.periodValues.map (·.endingValue)).sum = a.valuation.totalNetWorth := by
    rw [AnalyticsInput.periodValues, List.map_map]
    exact hworth
  have hstarts : (a.periodValues.map (·.startingValue)).sum = a.portfolio.totalCost := by
    rw [AnalyticsInput.periodValues, List.map_map]
    exact hcost
  dsimp only [getAnalyticsSummary]
  rw [sum_attributions, hends, hstarts, hgrowth]
  abel

/-- The items explain the growth exactly when the oldest total is what the assets of today
cost. -/
theorem attribution_explains_growth_iff (h : a.startingSnapshot = some s) :
    ((getAnalyticsSummary a).attribution.attributions.map (·.absoluteChange)).sum =
        (getAnalyticsSummary a).growth.absoluteChange ↔
      s.totalPortfolioValue = a.portfolio.totalCost := by
  rw [sum_absoluteChange h, add_eq_left, sub_eq_zero]

end Summary

/-- Ten of a coin bought for ten dollars, now at twelve, and a stored total of eleven. -/
def demoRise : AnalyticsInput where
  portfolio :=
    { rate := .ofInt 100000
      held := [{ tenOf 1 "USDC" with market := some (some ⟨12 * 10 ^ 17⟩) }]
      distinct := List.nodup_singleton _
      registered := [] }
  marks := []
  valuationDate := 20260201
  rawSnapshots := [⟨20260101, .ofInt 11⟩]
  legacyHistory := []
  ghostByDate := .empty
  db := { users := [1] }
  reader := ⟨some 1, false⟩

theorem demoRise_startingSnapshot :
    demoRise.startingSnapshot = some ⟨20260101, .ofInt 11⟩ := by
  have hhistory : demoRise.history = [⟨20260101, .ofInt 11⟩] := List.mergeSort_singleton _
  rw [AnalyticsInput.startingSnapshot, hhistory]
  rfl

theorem demoRise_explained_iff :
    ((getAnalyticsSummary demoRise).attribution.attributions.map (·.absoluteChange)).sum =
        (getAnalyticsSummary demoRise).growth.absoluteChange ↔
      Decimal.ofInt 11 = demoRise.portfolio.totalCost :=
  attribution_explains_growth_iff demoRise_startingSnapshot

/-- The wealth grew by one dollar, and the one item by two. -/
theorem demoRise_items_miss_the_growth :
    (getAnalyticsSummary demoRise).growth.absoluteChange = .ofInt 1 ∧
      ((getAnalyticsSummary demoRise).attribution.attributions.map (·.absoluteChange)).sum =
        .ofInt 2 ∧
      ((getAnalyticsSummary demoRise).attribution.attributions.map (·.absoluteChange)).sum ≠
        (getAnalyticsSummary demoRise).growth.absoluteChange := by
  have hworth : demoRise.valuation.totalNetWorth = .ofInt 12 := by decide
  have hgrowth : (getAnalyticsSummary demoRise).growth.absoluteChange = .ofInt 1 := by
    dsimp only [getAnalyticsSummary, AnalyticsInput.growth]
    rw [demoRise_startingSnapshot, hworth]
    rfl
  rw [sum_absoluteChange demoRise_startingSnapshot, hgrowth]
  decide

end Pwos
