import Pwos.Analytics.Attribution
import Pwos.Domain.DecimalText

/-!
# The personal inflation index

`calculatePersonalInflationIndex` of `features/commodities/service.ts`. The overall figure is the
growth of all amounts over all quantities, so it follows the basket as well as the prices: only
between baskets of one mix is it an average of the items' own growth.
-/

namespace Pwos

namespace Inflation

structure CommodityItem where
  id : Uuid
  userId : Option Uuid
  name : String
  categoryId : Option Uuid
  deriving DecidableEq, Repr

structure CommodityCategory where
  id : Uuid
  name : String
  deriving DecidableEq, Repr

structure PriceRecord where
  userId : Option Uuid
  commodityId : Uuid
  quantity : Decimal
  totalAmount : Decimal
  purchasedAt : Int
  deriving DecidableEq, Repr

/-- The three tables. -/
structure PriceBook where
  categories : List CommodityCategory
  items : List CommodityItem
  records : List PriceRecord

/-- From one instant to another, both included. -/
structure Period where
  start : Int
  stop : Int
  deriving DecidableEq, Repr

structure PeriodStats where
  period : Period
  weightedAvgUnitPrice : Decimal
  totalQuantity : Decimal
  totalAmount : Decimal
  count : Nat
  deriving DecidableEq, Repr

structure InflationItemResult where
  commodityId : Uuid
  commodityName : String
  categoryName : Option String
  baselinePeriod : PeriodStats
  currentPeriod : PeriodStats
  priceGrowthAbsolute : Decimal
  priceGrowthPercent : Decimal
  isInflated : Bool
  deriving DecidableEq, Repr

structure InflationIndexResult where
  timeRangeMonths : Int
  baselinePeriod : Period
  currentPeriod : Period
  totalItemsTracked : Nat
  itemsWithDataInBothPeriods : Nat
  overallWeightedAvgGrowthPercent : Decimal
  overallSimpleAvgGrowthPercent : Decimal
  totalBaselineAmount : Decimal
  totalCurrentAmount : Decimal
  items : List InflationItemResult
  deriving DecidableEq, Repr

/-! ## The index -/

/-- Owned rows and shared ones. -/
def visibleTo (rowUser owner : Option Uuid) : Bool := rowUser = none || rowUser = owner

/-- The change in percent, before it is rounded. -/
def growthPercent (baseline current : Decimal) : Decimal :=
  if baseline = 0 then 0 else ((current - baseline).div baseline).mul (.ofInt 100)

section Index
variable (book : PriceBook) (owner : Option Uuid) (baseline current : Period)

def PriceBook.recordsOf (item : CommodityItem) (p : Period) : List PriceRecord :=
  book.records.filter fun r =>
    r.commodityId = item.id ∧ p.start ≤ r.purchasedAt ∧ r.purchasedAt ≤ p.stop ∧
      visibleTo r.userId owner

def periodStats (p : Period) (records : List PriceRecord) : PeriodStats :=
  let totalAmount := (records.map (·.totalAmount)).sum
  let totalQuantity := (records.map (·.quantity)).sum
  { period := p, weightedAvgUnitPrice := totalAmount.div totalQuantity
    totalQuantity, totalAmount, count := records.length }

/-- The result of an item with its growth, if it has data in both periods. -/
def PriceBook.itemResult (item : CommodityItem) : Option (InflationItemResult × Decimal) :=
  let baselineRecords := book.recordsOf owner item baseline
  let currentRecords := book.recordsOf owner item current
  let before := periodStats baseline baselineRecords
  let now := periodStats current currentRecords
  if baselineRecords = [] ∨ currentRecords = [] then none
  else if before.totalQuantity = 0 ∨ now.totalQuantity = 0 then none
  else
    let growth := growthPercent before.weightedAvgUnitPrice now.weightedAvgUnitPrice
    some ({ commodityId := item.id
            commodityName := item.name
            categoryName := (item.categoryId.bind fun c =>
              book.categories.find? (·.id = c)).map (·.name)
            baselinePeriod := before
            currentPeriod := now
            priceGrowthAbsolute := now.weightedAvgUnitPrice - before.weightedAvgUnitPrice
            priceGrowthPercent := growth.toFixed 2
            isInflated := 0 < growth }, growth)

/-- What the loop over the items keeps. -/
structure IndexTotals where
  items : List InflationItemResult := []
  baselineAmount : Decimal := 0
  currentAmount : Decimal := 0
  baselineQty : Decimal := 0
  currentQty : Decimal := 0
  simpleAvgGrowthSum : Decimal := 0

def IndexTotals.next (t : IndexTotals) : Option (InflationItemResult × Decimal) → IndexTotals
  | none => t
  | some (r, growth) =>
    { items := t.items ++ [r]
      baselineAmount := t.baselineAmount + r.baselinePeriod.totalAmount
      currentAmount := t.currentAmount + r.currentPeriod.totalAmount
      baselineQty := t.baselineQty + r.baselinePeriod.totalQuantity
      currentQty := t.currentQty + r.currentPeriod.totalQuantity
      simpleAvgGrowthSum := t.simpleAvgGrowthSum + growth }

/-- The growth of all amounts over all quantities. -/
def IndexTotals.overall (t : IndexTotals) : Decimal :=
  if t.baselineQty = 0 ∨ t.currentQty = 0 then 0
  else
    (growthPercent (t.baselineAmount.div t.baselineQty)
      (t.currentAmount.div t.currentQty)).toFixed 2

def PriceBook.visibleItems : List CommodityItem := book.items.filter (visibleTo ·.userId owner)

def PriceBook.totals : IndexTotals :=
  (book.visibleItems owner).foldl
    (fun t item => t.next (book.itemResult owner baseline current item)) {}

/-- The periods are those that end `timeRangeMonths` before now, and now. -/
def calculatePersonalInflationIndex (timeRangeMonths : Int) :
    Except String InflationIndexResult :=
  if timeRangeMonths ≤ 0 then .error "timeRangeMonths must be positive integer"
  else
    let t := book.totals owner baseline current
    .ok
      { timeRangeMonths
        baselinePeriod := baseline
        currentPeriod := current
        totalItemsTracked := (book.visibleItems owner).length
        itemsWithDataInBothPeriods := t.items.length
        overallWeightedAvgGrowthPercent := t.overall
        overallSimpleAvgGrowthPercent :=
          if t.items.length = 0 then 0
          else (t.simpleAvgGrowthSum.div (.ofInt t.items.length)).toFixed 2
        totalBaselineAmount := t.baselineAmount
        totalCurrentAmount := t.currentAmount
        items := t.items.mergeSort fun a b =>
          b.priceGrowthPercent.toNumber ≤ a.priceGrowthPercent.toNumber }

end Index

/-! ## How far a growth is rounded -/

section Growth
open Decimal
variable {b c B C : ℚ} {x amount qty amount' qty' : Decimal}

/-- The growth in percent from one price to another. -/
def exactGrowth (before now : ℚ) : ℚ := 100 * (now / before - 1)

/-- What the printing of two digits and the cutting of the average prices can add up to. -/
def slack (before now : ℚ) : ℚ :=
  1 / 200 + 100 * ulp * (1 + 2 * (before + now) / before ^ 2)

theorem abs_toFixed_two_sub_le (x : Decimal) : |(x.toFixed 2).toRat - x.toRat| ≤ 1 / 200 := by
  have hnear := (toFixed_near (a := x) 2).1
  have hcast : 2 * |(((x.toFixed 2).raw - x.raw : Int) : ℚ)| ≤ 10 ^ 16 := by exact_mod_cast hnear
  have heq : (x.toFixed 2).toRat - x.toRat = (((x.toFixed 2).raw - x.raw : Int) : ℚ) / 10 ^ 18 := by
    simp only [toRat, Int.cast_sub]
    ring
  rw [heq, abs_div, abs_of_pos (by positivity : (0 : ℚ) < 10 ^ 18), div_le_iff₀ (by positivity)]
  linarith

theorem ulp_le_of_pos (hx : 0 < x) : ulp ≤ x.toRat := by
  have hraw : (1 : Int) ≤ x.raw := hx
  rw [toRat_eq]
  exact le_mul_of_one_le_left ulp_pos.le (by exact_mod_cast hraw)

/-- An average that the last place can hold is not cut to nothing. -/
theorem div_pos_of_ulp_le (hq : 0 < qty) (h : ulp ≤ amount.toRat / qty.toRat) :
    0 < amount.div qty := by
  have hqraw : 0 < qty.raw := hq
  have hle : qty.raw ≤ amount.raw * ONE := by
    have hscaled := (div_raw_eq amount qty).symm.trans_ge h
    rw [le_mul_iff_one_le_left ulp_pos, one_le_div (by exact_mod_cast hqraw)] at hscaled
    exact_mod_cast hscaled
  have hone : 1 ≤ (amount.raw * ONE).tdiv qty.raw := by
    rw [Int.tdiv_eq_ediv_of_nonneg (hqraw.le.trans hle)]
    exact Int.le_ediv_of_mul_le hqraw (by rwa [one_mul])
  rw [Decimal.div, if_neg hqraw.ne']
  exact hone

/-- The printed growth is near the growth of the exact averages. -/
theorem abs_growthPercent_sub_le (ha : 0 < amount) (hq : 0 < qty) (ha' : 0 < amount')
    (hq' : 0 < qty') (h : ulp ≤ amount.toRat / qty.toRat) :
    |((growthPercent (amount.div qty) (amount'.div qty')).toFixed 2).toRat -
        exactGrowth (amount.toRat / qty.toRat) (amount'.toRat / qty'.toRat)| ≤
      slack (amount.toRat / qty.toRat) (amount'.toRat / qty'.toRat) := by
  have hb := div_pos_of_ulp_le hq h
  have hcut := abs_div_sub_le amount hq.ne'
  have hcut' := abs_div_sub_le amount' hq'.ne'
  have hlast := ulp_le_of_pos hb
  have hB : 0 < amount.toRat / qty.toRat := div_pos (toRat_pos ha) (toRat_pos hq)
  have hC : 0 < amount'.toRat / qty'.toRat := div_pos (toRat_pos ha') (toRat_pos hq')
  have hgrowth : (growthPercent (amount.div qty) (amount'.div qty')).toRat =
      100 * ((amount'.div qty' - amount.div qty).div (amount.div qty)).toRat := by
    rw [growthPercent, if_neg hb.ne', mul_ofInt, toRat_zsmul]
    norm_num
  have hquotient := abs_div_sub_le (amount'.div qty' - amount.div qty) hb.ne'
  have hprinted := abs_toFixed_two_sub_le (growthPercent (amount.div qty) (amount'.div qty'))
  rw [hgrowth] at hprinted
  rw [toRat_sub] at hquotient
  generalize (amount'.div qty' - amount.div qty).div (amount.div qty) = y at *
  generalize ((growthPercent (amount.div qty) (amount'.div qty')).toFixed 2).toRat = z at *
  generalize amount.toRat / qty.toRat = B at *
  generalize amount'.toRat / qty'.toRat = C at *
  generalize (amount'.div qty').toRat = c at *
  have hbpos := toRat_pos hb
  generalize (amount.div qty).toRat = b at *
  -- the quotient of the averages as they are cut, against that of the exact ones
  have hratio : |c / b - C / B| ≤ ulp * (2 * (B + C) / B ^ 2) := by
    have hdiff : c / b - C / B = ((c - C) * B + C * (B - b)) / (b * B) := by
      field_simp
      ring
    have hnum : |(c - C) * B + C * (B - b)| ≤ ulp * (B + C) := by
      calc |(c - C) * B + C * (B - b)| ≤ |c - C| * B + C * |B - b| := by
            refine (abs_add_le _ _).trans (le_of_eq ?_)
            rw [abs_mul, abs_mul, abs_of_pos hB, abs_of_pos hC]
        _ ≤ ulp * B + C * ulp := by
            rw [abs_sub_comm B b]
            gcongr
        _ = ulp * (B + C) := by ring
    have hden : B ^ 2 / 2 ≤ b * B := by
      have hhalf : B ≤ 2 * b := by linarith [(abs_le.mp hcut).1]
      nlinarith
    have hnonneg : 0 ≤ ulp * (B + C) := (abs_nonneg _).trans hnum
    rw [hdiff, abs_div, abs_of_pos (mul_pos hbpos hB)]
    calc |(c - C) * B + C * (B - b)| / (b * B) ≤ ulp * (B + C) / (B ^ 2 / 2) := by gcongr
      _ = ulp * (2 * (B + C) / B ^ 2) := by field_simp
  have hexact : (c - b) / b = c / b - 1 := by rw [sub_div, div_self hbpos.ne']
  rw [hexact] at hquotient
  calc |z - exactGrowth B C|
      = |(z - 100 * y.toRat) + 100 * (y.toRat - (c / b - 1)) + 100 * (c / b - C / B)| := by
        unfold exactGrowth
        ring_nf
    _ ≤ |z - 100 * y.toRat| + |100 * (y.toRat - (c / b - 1))| + |100 * (c / b - C / B)| :=
        abs_add_three _ _ _
    _ ≤ 1 / 200 + 100 * ulp + 100 * (ulp * (2 * (B + C) / B ^ 2)) := by
        rw [abs_mul, abs_mul, abs_of_pos (by norm_num : (0 : ℚ) < 100)]
        gcongr
    _ = slack B C := by
        unfold slack
        ring

end Growth

/-! ## The items and the totals -/

/-- What a period holds of an item. -/
structure PeriodStats.Positive (s : PeriodStats) : Prop where
  amount : 0 < s.totalAmount
  quantity : 0 < s.totalQuantity

/-- An item with data in both periods, and its growth. -/
structure InflationItemResult.Measured (r : InflationItemResult) : Prop where
  before : r.baselinePeriod.Positive
  now : r.currentPeriod.Positive
  growth : r.priceGrowthPercent =
    (growthPercent (r.baselinePeriod.totalAmount.div r.baselinePeriod.totalQuantity)
      (r.currentPeriod.totalAmount.div r.currentPeriod.totalQuantity)).toFixed 2

/-- The totals are those of the items. -/
structure IndexTotals.Sums (t : IndexTotals) : Prop where
  baselineAmount : t.baselineAmount = (t.items.map (·.baselinePeriod.totalAmount)).sum
  currentAmount : t.currentAmount = (t.items.map (·.currentPeriod.totalAmount)).sum
  baselineQty : t.baselineQty = (t.items.map (·.baselinePeriod.totalQuantity)).sum
  currentQty : t.currentQty = (t.items.map (·.currentPeriod.totalQuantity)).sum
  measured : ∀ r ∈ t.items, r.Measured

def PriceBook.Positive (book : PriceBook) : Prop :=
  ∀ r ∈ book.records, 0 < r.totalAmount ∧ 0 < r.quantity

section Totals
variable {book : PriceBook} {owner : Option Uuid} {baseline current p : Period}
  {item : CommodityItem} {t : IndexTotals}

theorem sum_pos_of_ne_nil {rows : List PriceRecord} {f : PriceRecord → Decimal} (hne : rows ≠ [])
    (h : ∀ r ∈ rows, 0 < f r) : 0 < (rows.map f).sum := by
  refine List.sum_pos _ (List.forall_mem_map.mpr h) ?_
  rwa [Ne, List.map_eq_nil_iff]

theorem PriceBook.Positive.stats (h : book.Positive) (hne : book.recordsOf owner item p ≠ []) :
    (periodStats p (book.recordsOf owner item p)).Positive := by
  have hrecords : ∀ r ∈ book.recordsOf owner item p, 0 < r.totalAmount ∧ 0 < r.quantity :=
    fun r hr => h r (List.mem_of_mem_filter hr)
  exact ⟨sum_pos_of_ne_nil hne fun r hr => (hrecords r hr).1,
    sum_pos_of_ne_nil hne fun r hr => (hrecords r hr).2⟩

theorem PriceBook.Positive.itemResult_measured (h : book.Positive) {r : InflationItemResult}
    {growth : Decimal} (hr : book.itemResult owner baseline current item = some (r, growth)) :
    r.Measured := by
  unfold PriceBook.itemResult at hr
  dsimp only at hr
  split_ifs at hr with hempty hzero
  push Not at hempty
  cases hr
  exact ⟨h.stats hempty.1, h.stats hempty.2, rfl⟩

theorem IndexTotals.Sums.next (h : t.Sums) {result : Option (InflationItemResult × Decimal)}
    (hr : ∀ r growth, result = some (r, growth) → r.Measured) : (t.next result).Sums := by
  cases result with
  | none => exact h
  | some x =>
    obtain ⟨r, growth⟩ := x
    refine ⟨?_, ?_, ?_, ?_, ?_⟩
    · simp [IndexTotals.next, h.baselineAmount]
    · simp [IndexTotals.next, h.currentAmount]
    · simp [IndexTotals.next, h.baselineQty]
    · simp [IndexTotals.next, h.currentQty]
    · intro s hs
      rcases List.mem_append.mp hs with hs | hs
      · exact h.measured s hs
      · rw [List.mem_singleton.mp hs]
        exact hr r growth rfl

theorem PriceBook.Positive.totals_sums (h : book.Positive) :
    (book.totals owner baseline current).Sums := by
  unfold PriceBook.totals
  generalize book.visibleItems owner = items
  have hstart : ({} : IndexTotals).Sums := ⟨rfl, rfl, rfl, rfl, by simp⟩
  revert hstart
  generalize ({} : IndexTotals) = t
  intro ht
  induction items generalizing t with
  | nil => exact ht
  | cons item items ih => exact ih _ (ht.next fun _ _ hr => h.itemResult_measured hr)

end Totals

/-! ## Baskets of one mix -/

section Mix
open Decimal

def PeriodStats.averagePrice (s : PeriodStats) : ℚ := s.totalAmount.toRat / s.totalQuantity.toRat

/-- All amounts over all quantities, in whatever units. -/
def pooledPrice (period : InflationItemResult → PeriodStats)
    (items : List InflationItemResult) : ℚ :=
  (items.map fun r => (period r).totalAmount.toRat).sum /
    (items.map fun r => (period r).totalQuantity.toRat).sum

def InflationItemResult.slack (r : InflationItemResult) : ℚ :=
  Inflation.slack r.baselinePeriod.averagePrice r.currentPeriod.averagePrice

def pooledSlack (items : List InflationItemResult) : ℚ :=
  slack (pooledPrice (·.baselinePeriod) items) (pooledPrice (·.currentPeriod) items)

variable {t : IndexTotals} {items : List InflationItemResult} {r : InflationItemResult}
  {period : InflationItemResult → PeriodStats}

theorem abs_priceGrowthPercent_sub_le (h : r.Measured)
    (hprice : ulp ≤ r.baselinePeriod.averagePrice) :
    |r.priceGrowthPercent.toRat -
      exactGrowth r.baselinePeriod.averagePrice r.currentPeriod.averagePrice| ≤ r.slack := by
  rw [h.growth]
  exact abs_growthPercent_sub_le h.before.amount h.before.quantity h.now.amount h.now.quantity
    hprice

theorem toRat_sum_map (f : InflationItemResult → Decimal) (items : List InflationItemResult) :
    (items.map f).sum.toRat = (items.map fun r => (f r).toRat).sum := by
  rw [toRat_sum, List.map_map]
  rfl

theorem sum_map_pos {f : InflationItemResult → Decimal} (hne : items ≠ [])
    (h : ∀ r ∈ items, 0 < f r) : 0 < (items.map f).sum := by
  refine List.sum_pos _ (List.forall_mem_map.mpr h) ?_
  rwa [Ne, List.map_eq_nil_iff]

theorem sum_toRat_pos {f : InflationItemResult → Decimal} (hne : items ≠ [])
    (h : ∀ r ∈ items, 0 < f r) : 0 < (items.map fun r => (f r).toRat).sum := by
  rw [← toRat_sum_map]
  exact toRat_pos (sum_map_pos hne h)

/-- The average of all is not below the least one. -/
theorem ulp_le_pooledPrice (hne : items ≠ []) (h : ∀ r ∈ items, (period r).Positive)
    (hprice : ∀ r ∈ items, ulp ≤ (period r).averagePrice) : ulp ≤ pooledPrice period items := by
  obtain ⟨r, hr, hle⟩ := exists_ratio_le hne (fun r => (period r).totalAmount.toRat)
    (fun r => (period r).totalQuantity.toRat)
  refine (hprice r hr).trans ?_
  unfold PeriodStats.averagePrice pooledPrice
  have hsum := sum_toRat_pos hne fun r hr => (h r hr).quantity
  rw [div_le_div_iff₀ (toRat_pos (h r hr).quantity) hsum]
  exact hle

theorem abs_overall_sub_le (h : t.Sums) (hne : t.items ≠ [])
    (hprice : ∀ r ∈ t.items, ulp ≤ r.baselinePeriod.averagePrice) :
    |t.overall.toRat - exactGrowth (pooledPrice (·.baselinePeriod) t.items)
      (pooledPrice (·.currentPeriod) t.items)| ≤ pooledSlack t.items := by
  have hbefore : ∀ r ∈ t.items, r.baselinePeriod.Positive := fun r hr => (h.measured r hr).before
  have hnow : ∀ r ∈ t.items, r.currentPeriod.Positive := fun r hr => (h.measured r hr).now
  have hqty : 0 < t.baselineQty :=
    h.baselineQty ▸ sum_map_pos hne fun r hr => (hbefore r hr).quantity
  have hqty' : 0 < t.currentQty := h.currentQty ▸ sum_map_pos hne fun r hr => (hnow r hr).quantity
  have hamount : 0 < t.baselineAmount :=
    h.baselineAmount ▸ sum_map_pos hne fun r hr => (hbefore r hr).amount
  have hamount' : 0 < t.currentAmount :=
    h.currentAmount ▸ sum_map_pos hne fun r hr => (hnow r hr).amount
  have hpooled : t.baselineAmount.toRat / t.baselineQty.toRat =
      pooledPrice (·.baselinePeriod) t.items := by
    rw [h.baselineAmount, h.baselineQty, toRat_sum_map, toRat_sum_map, pooledPrice]
  have hpooled' : t.currentAmount.toRat / t.currentQty.toRat =
      pooledPrice (·.currentPeriod) t.items := by
    rw [h.currentAmount, h.currentQty, toRat_sum_map, toRat_sum_map, pooledPrice]
  rw [IndexTotals.overall, if_neg (by simp [hqty.ne', hqty'.ne']), pooledSlack, ← hpooled,
    ← hpooled']
  refine abs_growthPercent_sub_le hamount hqty hamount' hqty' ?_
  rw [hpooled]
  exact ulp_le_pooledPrice hne hbefore hprice

/-- Where every quantity grew by the same share, the exact growth is between those of two items. -/
theorem pooled_growth_between (hne : items ≠ []) (hmeasured : ∀ r ∈ items, r.Measured) {share : ℚ}
    (hshare : 0 < share) (hmix : ∀ r ∈ items,
      r.currentPeriod.totalQuantity.toRat = share * r.baselinePeriod.totalQuantity.toRat) :
    let growth := fun r : InflationItemResult =>
      exactGrowth r.baselinePeriod.averagePrice r.currentPeriod.averagePrice
    let pooled := exactGrowth (pooledPrice (·.baselinePeriod) items)
      (pooledPrice (·.currentPeriod) items)
    (∃ lo ∈ items, growth lo ≤ pooled) ∧ ∃ hi ∈ items, pooled ≤ growth hi := by
  have hA : ∀ r ∈ items, 0 < r.baselinePeriod.totalAmount.toRat :=
    fun r hr => toRat_pos (hmeasured r hr).before.amount
  have hQ : ∀ r ∈ items, 0 < r.baselinePeriod.totalQuantity.toRat :=
    fun r hr => toRat_pos (hmeasured r hr).before.quantity
  have hsumA := sum_toRat_pos (f := (·.baselinePeriod.totalAmount)) hne
    fun r hr => (hmeasured r hr).before.amount
  have hsumQ := sum_toRat_pos (f := (·.baselinePeriod.totalQuantity)) hne
    fun r hr => (hmeasured r hr).before.quantity
  have hitem : ∀ r ∈ items, r.currentPeriod.averagePrice / r.baselinePeriod.averagePrice =
      r.currentPeriod.totalAmount.toRat / r.baselinePeriod.totalAmount.toRat / share := by
    intro r hr
    have hpos := hA r hr
    have hpos' := hQ r hr
    unfold PeriodStats.averagePrice
    rw [hmix r hr]
    field_simp
  have hpooled : pooledPrice (·.currentPeriod) items / pooledPrice (·.baselinePeriod) items =
      (items.map fun r => r.currentPeriod.totalAmount.toRat).sum /
        (items.map fun r => r.baselinePeriod.totalAmount.toRat).sum / share := by
    have hsum : (items.map fun r => r.currentPeriod.totalQuantity.toRat).sum =
        share * (items.map fun r => r.baselinePeriod.totalQuantity.toRat).sum := by
      rw [← List.sum_map_mul_left]
      exact congrArg List.sum (List.map_congr_left hmix)
    unfold pooledPrice
    rw [hsum]
    field_simp
  unfold exactGrowth
  dsimp only
  rw [hpooled]
  constructor
  · obtain ⟨r, hr, hle⟩ := exists_ratio_le hne (fun r => r.currentPeriod.totalAmount.toRat)
      (fun r => r.baselinePeriod.totalAmount.toRat)
    have hratio := div_le_div_of_nonneg_right ((div_le_div_iff₀ (hA r hr) hsumA).mpr hle) hshare.le
    refine ⟨r, hr, ?_⟩
    rw [hitem r hr]
    linarith
  · obtain ⟨r, hr, hle⟩ := exists_le_ratio hne (fun r => r.currentPeriod.totalAmount.toRat)
      (fun r => r.baselinePeriod.totalAmount.toRat)
    have hratio := div_le_div_of_nonneg_right ((div_le_div_iff₀ hsumA (hA r hr)).mpr hle) hshare.le
    refine ⟨r, hr, ?_⟩
    rw [hitem r hr]
    linarith

end Mix

/-! ## A change of all the units -/

section Units
open Decimal
variable {book : PriceBook} {owner : Option Uuid} {baseline current p : Period}
  {item : CommodityItem} {f : Decimal → Decimal} {factor : ℚ}

/-- The same purchases, with other numbers for their quantities. -/
def PriceBook.remeasured (book : PriceBook) (f : Decimal → Decimal) : PriceBook :=
  { book with records := book.records.map fun r => { r with quantity := f r.quantity } }

/-- Amounts are the same, and quantities are multiplied. -/
structure PeriodStats.Scaled (factor : ℚ) (s s' : PeriodStats) : Prop where
  amount : s'.totalAmount = s.totalAmount
  quantity : s'.totalQuantity.toRat = factor * s.totalQuantity.toRat

structure InflationItemResult.Scaled (factor : ℚ) (r r' : InflationItemResult) : Prop where
  before : r.baselinePeriod.Scaled factor r'.baselinePeriod
  now : r.currentPeriod.Scaled factor r'.currentPeriod

theorem recordsOf_remeasured : (book.remeasured f).recordsOf owner item p =
    (book.recordsOf owner item p).map fun r => { r with quantity := f r.quantity } := by
  unfold PriceBook.recordsOf PriceBook.remeasured
  rw [List.filter_map]
  rfl

theorem PriceBook.Positive.remeasured (h : book.Positive) (hfactor : 0 < factor)
    (hf : ∀ r ∈ book.records, (f r.quantity).toRat = factor * r.quantity.toRat) :
    (book.remeasured f).Positive := by
  intro r hr
  obtain ⟨s, hs, rfl⟩ := List.mem_map.mp hr
  have hpos := h s hs
  have hscaled : 0 < (f s.quantity).toRat := by
    rw [hf s hs]
    exact mul_pos hfactor (toRat_pos hpos.2)
  refine ⟨hpos.1, ?_⟩
  rw [toRat_eq, mul_pos_iff_of_pos_right ulp_pos] at hscaled
  exact Int.cast_pos.mp hscaled

theorem periodStats_remeasured {rows : List PriceRecord}
    (hf : ∀ r ∈ rows, (f r.quantity).toRat = factor * r.quantity.toRat) :
    (periodStats p rows).Scaled factor
      (periodStats p (rows.map fun r => { r with quantity := f r.quantity })) := by
  constructor
  · simp only [periodStats, List.map_map, Function.comp_def]
  · simp only [periodStats, toRat_sum, List.map_map, Function.comp_def]
    rw [← List.sum_map_mul_left]
    exact congrArg List.sum (List.map_congr_left hf)

/-- Of a positive book, an item has a result where it has records. -/
theorem PriceBook.Positive.itemResult_eq (h : book.Positive) (owner : Option Uuid)
    (baseline current : Period) (item : CommodityItem) :
    (∃ p ∈ [baseline, current], book.recordsOf owner item p = []) ∧
      book.itemResult owner baseline current item = none ∨
    (∀ p ∈ [baseline, current], book.recordsOf owner item p ≠ []) ∧
      ∃ x, book.itemResult owner baseline current item = some x ∧
        x.1.baselinePeriod = periodStats baseline (book.recordsOf owner item baseline) ∧
        x.1.currentPeriod = periodStats current (book.recordsOf owner item current) := by
  by_cases hempty : book.recordsOf owner item baseline = [] ∨ book.recordsOf owner item current = []
  · refine .inl ⟨by simpa using hempty, ?_⟩
    unfold PriceBook.itemResult
    exact if_pos hempty
  · have hsome := hempty
    push Not at hsome
    have hqty := (h.stats hsome.1).quantity
    have hqty' := (h.stats hsome.2).quantity
    refine .inr ⟨by simpa using hsome, ?_⟩
    unfold PriceBook.itemResult
    dsimp only
    rw [if_neg hempty, if_neg (by simp [hqty.ne', hqty'.ne'])]
    exact ⟨_, rfl, rfl, rfl⟩

theorem itemResult_remeasured (h : book.Positive) (hfactor : 0 < factor)
    (hf : ∀ r ∈ book.records, (f r.quantity).toRat = factor * r.quantity.toRat) :
    Option.Rel (fun x x' => x.1.Scaled factor x'.1)
      (book.itemResult owner baseline current item)
      ((book.remeasured f).itemResult owner baseline current item) := by
  have hscaled : ∀ p, (periodStats p (book.recordsOf owner item p)).Scaled factor
      (periodStats p ((book.remeasured f).recordsOf owner item p)) := by
    intro p
    rw [recordsOf_remeasured]
    exact periodStats_remeasured fun r hr => hf r (List.mem_of_mem_filter hr)
  have hnil : ∀ p, (book.remeasured f).recordsOf owner item p = [] ↔
      book.recordsOf owner item p = [] := by
    intro p
    rw [recordsOf_remeasured, List.map_eq_nil_iff]
  have hcases := h.itemResult_eq owner baseline current item
  have hcases' := (h.remeasured hfactor hf).itemResult_eq owner baseline current item
  simp only [hnil, ne_eq] at hcases'
  rcases hcases with ⟨⟨p, hp, hempty⟩, hnone⟩ | ⟨hall, x, hsome, hbefore, hnow⟩
  · rcases hcases' with ⟨-, hnone'⟩ | ⟨hall', -⟩
    · rw [hnone, hnone']
      exact .none
    · exact absurd hempty (hall' p hp)
  · rcases hcases' with ⟨⟨p, hp, hempty⟩, -⟩ | ⟨-, x', hsome', hbefore', hnow'⟩
    · exact absurd hempty (hall p hp)
    · rw [hsome, hsome']
      refine .some ⟨?_, ?_⟩
      · rw [hbefore, hbefore']
        exact hscaled baseline
      · rw [hnow, hnow']
        exact hscaled current

theorem next_scaled {t u : IndexTotals} {x y : Option (InflationItemResult × Decimal)}
    (h : List.Forall₂ (InflationItemResult.Scaled factor) t.items u.items)
    (hxy : Option.Rel (fun x x' => x.1.Scaled factor x'.1) x y) :
    List.Forall₂ (InflationItemResult.Scaled factor) (t.next x).items (u.next y).items := by
  cases hxy with
  | none => exact h
  | some hscaled => exact List.rel_append h (.cons hscaled .nil)

theorem totals_remeasured (h : book.Positive) (hfactor : 0 < factor)
    (hf : ∀ r ∈ book.records, (f r.quantity).toRat = factor * r.quantity.toRat) :
    List.Forall₂ (InflationItemResult.Scaled factor) (book.totals owner baseline current).items
      ((book.remeasured f).totals owner baseline current).items := by
  have hloop : ∀ (items : List CommodityItem) (t u : IndexTotals),
      List.Forall₂ (InflationItemResult.Scaled factor) t.items u.items →
      List.Forall₂ (InflationItemResult.Scaled factor)
        (items.foldl (fun t item => t.next (book.itemResult owner baseline current item)) t).items
        (items.foldl (fun t item =>
          t.next ((book.remeasured f).itemResult owner baseline current item)) u).items := by
    intro items
    induction items with
    | nil => exact fun _ _ htu => htu
    | cons item items ih =>
      intro t u htu
      exact ih _ _ (next_scaled htu (itemResult_remeasured h hfactor hf))
  exact hloop _ _ _ .nil

theorem sum_map_of_forall₂ {items items' : List InflationItemResult}
    {g : InflationItemResult → ℚ} {k : ℚ}
    (h : List.Forall₂ (InflationItemResult.Scaled factor) items items')
    (hg : ∀ r r', r.Scaled factor r' → g r' = k * g r) :
    (items'.map g).sum = k * (items.map g).sum := by
  induction h with
  | nil => simp
  | cons hscaled _ ih => rw [List.map_cons, List.map_cons, List.sum_cons, List.sum_cons, ih,
      hg _ _ hscaled, mul_add]

theorem pooledPrice_scaled {items items' : List InflationItemResult}
    {period : InflationItemResult → PeriodStats}
    (h : List.Forall₂ (InflationItemResult.Scaled factor) items items')
    (hperiod : ∀ r r', r.Scaled factor r' → (period r).Scaled factor (period r')) :
    pooledPrice period items' = pooledPrice period items / factor := by
  have hamount := sum_map_of_forall₂ h (g := fun r => (period r).totalAmount.toRat) (k := 1)
    fun r r' hr => by rw [(hperiod r r' hr).amount, one_mul]
  have hqty := sum_map_of_forall₂ h (g := fun r => (period r).totalQuantity.toRat)
    fun r r' hr => (hperiod r r' hr).quantity
  rw [pooledPrice, hamount, hqty, one_mul, pooledPrice, div_div, mul_comm factor]

theorem exactGrowth_scaled (hfactor : 0 < factor) (before now : ℚ) :
    exactGrowth (before / factor) (now / factor) = exactGrowth before now := by
  rw [exactGrowth, exactGrowth, div_div_div_cancel_right₀ hfactor.ne']

end Units

/-! ## The index as it is printed -/

section Printed
open Decimal
variable {book : PriceBook} {owner : Option Uuid} {baseline current : Period} {months : Int}
  {result result' : InflationIndexResult}

/-- What the loop found is what is printed, in another order. -/
theorem calculatePersonalInflationIndex_eq
    (h : calculatePersonalInflationIndex book owner baseline current months = .ok result) :
    result.overallWeightedAvgGrowthPercent = (book.totals owner baseline current).overall ∧
      result.items.Perm (book.totals owner baseline current).items := by
  unfold calculatePersonalInflationIndex at h
  split_ifs at h
  cases h
  exact ⟨rfl, List.mergeSort_perm _ _⟩

theorem pooledPrice_perm {items items' : List InflationItemResult} (h : items.Perm items')
    (period : InflationItemResult → PeriodStats) :
    pooledPrice period items = pooledPrice period items' := by
  rw [pooledPrice, pooledPrice, (h.map _).sum_eq, (h.map _).sum_eq]

/-- The index is the growth of the average price of everything, up to rounding. -/
theorem abs_index_sub_le (hbook : book.Positive)
    (h : calculatePersonalInflationIndex book owner baseline current months = .ok result)
    (hne : result.items ≠ [])
    (hprice : ∀ r ∈ result.items, ulp ≤ r.baselinePeriod.averagePrice) :
    |result.overallWeightedAvgGrowthPercent.toRat -
      exactGrowth (pooledPrice (·.baselinePeriod) result.items)
        (pooledPrice (·.currentPeriod) result.items)| ≤ pooledSlack result.items := by
  obtain ⟨hoverall, hperm⟩ := calculatePersonalInflationIndex_eq h
  rw [hoverall, pooledSlack, pooledPrice_perm hperm, pooledPrice_perm hperm]
  refine abs_overall_sub_le hbook.totals_sums (fun hnil => hne ?_)
    fun r hr => hprice r (hperm.mem_iff.mpr hr)
  rw [hnil] at hperm
  exact hperm.eq_nil

theorem items_measured (hbook : book.Positive)
    (h : calculatePersonalInflationIndex book owner baseline current months = .ok result) :
    ∀ r ∈ result.items, r.Measured := by
  intro r hr
  obtain ⟨-, hperm⟩ := calculatePersonalInflationIndex_eq h
  exact hbook.totals_sums.measured r (hperm.mem_iff.mp hr)

/-- The index is the growth of all amounts over all quantities. Between baskets of one mix it is
between the growth of two items, and a change of all the units at once leaves it. -/
theorem inflationIndex_is_pooled_growth (hbook : book.Positive)
    (h : calculatePersonalInflationIndex book owner baseline current months = .ok result)
    (hne : result.items ≠ [])
    (hprice : ∀ r ∈ result.items, ulp ≤ r.baselinePeriod.averagePrice) :
    |result.overallWeightedAvgGrowthPercent.toRat -
        exactGrowth (pooledPrice (·.baselinePeriod) result.items)
          (pooledPrice (·.currentPeriod) result.items)| ≤ pooledSlack result.items ∧
      (∀ share : ℚ, 0 < share →
        (∀ r ∈ result.items,
          r.currentPeriod.totalQuantity.toRat = share * r.baselinePeriod.totalQuantity.toRat) →
        (∃ lo ∈ result.items, lo.priceGrowthPercent.toRat - (lo.slack + pooledSlack result.items) ≤
          result.overallWeightedAvgGrowthPercent.toRat) ∧
        ∃ hi ∈ result.items, result.overallWeightedAvgGrowthPercent.toRat ≤
          hi.priceGrowthPercent.toRat + (hi.slack + pooledSlack result.items)) ∧
      ∀ (f : Decimal → Decimal) (factor : ℚ) (result' : InflationIndexResult), 0 < factor →
        (∀ r ∈ book.records, (f r.quantity).toRat = factor * r.quantity.toRat) →
        calculatePersonalInflationIndex (book.remeasured f) owner baseline current months =
          .ok result' →
        (∀ r ∈ result'.items, ulp ≤ r.baselinePeriod.averagePrice) →
        |result'.overallWeightedAvgGrowthPercent.toRat -
          result.overallWeightedAvgGrowthPercent.toRat| ≤
            pooledSlack result.items + pooledSlack result'.items := by
  have hindex := abs_index_sub_le hbook h hne hprice
  refine ⟨hindex, fun share hshare hmix => ?_, fun f factor result' hfactor hf h' hprice' => ?_⟩
  · have hmeasured := items_measured hbook h
    have hnear : ∀ r ∈ result.items, _ := fun r hr =>
      abs_le.mp (abs_priceGrowthPercent_sub_le (hmeasured r hr) (hprice r hr))
    obtain ⟨⟨lo, hlo, hbelow⟩, hi, hhi, habove⟩ :=
      pooled_growth_between hne hmeasured hshare hmix
    exact ⟨⟨lo, hlo, by linarith [(hnear lo hlo).2, (abs_le.mp hindex).1]⟩,
      hi, hhi, by linarith [(hnear hi hhi).1, (abs_le.mp hindex).2]⟩
  · have hperm := (calculatePersonalInflationIndex_eq h).2
    have hperm' := (calculatePersonalInflationIndex_eq h').2
    have hitems : List.Forall₂ _ (book.totals owner baseline current).items _ :=
      totals_remeasured hbook hfactor hf
    have hne' : result'.items ≠ [] := by
      intro hnil
      rw [hnil] at hperm'
      rw [hperm'.nil_eq.symm] at hitems
      rw [List.forall₂_nil_right_iff.mp hitems] at hperm
      exact hne hperm.eq_nil
    have hindex' := abs_index_sub_le (hbook.remeasured hfactor hf) h' hne' hprice'
    rw [pooledPrice_perm hperm', pooledPrice_perm hperm', pooledPrice_scaled hitems
      fun _ _ hr => hr.before, pooledPrice_scaled hitems fun _ _ hr => hr.now,
      exactGrowth_scaled hfactor] at hindex'
    rw [pooledPrice_perm hperm, pooledPrice_perm hperm] at hindex
    refine (abs_sub_le _ _ _).trans ((add_le_add hindex' ?_).trans_eq (add_comm _ _))
    rw [abs_sub_comm]
    exact hindex

/-- Bread went from 1 to 2 and oil from 100 to 150, and twice as much of each was bought. -/
def demoGoods : PriceBook where
  categories := []
  items := [⟨1, none, "bread", none⟩, ⟨2, none, "oil", none⟩]
  records :=
    [⟨none, 1, .ofInt 10, .ofInt 10, 0⟩, ⟨none, 2, .ofInt 1, .ofInt 100, 0⟩,
      ⟨none, 1, .ofInt 20, .ofInt 40, 100⟩, ⟨none, 2, .ofInt 2, .ofInt 300, 100⟩]

def demoPeriod (day : Int) : Period := ⟨day, day⟩

theorem demoGoods_totals :
    (∀ r ∈ demoGoods.records, 0 < r.totalAmount ∧ 0 < r.quantity) ∧
    (demoGoods.totals none (demoPeriod 0) (demoPeriod 100)).items ≠ [] ∧
    ∀ r ∈ (demoGoods.totals none (demoPeriod 0) (demoPeriod 100)).items,
      ulp ≤ r.baselinePeriod.averagePrice ∧
        r.currentPeriod.totalQuantity.toRat = 2 * r.baselinePeriod.totalQuantity.toRat := by
  decide +kernel

theorem demoGoods_index_between : ∃ result : InflationIndexResult,
    calculatePersonalInflationIndex demoGoods none (demoPeriod 0) (demoPeriod 100) 3 =
      .ok result ∧
    (∃ lo ∈ result.items, lo.priceGrowthPercent.toRat - (lo.slack + pooledSlack result.items) ≤
      result.overallWeightedAvgGrowthPercent.toRat) ∧
    ∃ hi ∈ result.items, result.overallWeightedAvgGrowthPercent.toRat ≤
      hi.priceGrowthPercent.toRat + (hi.slack + pooledSlack result.items) := by
  obtain ⟨hbook, hne, hitems⟩ := demoGoods_totals
  obtain ⟨result, hrun⟩ : ∃ result, calculatePersonalInflationIndex demoGoods none (demoPeriod 0)
    (demoPeriod 100) 3 = .ok result := ⟨_, rfl⟩
  obtain ⟨-, hperm⟩ := calculatePersonalInflationIndex_eq hrun
  refine ⟨result, hrun, (inflationIndex_is_pooled_growth hbook hrun ?_ ?_).2.1 2 (by norm_num) ?_⟩
  · intro hnil
    rw [hnil] at hperm
    exact hne hperm.nil_eq.symm
  · exact fun r hr => (hitems r (hperm.mem_iff.mp hr)).1
  · exact fun r hr => (hitems r (hperm.mem_iff.mp hr)).2

/-- Two goods at prices that stay, 1 and 100, bought in the mixes 10 : 1 and 1 : 10. -/
def twoGoods (unit : Int) : PriceBook where
  categories := []
  items := [⟨1, none, "bread", none⟩, ⟨2, none, "oil", none⟩]
  records :=
    [⟨none, 1, .ofInt (10 * unit), .ofInt 10, 0⟩, ⟨none, 2, .ofInt 1, .ofInt 100, 0⟩,
      ⟨none, 1, .ofInt unit, .ofInt 1, 100⟩, ⟨none, 2, .ofInt 10, .ofInt 1000, 100⟩]

def twoGoodsIndex (unit : Int) : Except String InflationIndexResult :=
  calculatePersonalInflationIndex (twoGoods unit) none (demoPeriod 0) (demoPeriod 100) 3

theorem twoGoods_totals : (∀ unit ∈ [(1 : Int), 1000],
    ∀ r ∈ ((twoGoods unit).totals none (demoPeriod 0) (demoPeriod 100)).items,
      r.priceGrowthPercent = 0) ∧
    ((twoGoods 1).totals none (demoPeriod 0) (demoPeriod 100)).overall = .ofInt 810 ∧
    ((twoGoods 1000).totals none (demoPeriod 0) (demoPeriod 100)).overall.toFixed 0 =
      .ofInt 8911 := by
  decide

/-- No price moves and the index says 810 percent, and with bread in grams another number. -/
theorem twoGoods_index_is_outside : ∃ kilos grams : InflationIndexResult,
    twoGoodsIndex 1 = .ok kilos ∧ twoGoodsIndex 1000 = .ok grams ∧
      (∀ r ∈ kilos.items, r.priceGrowthPercent = 0) ∧
      (∀ r ∈ grams.items, r.priceGrowthPercent = 0) ∧
      kilos.overallWeightedAvgGrowthPercent = .ofInt 810 ∧
      grams.overallWeightedAvgGrowthPercent.toFixed 0 = .ofInt 8911 := by
  obtain ⟨hgrowth, hkilos, hgrams⟩ := twoGoods_totals
  refine ⟨_, _, rfl, rfl, fun r hr => ?_, fun r hr => ?_, hkilos, hgrams⟩
  · exact hgrowth 1 (by simp) r (List.mem_mergeSort.mp hr)
  · exact hgrowth 1000 (by simp) r (List.mem_mergeSort.mp hr)

end Printed

end Inflation

end Pwos
