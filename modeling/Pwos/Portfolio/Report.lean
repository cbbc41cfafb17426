import Pwos.Fx.UnitPrice

/-!
# The portfolio report

`getPortfolioValuation` of `features/portfolio/service.ts`, from what its queries found:
every holding and every registered real asset is a row, the rows are added up, and the
marks of open perpetual positions are added to rows and totals last.
-/

namespace Pwos

/-! ## Market valuation -/

structure MarketValuationInput where
  quantity : Decimal
  currentPriceUsd : Decimal
  costBasisUsd : Decimal
  currentTomanPerUsd : Decimal
  historicalCostToman : Option Decimal

/-- The figures of a row. -/
structure Figures where
  marketPrice : Decimal
  currentValue : Decimal
  currentValueToman : Decimal
  historicalCostToman : Option Decimal
  unrealizedPnl : Decimal
  unrealizedPnlToman : Decimal
  deriving DecidableEq, Repr

/-- The Toman result: against the Toman that was paid, else the dollars at the rate. -/
def pnlToman (historicalCostToman : Option Decimal) (valueToman pnlUsd rate : Decimal) : Decimal :=
  match historicalCostToman with
  | some cost => (valueToman - cost).toFixed 0
  | none => (pnlUsd.mul rate).toFixed 0

def calculateMarketValuation (input : MarketValuationInput) : Figures :=
  let value := input.quantity.mul input.currentPriceUsd
  let valueToman := value.mul input.currentTomanPerUsd
  let pnl := value - input.costBasisUsd
  { marketPrice := input.currentPriceUsd
    currentValue := value
    currentValueToman := valueToman.toFixed 0
    historicalCostToman := input.historicalCostToman.map (·.toFixed 0)
    unrealizedPnl := pnl
    unrealizedPnlToman := pnlToman input.historicalCostToman valueToman pnl
      input.currentTomanPerUsd }

/-- Without a quote the row stands at its cost. -/
def valueCoinGeckoAsset (quote : Option Decimal) (input : MarketValuationInput) : Figures :=
  match quote with
  | some price => calculateMarketValuation { input with currentPriceUsd := price }
  | none =>
    { marketPrice := 0, currentValue := input.costBasisUsd
      currentValueToman := (input.costBasisUsd.mul input.currentTomanPerUsd).toFixed 0
      historicalCostToman := input.historicalCostToman, unrealizedPnl := 0
      unrealizedPnlToman := 0 }

/-! ## Holdings -/

structure PropertyValue where
  currentValueUsd : Option Decimal
  currentValueToman : Option Decimal
  purchaseValueUsd : Option Decimal := none
  purchasePriceToman : Option Decimal

structure VehicleSnapshot where
  currentValueUsd : Option Decimal
  currentValueToman : Option Decimal

structure VehicleValue where
  purchaseValueUsd : Option Decimal
  purchasePriceToman : Option Decimal
  snap : Option VehicleSnapshot

structure GenericValue where
  priceUSD : Option Decimal
  priceIRR : Option Decimal
  priceBase : Option Decimal

/-- A holding, with what the queries found about it. -/
structure Held where
  assetId : Uuid
  symbol : String
  quantity : Decimal
  costBasis : Decimal
  historicalCostToman : Option Decimal
  /-- For an asset priced by the market: its quote, if there is one. -/
  market : Option (Option Decimal)
  property : Option PropertyValue
  vehicle : Option VehicleValue
  generic : Option GenericValue
  genericPurchaseToman : Option Decimal
  isMarketClass : Bool
  /-- The recorded reference price. -/
  price : Option Decimal

namespace Held
variable (h : Held) (rate : Decimal)

def unitPrice (value : Decimal) : Decimal := if h.quantity = 0 then 0 else value.div h.quantity

def marketInput (price : Decimal) (cost : Option Decimal) : MarketValuationInput :=
  { quantity := h.quantity, currentPriceUsd := price, costBasisUsd := h.costBasis
    currentTomanPerUsd := rate, historicalCostToman := cost }

/-- Dollars, and Tether, which is worth the rate the user sees. -/
def usdFigures : Figures :=
  let pnl := h.quantity - h.costBasis
  { marketPrice := .ofInt 1
    currentValue := h.quantity
    currentValueToman := (h.quantity.mul rate).toFixed 0
    historicalCostToman := h.historicalCostToman
    unrealizedPnl := pnl
    unrealizedPnlToman := pnlToman h.historicalCostToman ((h.quantity.mul rate).toFixed 0) pnl
      rate }

def tomanFigures : Figures :=
  let tomanQuantity := if h.symbol = "IRR" then h.quantity.div (.ofInt 10) else h.quantity
  let value := tomanQuantity.div rate
  { marketPrice := h.unitPrice value
    currentValue := value
    currentValueToman := tomanQuantity.toFixed 0
    historicalCostToman := h.historicalCostToman
    unrealizedPnl := value - h.costBasis
    unrealizedPnlToman := pnlToman h.historicalCostToman (tomanQuantity.toFixed 0)
      (value - h.costBasis) rate }

def propertyFigures (value valueToman : Decimal) (purchaseToman : Option Decimal) : Figures :=
  let cost := purchaseToman.map (·.toFixed 0)
  { marketPrice := h.unitPrice value
    currentValue := value
    currentValueToman := valueToman.toFixed 0
    historicalCostToman := cost
    unrealizedPnl := value - h.costBasis
    unrealizedPnlToman := pnlToman cost (valueToman.toFixed 0) (value - h.costBasis) rate }

/-- The value of a vehicle: its snapshot, else what was paid, else its cost. -/
def vehicleFigures (v : VehicleValue) : Figures :=
  let value := ((v.snap.bind (·.currentValueUsd)) <|> v.purchaseValueUsd).getD h.costBasis
  let valueToman := ((v.snap.bind (·.currentValueToman)) <|> v.purchasePriceToman).elim
    ((value.mul rate).toFixed 0) (·.toFixed 0)
  let cost := v.purchasePriceToman.map (·.toFixed 0)
  { marketPrice := h.unitPrice value
    currentValue := value
    currentValueToman := valueToman
    historicalCostToman := cost
    unrealizedPnl := value - h.costBasis
    unrealizedPnlToman := pnlToman cost valueToman (value - h.costBasis) rate }

/-- Nothing is known but the cost. -/
def costFigures : Figures :=
  { marketPrice := 0, currentValue := h.costBasis
    currentValueToman := (h.costBasis.mul rate).toFixed 0
    historicalCostToman := h.historicalCostToman, unrealizedPnl := 0, unrealizedPnlToman := 0 }

def genericFigures (g : GenericValue) : Figures :=
  let cost := h.genericPurchaseToman <|> h.historicalCostToman
  match g.priceUSD <|> g.priceBase, g.priceIRR with
  | some unitUsd, priceIRR =>
    let calculated := calculateMarketValuation (h.marketInput rate unitUsd cost)
    let valueToman := priceIRR.elim calculated.currentValueToman fun p =>
      (p.mul h.quantity).toFixed 0
    { calculated with
      currentValueToman := valueToman
      unrealizedPnlToman := calculated.historicalCostToman.elim calculated.unrealizedPnlToman
        fun c => (valueToman - c).toFixed 0 }
  | none, some priceIRR =>
    let valueToman := (priceIRR.mul h.quantity).toFixed 0
    let value := valueToman.div rate
    { marketPrice := value.div h.quantity
      currentValue := value
      currentValueToman := valueToman
      historicalCostToman := cost
      unrealizedPnl := value - h.costBasis
      unrealizedPnlToman := cost.elim 0 fun c => (valueToman - c).toFixed 0 }
  | none, none => h.costFigures rate

/-- The figures of a holding. -/
def figures : Figures :=
  let tether := h.symbol = "USDT"
  match h.market with
  | some quote => if tether then h.usdFigures rate else
      valueCoinGeckoAsset quote (h.marketInput rate 0 h.historicalCostToman)
  | none =>
    if h.symbol = "USD" ∨ tether then h.usdFigures rate
    else if h.symbol = "IRT" ∨ h.symbol = "IRR" then h.tomanFigures rate
    else match h.property.bind fun p => p.currentValueUsd.bind fun usd =>
        p.currentValueToman.map fun toman => (usd, toman, p.purchasePriceToman) with
    | some (usd, toman, purchase) => h.propertyFigures rate usd toman purchase
    | none => match h.vehicle with
      | some v => h.vehicleFigures rate v
      | none => match h.generic.filter fun g =>
          g.priceUSD.isSome || g.priceIRR.isSome || g.priceBase.isSome with
        | some g => h.genericFigures rate g
        | none => match h.price.filter fun p => !h.isMarketClass && 0 < p with
          | some p => calculateMarketValuation (h.marketInput rate p h.historicalCostToman)
          | none => h.costFigures rate

end Held

/-- `calculateRoi` of `features/portfolio/valuation.ts`. -/
def calculateRoi (currentValue costBasis : Decimal) : Decimal :=
  if costBasis ≤ 0 then 0
  else (((currentValue - costBasis).div costBasis).mul (.ofInt 100)).toFixed 2

/-- A row of the report. -/
structure AssetValuation where
  assetId : Uuid
  symbol : String
  quantity : Decimal
  marketPrice : Decimal
  currentValue : Decimal
  currentValueToman : Decimal
  costBasis : Decimal
  costBasisToman : Decimal := 0
  historicalCostToman : Option Decimal
  unrealizedPnl : Decimal
  unrealizedPnlToman : Decimal
  roiPercentage : Decimal
  sharePercentage : Decimal := 0
  deriving DecidableEq, Repr

def Figures.row (f : Figures) (assetId : Uuid) (symbol : String) (quantity costBasis : Decimal) :
    AssetValuation :=
  { assetId, symbol, quantity, marketPrice := f.marketPrice, currentValue := f.currentValue
    currentValueToman := f.currentValueToman, costBasis
    historicalCostToman := f.historicalCostToman, unrealizedPnl := f.unrealizedPnl
    unrealizedPnlToman := f.unrealizedPnlToman
    roiPercentage := calculateRoi f.currentValue costBasis }

def Held.valuation (h : Held) (rate : Decimal) : AssetValuation :=
  (h.figures rate).row h.assetId h.symbol h.quantity h.costBasis

/-! ## Real assets without a holding -/

inductive RealAsset where
  | property (p : PropertyValue)
  | vehicle (v : VehicleValue)
  | owned (purchaseToman : Option Decimal) (generic : Option GenericValue)

structure Registered where
  assetId : Uuid
  symbol : String
  asset : RealAsset

/-- A real asset at its value, against its cost. -/
def realFigures (rate value valueToman costBasis : Decimal) (purchaseToman : Option Decimal) :
    Figures :=
  { marketPrice := value, currentValue := value, currentValueToman := valueToman
    historicalCostToman := purchaseToman, unrealizedPnl := value - costBasis
    unrealizedPnlToman := pnlToman purchaseToman valueToman (value - costBasis) rate }

/-- The value of an asset of which a purchase and a valuation may be recorded. -/
def ownedValue (rate : Decimal) (purchase : Option Decimal) (generic : Option GenericValue) :
    Decimal × Decimal :=
  match generic.bind (·.priceUSD), generic.bind (·.priceIRR) with
  | some usd, irr => (usd, irr.elim ((usd.mul rate).toFixed 0) (·.toFixed 0))
  | none, some irr => (if 0 < rate then (irr.toFixed 0).div rate else 0, irr.toFixed 0)
  | none, none => (if 0 < rate then purchase.elim 0 (·.div rate) else 0, purchase.getD 0)

/-- The figures of a real asset, with its cost. -/
def RealAsset.figures (rate : Decimal) : RealAsset → Figures × Decimal
  | .property p =>
    let value := p.currentValueUsd.getD
      (if 0 < rate then p.currentValueToman.elim 0 (·.div rate) else 0)
    let valueToman := p.currentValueToman.elim ((value.mul rate).toFixed 0) (·.toFixed 0)
    let cost := p.purchaseValueUsd.getD value
    (realFigures rate value valueToman cost (p.purchasePriceToman.map (·.toFixed 0)), cost)
  | .vehicle v =>
    let value := ((v.snap.bind (·.currentValueUsd)) <|> v.purchaseValueUsd).getD 0
    let valueToman := ((v.snap.bind (·.currentValueToman)) <|> v.purchasePriceToman).elim
      ((value.mul rate).toFixed 0) (·.toFixed 0)
    let cost := v.purchaseValueUsd.getD value
    (realFigures rate value valueToman cost (v.purchasePriceToman.map (·.toFixed 0)), cost)
  | .owned purchaseToman generic =>
    let purchase := purchaseToman.map (·.toFixed 0)
    let (value, valueToman) := ownedValue rate purchase generic
    let cost := if 0 < rate then purchase.elim value (·.div rate) else value
    ({ realFigures rate value valueToman cost purchase with
       unrealizedPnlToman := purchase.elim 0 fun c => (valueToman - c).toFixed 0 }, cost)

def Registered.valuation (r : Registered) (rate : Decimal) : AssetValuation :=
  let (figures, cost) := r.asset.figures rate
  figures.row r.assetId r.symbol (.ofInt 1) cost

/-- 0.00000001: what counts as nothing. -/
def DUST : Decimal := ⟨10 ^ 10⟩

/-- `push`: an asset with a row already, or without value and cost, is left out. -/
def push (rows : List AssetValuation) (row : AssetValuation) : List AssetValuation :=
  if (∃ r ∈ rows, r.assetId = row.assetId) ∨
      (row.currentValue.abs ≤ DUST ∧ row.costBasis.abs ≤ DUST) then rows
  else rows ++ [row]

/-! ## Totals -/

structure Totals where
  netWorth : Decimal := 0
  netWorthToman : Decimal := 0
  costBasis : Decimal := 0
  unrealizedPnl : Decimal := 0
  unrealizedPnlToman : Decimal := 0
  deriving DecidableEq, Repr

def Totals.add (t : Totals) (v : AssetValuation) : Totals :=
  { netWorth := t.netWorth + v.currentValue
    netWorthToman := t.netWorthToman + v.currentValueToman
    costBasis := t.costBasis + v.costBasis
    unrealizedPnl := t.unrealizedPnl + v.unrealizedPnl
    unrealizedPnlToman := t.unrealizedPnlToman + v.unrealizedPnlToman }

/-- What the queries found. A holding is one asset's. -/
structure PortfolioInput where
  rate : Decimal
  held : List Held
  distinct : (held.map (·.assetId)).Nodup
  registered : List Registered

/-- The rows, the Toman cost being what the Toman value and result leave. -/
def PortfolioInput.rows (p : PortfolioInput) : List AssetValuation :=
  ((p.registered.map (·.valuation p.rate)).foldl push (p.held.map (·.valuation p.rate))).map
    fun v => { v with costBasisToman := (v.currentValueToman - v.unrealizedPnlToman).toFixed 0 }

def PortfolioInput.totals (p : PortfolioInput) : Totals := p.rows.foldl Totals.add {}

/-! ## Marks -/

/-- The latest mark of an open position, in the margin coin. -/
structure PositionMark where
  assetId : Uuid
  unrealizedPnl : Decimal
  deriving DecidableEq, Repr

def PositionMark.usd (m : PositionMark) (v : AssetValuation) : Decimal :=
  m.unrealizedPnl.mul (if 0 < v.marketPrice then v.marketPrice else .ofInt 1)

def AssetValuation.addMark (v : AssetValuation) (usd toman : Decimal) : AssetValuation :=
  { v with
    currentValue := v.currentValue + usd
    currentValueToman := (v.currentValueToman + toman).toFixed 0
    unrealizedPnl := v.unrealizedPnl + usd
    unrealizedPnlToman := (v.unrealizedPnlToman + toman).toFixed 0
    roiPercentage := calculateRoi (v.currentValue + usd) v.costBasis }

/-- A mark goes to the row of its coin; the totals take it as it is. -/
def addMark (rate : Decimal) (st : List AssetValuation × Totals) (m : PositionMark) :
    List AssetValuation × Totals :=
  match st.1.find? (·.assetId = m.assetId) with
  | none => st
  | some v =>
    let usd := m.usd v
    let toman := usd.mul rate
    (st.1.map fun w => if w.assetId = m.assetId then w.addMark usd toman else w,
      { st.2 with
        netWorth := st.2.netWorth + usd
        netWorthToman := st.2.netWorthToman + toman
        unrealizedPnl := st.2.unrealizedPnl + usd
        unrealizedPnlToman := st.2.unrealizedPnlToman + toman })

structure PortfolioSummary where
  totalNetWorth : Decimal
  totalNetWorthToman : Decimal
  totalCostBasis : Decimal
  totalCostBasisToman : Decimal
  totalUnrealizedPnl : Decimal
  totalUnrealizedPnlToman : Decimal
  overallRoiPercentage : Decimal
  assetValuations : List AssetValuation
  deriving DecidableEq, Repr

/-- The Toman cost is settled before the marks. -/
def getPortfolioValuation (p : PortfolioInput) (marks : List PositionMark) : PortfolioSummary :=
  let costToman := p.totals.netWorthToman - p.totals.unrealizedPnlToman
  let (rows, totals) := marks.foldl (addMark p.rate) (p.rows, p.totals)
  { totalNetWorth := totals.netWorth
    totalNetWorthToman := totals.netWorthToman.toFixed 0
    totalCostBasis := totals.costBasis
    totalCostBasisToman := costToman.toFixed 0
    totalUnrealizedPnl := totals.unrealizedPnl
    totalUnrealizedPnlToman := totals.unrealizedPnlToman.toFixed 0
    overallRoiPercentage := calculateRoi totals.netWorth totals.costBasis
    assetValuations := rows.map fun v =>
      if 0 < totals.netWorth then
        { v with sharePercentage :=
            ((v.currentValue.div totals.netWorth).mul (.ofInt 100)).toFixed 2 }
      else v }

/-! ## Whole Toman -/

section Figures
variable (rate : Decimal)

/-- The Toman of the figures are whole. -/
def Figures.Whole (f : Figures) : Prop := f.currentValueToman.Whole ∧ f.unrealizedPnlToman.Whole

theorem pnlToman_whole (cost : Option Decimal) (value pnl : Decimal) :
    (pnlToman cost value pnl rate).Whole := by
  unfold pnlToman
  split <;> exact .toFixed _

theorem elim_whole {α : Type} {o : Option α} {x : Decimal} {f : α → Decimal} (hx : x.Whole)
    (hf : ∀ a, (f a).Whole) : (o.elim x f).Whole := by
  cases o with
  | none => exact hx
  | some a => exact hf a

theorem calculateMarketValuation_whole (input : MarketValuationInput) :
    (calculateMarketValuation input).Whole := ⟨.toFixed _, pnlToman_whole _ _ _ _⟩

theorem valueCoinGeckoAsset_whole (quote : Option Decimal) (input : MarketValuationInput) :
    (valueCoinGeckoAsset quote input).Whole := by
  cases quote with
  | none => exact ⟨.toFixed _, .zero⟩
  | some price => exact calculateMarketValuation_whole _

theorem costFigures_whole (h : Held) : (h.costFigures rate).Whole := ⟨.toFixed _, .zero⟩

theorem vehicleFigures_whole (h : Held) (v : VehicleValue) : (h.vehicleFigures rate v).Whole :=
  ⟨elim_whole (.toFixed _) fun _ => .toFixed _, pnlToman_whole _ _ _ _⟩

theorem genericFigures_whole (h : Held) (g : GenericValue) : (h.genericFigures rate g).Whole := by
  unfold Held.genericFigures
  dsimp only
  split
  · refine ⟨elim_whole (.toFixed _) fun _ => .toFixed _, ?_⟩
    exact elim_whole (pnlToman_whole _ _ _ _) fun _ => .toFixed _
  · exact ⟨.toFixed _, elim_whole .zero fun _ => .toFixed _⟩
  · exact costFigures_whole rate h

theorem Held.figures_whole (h : Held) : (h.figures rate).Whole := by
  have husd : (h.usdFigures rate).Whole := ⟨.toFixed _, pnlToman_whole _ _ _ _⟩
  unfold Held.figures
  dsimp only
  split
  · split
    · exact husd
    · exact valueCoinGeckoAsset_whole _ _
  split
  · exact husd
  split
  · exact ⟨.toFixed _, pnlToman_whole _ _ _ _⟩
  split
  · exact ⟨.toFixed _, pnlToman_whole _ _ _ _⟩
  split
  · exact vehicleFigures_whole rate h _
  split
  · exact genericFigures_whole rate h _
  split
  · exact calculateMarketValuation_whole _
  · exact costFigures_whole rate h

theorem ownedValue_whole {purchase : Option Decimal} (hp : ∀ c ∈ purchase, c.Whole)
    (generic : Option GenericValue) : (ownedValue rate purchase generic).2.Whole := by
  unfold ownedValue
  split
  · exact elim_whole (.toFixed _) fun _ => .toFixed _
  · exact .toFixed _
  · cases purchase with
    | none => exact .zero
    | some c => exact hp c rfl

theorem RealAsset.figures_whole (r : RealAsset) : (r.figures rate).1.Whole := by
  cases r with
  | property p => exact ⟨elim_whole (.toFixed _) fun _ => .toFixed _, pnlToman_whole _ _ _ _⟩
  | vehicle v => exact ⟨elim_whole (.toFixed _) fun _ => .toFixed _, pnlToman_whole _ _ _ _⟩
  | owned purchaseToman generic =>
    refine ⟨ownedValue_whole rate ?_ generic, elim_whole .zero fun _ => .toFixed _⟩
    intro c hc
    obtain ⟨x, -, rfl⟩ := Option.map_eq_some_iff.mp hc
    exact .toFixed _

end Figures

/-! ## The rows before the marks -/

/-- The Toman of a row are whole, and its cost is what its value and its result leave. -/
structure AssetValuation.Sound (v : AssetValuation) : Prop where
  value : v.currentValueToman.Whole
  result : v.unrealizedPnlToman.Whole
  cost : v.costBasisToman = v.currentValueToman - v.unrealizedPnlToman

theorem foldl_push_keeps {P : AssetValuation → Prop} (extras rows : List AssetValuation)
    (h : ∀ v ∈ rows, P v) (he : ∀ v ∈ extras, P v) : ∀ v ∈ extras.foldl push rows, P v := by
  induction extras generalizing rows with
  | nil => exact h
  | cons e extras ih =>
    refine ih _ ?_ fun v hv => he v (by simp [hv])
    unfold push
    split
    · exact h
    · intro v hv
      rcases List.mem_append.mp hv with hv | hv
      · exact h v hv
      · rw [List.mem_singleton.mp hv]
        exact he e (by simp)

theorem foldl_push_nodup (extras rows : List AssetValuation) (h : (rows.map (·.assetId)).Nodup) :
    ((extras.foldl push rows).map (·.assetId)).Nodup := by
  induction extras generalizing rows with
  | nil => exact h
  | cons e extras ih =>
    refine ih _ ?_
    unfold push
    split
    · exact h
    · rename_i hnew
      have hfresh : ∀ r ∈ rows, r.assetId ≠ e.assetId := fun r hr heq => hnew (.inl ⟨r, hr, heq⟩)
      rw [List.map_append, List.map_singleton, List.nodup_append]
      refine ⟨h, by simp, ?_⟩
      intro i hi j hj
      obtain ⟨r, hr, rfl⟩ := List.mem_map.mp hi
      rw [List.mem_singleton.mp hj]
      exact hfresh r hr

theorem PortfolioInput.rows_sound (p : PortfolioInput) : ∀ v ∈ p.rows, v.Sound := by
  have hbefore : ∀ v ∈ (p.registered.map (·.valuation p.rate)).foldl push
      (p.held.map (·.valuation p.rate)),
      v.currentValueToman.Whole ∧ v.unrealizedPnlToman.Whole := by
    refine foldl_push_keeps _ _ ?_ ?_
    · intro v hv
      obtain ⟨h, -, rfl⟩ := List.mem_map.mp hv
      exact h.figures_whole p.rate
    · intro v hv
      obtain ⟨r, -, rfl⟩ := List.mem_map.mp hv
      exact r.asset.figures_whole p.rate
  intro v hv
  obtain ⟨w, hw, rfl⟩ := List.mem_map.mp hv
  obtain ⟨hvalue, hresult⟩ := hbefore w hw
  exact ⟨hvalue, hresult, (hvalue.sub hresult).toFixed_eq⟩

theorem PortfolioInput.rows_nodup (p : PortfolioInput) : (p.rows.map (·.assetId)).Nodup := by
  have h := foldl_push_nodup (p.registered.map (·.valuation p.rate))
    (p.held.map (·.valuation p.rate)) (by rw [List.map_map]; exact p.distinct)
  rwa [PortfolioInput.rows, List.map_map]

theorem foldl_totals (rows : List AssetValuation) (t : Totals) :
    (rows.foldl Totals.add t).netWorthToman =
        t.netWorthToman + (rows.map (·.currentValueToman)).sum ∧
      (rows.foldl Totals.add t).unrealizedPnlToman =
        t.unrealizedPnlToman + (rows.map (·.unrealizedPnlToman)).sum := by
  induction rows generalizing t with
  | nil => simp
  | cons v rows ih =>
    obtain ⟨hvalue, hresult⟩ := ih (t.add v)
    simp only [List.foldl_cons, List.map_cons, List.sum_cons, ← add_assoc]
    exact ⟨hvalue, hresult⟩

theorem PortfolioInput.totals_eq (p : PortfolioInput) :
    p.totals.netWorthToman = (p.rows.map (·.currentValueToman)).sum ∧
      p.totals.unrealizedPnlToman = (p.rows.map (·.unrealizedPnlToman)).sum := by
  have hzero : ({} : Totals).netWorthToman = 0 ∧ ({} : Totals).unrealizedPnlToman = 0 := ⟨rfl, rfl⟩
  obtain ⟨hvalue, hresult⟩ := foldl_totals p.rows {}
  rw [hzero.1, zero_add] at hvalue
  rw [hzero.2, zero_add] at hresult
  exact ⟨hvalue, hresult⟩

theorem PortfolioInput.totals_whole (p : PortfolioInput) :
    p.totals.netWorthToman.Whole ∧ p.totals.unrealizedPnlToman.Whole := by
  obtain ⟨hvalue, hresult⟩ := p.totals_eq
  constructor
  · rw [hvalue]
    exact .sum (List.forall_mem_map.mpr fun v hv => (p.rows_sound v hv).value)
  · rw [hresult]
    exact .sum (List.forall_mem_map.mpr fun v hv => (p.rows_sound v hv).result)

/-! ## What the marks do -/

/-- The Toman a mark is worth on a row; nothing on the row of another coin. -/
def PositionMark.toman (rate : Decimal) (m : PositionMark) (v : AssetValuation) : Decimal :=
  if v.assetId = m.assetId then (m.usd v).mul rate else 0

/-- Add amounts to a figure one by one, each time rounding to whole Toman. -/
def settle (a : Decimal) (ts : List Decimal) : Decimal := ts.foldl (fun a t => (a + t).toFixed 0) a

/-- By how much that moves the figure. -/
def moved (a : Decimal) (ts : List Decimal) : Decimal := settle a ts - a

/-- One row, after a mark and after several. -/
def AssetValuation.marked (rate : Decimal) (v : AssetValuation) (m : PositionMark) :
    AssetValuation :=
  if v.assetId = m.assetId then v.addMark (m.usd v) ((m.usd v).mul rate) else v

section Marked
variable {rate : Decimal} {v : AssetValuation} {m : PositionMark} {rows : List AssetValuation}
  {t : Totals}

@[simp] theorem marked_assetId : (v.marked rate m).assetId = v.assetId := by
  unfold AssetValuation.marked; split <;> rfl
@[simp] theorem marked_marketPrice : (v.marked rate m).marketPrice = v.marketPrice := by
  unfold AssetValuation.marked; split <;> rfl
@[simp] theorem marked_costBasisToman : (v.marked rate m).costBasisToman = v.costBasisToman := by
  unfold AssetValuation.marked; split <;> rfl

@[simp] theorem toman_marked (n : PositionMark) :
    n.toman rate (v.marked rate m) = n.toman rate v := by
  unfold PositionMark.toman PositionMark.usd
  rw [marked_assetId, marked_marketPrice]

theorem marked_value (h : v.currentValueToman.Whole) :
    (v.marked rate m).currentValueToman = (v.currentValueToman + m.toman rate v).toFixed 0 := by
  unfold AssetValuation.marked PositionMark.toman
  split
  · rfl
  · rw [add_zero, h.toFixed_eq]

theorem marked_result (h : v.unrealizedPnlToman.Whole) :
    (v.marked rate m).unrealizedPnlToman = (v.unrealizedPnlToman + m.toman rate v).toFixed 0 := by
  unfold AssetValuation.marked PositionMark.toman
  split
  · rfl
  · rw [add_zero, h.toFixed_eq]

/-- Only the row of the coin can be worth something. -/
theorem sum_toman_of_not_mem (h : m.assetId ∉ rows.map (·.assetId)) :
    (rows.map (m.toman rate)).sum = 0 := by
  refine List.sum_eq_zero fun x hx => ?_
  obtain ⟨w, hw, rfl⟩ := List.mem_map.mp hx
  exact if_neg fun heq => h (List.mem_map.mpr ⟨w, hw, heq⟩)

theorem sum_toman_of_mem (hnd : (rows.map (·.assetId)).Nodup) (hv : v ∈ rows)
    (hm : v.assetId = m.assetId) : (rows.map (m.toman rate)).sum = (m.usd v).mul rate := by
  induction rows with
  | nil => cases hv
  | cons w rows ih =>
    obtain ⟨hw, hnd⟩ := List.nodup_cons.mp hnd
    rw [List.map_cons, List.sum_cons]
    rcases List.mem_cons.mp hv with rfl | hv
    · have hrest : m.assetId ∉ rows.map (·.assetId) := by
        intro hmem
        rw [← hm] at hmem
        exact hw hmem
      rw [sum_toman_of_not_mem hrest, add_zero, PositionMark.toman, if_pos hm]
    · have hne : w.assetId ≠ m.assetId := by
        intro heq
        exact hw (List.mem_map.mpr ⟨v, hv, hm.trans heq.symm⟩)
      rw [ih hnd hv, PositionMark.toman, if_neg hne, zero_add]

theorem addMark_eq (hnd : (rows.map (·.assetId)).Nodup) :
    (addMark rate (rows, t) m).1 = rows.map (·.marked rate m) ∧
      (addMark rate (rows, t) m).2.netWorthToman =
        t.netWorthToman + (rows.map (m.toman rate)).sum ∧
      (addMark rate (rows, t) m).2.unrealizedPnlToman =
        t.unrealizedPnlToman + (rows.map (m.toman rate)).sum := by
  unfold addMark
  dsimp only
  split
  · rename_i hnone
    have hno : ∀ w ∈ rows, w.assetId ≠ m.assetId := by simpa using hnone
    have hsum : (rows.map (m.toman rate)).sum = 0 := by
      refine sum_toman_of_not_mem fun hmem => ?_
      obtain ⟨w, hw, heq⟩ := List.mem_map.mp hmem
      exact hno w hw heq
    refine ⟨?_, by rw [hsum, add_zero], by rw [hsum, add_zero]⟩
    conv_lhs => rw [← List.map_id rows]
    exact List.map_congr_left fun w hw => (if_neg (hno w hw)).symm
  · rename_i v hfound
    have hv : v ∈ rows := List.mem_of_find?_eq_some hfound
    have hid : v.assetId = m.assetId := by simpa using List.find?_some hfound
    rw [sum_toman_of_mem hnd hv hid]
    refine ⟨List.map_congr_left fun w hw => ?_, rfl, rfl⟩
    unfold AssetValuation.marked
    split
    · rename_i hw'
      rw [List.inj_on_of_nodup_map hnd hw hv (hw'.trans hid.symm)]
    · rfl

end Marked

section Marks
variable {rate : Decimal} {marks : List PositionMark}

/-- What the marks are worth on a row, in order. -/
def tomanOn (rate : Decimal) (marks : List PositionMark) (v : AssetValuation) : List Decimal :=
  marks.map fun m => m.toman rate v

/-- What the marks are worth altogether. -/
def tomanOf (rate : Decimal) (marks : List PositionMark) (rows : List AssetValuation) : Decimal :=
  (marks.map fun m => (rows.map (m.toman rate)).sum).sum

theorem tomanOf_eq (rows : List AssetValuation) :
    tomanOf rate marks rows = (rows.map fun v => (tomanOn rate marks v).sum).sum := by
  induction marks with
  | nil => simp [tomanOf, tomanOn]
  | cons m marks ih =>
    simp only [tomanOf, tomanOn, List.map_cons, List.sum_cons, List.sum_map_add] at ih ⊢
    rw [ih]

/-- What the marks leave of rows and totals. -/
theorem foldl_addMark (rows : List AssetValuation) (t : Totals)
    (hnd : (rows.map (·.assetId)).Nodup) :
    (marks.foldl (addMark rate) (rows, t)).1 =
        rows.map (fun v => marks.foldl (·.marked rate ·) v) ∧
      (marks.foldl (addMark rate) (rows, t)).2.netWorthToman =
        t.netWorthToman + tomanOf rate marks rows ∧
      (marks.foldl (addMark rate) (rows, t)).2.unrealizedPnlToman =
        t.unrealizedPnlToman + tomanOf rate marks rows := by
  induction marks generalizing rows t with
  | nil => simp [tomanOf]
  | cons m marks ih =>
    obtain ⟨hrows, hvalue, hresult⟩ := @addMark_eq rate m rows t hnd
    have hsame : (rows.map (·.marked rate m)).map (·.assetId) = rows.map (·.assetId) := by
      rw [List.map_map]
      exact List.map_congr_left fun v _ => marked_assetId
    have htoman : tomanOf rate marks (rows.map (·.marked rate m)) = tomanOf rate marks rows := by
      unfold tomanOf
      refine congrArg List.sum (List.map_congr_left fun n _ => ?_)
      rw [List.map_map]
      exact congrArg List.sum (List.map_congr_left fun v _ => toman_marked n)
    rw [List.foldl_cons, ← Prod.mk.eta (p := addMark rate (rows, t) m), hrows]
    obtain ⟨h₁, h₂, h₃⟩ := ih _ (addMark rate (rows, t) m).2 (hsame ▸ hnd)
    have hcons : tomanOf rate (m :: marks) rows =
        (rows.map (m.toman rate)).sum + tomanOf rate marks rows := by simp [tomanOf]
    refine ⟨by rw [h₁, List.map_map]; rfl, ?_, ?_⟩
    · rw [h₂, hvalue, htoman, hcons, add_assoc]
    · rw [h₃, hresult, htoman, hcons, add_assoc]

theorem foldl_marked (v : AssetValuation) (hvalue : v.currentValueToman.Whole)
    (hresult : v.unrealizedPnlToman.Whole) :
    (marks.foldl (·.marked rate ·) v).costBasisToman = v.costBasisToman ∧
      (marks.foldl (·.marked rate ·) v).currentValueToman =
        settle v.currentValueToman (tomanOn rate marks v) ∧
      (marks.foldl (·.marked rate ·) v).unrealizedPnlToman =
        settle v.unrealizedPnlToman (tomanOn rate marks v) := by
  induction marks generalizing v with
  | nil => exact ⟨rfl, rfl, rfl⟩
  | cons m marks ih =>
    have hv := @marked_value rate v m hvalue
    have hr := @marked_result rate v m hresult
    have htoman : tomanOn rate marks (v.marked rate m) = tomanOn rate marks v :=
      List.map_congr_left fun n _ => toman_marked n
    obtain ⟨h₁, h₂, h₃⟩ := ih (v.marked rate m) (by rw [hv]; exact .toFixed _)
      (by rw [hr]; exact .toFixed _)
    rw [htoman, hv] at h₂
    rw [htoman, hr] at h₃
    exact ⟨h₁.trans marked_costBasisToman, h₂, h₃⟩

end Marks

/-! ## Additive consistency -/

/-- The Toman of the report add up. -/
structure PortfolioSummary.AddsUp (s : PortfolioSummary) : Prop where
  row : ∀ v ∈ s.assetValuations, v.costBasisToman = v.currentValueToman - v.unrealizedPnlToman
  total : s.totalCostBasisToman = s.totalNetWorthToman - s.totalUnrealizedPnlToman
  value : s.totalNetWorthToman = (s.assetValuations.map (·.currentValueToman)).sum
  result : s.totalUnrealizedPnlToman = (s.assetValuations.map (·.unrealizedPnlToman)).sum
  cost : s.totalCostBasisToman = (s.assetValuations.map (·.costBasisToman)).sum

/-- Rounded into the value and into the result of a row the marks move both alike, and
rounded row by row they move the rows as their sum, rounded, moves the totals. -/
structure MarksFit (p : PortfolioInput) (marks : List PositionMark) : Prop where
  row : ∀ v ∈ p.rows, moved v.currentValueToman (tomanOn p.rate marks v) =
    moved v.unrealizedPnlToman (tomanOn p.rate marks v)
  value : (p.rows.map fun v => moved v.currentValueToman (tomanOn p.rate marks v)).sum =
    moved p.totals.netWorthToman [tomanOf p.rate marks p.rows]
  result : (p.rows.map fun v => moved v.unrealizedPnlToman (tomanOn p.rate marks v)).sum =
    moved p.totals.unrealizedPnlToman [tomanOf p.rate marks p.rows]

section Report
variable (p : PortfolioInput) (marks : List PositionMark)

theorem settle_eq (a : Decimal) (ts : List Decimal) : settle a ts = a + moved a ts :=
  (add_sub_cancel a _).symm

/-- The Toman of the report, from the rows before the marks. -/
theorem valuation_toman :
    (getPortfolioValuation p marks).totalNetWorthToman =
        p.totals.netWorthToman + moved p.totals.netWorthToman [tomanOf p.rate marks p.rows] ∧
      (getPortfolioValuation p marks).totalUnrealizedPnlToman =
        p.totals.unrealizedPnlToman +
          moved p.totals.unrealizedPnlToman [tomanOf p.rate marks p.rows] ∧
      (getPortfolioValuation p marks).totalCostBasisToman =
        p.totals.netWorthToman - p.totals.unrealizedPnlToman := by
  obtain ⟨-, hvalue, hresult⟩ := @foldl_addMark p.rate marks p.rows p.totals p.rows_nodup
  obtain ⟨hwholeN, hwholeU⟩ := p.totals_whole
  refine ⟨?_, ?_, (hwholeN.sub hwholeU).toFixed_eq⟩
  · rw [← settle_eq]
    exact congrArg (·.toFixed 0) hvalue
  · rw [← settle_eq]
    exact congrArg (·.toFixed 0) hresult

/-- A Toman figure of the reported rows is that of the marked ones. -/
theorem valuation_rows {f : AssetValuation → Decimal}
    (hf : ∀ v share, f { v with sharePercentage := share } = f v) :
    (getPortfolioValuation p marks).assetValuations.map f =
      p.rows.map fun v => f (marks.foldl (·.marked p.rate ·) v) := by
  obtain ⟨hrows, -, -⟩ := @foldl_addMark p.rate marks p.rows p.totals p.rows_nodup
  unfold getPortfolioValuation
  dsimp only
  rw [hrows, List.map_map, List.map_map]
  refine List.map_congr_left fun v _ => ?_
  simp only [Function.comp_apply]
  split
  · exact hf _ _
  · rfl

/-- The same row by row. -/
theorem valuation_figures {v : AssetValuation} (hv : v ∈ p.rows) :
    (marks.foldl (·.marked p.rate ·) v).costBasisToman =
        v.currentValueToman - v.unrealizedPnlToman ∧
      (marks.foldl (·.marked p.rate ·) v).currentValueToman =
        v.currentValueToman + moved v.currentValueToman (tomanOn p.rate marks v) ∧
      (marks.foldl (·.marked p.rate ·) v).unrealizedPnlToman =
        v.unrealizedPnlToman + moved v.unrealizedPnlToman (tomanOn p.rate marks v) := by
  obtain ⟨hvalue, hresult, hcost⟩ := p.rows_sound v hv
  obtain ⟨h₁, h₂, h₃⟩ := @foldl_marked p.rate marks v hvalue hresult
  exact ⟨h₁.trans hcost, h₂.trans (settle_eq _ _), h₃.trans (settle_eq _ _)⟩

theorem value_adds_iff :
    (getPortfolioValuation p marks).totalNetWorthToman =
        ((getPortfolioValuation p marks).assetValuations.map (·.currentValueToman)).sum ↔
      (p.rows.map fun v => moved v.currentValueToman (tomanOn p.rate marks v)).sum =
        moved p.totals.netWorthToman [tomanOf p.rate marks p.rows] := by
  have hsum : ((getPortfolioValuation p marks).assetValuations.map (·.currentValueToman)).sum =
      p.totals.netWorthToman +
        (p.rows.map fun v => moved v.currentValueToman (tomanOn p.rate marks v)).sum := by
    rw [valuation_rows p marks fun _ _ => rfl, p.totals_eq.1, ← List.sum_map_add]
    exact congrArg List.sum (List.map_congr_left fun v hv => (valuation_figures p marks hv).2.1)
  rw [hsum, (valuation_toman p marks).1, add_right_inj, eq_comm]

theorem result_adds_iff :
    (getPortfolioValuation p marks).totalUnrealizedPnlToman =
        ((getPortfolioValuation p marks).assetValuations.map (·.unrealizedPnlToman)).sum ↔
      (p.rows.map fun v => moved v.unrealizedPnlToman (tomanOn p.rate marks v)).sum =
        moved p.totals.unrealizedPnlToman [tomanOf p.rate marks p.rows] := by
  have hsum : ((getPortfolioValuation p marks).assetValuations.map (·.unrealizedPnlToman)).sum =
      p.totals.unrealizedPnlToman +
        (p.rows.map fun v => moved v.unrealizedPnlToman (tomanOn p.rate marks v)).sum := by
    rw [valuation_rows p marks fun _ _ => rfl, p.totals_eq.2, ← List.sum_map_add]
    exact congrArg List.sum (List.map_congr_left fun v hv => (valuation_figures p marks hv).2.2)
  rw [hsum, (valuation_toman p marks).2.1, add_right_inj, eq_comm]

theorem cost_adds :
    (getPortfolioValuation p marks).totalCostBasisToman =
      ((getPortfolioValuation p marks).assetValuations.map (·.costBasisToman)).sum := by
  have hsum : ((p.rows.map fun v => v.currentValueToman - v.unrealizedPnlToman)).sum =
      p.totals.netWorthToman - p.totals.unrealizedPnlToman := by
    rw [p.totals_eq.1, p.totals_eq.2]
    induction p.rows with
    | nil => rfl
    | cons v rows ih => simp only [List.map_cons, List.sum_cons, ih]; abel
  rw [(valuation_toman p marks).2.2, valuation_rows p marks fun _ _ => rfl, ← hsum]
  exact congrArg List.sum
    (List.map_congr_left fun v hv => (valuation_figures p marks hv).1.symm)

theorem row_adds_iff :
    (∀ v ∈ (getPortfolioValuation p marks).assetValuations,
        v.costBasisToman = v.currentValueToman - v.unrealizedPnlToman) ↔
      ∀ v ∈ p.rows, moved v.currentValueToman (tomanOn p.rate marks v) =
        moved v.unrealizedPnlToman (tomanOn p.rate marks v) := by
  have hrows := valuation_rows p marks
    (f := fun v => v.costBasisToman - (v.currentValueToman - v.unrealizedPnlToman)) fun _ _ => rfl
  have hiff : (∀ a ∈ (getPortfolioValuation p marks).assetValuations.map
        fun v => v.costBasisToman - (v.currentValueToman - v.unrealizedPnlToman), a = 0) ↔
      ∀ v ∈ (getPortfolioValuation p marks).assetValuations,
        v.costBasisToman = v.currentValueToman - v.unrealizedPnlToman := by
    simp only [List.forall_mem_map, sub_eq_zero]
  rw [← hiff, hrows, List.forall_mem_map]
  refine forall₂_congr fun v hv => ?_
  obtain ⟨hcost, hvalue, hresult⟩ := valuation_figures p marks hv
  rw [hcost, hvalue, hresult]
  constructor
  · intro h
    have hzero : moved v.currentValueToman (tomanOn p.rate marks v) -
        moved v.unrealizedPnlToman (tomanOn p.rate marks v) = 0 := by
      rw [← neg_eq_zero, ← h]
      abel
    exact sub_eq_zero.mp hzero
  · intro h
    rw [h]
    abel

/-- Whole Toman move a whole figure by their sum. -/
theorem moved_whole {a : Decimal} {ts : List Decimal} (ha : a.Whole) (h : ∀ t ∈ ts, t.Whole) :
    moved a ts = ts.sum := by
  induction ts generalizing a with
  | nil => exact sub_self a
  | cons t ts ih =>
    have hat : (a + t).Whole := ha.add (h t (by simp))
    have hrest := ih hat fun u hu => h u (by simp [hu])
    unfold moved settle at hrest ⊢
    rw [List.foldl_cons, hat.toFixed_eq, List.sum_cons, ← hrest]
    abel

/-- Marks worth whole Toman fit. -/
theorem marksFit_of_whole (h : ∀ m ∈ marks, ∀ v ∈ p.rows, (m.toman p.rate v).Whole) :
    MarksFit p marks := by
  have hon : ∀ v ∈ p.rows, ∀ t ∈ tomanOn p.rate marks v, t.Whole :=
    fun v hv => List.forall_mem_map.mpr fun m hm => h m hm v hv
  have hof : (tomanOf p.rate marks p.rows).Whole := by
    rw [tomanOf_eq]
    exact .sum (List.forall_mem_map.mpr fun v hv => .sum (hon v hv))
  have hvalue : ∀ v ∈ p.rows, moved v.currentValueToman (tomanOn p.rate marks v) =
      (tomanOn p.rate marks v).sum := fun v hv => moved_whole (p.rows_sound v hv).value (hon v hv)
  have hresult : ∀ v ∈ p.rows, moved v.unrealizedPnlToman (tomanOn p.rate marks v) =
      (tomanOn p.rate marks v).sum := fun v hv => moved_whole (p.rows_sound v hv).result (hon v hv)
  obtain ⟨hwholeN, hwholeU⟩ := p.totals_whole
  refine ⟨fun v hv => (hvalue v hv).trans (hresult v hv).symm, ?_, ?_⟩
  · rw [List.map_congr_left hvalue, moved_whole hwholeN (by simpa using hof), tomanOf_eq,
      List.sum_singleton]
  · rw [List.map_congr_left hresult, moved_whole hwholeU (by simpa using hof), tomanOf_eq,
      List.sum_singleton]

end Report

section Examples

/-- Ten of a coin, bought at a dollar each. -/
def tenOf (assetId : Uuid) (symbol : String) : Held :=
  { assetId, symbol, quantity := .ofInt 10, costBasis := .ofInt 10, historicalCostToman := none
    market := some (some (.ofInt 1)), property := none, vehicle := none, generic := none
    genericPurchaseToman := none, isMarketClass := true, price := none }

def twoCoins : PortfolioInput :=
  { rate := .ofInt 100000, held := [tenOf 1 "USDT", tenOf 2 "USDC"], distinct := by decide
    registered := [] }

example : (getPortfolioValuation twoCoins []).totalNetWorthToman = .ofInt 2000000 := by
  decide

end Examples

end Pwos
