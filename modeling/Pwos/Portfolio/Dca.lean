import Pwos.Portfolio.Holdings

/-!
# Average acquisition cost

`features/portfolio/dca.ts`: the figures of an asset, aggregated from its lots. `dcaSql`
selects every lot of the asset and never asks whether the entry that opened it is still
posted.
-/

namespace Pwos

structure AssetDca where
  assetId : Uuid
  quantityHeld : Decimal
  totalCostUsd : Decimal
  totalCostToman : Decimal
  dcaUnitPriceUsd : Decimal
  dcaUnitPriceToman : Decimal
  quantityBought : Decimal
  totalInvestedUsd : Decimal
  totalInvestedToman : Decimal
  tomanDenominatedQuantity : Decimal
  usdDenominatedQuantity : Decimal
  hasEstimatedFx : Bool
  fallbackFxRate : Decimal
  lotCount : Nat
  deriving DecidableEq, Repr

def ZERO_DCA (assetId : Uuid) (fallbackFxRate : Decimal) : AssetDca :=
  { assetId, quantityHeld := 0, totalCostUsd := 0, totalCostToman := 0, dcaUnitPriceUsd := 0
    dcaUnitPriceToman := 0, quantityBought := 0, totalInvestedUsd := 0, totalInvestedToman := 0
    tomanDenominatedQuantity := 0, usdDenominatedQuantity := 0, hasEstimatedFx := false
    fallbackFxRate, lotCount := 0 }

/-- A lot as the aggregation reads it. -/
structure DcaLotRow where
  qtyOpened : Decimal
  qtyRemaining : Decimal
  unitCostBase : Decimal
  fxRate : Option Decimal
  paySymbol : Option String
  deriving DecidableEq, Repr

/-- The variables of the loop. -/
structure DcaState where
  heldQty : Decimal := 0
  heldUsd : Decimal := 0
  heldToman : Decimal := 0
  boughtQty : Decimal := 0
  boughtUsd : Decimal := 0
  boughtToman : Decimal := 0
  tomanQty : Decimal := 0
  usdQty : Decimal := 0
  estimated : Bool := false

/-- The frozen rate of a lot, if it has one. -/
def DcaLotRow.txRate (row : DcaLotRow) : Option Decimal := row.fxRate.filter (0 < ·)

def DcaState.add (fallback : Decimal) (st : DcaState) (row : DcaLotRow) : DcaState :=
  let usedRate := row.txRate.getD fallback
  let symbol := upper (row.paySymbol.getD "")
  let toman := symbol = "IRT" ∨ symbol = "IRR"
  { heldQty := st.heldQty + row.qtyRemaining
    heldUsd := st.heldUsd + row.qtyRemaining.mul row.unitCostBase
    heldToman := st.heldToman + (row.qtyRemaining.mul row.unitCostBase).mul usedRate
    boughtQty := st.boughtQty + row.qtyOpened
    boughtUsd := st.boughtUsd + row.qtyOpened.mul row.unitCostBase
    boughtToman := st.boughtToman + (row.qtyOpened.mul row.unitCostBase).mul usedRate
    tomanQty := if toman then st.tomanQty + row.qtyOpened else st.tomanQty
    usdQty := if toman then st.usdQty else st.usdQty + row.qtyOpened
    estimated := st.estimated ||
      (row.txRate.isNone && (0 < row.qtyRemaining || 0 < row.qtyOpened)) }

def computeAssetDca (assetId : Uuid) (rows : List DcaLotRow) (fallbackFxRate : Decimal) :
    AssetDca :=
  let fallback := if 0 < fallbackFxRate then fallbackFxRate else .ofInt 1
  let st := rows.foldl (DcaState.add fallback) {}
  { assetId
    quantityHeld := st.heldQty
    totalCostUsd := st.heldUsd
    totalCostToman := st.heldToman.toFixed 0
    dcaUnitPriceUsd := (if 0 < st.heldQty then st.heldUsd.div st.heldQty else 0).toFixed 2
    dcaUnitPriceToman := (if 0 < st.heldQty then st.heldToman.div st.heldQty else 0).toFixed 0
    quantityBought := st.boughtQty
    totalInvestedUsd := st.boughtUsd
    totalInvestedToman := st.boughtToman.toFixed 0
    tomanDenominatedQuantity := st.tomanQty
    usdDenominatedQuantity := st.usdQty
    hasEstimatedFx := st.estimated
    fallbackFxRate := fallback
    lotCount := rows.length }

/-! ## The rows -/

/-- `isOrphanedRwaAssetWithClass` of `features/rwa/orphanFilter.ts`. -/
def Db.isOrphanedRwaAsset (db : Db) (a : Asset) : Prop :=
  a.classCode = "RWA" ∧
    ((a.symbol ≠ "" ∧ a.symbol.toList.all Char.isDigit = true) ∨
      ['R', 'E', '-'].isPrefixOf a.symbol.toList = true) ∧
    (∀ p ∈ db.realEstateProperties, p.assetId ≠ a.id) ∧
    (∀ v ∈ db.vehicleAssets, v.assetId ≠ a.id) ∧ a.id ∉ db.rwaRegistry

instance (db : Db) (a : Asset) : Decidable (db.isOrphanedRwaAsset a) :=
  inferInstanceAs (Decidable (_ ∧ _ ∧ _ ∧ _ ∧ _))

/-- The read model shows the asset. -/
def Db.Listed (db : Db) (assetId : Uuid) : Prop :=
  ∃ a ∈ db.assets, a.id = assetId ∧ a.deleted = false ∧ ¬ db.isOrphanedRwaAsset a

instance (db : Db) (assetId : Uuid) : Decidable (db.Listed assetId) :=
  inferInstanceAs (Decidable (∃ a ∈ db.assets, _))

/-- The unit of the account that paid most for an entry. -/
def Db.paySymbol (db : Db) (entryId : Uuid) : Option String :=
  let paid := (db.postingsOf entryId).filter fun p => p.baseValue < 0 ∧
    ((db.findAccount p.accountId).any fun a => a.type = .asset)
  let largest := (paid.insertionSort fun p q => p.baseValue ≤ q.baseValue).head?
  ((largest.bind fun p => (db.findAccount p.accountId).bind (·.assetId)).bind db.findAsset).map
    (·.symbol)

def Db.dcaRow (db : Db) (l : Lot) : DcaLotRow :=
  { qtyOpened := l.qtyOpened, qtyRemaining := l.qtyRemaining, unitCostBase := l.unitCostBase
    fxRate := (db.entryFxSnapshots.find? (·.entryId = l.openEntryId)).map (·.fxRate)
    paySymbol := db.paySymbol l.openEntryId }

/-- The lots with their assets. No `assetIds` means every asset. -/
def dcaSql (assetIds : List Uuid) (userId : Option Uuid) (db : Db) : List (Uuid × DcaLotRow) :=
  (db.lots.filter fun l => db.Listed l.assetId ∧ l.OwnedBy userId ∧
    (assetIds = [] ∨ l.assetId ∈ assetIds)).map fun l => (l.assetId, db.dcaRow l)

def group (rows : List (Uuid × DcaLotRow)) (assetId : Uuid) : List DcaLotRow :=
  (rows.filter (·.1 = assetId)).map (·.2)

/-- The figures of each asset asked for. -/
def loadDcaForAssets (assetIds : List Uuid) (userId : Option Uuid) (fallbackFxRate : Decimal)
    (db : Db) (assetId : Uuid) : Option AssetDca :=
  if assetId ∈ assetIds then
    match group (dcaSql assetIds userId db) assetId with
    | [] => some (ZERO_DCA assetId fallbackFxRate)
    | rows => some (computeAssetDca assetId rows fallbackFxRate)
  else none

/-! ## The figures as sums over the lots -/

theorem foldl_add (fallback : Decimal) (rows : List DcaLotRow) (st : DcaState) :
    (rows.foldl (DcaState.add fallback) st).boughtQty = st.boughtQty + (rows.map (·.qtyOpened)).sum ∧
      (rows.foldl (DcaState.add fallback) st).heldQty =
        st.heldQty + (rows.map (·.qtyRemaining)).sum := by
  induction rows generalizing st with
  | nil => simp
  | cons row rows ih =>
    obtain ⟨hb, hh⟩ := ih (st.add fallback row)
    rw [List.foldl_cons, hb, hh]
    simp [DcaState.add, add_assoc]

section Figures
variable {db : Db} {userId : Option Uuid} {assetId : Uuid} {fallback : Decimal} {dca : AssetDca}

theorem group_dcaSql (h : db.Listed assetId) :
    group (dcaSql [assetId] userId db) assetId = (db.lotsOf userId assetId).map db.dcaRow := by
  rw [group, dcaSql, List.filter_map, List.map_map, List.filter_filter, Db.lotsOf]
  congr 1
  apply List.filter_congr
  intro l _
  by_cases hl : l.assetId = assetId
  · simp [hl, h, Lot.Of]
  · simp [hl, Lot.Of]

theorem loadDca_bought (h : db.Listed assetId)
    (hd : loadDcaForAssets [assetId] userId fallback db assetId = some dca) :
    dca.quantityBought = ((db.lotsOf userId assetId).map (·.qtyOpened)).sum ∧
      dca.quantityHeld = ((db.lotsOf userId assetId).map (·.qtyRemaining)).sum := by
  rw [loadDcaForAssets, if_pos (by simp), group_dcaSql h] at hd
  cases hlots : db.lotsOf userId assetId with
  | nil =>
    rw [hlots] at hd
    cases hd
    exact ⟨rfl, rfl⟩
  | cons l ls =>
    rw [hlots] at hd
    cases hd
    obtain ⟨hb, hh⟩ := foldl_add (if 0 < fallback then fallback else .ofInt 1)
      ((l :: ls).map db.dcaRow) {}
    refine ⟨hb.trans ?_, hh.trans ?_⟩ <;>
    · rw [List.map_map, zero_add]
      rfl

end Figures

/-- What was sold from the lots. -/
def Db.qtySold (db : Db) (userId : Option Uuid) (assetId : Uuid) : Decimal :=
  ((db.lotsOf userId assetId).map fun l => db.consumed l.id).sum

/-- What a lot counts as bought that is neither sold nor held. -/
def Db.unaccounted (db : Db) (l : Lot) : Decimal := l.qtyOpened - db.consumed l.id - l.qtyRemaining

theorem unaccounted_live {db : Db} (hb : LotBook db) {l : Lot} (hl : l ∈ db.lots)
    (hp : db.Posted l.openEntryId) : db.unaccounted l = 0 := by
  rw [Db.unaccounted, hb.live l hl hp]
  abel

theorem unaccounted_void {db : Db} (hb : LotBook db) {l : Lot} (hl : l ∈ db.lots)
    (hp : ¬ db.Posted l.openEntryId) : 0 < db.unaccounted l := by
  obtain ⟨hrem, hnone⟩ := hb.void l hl hp
  rw [Db.unaccounted, hrem, consumed_eq_taken, taken_eq_zero hnone, sub_zero, sub_zero]
  exact hb.opened l hl

/-- What was bought and not sold is held, unless a lot of a void entry is counted in. -/
theorem bought_sub_sold_iff {db : Db} (hb : LotBook db) (userId : Option Uuid) (assetId : Uuid) :
    ((db.lotsOf userId assetId).map (·.qtyOpened)).sum - db.qtySold userId assetId =
        ((db.lotsOf userId assetId).map (·.qtyRemaining)).sum ↔
      ¬ db.HasVoidLot (Lot.Of userId assetId) := by
  have hmem : ∀ l ∈ db.lotsOf userId assetId, l ∈ db.lots ∧ l.Of userId assetId := fun l hl => by
    simpa [Db.lotsOf] using hl
  have hnonneg : ∀ l ∈ db.lotsOf userId assetId, 0 ≤ db.unaccounted l := by
    intro l hl
    by_cases hp : db.Posted l.openEntryId
    · exact (unaccounted_live hb (hmem l hl).1 hp).ge
    · exact (unaccounted_void hb (hmem l hl).1 hp).le
  rw [← sub_eq_zero, Db.qtySold, ← sum_map_sub, ← sum_map_sub]
  change ((db.lotsOf userId assetId).map db.unaccounted).sum = 0 ↔ _
  rw [sum_eq_zero_iff_of_nonneg hnonneg]
  constructor
  · rintro h ⟨l, hl, hof, hv⟩
    have hin : l ∈ db.lotsOf userId assetId := by simpa [Db.lotsOf] using ⟨hl, hof⟩
    exact (unaccounted_void hb hl hv).ne' (h l hin)
  · intro h l hl
    by_contra hne
    refine h ⟨l, (hmem l hl).1, (hmem l hl).2, fun hp => hne ?_⟩
    exact unaccounted_live hb (hmem l hl).1 hp

/-! ## Runs with reversed purchases -/

section Runs
variable (userId : Option Uuid) (assetId : Uuid)

/-- The entry the call is to reverse. -/
def Call.target (c : Call) : Option Uuid :=
  match c.cmd with
  | .reverse entryId => some entryId
  | _ => none

/-- The call voids a purchase of the asset. -/
def Call.VoidsPurchase (c : Call) (db : Db) : Prop :=
  ∃ i ∈ c.target, Reverses (Lot.Of userId assetId) c.env i db

instance (c : Call) (db : Db) : Decidable (c.VoidsPurchase userId assetId db) :=
  inferInstanceAs (Decidable (∃ i ∈ c.target, _))

/-- Some call of the run voids the purchase that the entry recorded. -/
def VoidedLater (entryId : Uuid) : List Call → Db → Prop
  | [], _ => False
  | c :: calls, db =>
    (c.target = some entryId ∧ c.VoidsPurchase userId assetId db) ∨
      VoidedLater entryId calls (c.exec db)

instance VoidedLater.decidable (entryId : Uuid) :
    (calls : List Call) → (db : Db) → Decidable (VoidedLater userId assetId entryId calls db)
  | [], _ => isFalse id
  | c :: calls, db =>
    have := VoidedLater.decidable entryId calls (c.exec db)
    inferInstanceAs (Decidable (_ ∨ _))

/-- The run without the purchases that are reversed and without their reversals. -/
def liveCalls : List Call → Db → List Call
  | [], _ => []
  | c :: calls, db =>
    if c.VoidsPurchase userId assetId db ∨
        (c.Records db ∧ VoidedLater userId assetId c.env.entryId calls (c.exec db)) then
      liveCalls calls (c.exec db)
    else c :: liveCalls calls (c.exec db)

/-- After the run, the figures are those of the live purchases alone, and what was bought
and not sold is held. -/
structure CountsLivePurchases (fallbackFxRate : Decimal) (calls : List Call) (db : Db) : Prop where
  figures : loadDcaForAssets [assetId] userId fallbackFxRate (runCalls calls db) assetId =
    loadDcaForAssets [assetId] userId fallbackFxRate
      (runCalls (liveCalls userId assetId calls db) db) assetId
  conserved : ∀ dca ∈ loadDcaForAssets [assetId] userId fallbackFxRate (runCalls calls db) assetId,
    dca.quantityBought - (runCalls calls db).qtySold userId assetId = dca.quantityHeld

variable {userId assetId}

theorem not_voidedLater {calls : List Call} {db : Db}
    (h : EveryCall Call.exec (fun c s => ¬ c.VoidsPurchase userId assetId s) calls db)
    (entryId : Uuid) : ¬ VoidedLater userId assetId entryId calls db := by
  induction calls generalizing db with
  | nil => exact id
  | cons c calls ih =>
    rintro (⟨-, hv⟩ | hv)
    · exact h.1 hv
    · exact ih h.2 hv

theorem liveCalls_eq_self {calls : List Call} {db : Db}
    (h : EveryCall Call.exec (fun c s => ¬ c.VoidsPurchase userId assetId s) calls db) :
    liveCalls userId assetId calls db = calls := by
  induction calls generalizing db with
  | nil => rfl
  | cons c calls ih =>
    rw [liveCalls, if_neg, ih h.2]
    rintro (hv | ⟨-, hv⟩)
    · exact h.1 hv
    · exact not_voidedLater h.2 _ hv

theorem hasVoidLot_outcome {env : Env} {db db' : Db} {cmd : Command} {r : PostResult}
    {sel : Lot → Prop} (hsel : ∀ l qty, sel (l.setRemaining qty) ↔ sel l) (hi : LedgerInv db)
    (h : cmd.Outcome env db r db') (hcmd : ∀ i, cmd ≠ .reverse i) :
    db'.HasVoidLot sel ↔ db.HasVoidLot sel := by
  cases h with
  | replayed id accounts => exact Iff.rfl
  | posted accounts _ hp =>
    have hi' := hi.step (.provision accounts)
    rw [hp.written.result]
    exact hasVoidLot_recorded hsel hi'.toWellFormed (hp.recordable hi'.lotIds)
  | @reversed e he => exact absurd rfl (hcmd e.id)

/-- What a call does to the lots of the asset. -/
theorem hasVoidLot_call (c : Call) (db : Db) (hi : LedgerInv db) :
    (c.exec db).HasVoidLot (Lot.Of userId assetId) ↔
      db.HasVoidLot (Lot.Of userId assetId) ∨ c.VoidsPurchase userId assetId db := by
  have hsel : ∀ l qty, Lot.Of userId assetId (l.setRemaining qty) ↔ Lot.Of userId assetId l :=
    fun _ _ => Iff.rfl
  by_cases hcmd : ∃ i, c.cmd = .reverse i
  · obtain ⟨i, hi'⟩ := hcmd
    have hexec : c.exec db = (reverseEntry c.env i).exec db := by
      rw [Call.exec, Call.program, hi', Command.program]
    have hvoids : c.VoidsPurchase userId assetId db ↔ Reverses (Lot.Of userId assetId) c.env i db := by
      simp [Call.VoidsPurchase, Call.target, hi']
    rw [hexec, hvoids]
    exact hasVoidLot_reverseEntry hsel hi c.env i
  · have hnone : ¬ c.VoidsPurchase userId assetId db := by
      rintro ⟨i, ht, -⟩
      cases hc : c.cmd <;> simp [Call.target, hc] at ht
      exact hcmd ⟨_, hc⟩
    rw [or_iff_left hnone]
    rcases c.exec_outcome hi.lotIds with ⟨-, h⟩ | ⟨r, -, h⟩
    · rw [h]
    · exact hasVoidLot_outcome hsel hi h fun i hi' => hcmd ⟨i, hi'⟩

/-- Commands do not touch the asset and its registry. -/
theorem listed_outcome {env : Env} {db db' : Db} {cmd : Command} {r : PostResult}
    (h : cmd.Outcome env db r db') : db'.Listed assetId ↔ db.Listed assetId := by
  cases h with
  | replayed id accounts => exact Iff.rfl
  | posted accounts _ hp => rw [hp.written.result]; exact Iff.rfl
  | reversed he => exact Iff.rfl

/-- The figures count live purchases only, exactly if no accepted reversal of the run
voided a purchase of the asset. -/
theorem runCalls_countsLivePurchases {db : Db} (h : db.EmptyLedger) (hlisted : db.Listed assetId)
    (fallbackFxRate : Decimal) (calls : List Call) :
    CountsLivePurchases userId assetId fallbackFxRate calls db ↔
      EveryCall Call.exec (fun c s => ¬ c.VoidsPurchase userId assetId s) calls db := by
  obtain ⟨hi, hlisted'⟩ := runCalls_keeps (I := fun s => s.Listed assetId)
    (fun _ _ _ _ _ _ hl ho => (listed_outcome ho).mpr hl) calls h.inv hlisted
  have hstart : ¬ db.HasVoidLot (Lot.Of userId assetId) := by
    rintro ⟨l, hl, -⟩
    simp [h.lots] at hl
  have hmark : ¬ (runCalls calls db).HasVoidLot (Lot.Of userId assetId) ↔
      EveryCall Call.exec (fun c s => ¬ c.VoidsPurchase userId assetId s) calls db := by
    rw [runCalls, runAll_marked (fun c _ => c.exec_inv) hasVoidLot_call calls h.inv,
      or_iff_right hstart, not_not]
  have hloads : ∃ dca, loadDcaForAssets [assetId] userId fallbackFxRate (runCalls calls db)
      assetId = some dca := by
    unfold loadDcaForAssets
    rw [if_pos (by simp)]
    split <;> exact ⟨_, rfl⟩
  obtain ⟨dca, hdca⟩ := hloads
  obtain ⟨hbought, hheld⟩ := loadDca_bought hlisted' hdca
  rw [← hmark, ← bought_sub_sold_iff hi.toLotBook, ← hbought, ← hheld]
  constructor
  · exact fun hlive => hlive.conserved dca hdca
  · intro hsum
    refine ⟨?_, fun d hd => ?_⟩
    · rw [hbought, hheld, bought_sub_sold_iff hi.toLotBook, hmark] at hsum
      rw [liveCalls_eq_self hsum]
    · cases hdca.symm.trans hd
      exact hsum

end Runs

theorem demo_countsLivePurchases :
    CountsLivePurchases (some 1) 3 (.ofInt 50000) [⟨{ entryId := 1 }, .buy (demoTrade 2 100)⟩]
        demo ↔
      EveryCall Call.exec (fun c s => ¬ c.VoidsPurchase (some 1) 3 s)
        [⟨{ entryId := 1 }, .buy (demoTrade 2 100)⟩] demo :=
  runCalls_countsLivePurchases demo_empty (by decide) _ _

/-- Buy two coins and reverse the purchase: two coins count as bought. -/
theorem dca_counts_reversed_buy :
    ¬ CountsLivePurchases (some 1) 3 (.ofInt 50000)
      [⟨{ entryId := 1 }, .buy (demoTrade 2 100)⟩, ⟨{ entryId := 2 }, .reverse 1⟩] demo := by
  intro h
  have hbought : ((loadDcaForAssets [3] (some 1) (.ofInt 50000) (runCalls
      [⟨{ entryId := 1 }, .buy (demoTrade 2 100)⟩, ⟨{ entryId := 2 }, .reverse 1⟩] demo) 3).map
        (·.quantityBought)) = some (.ofInt 2) := by decide
  have hlive : ((loadDcaForAssets [3] (some 1) (.ofInt 50000) (runCalls (liveCalls (some 1) 3
      [⟨{ entryId := 1 }, .buy (demoTrade 2 100)⟩, ⟨{ entryId := 2 }, .reverse 1⟩] demo) demo) 3).map
        (·.quantityBought)) = some 0 := by decide
  rw [h.figures, hlive] at hbought
  exact absurd hbought (by decide)

end Pwos
