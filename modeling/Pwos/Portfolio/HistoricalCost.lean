import Pwos.Portfolio.Dca
import Pwos.Domain.Rounding

/-!
# The Toman that was paid

`historicalTomanCostByAsset` of `features/portfolio/service.ts` beside `loadDcaForAssets`:
two queries price the open lots of an asset in Toman. The first adds exact products in the
database, at the rate on the lot before the one of its entry; the second multiplies and
truncates, at the rate of the entry alone, and rounds to whole Toman.
-/

namespace Pwos

/-- The rate frozen with an entry. -/
def Db.snapshotRate (db : Db) (entryId : Uuid) : Option Decimal :=
  (db.entryFxSnapshots.find? (·.entryId = entryId)).map (·.fxRate)

/-- `qty_remaining * unit_cost_base * coalesce(purchase_fx_rate, fx_rate)`. -/
def Lot.costToman (l : Lot) (fxRate : Decimal) : ℚ :=
  l.qtyRemaining.toRat * l.unitCostBase.toRat * (l.purchaseFxRate.getD fxRate).toRat

/-- The open lots of an asset, joined with the rates of their entries. -/
def Db.historicalCosts (db : Db) (userId : Option Uuid) (assetId : Uuid) : List ℚ :=
  ((db.lotsOf userId assetId).filter fun l => 0 < l.qtyRemaining).filterMap fun l =>
    (db.snapshotRate l.openEntryId).map l.costToman

/-- The entry of an asset in the map: none without a joined row. -/
def historicalTomanCostByAsset (userId : Option Uuid) (db : Db) (assetId : Uuid) : Option ℚ :=
  if db.Listed assetId ∧ db.historicalCosts userId assetId ≠ [] then
    some (db.historicalCosts userId assetId).sum
  else none

/-! ## The two agree up to rounding -/

/-- The entry of the lot froze a rate, and the lot has no other. -/
def Lot.FrozenAt (db : Db) (l : Lot) (rate : Decimal) : Prop :=
  db.snapshotRate l.openEntryId = some rate ∧ 0 < rate ∧ ∀ own ∈ l.purchaseFxRate, own = rate

section Rows
variable {db : Db} {userId : Option Uuid} {assetId : Uuid} {fallback : Decimal}

theorem foldl_heldToman (rows : List DcaLotRow) (st : DcaState) :
    (rows.foldl (DcaState.add fallback) st).heldToman = st.heldToman +
      (rows.map fun row => (row.qtyRemaining.mul row.unitCostBase).mul
        (row.txRate.getD fallback)).sum := by
  induction rows generalizing st with
  | nil => simp
  | cons row rows ih =>
    rw [List.foldl_cons, ih, List.map_cons, List.sum_cons, ← add_assoc]
    rfl

/-- What the report makes of a lot. -/
def Lot.dcaToman (db : Db) (fallback : Decimal) (l : Lot) : Decimal :=
  (l.qtyRemaining.mul l.unitCostBase).mul ((db.dcaRow l).txRate.getD fallback)

theorem loadDca_toman (h : db.Listed assetId) :
    ∃ dca, loadDcaForAssets [assetId] userId fallback db assetId = some dca ∧
      dca.totalCostToman = (((db.lotsOf userId assetId).map
        (Lot.dcaToman db (if 0 < fallback then fallback else .ofInt 1))).sum).toFixed 0 := by
  rw [loadDcaForAssets, if_pos (by simp), group_dcaSql h]
  cases hlots : db.lotsOf userId assetId with
  | nil => exact ⟨_, rfl, rfl⟩
  | cons l ls =>
    refine ⟨_, rfl, ?_⟩
    have hfold := @foldl_heldToman (if 0 < fallback then fallback else .ofInt 1)
      ((l :: ls).map db.dcaRow) {}
    rw [List.map_map, show ({} : DcaState).heldToman = 0 from rfl, zero_add] at hfold
    exact congrArg (·.toFixed 0) hfold

/-- The exact cost of an open lot, nothing for a lot that is used up. -/
def Lot.exactToman (db : Db) (l : Lot) : ℚ :=
  if 0 < l.qtyRemaining then (db.snapshotRate l.openEntryId).elim 0 l.costToman else 0

theorem sum_historicalCosts :
    (db.historicalCosts userId assetId).sum =
      ((db.lotsOf userId assetId).map (Lot.exactToman db)).sum := by
  unfold Db.historicalCosts
  induction db.lotsOf userId assetId with
  | nil => rfl
  | cons l ls ih =>
    rw [List.map_cons, List.sum_cons, ← ih, Lot.exactToman]
    by_cases hopen : 0 < l.qtyRemaining
    · rw [List.filter_cons_of_pos (by simpa using hopen), if_pos hopen]
      cases hs : db.snapshotRate l.openEntryId <;> simp [hs]
    · rw [List.filter_cons_of_neg (by simpa using hopen), if_neg hopen, zero_add]

/-- How far the report may be off on a lot. -/
def Lot.tomanError (db : Db) (l : Lot) : ℚ :=
  if 0 < l.qtyRemaining then
    (db.snapshotRate l.openEntryId).elim 0 fun rate => (rate.toRat + 1) * Decimal.ulp
  else 0

theorem dcaToman_near {l : Lot} (h0 : 0 ≤ l.qtyRemaining)
    (h : 0 < l.qtyRemaining → ∃ rate, l.FrozenAt db rate) :
    |(l.dcaToman db fallback).toRat - l.exactToman db| ≤ l.tomanError db := by
  unfold Lot.exactToman Lot.tomanError
  split
  · rename_i hopen
    obtain ⟨rate, hsnap, hpos, hown⟩ := h hopen
    have hrate : (db.dcaRow l).txRate.getD fallback = rate := by
      have hfx : (db.dcaRow l).fxRate = some rate := hsnap
      rw [DcaLotRow.txRate, hfx, Option.filter_some, if_pos (by simpa using hpos)]
      rfl
    have hlot : l.purchaseFxRate.getD rate = rate := by
      cases hp : l.purchaseFxRate with
      | none => rfl
      | some own => exact hown own hp
    rw [hsnap, Lot.dcaToman, hrate]
    simp only [Option.elim_some, Lot.costToman, hlot]
    exact Decimal.abs_mul_mul_sub_le _ _ hpos.le
  · rename_i hclosed
    have hzero : l.qtyRemaining = 0 := le_antisymm (not_lt.mp hclosed) h0
    have hnothing : ∀ b : Decimal, (0 : Decimal).mul b = 0 := fun b => by ext; simp
    rw [Lot.dcaToman, hzero, hnothing, hnothing]
    simp

/-- The two Toman costs of the open position differ by half a Toman at most, and by what the
products were truncated. -/
theorem historical_cost_near_dca (h : db.Listed assetId)
    (hlots : ∀ l ∈ db.lotsOf userId assetId, 0 ≤ l.qtyRemaining ∧
      (0 < l.qtyRemaining → ∃ rate, l.FrozenAt db rate)) :
    ∃ dca, loadDcaForAssets [assetId] userId fallback db assetId = some dca ∧
      |dca.totalCostToman.toRat - (historicalTomanCostByAsset userId db assetId).getD 0| ≤
        1 / 2 + ((db.lotsOf userId assetId).map (Lot.tomanError db)).sum := by
  obtain ⟨dca, hdca, htotal⟩ := @loadDca_toman db userId assetId fallback h
  refine ⟨dca, hdca, ?_⟩
  have hcost : (historicalTomanCostByAsset userId db assetId).getD 0 =
      ((db.lotsOf userId assetId).map (Lot.exactToman db)).sum := by
    rw [← sum_historicalCosts, historicalTomanCostByAsset]
    by_cases hrows : db.historicalCosts userId assetId = []
    · simp [hrows]
    · simp [h, hrows]
  have hround := Decimal.abs_toFixed_sub_le ((db.lotsOf userId assetId).map
    (Lot.dcaToman db (if 0 < fallback then fallback else .ofInt 1))).sum
  have hprods := Decimal.abs_sum_sub_le (l := db.lotsOf userId assetId)
    fun l hl => @dcaToman_near db (if 0 < fallback then fallback else .ofInt 1) l (hlots l hl).1
      (hlots l hl).2
  rw [hcost, htotal]
  rw [Decimal.toRat_sum, List.map_map] at hround
  refine (abs_sub_le _ _ _).trans (add_le_add hround hprods)

end Rows

section Examples

/-- A coin at a hundred dollars, opened by the entry 1. -/
def coinLot (unitCostBase : Decimal) (purchaseFxRate : Option Decimal) : Lot :=
  { id := 1, userId := some 1, accountId := 12, assetId := 3, openEntryId := 1, openedAt := 1
    qtyOpened := .ofInt 1, qtyRemaining := .ofInt 1, unitCostBase, purchaseFxRate }

/-- The lot, its entry recorded at 100000 Toman. -/
def heldCoin (unitCostBase : Decimal) (purchaseFxRate : Option Decimal) : Db :=
  { demo with lots := [coinLot unitCostBase purchaseFxRate]
              entryFxSnapshots := [{ entryId := 1, fxRate := .ofInt 100000 }] }

/-- The two Toman costs of the coin are the same. -/
def CostsAgree (db : Db) : Prop :=
  (loadDcaForAssets [3] (some 1) (.ofInt 100000) db 3).map (·.totalCostToman.toRat) =
    historicalTomanCostByAsset (some 1) db 3

instance (db : Db) : Decidable (CostsAgree db) := inferInstanceAs (Decidable (_ = _))

/-- They are not for a coin bought at 50000 before it was entered, for one that was but whose
entry froze no rate, and for one of one and a half Toman. -/
theorem costs_differ :
    ¬ CostsAgree (heldCoin (.ofInt 100) (some (.ofInt 50000))) ∧
      ¬ CostsAgree { heldCoin (.ofInt 100) (some (.ofInt 50000)) with entryFxSnapshots := [] } ∧
      ¬ CostsAgree (heldCoin ⟨15 * 10 ^ 12⟩ none) := by
  decide +kernel

theorem coin_cost_near :
    ∃ dca, loadDcaForAssets [3] (some 1) (.ofInt 100000) (heldCoin (.ofInt 100) none) 3 = some dca ∧
      |dca.totalCostToman.toRat -
          (historicalTomanCostByAsset (some 1) (heldCoin (.ofInt 100) none) 3).getD 0| ≤
        1 / 2 + (((heldCoin (.ofInt 100) none).lotsOf (some 1) 3).map
          (Lot.tomanError (heldCoin (.ofInt 100) none))).sum := by
  refine historical_cost_near_dca (by decide) fun l hl => ?_
  have hl' : l = coinLot (.ofInt 100) none := List.mem_singleton.mp (List.mem_of_mem_filter hl)
  subst hl'
  exact ⟨by decide, fun _ => ⟨.ofInt 100000, by decide, by decide, by simp [coinLot]⟩⟩

end Examples

end Pwos
