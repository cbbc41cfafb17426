import Pwos.Db.Schema
import Pwos.Portfolio.Report

/-!
# Stored valuations

`takeSnapshotAction` of `app/actions.ts` and `createPortfolioSnapshot` of
`features/portfolio/service.ts`, for an identified user. Both store the valuation of a day: the
first with three statements that commit one by one, the second in a transaction that sets the
lines of the assets it values and leaves the others. A valuation has each asset once, and its rows
add up to its total (`Valued.sound`).
-/

namespace Pwos

/-- What the queries of a valuation found. Holdings of next to nothing are left out. -/
structure Valued where
  input : PortfolioInput
  marks : List PositionMark
  active : ∀ h ∈ input.held, DUST < h.quantity.abs

def Valued.summary (v : Valued) : PortfolioSummary := getPortfolioValuation v.input v.marks

structure NetWorth where
  totalAssets : Decimal
  totalLiabilities : Decimal
  netWorth : Decimal
  valuation : PortfolioSummary

/-- The liabilities are the base values of the ledger accounts of that type. -/
def getCurrentNetWorth (v : Valued) (liabilities : List Decimal) : NetWorth :=
  let totalLiabilities := (liabilities.map (-·)).sum
  { totalAssets := v.summary.totalNetWorth, totalLiabilities
    netWorth := v.summary.totalNetWorth - totalLiabilities, valuation := v.summary }

/-! ## One statement after the other -/

structure TakeSnapshot where
  env : Env
  userId : Uuid
  valued : Valued
  liabilities : List Decimal

def Snapshot.IsOf (userId : Uuid) (asOf : IsoDate) (s : Snapshot) : Prop :=
  s.userId = some userId ∧ s.asOf = asOf

instance (userId : Uuid) (asOf : IsoDate) : DecidablePred (Snapshot.IsOf userId asOf) :=
  fun _ => inferInstanceAs (Decidable (_ ∧ _))

def Snapshot.set (s : Snapshot) (nw : NetWorth) : Snapshot :=
  { s with
    totalAssets := nw.totalAssets.toFixed 6
    totalLiabilities := nw.totalLiabilities.toFixed 6
    netWorth := nw.netWorth.toFixed 6 }

def Db.daySnapshot (db : Db) (userId : Uuid) (asOf : IsoDate) : Option Snapshot :=
  db.snapshots.find? fun s => s.IsOf userId asOf

def AssetValuation.line (snapshotId : Uuid) (v : AssetValuation) : SnapshotLine :=
  { snapshotId, assetId := v.assetId, quantity := v.quantity, priceBase := v.marketPrice
    valueBase := v.currentValue }

namespace TakeSnapshot
variable (k : TakeSnapshot)

def netWorth : NetWorth := getCurrentNetWorth k.valued k.liabilities

/-- The row of a day without one. -/
def row : Snapshot :=
  { id := k.env.snapshotId, userId := some k.userId, asOf := k.env.today
    totalAssets := k.netWorth.totalAssets.toFixed 6
    totalLiabilities := k.netWorth.totalLiabilities.toFixed 6
    netWorth := k.netWorth.netWorth.toFixed 6 }

/-- `insert … on conflict do update`. -/
def upsert (db : Db) : List Write :=
  match db.daySnapshot k.userId k.env.today with
  | some s => [.setSnapshot (s.set k.netWorth)]
  | none =>
    if ∃ s ∈ db.snapshots, s.id = k.env.snapshotId then [] else [.insertSnapshot k.row]

/-- The row it returns; a new id that is taken is refused. -/
def upsertedId (db : Db) : Option Uuid :=
  match db.daySnapshot k.userId k.env.today with
  | some s => some s.id
  | none =>
    if ∃ s ∈ db.snapshots, s.id = k.env.snapshotId then none else some k.env.snapshotId

def lines : List AssetValuation :=
  k.netWorth.valuation.assetValuations.filter (·.quantity ≠ 0)

def insertLines (snapshotId : Uuid) : Sql Unit :=
  Tx.when (k.lines ≠ []) (Tx.write (fun _ => []) fun _ =>
    [.insertSnapshotLines (k.lines.map (·.line snapshotId))])

def replaceLines (snapshotId : Uuid) : Sql Unit := do
  Tx.write (fun _ => []) fun _ => [.deleteSnapshotLines snapshotId]
  k.insertLines snapshotId

end TakeSnapshot

def takeSnapshotAction (k : TakeSnapshot) : Sql Unit :=
  .stmt (fun _ => [.snapshotDay (some k.userId) k.env.today]) (fun _ _ => True) k.upsert fun db =>
    match k.upsertedId db with
    | some snapshotId => k.replaceLines snapshotId
    | none => .fail (.constraintViolation "snapshots")

/-! ## In one transaction -/

structure CreateSnapshot where
  env : Env
  userId : Uuid
  snapshotDate : IsoDate
  valued : Valued

namespace CreateSnapshot
variable (k : CreateSnapshot)

def row : PortfolioSnapshot :=
  { id := k.env.snapshotId, userId := some k.userId, snapshotDate := k.snapshotDate
    totalPortfolioValue := k.valued.summary.totalNetWorth }

def valuation (v : AssetValuation) : PortfolioValuation :=
  { userId := some k.userId, assetId := v.assetId, quantity := v.quantity
    marketPrice := v.marketPrice, totalValue := v.currentValue, valuationDate := k.snapshotDate }

def valuations : List PortfolioValuation := k.valued.summary.assetValuations.map k.valuation

end CreateSnapshot

def createPortfolioSnapshot (k : CreateSnapshot) : Sql Uuid := do
  let snapshotId ← .stmt (fun _ => [.portfolioDay (some k.userId) k.snapshotDate])
    (fun _ _ => True) (fun _ => [.upsertPortfolioSnapshot k.row]) fun db =>
      .done ((db.portfolioSnapshots.find? (·.Conflicts k.row)).elim k.env.snapshotId (·.id))
  Tx.each k.valuations fun l => Tx.write (fun _ => []) fun _ => [.upsertPortfolioValuation l]
  pure snapshotId

/-! ## A valuation adds up -/

/-- Each asset has one row, with something of it, and the rows add up to the total. -/
structure PortfolioSummary.Sound (s : PortfolioSummary) : Prop where
  distinct : (s.assetValuations.map (·.assetId)).Nodup
  held : ∀ v ∈ s.assetValuations, v.quantity ≠ 0
  total : s.totalNetWorth = (s.assetValuations.map (·.currentValue)).sum

theorem foldl_netWorth (rows : List AssetValuation) (t : Totals) :
    (rows.foldl Totals.add t).netWorth = t.netWorth + (rows.map (·.currentValue)).sum := by
  induction rows generalizing t with
  | nil => simp
  | cons v rows ih =>
    rw [List.foldl_cons, ih, List.map_cons, List.sum_cons, ← add_assoc]
    rfl

/-- What a mark keeps of rows and totals. -/
structure Reckoned (st : List AssetValuation × Totals) : Prop where
  distinct : (st.1.map (·.assetId)).Nodup
  held : ∀ v ∈ st.1, v.quantity ≠ 0
  total : st.2.netWorth = (st.1.map (·.currentValue)).sum

theorem sum_marked {rows : List AssetValuation} {v : AssetValuation} {usd toman : Decimal}
    (hnd : (rows.map (·.assetId)).Nodup) (hv : v ∈ rows) :
    ((rows.map fun w => if w.assetId = v.assetId then w.addMark usd toman else w).map
      (·.currentValue)).sum = (rows.map (·.currentValue)).sum + usd := by
  induction rows with
  | nil => cases hv
  | cons w rows ih =>
    obtain ⟨hw, hnd⟩ := List.nodup_cons.mp hnd
    simp only [List.map_cons, List.sum_cons]
    rcases List.mem_cons.mp hv with rfl | hv
    · have hrest : (rows.map fun w => if w.assetId = v.assetId then w.addMark usd toman else w) =
          rows := by
        conv_rhs => rw [← List.map_id rows]
        apply List.map_congr_left
        intro x hx
        apply if_neg
        intro heq
        exact hw (List.mem_map.mpr ⟨x, hx, heq⟩)
      rw [if_pos rfl, hrest, add_right_comm]
      rfl
    · have hne : w.assetId ≠ v.assetId := by
        intro heq
        exact hw (List.mem_map.mpr ⟨v, hv, heq.symm⟩)
      rw [if_neg hne, ih hnd hv, add_assoc]

theorem Reckoned.addMark {rate : Decimal} {st : List AssetValuation × Totals} {m : PositionMark}
    (h : Reckoned st) : Reckoned (addMark rate st m) := by
  unfold Pwos.addMark
  split
  · exact h
  · rename_i v hfound
    have hid : v.assetId = m.assetId := by simpa using List.find?_some hfound
    dsimp only
    constructor
    · rw [List.map_map]
      refine (congrArg List.Nodup (List.map_congr_left fun w _ => ?_)).mpr h.distinct
      dsimp only [Function.comp]
      split <;> rfl
    · intro w hw
      obtain ⟨x, hx, rfl⟩ := List.mem_map.mp hw
      split
      · exact h.held x hx
      · exact h.held x hx
    · rw [← hid, sum_marked h.distinct (List.mem_of_find?_eq_some hfound), ← h.total]

theorem Valued.rows_held (v : Valued) : ∀ w ∈ v.input.rows, w.quantity ≠ 0 := by
  have hbefore : ∀ w ∈ (v.input.registered.map (·.valuation v.input.rate)).foldl push
      (v.input.held.map (·.valuation v.input.rate)), w.quantity ≠ 0 := by
    apply foldl_push_keeps
    · intro w hw
      obtain ⟨h, hh, rfl⟩ := List.mem_map.mp hw
      intro hzero
      have hactive := v.active h hh
      rw [show h.quantity = 0 from hzero] at hactive
      exact absurd hactive (by decide)
    · intro w hw
      obtain ⟨r, -, rfl⟩ := List.mem_map.mp hw
      exact (by decide : Decimal.ofInt 1 ≠ 0)
  intro w hw
  obtain ⟨x, hx, rfl⟩ := List.mem_map.mp hw
  exact hbefore x hx

theorem Reckoned.marks {rate : Decimal} {marks : List PositionMark}
    {st : List AssetValuation × Totals} (h : Reckoned st) :
    Reckoned (marks.foldl (Pwos.addMark rate) st) := by
  induction marks generalizing st with
  | nil => exact h
  | cons m marks ih => exact ih h.addMark

theorem Valued.sound (v : Valued) : v.summary.Sound := by
  have hrows : Reckoned (v.input.rows, v.input.totals) := by
    refine ⟨v.input.rows_nodup, v.rows_held, ?_⟩
    unfold PortfolioInput.totals
    rw [foldl_netWorth]
    exact zero_add _
  obtain ⟨hdistinct, hheld, htotal⟩ := @Reckoned.marks v.input.rate v.marks _ hrows
  -- the share of the total is all that is added afterwards
  have hshare : ∀ {β : Type} (f : AssetValuation → β) (t : Decimal),
      (∀ w p, f { w with sharePercentage := p } = f w) → ∀ rows : List AssetValuation,
      (rows.map fun w => if 0 < t then { w with sharePercentage :=
        ((w.currentValue.div t).mul (.ofInt 100)).toFixed 2 } else w).map f = rows.map f := by
    intro β f t hf rows
    rw [List.map_map]
    apply List.map_congr_left
    intro w _
    dsimp only [Function.comp]
    split
    · exact hf w _
    · rfl
  constructor
  · exact (congrArg List.Nodup (hshare (·.assetId) _ (fun _ _ => rfl) _)).mpr hdistinct
  · intro w hw
    have hquantities : w.quantity ∈ v.summary.assetValuations.map (·.quantity) :=
      List.mem_map_of_mem hw
    rw [show v.summary.assetValuations.map (·.quantity) = _ from
      hshare (·.quantity) _ (fun _ _ => rfl) _] at hquantities
    obtain ⟨x, hx, hxw⟩ := List.mem_map.mp hquantities
    rw [← hxw]
    exact hheld x hx
  · exact htotal.trans (congrArg List.sum (hshare (·.currentValue) _ (fun _ _ => rfl) _).symm)

end Pwos
