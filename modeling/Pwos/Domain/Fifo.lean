import Pwos.Domain.Accounting
import Mathlib.Data.List.Sort

/-!
# First in, first out

`domain/fifo.ts`: consume open lots in the order they were opened. `consumeFifo` is the
loop of the source with its accumulators; `allocate` is the list of allocations it
makes, which the proofs work with.
-/

namespace Pwos

structure OpenLot where
  id : Uuid
  openedAt : IsoDate
  qtyRemaining : Decimal
  unitCostBase : Decimal
  deriving DecidableEq, Repr

structure LotAllocation where
  lotId : Uuid
  quantity : Decimal
  costBase : Decimal
  proceedsBase : Decimal
  realizedPnl : Decimal
  newQtyRemaining : Decimal
  deriving DecidableEq, Repr

structure FifoResult where
  allocations : List LotAllocation
  totalCost : Decimal
  totalProceeds : Decimal
  realizedPnl : Decimal
  unmatchedQty : Decimal
  deriving DecidableEq, Repr

/-- A stable sort on the opening day. -/
def sortByOpened (lots : List OpenLot) : List OpenLot :=
  lots.insertionSort (fun a b => a.openedAt ≤ b.openedAt)

/-- Take `take` units of a lot at a given price per unit. -/
def OpenLot.allocation (lot : OpenLot) (unitProceeds take : Decimal) : LotAllocation :=
  let cost := take.mul lot.unitCostBase
  let proceeds := take.mul unitProceeds
  { lotId := lot.id, quantity := take, costBase := cost, proceedsBase := proceeds,
    realizedPnl := proceeds - cost, newQtyRemaining := lot.qtyRemaining - take }

/-- The variables of the loop. -/
structure FifoState where
  remaining : Decimal
  allocations : List LotAllocation
  totalCost : Decimal
  totalProceeds : Decimal

def fifoLoop (unitProceeds : Decimal) : FifoState → List OpenLot → FifoState
  | st, [] => st
  | st, lot :: rest =>
    if st.remaining ≤ 0 then st
    else if lot.qtyRemaining ≤ 0 then fifoLoop unitProceeds st rest
    else
      let a := lot.allocation unitProceeds (min st.remaining lot.qtyRemaining)
      fifoLoop unitProceeds
        { remaining := st.remaining - a.quantity
          allocations := st.allocations ++ [a]
          totalCost := st.totalCost + a.costBase
          totalProceeds := st.totalProceeds + a.proceedsBase } rest

def consumeFifo (lotsIn : List OpenLot) (qty proceedsBase : Decimal) : FifoResult :=
  let unitProceeds := if qty = 0 then 0 else proceedsBase.div qty
  let st := fifoLoop unitProceeds ⟨qty, [], 0, 0⟩ (sortByOpened lotsIn)
  { allocations := st.allocations, totalCost := st.totalCost, totalProceeds := st.totalProceeds,
    realizedPnl := st.totalProceeds - st.totalCost, unmatchedQty := st.remaining }

/-! ## The allocations -/

/-- The allocations made from `lots`, in order, to find `qty` units. -/
def allocate (unitProceeds : Decimal) : Decimal → List OpenLot → List LotAllocation
  | _, [] => []
  | qty, lot :: rest =>
    if qty ≤ 0 then []
    else if lot.qtyRemaining ≤ 0 then allocate unitProceeds qty rest
    else
      let a := lot.allocation unitProceeds (min qty lot.qtyRemaining)
      a :: allocate unitProceeds (qty - a.quantity) rest

def allocated (as : List LotAllocation) : Decimal := (as.map (·.quantity)).sum

@[simp] theorem allocated_nil : allocated [] = 0 := rfl
@[simp] theorem allocated_cons (a : LotAllocation) (as : List LotAllocation) :
    allocated (a :: as) = a.quantity + allocated as := by simp [allocated]

@[simp] theorem allocate_nil (u qty : Decimal) : allocate u qty [] = [] := rfl

theorem allocate_cons_eq (u qty : Decimal) (lot : OpenLot) (rest : List OpenLot) :
    allocate u qty (lot :: rest) =
      if qty ≤ 0 then []
      else if lot.qtyRemaining ≤ 0 then allocate u qty rest
      else lot.allocation u (min qty lot.qtyRemaining) ::
        allocate u (qty - (lot.allocation u (min qty lot.qtyRemaining)).quantity) rest := rfl

theorem fifoLoop_eq (u : Decimal) (st : FifoState) (lots : List OpenLot) :
    fifoLoop u st lots =
      { remaining := st.remaining - allocated (allocate u st.remaining lots)
        allocations := st.allocations ++ allocate u st.remaining lots
        totalCost := st.totalCost + ((allocate u st.remaining lots).map (·.costBase)).sum
        totalProceeds :=
          st.totalProceeds + ((allocate u st.remaining lots).map (·.proceedsBase)).sum } := by
  induction lots generalizing st with
  | nil => simp [fifoLoop]
  | cons lot rest ih =>
    rw [fifoLoop, allocate_cons_eq]
    by_cases hq : st.remaining ≤ 0
    · simp [hq]
    by_cases hl : lot.qtyRemaining ≤ 0
    · simp [hq, hl, ih]
    · simp [hq, hl, ih, sub_sub, add_assoc]

/-- The unit price the loop allocates proceeds with. -/
def unitProceeds (qty proceedsBase : Decimal) : Decimal :=
  if qty = 0 then 0 else proceedsBase.div qty

theorem consumeFifo_eq (lots : List OpenLot) (qty proceeds : Decimal) :
    let as := allocate (unitProceeds qty proceeds) qty (sortByOpened lots)
    consumeFifo lots qty proceeds =
      { allocations := as
        totalCost := (as.map (·.costBase)).sum
        totalProceeds := (as.map (·.proceedsBase)).sum
        realizedPnl := (as.map (·.proceedsBase)).sum - (as.map (·.costBase)).sum
        unmatchedQty := qty - allocated as } := by
  simp [consumeFifo, fifoLoop_eq, unitProceeds]

/-- Every allocation is a positive part of an open lot. -/
theorem mem_allocate {u qty : Decimal} {lots : List OpenLot} {a : LotAllocation}
    (h : a ∈ allocate u qty lots) :
    ∃ lot ∈ lots, 0 < lot.qtyRemaining ∧ 0 < a.quantity ∧ a.quantity ≤ lot.qtyRemaining ∧
      a = lot.allocation u a.quantity := by
  induction lots generalizing qty with
  | nil => simp at h
  | cons lot rest ih =>
    rw [allocate_cons_eq] at h
    split at h
    · cases h
    split at h
    · obtain ⟨l, hl, hrest⟩ := ih h
      exact ⟨l, by simp [hl], hrest⟩
    rename_i hq hl
    rcases List.mem_cons.mp h with rfl | h
    · refine ⟨lot, by simp, not_le.mp hl, ?_, ?_, rfl⟩
      · exact lt_min (not_le.mp hq) (not_le.mp hl)
      · exact min_le_right _ _
    · obtain ⟨l, hl, hrest⟩ := ih h
      exact ⟨l, by simp [hl], hrest⟩

theorem allocate_sublist (u qty : Decimal) (lots : List OpenLot) :
    ((allocate u qty lots).map (·.lotId)).Sublist (lots.map (·.id)) := by
  induction lots generalizing qty with
  | nil => simp
  | cons lot rest ih =>
    rw [allocate_cons_eq]
    split
    · simp
    split
    · exact (ih qty).cons _
    · exact (ih _).cons_cons _

/-- No more than what was asked for is allocated. -/
theorem allocated_le {u qty : Decimal} (lots : List OpenLot) (h : 0 ≤ qty) :
    allocated (allocate u qty lots) ≤ qty := by
  induction lots generalizing qty with
  | nil => simpa using h
  | cons lot rest ih =>
    rw [allocate_cons_eq]
    split
    · simpa using h
    split
    · exact ih h
    · simp only [allocated_cons]
      have hmin : (lot.allocation u (min qty lot.qtyRemaining)).quantity ≤ qty := min_le_left _ _
      have := ih (sub_nonneg.mpr hmin)
      simpa [le_sub_iff_add_le'] using this

theorem allocate_of_nonpos {u qty : Decimal} (lots : List OpenLot) (h : qty ≤ 0) :
    allocate u qty lots = [] := by
  cases lots <;> simp [allocate_cons_eq, h]

/-- A lot that is not allocated from does not matter to the others: it stands behind the
lots that sufficed, or it is empty. -/
theorem allocate_filter {u qty : Decimal} {lots : List OpenLot} (keep : OpenLot → Bool)
    (h : ∀ a ∈ allocate u qty lots, ∀ lot ∈ lots, lot.id = a.lotId → keep lot) :
    allocate u qty (lots.filter keep) = allocate u qty lots := by
  induction lots generalizing qty with
  | nil => rfl
  | cons lot rest ih =>
    by_cases hq : qty ≤ 0
    · rw [allocate_of_nonpos _ hq, allocate_of_nonpos _ hq]
    by_cases hl : lot.qtyRemaining ≤ 0
    · have hskip : allocate u qty (lot :: rest) = allocate u qty rest := by
        simp [allocate_cons_eq, hq, hl]
      rw [hskip] at h ⊢
      have := ih (fun a ha l hm => h a ha l (by simp [hm]))
      by_cases hk : keep lot
      · simp [hk, allocate_cons_eq, hq, hl, this]
      · simp [hk, this]
    · have htake : allocate u qty (lot :: rest) =
          lot.allocation u (min qty lot.qtyRemaining) ::
            allocate u (qty - min qty lot.qtyRemaining) rest := by
        simp [allocate_cons_eq, hq, hl, OpenLot.allocation]
      rw [htake] at h ⊢
      have hk : keep lot :=
        h (lot.allocation u (min qty lot.qtyRemaining)) (by simp) lot (by simp) rfl
      have := @ih (qty - min qty lot.qtyRemaining)
        (fun a ha l hm => h a (by simp [ha]) l (by simp [hm]))
      simp [hk, allocate_cons_eq, hq, hl, OpenLot.allocation, this]

/-! ## The order of the lots -/

section Stable
variable {α : Type} {r : α → α → Prop} [DecidableRel r] [Std.Total r] [IsTrans α r]

omit [Std.Total r] [IsTrans α r] in
theorem orderedInsert_of_forall {a : α} {l : List α} (h : ∀ b ∈ l, r a b) :
    l.orderedInsert r a = a :: l := by
  cases l with
  | nil => rfl
  | cons b l => rw [List.orderedInsert_cons, if_pos (h b (by simp))]

omit [Std.Total r] in
theorem filter_orderedInsert (p : α → Bool) (a : α) {l : List α} (h : l.Pairwise r) :
    (l.orderedInsert r a).filter p =
      if p a then (l.filter p).orderedInsert r a else l.filter p := by
  induction l with
  | nil => by_cases ha : p a <;> simp [ha]
  | cons b l ih =>
    obtain ⟨hb, hl⟩ := List.pairwise_cons.mp h
    rw [List.orderedInsert_cons]
    by_cases hab : r a b
    · rw [if_pos hab]
      by_cases ha : p a
      · rw [List.filter_cons_of_pos ha, if_pos ha]
        refine (orderedInsert_of_forall fun c hc => ?_).symm
        rcases List.mem_cons.mp (List.mem_of_mem_filter hc) with rfl | hc
        · exact hab
        · exact IsTrans.trans a b c hab (hb c hc)
      · rw [List.filter_cons_of_neg ha, if_neg ha]
    · rw [if_neg hab]
      by_cases hpb : p b
      · rw [List.filter_cons_of_pos hpb, ih hl, List.filter_cons_of_pos hpb]
        by_cases ha : p a
        · rw [if_pos ha, if_pos ha, List.orderedInsert_cons, if_neg hab]
        · rw [if_neg ha, if_neg ha]
      · rw [List.filter_cons_of_neg hpb, ih hl, List.filter_cons_of_neg hpb]

/-- A stable sort of some of the elements is the sort of all, less the others. -/
theorem filter_insertionSort (p : α → Bool) (l : List α) :
    (l.insertionSort r).filter p = (l.filter p).insertionSort r := by
  induction l with
  | nil => rfl
  | cons a l ih =>
    rw [List.insertionSort_cons, filter_orderedInsert p a (List.pairwise_insertionSort r l), ih]
    by_cases ha : p a
    · rw [if_pos ha, List.filter_cons_of_pos ha, List.insertionSort_cons]
    · rw [if_neg ha, List.filter_cons_of_neg ha]

end Stable

/-- Sorting by a number attached to the elements. -/
theorem filter_sortOn {α : Type} (f : α → Nat) (p : α → Bool) (l : List α) :
    (l.insertionSort fun a b => f a ≤ f b).filter p =
      (l.filter p).insertionSort fun a b => f a ≤ f b := by
  have : Std.Total fun a b : α => f a ≤ f b := ⟨fun a b => le_total (f a) (f b)⟩
  have : IsTrans α fun a b => f a ≤ f b := ⟨fun a b c => le_trans⟩
  exact filter_insertionSort p l

theorem filter_sortByOpened (p : OpenLot → Bool) (lots : List OpenLot) :
    (sortByOpened lots).filter p = sortByOpened (lots.filter p) :=
  filter_sortOn OpenLot.openedAt p lots

theorem sortByOpened_perm (lots : List OpenLot) : (sortByOpened lots).Perm lots :=
  List.perm_insertionSort _ _

theorem mem_sortByOpened {lots : List OpenLot} {l : OpenLot} : l ∈ sortByOpened lots ↔ l ∈ lots :=
  (sortByOpened_perm lots).mem_iff

example : (consumeFifo [⟨1, 5, .ofInt 3, .ofInt 2000⟩, ⟨2, 4, .ofInt 1, .ofInt 1000⟩]
    (.ofInt 2) (.ofInt 6000)).totalCost = .ofInt 3000 := by decide

end Pwos
