import Pwos.Domain.Fifo
import Pwos.Domain.Rounding
import Pwos.Lib.Sums

/-!
# What a sale takes from the lots

`consumeFifo` empties the lots one after the other: all but the last one it takes from are
exhausted, it passes to a lot only when those before have nothing left, and what remains to be
found is positive only when all are empty. The proceeds it hands out fall short of the whole by
roundings alone.
-/

namespace Pwos

section Allocate
variable {u qty : Decimal} {lots : List OpenLot}

/-- Nothing is left of a lot. -/
def Exhausted (as : List LotAllocation) (lot : OpenLot) : Prop :=
  lot.qtyRemaining ≤ 0 ∨ ∃ a ∈ as, a.lotId = lot.id ∧ a.newQtyRemaining = 0

def Touched (as : List LotAllocation) (lot : OpenLot) : Prop := ∃ a ∈ as, a.lotId = lot.id

theorem Exhausted.cons {as : List LotAllocation} {lot : OpenLot} (h : Exhausted as lot)
    (a : LotAllocation) : Exhausted (a :: as) lot := by
  obtain hnone | ⟨b, hb, hid⟩ := h
  · exact .inl hnone
  · exact .inr ⟨b, List.mem_cons_of_mem a hb, hid⟩

/-- The three things a pass of the loop does. -/
theorem allocate_cons (u qty : Decimal) (lot : OpenLot) (rest : List OpenLot) :
    (qty ≤ 0 ∧ allocate u qty (lot :: rest) = []) ∨
    (0 < qty ∧ lot.qtyRemaining ≤ 0 ∧ allocate u qty (lot :: rest) = allocate u qty rest) ∨
    (0 < qty ∧ 0 < lot.qtyRemaining ∧ ∃ a, a = lot.allocation u (min qty lot.qtyRemaining) ∧
      allocate u qty (lot :: rest) = a :: allocate u (qty - a.quantity) rest ∧
      (a.newQtyRemaining = 0 ∨ qty - a.quantity ≤ 0)) := by
  by_cases hq : qty ≤ 0
  · exact .inl ⟨hq, allocate_of_nonpos _ hq⟩
  by_cases hl : lot.qtyRemaining ≤ 0
  · exact .inr (.inl ⟨not_le.mp hq, hl, by simp [allocate, hq, hl]⟩)
  · refine .inr (.inr ⟨not_le.mp hq, not_le.mp hl, _, rfl, by simp [allocate, hq, hl], ?_⟩)
    rcases le_total qty lot.qtyRemaining with hle | hle
    · right
      simp [OpenLot.allocation, min_eq_left hle]
    · left
      simp [OpenLot.allocation, min_eq_right hle]

/-- All allocations but the last empty their lots. -/
theorem allocate_empties (u qty : Decimal) (lots : List OpenLot) :
    (allocate u qty lots).Pairwise fun a _ => a.newQtyRemaining = 0 := by
  induction lots generalizing qty with
  | nil => exact List.Pairwise.nil
  | cons lot rest ih =>
    rcases allocate_cons u qty lot rest with ⟨-, heq⟩ | ⟨-, -, heq⟩ | ⟨-, -, a, -, heq, hend⟩
    · rw [heq]
      exact List.Pairwise.nil
    · rw [heq]
      exact ih qty
    · rw [heq]
      refine List.pairwise_cons.mpr ⟨fun b hb => ?_, ih _⟩
      rcases hend with hempty | hdone
      · exact hempty
      · rw [allocate_of_nonpos rest hdone] at hb
        cases hb

/-- A lot is taken from only when nothing is left of those in front of it. -/
theorem allocate_in_order (u qty : Decimal) {lots : List OpenLot}
    (hids : (lots.map (·.id)).Nodup) :
    lots.Pairwise fun early late =>
      Touched (allocate u qty lots) late → Exhausted (allocate u qty lots) early := by
  induction lots generalizing qty with
  | nil => exact List.Pairwise.nil
  | cons lot rest ih =>
    obtain ⟨hid, hrest⟩ := List.nodup_cons.mp hids
    have hother : ∀ late ∈ rest, late.id ≠ lot.id := by
      intro late hlate heq
      exact hid (List.mem_map.mpr ⟨late, hlate, heq⟩)
    rcases allocate_cons u qty lot rest with ⟨-, heq⟩ | ⟨-, hnone, heq⟩ | ⟨-, -, a, ha, heq, hend⟩
    · rw [heq]
      exact List.pairwise_of_forall fun _ late ⟨b, hb, _⟩ => absurd hb List.not_mem_nil
    · rw [heq]
      exact List.pairwise_cons.mpr ⟨fun _ _ _ => .inl hnone, ih qty hrest⟩
    · have haid : a.lotId = lot.id := by rw [ha]; rfl
      -- the allocations of the others are those the rest of the loop makes
      have htouched : ∀ late ∈ rest, Touched (a :: allocate u (qty - a.quantity) rest) late →
          Touched (allocate u (qty - a.quantity) rest) late := by
        rintro late hlate ⟨b, hb, hbid⟩
        rcases List.mem_cons.mp hb with rfl | hb
        · exact absurd (hbid.symm.trans haid) (hother late hlate)
        · exact ⟨b, hb, hbid⟩
      rw [heq]
      refine List.pairwise_cons.mpr ⟨fun late hlate ht => ?_, ?_⟩
      · rcases hend with hempty | hdone
        · exact .inr ⟨a, List.mem_cons_self, haid, hempty⟩
        · obtain ⟨b, hb, -⟩ := htouched late hlate ht
          rw [allocate_of_nonpos rest hdone] at hb
          cases hb
      · refine (ih (qty - a.quantity) hrest).imp_of_mem fun _ hlate himp ht => ?_
        exact (himp (htouched _ hlate ht)).cons a

/-- Something remains to be found only when every lot is empty. -/
theorem allocate_short {lots : List OpenLot}
    (h : 0 < qty - allocated (allocate u qty lots)) :
    ∀ lot ∈ lots, Exhausted (allocate u qty lots) lot := by
  induction lots generalizing qty with
  | nil => exact fun lot hlot => absurd hlot List.not_mem_nil
  | cons lot rest ih =>
    rcases allocate_cons u qty lot rest with ⟨hq, heq⟩ | ⟨-, hnone, heq⟩ | ⟨-, -, a, ha, heq, hend⟩
    · rw [heq, allocated_nil, sub_zero] at h
      exact absurd h hq.not_gt
    · rw [heq] at h ⊢
      exact List.forall_mem_cons.mpr ⟨.inl hnone, ih h⟩
    · rw [heq, allocated_cons, ← sub_sub] at h
      rw [heq]
      have hempty : a.newQtyRemaining = 0 := by
        refine hend.resolve_right fun hdone => ?_
        rw [allocate_of_nonpos rest hdone, allocated_nil, sub_zero] at h
        exact absurd h hdone.not_gt
      have haid : a.lotId = lot.id := by rw [ha]; rfl
      exact List.forall_mem_cons.mpr ⟨.inr ⟨a, List.mem_cons_self, haid, hempty⟩,
        fun l hl => (ih h l hl).cons a⟩

end Allocate

/-! ## One sale -/

section Consume
variable {lots : List OpenLot} {qty : Decimal}

theorem pairwise_sortByOpened (lots : List OpenLot) :
    (sortByOpened lots).Pairwise fun a b => a.openedAt ≤ b.openedAt := by
  have : Std.Total fun a b : OpenLot => a.openedAt ≤ b.openedAt :=
    ⟨fun a b => le_total a.openedAt b.openedAt⟩
  have : IsTrans OpenLot fun a b => a.openedAt ≤ b.openedAt := ⟨fun a b c => le_trans⟩
  exact List.pairwise_insertionSort _ lots

theorem nodup_sortByOpened (h : (lots.map (·.id)).Nodup) :
    ((sortByOpened lots).map (·.id)).Nodup :=
  ((sortByOpened_perm lots).map _).nodup_iff.mpr h

/-- Of two different lots the one that was opened first stands in front. -/
theorem pairwise_sorted_of_lt {P : OpenLot → OpenLot → Prop}
    (h : (sortByOpened lots).Pairwise P) {early late : OpenLot} (he : early ∈ lots)
    (hl : late ∈ lots) (hlt : early.openedAt < late.openedAt) : P early late := by
  have hfront : (sortByOpened lots).Pairwise fun a b => a.openedAt < b.openedAt → P a b := by
    refine h.imp ?_
    exact fun hP _ => hP
  have hback : (sortByOpened lots).Pairwise fun a b => b.openedAt < a.openedAt → P b a := by
    refine (pairwise_sortByOpened lots).imp ?_
    exact fun hle hgt => absurd hgt (not_lt.mpr hle)
  exact List.Pairwise.forall_of_forall_of_flip (fun a _ hself => absurd hself (lt_irrefl _))
    hfront hback (mem_sortByOpened.mpr he) (mem_sortByOpened.mpr hl) hlt

/-- What `consumeFifo` promises about the quantities: nothing is lost, every allocation is a
positive part of a lot of its own, lots are emptied in the order they were opened, and something
remains to be found only when all are empty. -/
theorem consumeFifo_quantities (hids : (lots.map (·.id)).Nodup) (hq : 0 ≤ qty)
    (proceeds : Decimal) :
    let r := consumeFifo lots qty proceeds
    allocated r.allocations + r.unmatchedQty = qty ∧ 0 ≤ r.unmatchedQty ∧
    (r.allocations.map (·.lotId)).Nodup ∧
    (∀ a ∈ r.allocations, ∃ lot ∈ lots, a.lotId = lot.id ∧ 0 < a.quantity ∧
      a.quantity ≤ lot.qtyRemaining ∧ a.newQtyRemaining = lot.qtyRemaining - a.quantity ∧
      0 ≤ a.newQtyRemaining) ∧
    (r.allocations.map (·.lotId)).Sublist ((sortByOpened lots).map (·.id)) ∧
    (∀ early ∈ lots, ∀ late ∈ lots, early.openedAt < late.openedAt →
      Touched r.allocations late → Exhausted r.allocations early) ∧
    (∀ a ∈ r.allocations, ∀ b ∈ r.allocations, 0 < a.newQtyRemaining → 0 < b.newQtyRemaining →
      a = b) ∧
    (0 < r.unmatchedQty → ∀ lot ∈ lots, Exhausted r.allocations lot) := by
  rw [consumeFifo_eq]
  dsimp only
  have hsorted := nodup_sortByOpened hids
  have hsub := allocate_sublist (unitProceeds qty proceeds) qty (sortByOpened lots)
  refine ⟨add_sub_cancel _ _, sub_nonneg.mpr (allocated_le _ hq), hsub.nodup hsorted, ?_, hsub,
    ?_, ?_, ?_⟩
  · intro a ha
    obtain ⟨lot, hlot, -, hpos, hle, heq⟩ := mem_allocate ha
    have hid : a.lotId = lot.id := by rw [heq]; rfl
    have hleft : a.newQtyRemaining = lot.qtyRemaining - a.quantity := by rw [heq]; rfl
    refine ⟨lot, mem_sortByOpened.mp hlot, hid, hpos, hle, hleft, ?_⟩
    rw [hleft]
    exact sub_nonneg.mpr hle
  · intro early he late hl hlt
    exact pairwise_sorted_of_lt (allocate_in_order _ qty hsorted) he hl hlt
  · intro a ha b hb hapos hbpos
    -- of two allocations the one in front leaves nothing
    by_contra hne
    have hempties := allocate_empties (unitProceeds qty proceeds) qty (sortByOpened lots)
    obtain ⟨i, hi, rfl⟩ := List.mem_iff_getElem.mp ha
    obtain ⟨j, hj, rfl⟩ := List.mem_iff_getElem.mp hb
    rcases lt_trichotomy i j with hij | rfl | hij
    · exact absurd (List.pairwise_iff_getElem.mp hempties i j hi hj hij) hapos.ne'
    · exact hne rfl
    · exact absurd (List.pairwise_iff_getElem.mp hempties j i hj hi hij) hbpos.ne'
  · intro hshort lot hlot
    exact allocate_short hshort lot (mem_sortByOpened.mpr hlot)

/-- Three lots, one of them empty and two of one day. -/
def threeLots : List OpenLot :=
  [⟨1, 20260301, .ofInt 3, .ofInt 20⟩, ⟨2, 20260201, .ofInt 1, .ofInt 10⟩,
    ⟨3, 20260201, 0, .ofInt 10⟩]

theorem consumeFifo_quantities_of_three :
    (threeLots.map (·.id)).Nodup ∧
      ∀ early ∈ threeLots, ∀ late ∈ threeLots, early.openedAt < late.openedAt →
        Touched (consumeFifo threeLots (.ofInt 2) (.ofInt 60)).allocations late →
        Exhausted (consumeFifo threeLots (.ofInt 2) (.ofInt 60)).allocations early := by
  have hids : (threeLots.map (·.id)).Nodup := by decide
  obtain ⟨-, -, -, -, -, horder, -⟩ :=
    consumeFifo_quantities hids (by decide : (0 : Decimal) ≤ .ofInt 2) (.ofInt 60)
  exact ⟨hids, horder⟩

end Consume

/-! ## The proceeds -/

section Proceeds
variable {as : List LotAllocation}

/-- A product of what is not negative is rounded down. -/
theorem raw_mul_bounds {a b : Decimal} (ha : 0 ≤ a) (hb : 0 ≤ b) :
    ONE * (a.mul b).raw ≤ a.raw * b.raw ∧ a.raw * b.raw < ONE * (a.mul b).raw + ONE := by
  have hnonneg : 0 ≤ a.raw * b.raw := Int.mul_nonneg ha hb
  rw [Decimal.raw_mul, Int.tdiv_eq_ediv_of_nonneg hnonneg]
  have hdiv := Int.mul_ediv_add_emod (a.raw * b.raw) ONE
  have hlow := Int.emod_nonneg (a.raw * b.raw) Decimal.one_pos.ne'
  have hhigh := Int.emod_lt_of_pos (a.raw * b.raw) Decimal.one_pos
  constructor <;> linarith

/-- So is a quotient. -/
theorem raw_div_bounds {a b : Decimal} (ha : 0 ≤ a) (hb : 0 < b) :
    b.raw * (a.div b).raw ≤ a.raw * ONE ∧ a.raw * ONE < b.raw * (a.div b).raw + b.raw := by
  have hpos : 0 < b.raw := Decimal.lt_iff.mp hb
  have hnonneg : 0 ≤ a.raw * ONE := Int.mul_nonneg ha Decimal.one_pos.le
  have hraw : (a.div b).raw = a.raw * ONE / b.raw := by
    rw [Decimal.div, if_neg hpos.ne', Int.tdiv_eq_ediv_of_nonneg hnonneg]
  rw [hraw]
  have hdiv := Int.mul_ediv_add_emod (a.raw * ONE) b.raw
  have hlow := Int.emod_nonneg (a.raw * ONE) hpos.ne'
  have hhigh := Int.emod_lt_of_pos (a.raw * ONE) hpos
  constructor <;> linarith

/-- What `n` products with one price lose together: less than `n` units of the last place. -/
theorem sum_proceeds_bounds {u : Decimal} (hu : 0 ≤ u)
    (h : ∀ a ∈ as, 0 ≤ a.quantity ∧ a.proceedsBase = a.quantity.mul u) :
    ONE * (as.map LotAllocation.proceedsBase).sum.raw ≤ (allocated as).raw * u.raw ∧
      (allocated as).raw * u.raw ≤ ONE * ((as.map LotAllocation.proceedsBase).sum.raw + as.length) := by
  induction as with
  | nil => simp
  | cons a as ih =>
    obtain ⟨ha, has⟩ := List.forall_mem_cons.mp h
    obtain ⟨hlow, hhigh⟩ := ih has
    obtain ⟨hlow', hhigh'⟩ := raw_mul_bounds ha.1 hu
    rw [← ha.2] at hlow' hhigh'
    simp only [List.map_cons, List.sum_cons, allocated_cons, Decimal.raw_add, List.length_cons]
    push_cast
    constructor <;> linarith

variable {lots : List OpenLot} {qty proceeds : Decimal}

/-- The proceeds handed out are never more than the whole, and less by no more units of the last
place than there are units sold and allocations, and one. The totals are those of the
allocations. -/
theorem consumeFifo_totals (hq : 0 < qty) (hp : 0 ≤ proceeds)
    (hmatched : (consumeFifo lots qty proceeds).unmatchedQty = 0) :
    let r := consumeFifo lots qty proceeds
    0 ≤ proceeds.toRat - r.totalProceeds.toRat ∧
    proceeds.toRat - r.totalProceeds.toRat ≤
      (qty.toRat + r.allocations.length + 1) * Decimal.ulp ∧
    r.totalCost = (r.allocations.map (·.costBase)).sum ∧
    r.totalProceeds = (r.allocations.map (·.proceedsBase)).sum ∧
    r.realizedPnl = (r.allocations.map (·.realizedPnl)).sum := by
  rw [consumeFifo_eq] at hmatched ⊢
  dsimp only at hmatched ⊢
  have hunit : unitProceeds qty proceeds = proceeds.div qty := if_neg hq.ne'
  have hmem : ∀ a ∈ allocate (unitProceeds qty proceeds) qty (sortByOpened lots),
      0 ≤ a.quantity ∧ a.proceedsBase = a.quantity.mul (proceeds.div qty) ∧
        a.realizedPnl = a.proceedsBase - a.costBase := by
    intro a ha
    obtain ⟨lot, -, -, hpos, -, heq⟩ := mem_allocate ha
    rw [← hunit]
    refine ⟨hpos.le, ?_, ?_⟩ <;> (rw [heq]; rfl)
  generalize allocate (unitProceeds qty proceeds) qty (sortByOpened lots) = as at *
  obtain ⟨hlow, hhigh⟩ := sum_proceeds_bounds (Decimal.div_nonneg hp hq.le)
    fun a ha => ⟨(hmem a ha).1, (hmem a ha).2.1⟩
  obtain ⟨hlow', hhigh'⟩ := raw_div_bounds hp hq
  rw [← sub_eq_zero.mp hmatched] at hlow hhigh
  have hONE : (ONE : ℚ) = 10 ^ 18 := by norm_num [ONE]
  have hle : ONE * (as.map LotAllocation.proceedsBase).sum.raw ≤ ONE * proceeds.raw := by linarith
  have hgap : ONE * proceeds.raw ≤
      ONE * ((as.map LotAllocation.proceedsBase).sum.raw + as.length) + qty.raw := by linarith
  have hmap : as.map (·.realizedPnl) = as.map fun a => a.proceedsBase - a.costBase :=
    List.map_congr_left fun a ha => (hmem a ha).2.2
  refine ⟨?_, ?_, rfl, rfl, ?_⟩
  · have hraw : (as.map LotAllocation.proceedsBase).sum.raw ≤ proceeds.raw :=
      le_of_mul_le_mul_left hle Decimal.one_pos
    have hcast : ((as.map LotAllocation.proceedsBase).sum.raw : ℚ) ≤ proceeds.raw := by
      exact_mod_cast hraw
    rw [sub_nonneg, Decimal.toRat, Decimal.toRat]
    exact div_le_div_of_nonneg_right hcast (by positivity)
  · have hcast : (10 : ℚ) ^ 18 * proceeds.raw ≤
        10 ^ 18 * ((as.map LotAllocation.proceedsBase).sum.raw + as.length) + qty.raw := by
      rw [← hONE]
      exact_mod_cast hgap
    rw [Decimal.toRat, Decimal.toRat, Decimal.toRat, Decimal.ulp, ← sub_div, mul_one_div]
    apply div_le_div_of_nonneg_right _ (by positivity)
    have hqty : (qty.raw : ℚ) / 10 ^ 18 * 10 ^ 18 = qty.raw := div_mul_cancel₀ _ (by positivity)
    linarith
  · rw [hmap, ← sum_map_sub]

theorem consumeFifo_totals_of_three :
    0 ≤ (Decimal.ofInt 20).toRat -
        (consumeFifo threeLots (.ofInt 3) (.ofInt 20)).totalProceeds.toRat ∧
      (consumeFifo threeLots (.ofInt 3) (.ofInt 20)).unmatchedQty = 0 := by
  have hmatched : (consumeFifo threeLots (.ofInt 3) (.ofInt 20)).unmatchedQty = 0 := by decide
  exact ⟨(consumeFifo_totals (by decide) (by decide) hmatched).1, hmatched⟩

end Proceeds

end Pwos
