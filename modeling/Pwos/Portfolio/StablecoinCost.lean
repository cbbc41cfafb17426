import Pwos.Domain.Rounding

/-!
# The Toman cost of a stablecoin

`features/portfolio/stablecoinCost.ts`: the moves of one coin, in the order of their dates, folded
into its weighted average cost. An acquisition adds its Toman, a removal takes cost out at the
average. Truncation only ever leaves cost behind, so the average never falls by a removal.
-/

namespace Pwos

structure StablecoinMove where
  qty : Decimal
  base : Decimal
  fxRate : Option Decimal
  tomanPaid : Decimal
  lotQty : Decimal
  lotToman : Decimal
  deriving DecidableEq, Repr

structure StablecoinCost where
  quantity : Decimal
  costToman : Decimal
  avgToman : Decimal
  estimated : Bool
  tomanPaidQuantity : Decimal
  deriving DecidableEq, Repr

/-- The variables of the loop. -/
structure CoinState where
  held : Decimal := 0
  cost : Decimal := 0
  tomanPaidQty : Decimal := 0
  estimated : Bool := false
  deriving DecidableEq, Repr

namespace StablecoinMove
variable (fallback : Decimal) (m : StablecoinMove)

/-- The move has no lot, no Toman and no frozen rate. -/
def isEstimated : Bool :=
  !(decide (0 < m.lotQty) || decide (0 < m.tomanPaid) || m.fxRate.any (0 < ·))

/-- What an acquisition costs. -/
def toman : Decimal :=
  if 0 < m.lotQty then m.lotToman.mul (m.qty.div m.lotQty)
  else if 0 < m.tomanPaid then m.tomanPaid
  else m.base.abs.mul ((m.fxRate.filter (0 < ·)).getD fallback)

def paysToman : Bool := !decide (0 < m.lotQty) && decide (0 < m.tomanPaid)

/-- The Toman of one coin. -/
def unitCost : ℚ := (m.toman fallback).toRat / m.qty.toRat

end StablecoinMove

namespace CoinState

def acquire (fallback : Decimal) (s : CoinState) (m : StablecoinMove) : CoinState :=
  { held := s.held + m.qty, cost := s.cost + m.toman fallback
    tomanPaidQty := if m.paysToman then s.tomanPaidQty + m.qty else s.tomanPaidQty
    estimated := s.estimated || m.isEstimated }

def remove (s : CoinState) (qty : Decimal) : CoinState :=
  let out := if qty < s.held then qty else s.held
  let avg := s.cost.div s.held
  let held := s.held - out
  { s with held, cost := if held = 0 then 0 else s.cost - avg.mul out }

def step (fallback : Decimal) (s : CoinState) (m : StablecoinMove) : CoinState :=
  if m.qty = 0 then s
  else if 0 < m.qty then s.acquire fallback m
  else if 0 < s.held then s.remove m.qty.abs
  else s

/-- `cost / held`, before it is cut to 18 digits. -/
def average (s : CoinState) : ℚ := s.cost.toRat / s.held.toRat

end CoinState

/-- The loop over the moves. -/
def coinState (fallback : Decimal) (moves : List StablecoinMove) : CoinState :=
  moves.foldl (CoinState.step fallback) {}

def foldStablecoinCost (moves : List StablecoinMove) (todayRate : Decimal) : StablecoinCost :=
  let s := coinState todayRate moves
  { quantity := s.held, costToman := s.cost.toFixed 0
    avgToman := if 0 < s.held then (s.cost.div s.held).toFixed 0 else 0
    estimated := s.estimated, tomanPaidQuantity := s.tomanPaidQty }

/-- What truncation can leave behind in the cost: for every removal a unit of the last place, and
one for each coin removed. -/
def roundingOf (moves : List StablecoinMove) : ℚ :=
  ((moves.filter (·.qty < 0)).map fun m => (m.qty.abs.toRat + 1) * Decimal.ulp).sum

theorem roundingOf_nonneg (moves : List StablecoinMove) : 0 ≤ roundingOf moves := by
  refine List.sum_nonneg ?_
  simp only [List.mem_map, forall_exists_index, and_imp]
  rintro x m - rfl
  exact mul_nonneg (add_nonneg (Decimal.toRat_nonneg (Decimal.zero_le_abs _)) zero_le_one)
    Decimal.ulp_pos.le

theorem roundingOf_append (moves later : List StablecoinMove) :
    roundingOf (moves ++ later) = roundingOf moves + roundingOf later := by
  simp [roundingOf]

/-! ## One removal -/

theorem Decimal.toRat_lt_toRat {a b : Decimal} : a.toRat < b.toRat ↔ a < b := by
  rw [toRat_eq, toRat_eq, mul_lt_mul_iff_left₀ ulp_pos, Decimal.lt_iff]
  exact_mod_cast Iff.rfl

/-- A product of amounts that are not negative is cut downwards. -/
theorem Decimal.toRat_mul_le {a b : Decimal} (ha : 0 ≤ a) (hb : 0 ≤ b) :
    (a.mul b).toRat ≤ a.toRat * b.toRat := by
  have hnonneg : 0 ≤ a.raw * b.raw := Int.mul_nonneg ha hb
  have hle : (a.raw * b.raw).tdiv ONE * ONE ≤ a.raw * b.raw := by
    rw [Int.tdiv_eq_ediv_of_nonneg hnonneg]
    exact Int.ediv_mul_le _ one_pos.ne'
  have hcast : (((a.raw * b.raw).tdiv ONE : Int) : ℚ) * 10 ^ 18 ≤ a.raw * b.raw := by
    exact_mod_cast hle
  simp only [toRat, raw_mul]
  rw [div_mul_div_comm, div_le_div_iff₀ (by positivity) (by positivity)]
  nlinarith [hcast]

namespace CoinState
variable {s : CoinState} {qty : Decimal}

/-- What a removal smaller than the holding leaves of the cost: its share and what was cut. -/
theorem cost_remove (hheld : 0 < s.held) (hcost : 0 ≤ s.cost) (hqty : 0 ≤ qty)
    (hless : qty < s.held) :
    s.average * (s.remove qty).held.toRat ≤ (s.remove qty).cost.toRat ∧
      (s.remove qty).cost.toRat ≤
        s.average * (s.remove qty).held.toRat + (qty.toRat + 1) * Decimal.ulp := by
  have hleft : s.held - qty ≠ 0 := (sub_pos.mpr hless).ne'
  have hstate : s.remove qty = { s with
      held := s.held - qty, cost := s.cost - (s.cost.div s.held).mul qty } := by
    simp only [remove, if_pos hless, if_neg hleft]
  have hrat := Decimal.toRat_pos hheld
  have havg := Decimal.div_le_div hcost hheld
  have hclose := Decimal.abs_div_sub_le s.cost hheld.ne'
  have hprod := Decimal.toRat_mul_le (Decimal.div_nonneg hcost hheld.le) hqty
  have hcut := Decimal.abs_mul_sub_le (s.cost.div s.held) qty
  have hq := Decimal.toRat_nonneg hqty
  have hwhole : s.average * s.held.toRat = s.cost.toRat := div_mul_cancel₀ _ hrat.ne'
  rw [abs_le] at hclose hcut
  rw [hstate]
  simp only [Decimal.toRat_sub]
  change (s.cost.div s.held).toRat ≤ s.average at havg
  change -Decimal.ulp ≤ (s.cost.div s.held).toRat - s.average ∧ _ at hclose
  generalize (s.cost.div s.held).toRat = avg at *
  constructor
  · nlinarith [mul_le_mul_of_nonneg_right havg hq]
  · nlinarith [mul_le_mul_of_nonneg_right hclose.1 hq]

/-- A removal of the whole holding or more leaves nothing. -/
theorem remove_all (h : s.held ≤ qty) : (s.remove qty).held = 0 ∧ (s.remove qty).cost = 0 := by
  simp [remove, not_lt.mpr h]

/-- A removal changes the average by what was cut, and never downwards. -/
theorem average_remove (hheld : 0 < s.held) (hcost : 0 ≤ s.cost) (hqty : 0 ≤ qty)
    (hless : qty < s.held) :
    s.average ≤ (s.remove qty).average ∧
      (s.remove qty).average ≤
        s.average + (qty.toRat + 1) * Decimal.ulp / (s.held - qty).toRat := by
  obtain ⟨hlow, hhigh⟩ := cost_remove hheld hcost hqty hless
  have hstate : (s.remove qty).held = s.held - qty := by simp [remove, hless]
  have hleft : 0 < (s.held - qty).toRat := Decimal.toRat_pos (sub_pos.mpr hless)
  have havg : (s.remove qty).average = (s.remove qty).cost.toRat / (s.held - qty).toRat := by
    rw [average, hstate]
  rw [hstate] at hlow hhigh
  rw [havg]
  constructor
  · rwa [le_div_iff₀ hleft]
  · rw [div_le_iff₀ hleft, add_mul, div_mul_cancel₀ _ hleft.ne']
    exact hhigh

/-! ## The loop -/

/-- Nothing is negative, and what is not held costs nothing. -/
structure Sound (s : CoinState) : Prop where
  held : 0 ≤ s.held
  cost : 0 ≤ s.cost
  empty : s.held = 0 → s.cost = 0

/-- The cost lies between two prices for each coin, up to what was cut. -/
structure Between (lo hi cut : ℚ) (s : CoinState) : Prop where
  low : lo * s.held.toRat ≤ s.cost.toRat
  high : s.cost.toRat ≤ hi * s.held.toRat + cut

variable {fallback : Decimal} {m : StablecoinMove} {lo hi cut : ℚ}

theorem step_cases (fallback : Decimal) (s : CoinState) (m : StablecoinMove) :
    (0 < m.qty ∧ s.step fallback m = s.acquire fallback m) ∨
      (m.qty < 0 ∧ 0 < s.held ∧ s.step fallback m = s.remove m.qty.abs) ∨
      ((m.qty < 0 → ¬ 0 < s.held) ∧ ¬ 0 < m.qty ∧ s.step fallback m = s) := by
  unfold step
  split_ifs with hzero hpos hheld
  · refine .inr (.inr ⟨fun hneg => absurd hzero hneg.ne, ?_, rfl⟩)
    rw [hzero]
    exact lt_irrefl 0
  · exact .inl ⟨hpos, rfl⟩
  · exact .inr (.inl ⟨lt_of_le_of_ne (not_lt.mp hpos) hzero, hheld, rfl⟩)
  · exact .inr (.inr ⟨fun _ => hheld, hpos, rfl⟩)

theorem Sound.step (h : s.Sound) (hm : 0 < m.qty → 0 ≤ m.toman fallback) :
    (s.step fallback m).Sound := by
  rcases step_cases fallback s m with ⟨hpos, heq⟩ | ⟨hneg, hheld, heq⟩ | ⟨-, -, heq⟩
  · rw [heq]
    have hsum : 0 < s.held + m.qty := add_pos_of_nonneg_of_pos h.held hpos
    exact ⟨hsum.le, add_nonneg h.cost (hm hpos), fun hzero => absurd hzero hsum.ne'⟩
  · rw [heq]
    rcases lt_or_ge m.qty.abs s.held with hless | hall
    · have hleft : 0 < s.held - m.qty.abs := sub_pos.mpr hless
      have hstate : (s.remove m.qty.abs).held = s.held - m.qty.abs := by simp [remove, hless]
      have hcost := (cost_remove hheld h.cost (Decimal.zero_le_abs _) hless).1
      have havg : 0 ≤ s.average := div_nonneg (Decimal.toRat_nonneg h.cost)
        (Decimal.toRat_nonneg h.held)
      refine ⟨hstate ▸ hleft.le, ?_, fun hzero => absurd (hstate ▸ hzero) hleft.ne'⟩
      rw [hstate] at hcost
      by_contra hnegative
      have hlt := Decimal.toRat_lt_toRat.mpr (not_le.mp hnegative)
      rw [Decimal.toRat_zero] at hlt
      exact absurd (hcost.trans_lt hlt) (not_lt.mpr (mul_nonneg havg (Decimal.toRat_pos hleft).le))
    · obtain ⟨hzero, hnone⟩ := remove_all hall
      exact ⟨hzero.ge, hnone.ge, fun _ => hnone⟩
  · rwa [heq]

theorem Between.step (hs : s.Sound) (h : s.Between lo hi cut) (hcut : 0 ≤ cut)
    (hm : 0 < m.qty → lo ≤ m.unitCost fallback ∧ m.unitCost fallback ≤ hi) :
    (s.step fallback m).Between lo hi (cut + roundingOf [m]) := by
  rcases step_cases fallback s m with ⟨hpos, heq⟩ | ⟨hneg, hheld, heq⟩ | ⟨hnone, hpos, heq⟩
  · have hrounding : roundingOf [m] = 0 := by simp [roundingOf, hpos.le]
    have hq := Decimal.toRat_pos hpos
    have hunit := hm hpos
    unfold StablecoinMove.unitCost at hunit
    rw [le_div_iff₀ hq, div_le_iff₀ hq] at hunit
    rw [heq, hrounding]
    constructor
    · simp only [acquire, Decimal.toRat_add]
      linarith [h.low, hunit.1]
    · simp only [acquire, Decimal.toRat_add]
      linarith [h.high, hunit.2]
  · have hrounding : roundingOf [m] = (m.qty.abs.toRat + 1) * Decimal.ulp := by
      simp [roundingOf, hneg]
    have hpositive := roundingOf_nonneg [m]
    rw [hrounding] at hpositive
    rw [heq, hrounding]
    rcases lt_or_ge m.qty.abs s.held with hless | hall
    · obtain ⟨hlow, hhigh⟩ := cost_remove hheld hs.cost (Decimal.zero_le_abs _) hless
      have hstate : (s.remove m.qty.abs).held = s.held - m.qty.abs := by simp [remove, hless]
      have hrat := Decimal.toRat_pos hheld
      have hleft := Decimal.toRat_pos (sub_pos.mpr hless)
      rw [← hstate] at hleft
      have hpart : (s.remove m.qty.abs).held.toRat ≤ s.held.toRat := by
        rw [hstate, Decimal.toRat_sub]
        linarith [Decimal.toRat_nonneg (Decimal.zero_le_abs m.qty)]
      have havgLow : lo ≤ s.average := by
        rw [average, le_div_iff₀ hrat]
        exact h.low
      have havgHigh : s.average ≤ hi + cut / s.held.toRat := by
        rw [average, div_le_iff₀ hrat, add_mul, div_mul_cancel₀ _ hrat.ne']
        exact h.high
      have hshare : cut / s.held.toRat * (s.remove m.qty.abs).held.toRat ≤ cut := by
        rw [div_mul_eq_mul_div, div_le_iff₀ hrat]
        exact mul_le_mul_of_nonneg_left hpart hcut
      constructor
      · exact (mul_le_mul_of_nonneg_right havgLow hleft.le).trans hlow
      · linarith [mul_le_mul_of_nonneg_right havgHigh hleft.le]
    · obtain ⟨hzero, hcost⟩ := remove_all hall
      constructor
      · rw [hzero, hcost, Decimal.toRat_zero, mul_zero]
      · rw [hzero, hcost, Decimal.toRat_zero, mul_zero, zero_add]
        exact add_nonneg hcut hpositive
  · have hrounding := roundingOf_nonneg [m]
    rw [heq]
    exact ⟨h.low, h.high.trans (by linarith)⟩

/-! ## Runs -/

theorem sound_coinState {moves : List StablecoinMove}
    (hcost : ∀ m ∈ moves, 0 < m.qty → 0 ≤ m.toman fallback) :
    (coinState fallback moves).Sound := by
  induction moves using List.reverseRecOn with
  | nil => exact ⟨le_rfl, le_rfl, fun _ => rfl⟩
  | append_singleton moves m ih =>
    unfold coinState at ih ⊢
    rw [List.foldl_concat]
    exact (ih fun n hn => hcost n (by simp [hn])).step (hcost m (by simp))

/-- From a state without coins on, the cost stays between the prices of the acquisitions. -/
theorem between_coinState {before after : List StablecoinMove}
    (hcost : ∀ m ∈ before ++ after, 0 < m.qty → 0 ≤ m.toman fallback)
    (hzero : (coinState fallback before).held = 0)
    (hunits : ∀ m ∈ after, 0 < m.qty → lo ≤ m.unitCost fallback ∧ m.unitCost fallback ≤ hi) :
    (coinState fallback (before ++ after)).Between lo hi (roundingOf after) := by
  induction after using List.reverseRecOn with
  | nil =>
    rw [List.append_nil] at hcost ⊢
    have hnone := (sound_coinState hcost).empty hzero
    constructor <;> simp [hzero, hnone, roundingOf]
  | append_singleton after m ih =>
    have hearlier : ∀ n ∈ before ++ after, 0 < n.qty → 0 ≤ n.toman fallback :=
      fun n hn => hcost n (by rw [← List.append_assoc]; exact List.mem_append_left _ hn)
    have hbetween := ih hearlier fun n hn => hunits n (by simp [hn])
    have hstep := hbetween.step (sound_coinState hearlier) (roundingOf_nonneg after)
      (hunits m (by simp))
    rw [roundingOf_append, ← List.append_assoc]
    unfold coinState at hstep ⊢
    rw [List.foldl_concat]
    exact hstep

end CoinState

/-- In every run whose acquisitions cost nothing negative: holding and cost are not negative; the
average lies between the prices of the acquisitions since the holding was zero, up to what was
cut; a removal of a part changes it by what is cut, a removal of all leaves nothing. -/
theorem coinState_average {fallback : Decimal} {moves : List StablecoinMove}
    (hcost : ∀ m ∈ moves, 0 < m.qty → 0 ≤ m.toman fallback) :
    let s := coinState fallback moves
    (0 ≤ s.held ∧ 0 ≤ s.cost) ∧
      (∀ before after lo hi, moves = before ++ after → (coinState fallback before).held = 0 →
        (∀ m ∈ after, 0 < m.qty → lo ≤ m.unitCost fallback ∧ m.unitCost fallback ≤ hi) →
        0 < s.held → lo ≤ s.average ∧ s.average ≤ hi + roundingOf after / s.held.toRat) ∧
      (∀ m, m.qty < 0 → m.qty.abs < s.held →
        s.average ≤ (s.step fallback m).average ∧ (s.step fallback m).average ≤
          s.average + (m.qty.abs.toRat + 1) * Decimal.ulp / (s.held - m.qty.abs).toRat) ∧
      (∀ m, m.qty < 0 → s.held ≤ m.qty.abs →
        (s.step fallback m).held = 0 ∧ (s.step fallback m).cost = 0) ∧
      (0 < s.held →
        |(foldStablecoinCost moves fallback).avgToman.toRat - s.average| ≤ 1 / 2 + Decimal.ulp) := by
  have hsound := CoinState.sound_coinState hcost
  refine ⟨⟨hsound.held, hsound.cost⟩, ?_, fun m hneg hless => ?_, fun m hneg hall => ?_,
    fun hheld => ?_⟩
  · rintro before after lo hi rfl hzero hunits hheld
    have hbetween := CoinState.between_coinState hcost hzero hunits
    have hrat := Decimal.toRat_pos hheld
    constructor
    · exact (le_div_iff₀ hrat).mpr hbetween.low
    · rw [CoinState.average, div_le_iff₀ hrat, add_mul, div_mul_cancel₀ _ hrat.ne']
      exact hbetween.high
  · have hheld : 0 < (coinState fallback moves).held := (Decimal.zero_le_abs _).trans_lt hless
    rcases CoinState.step_cases fallback (coinState fallback moves) m with ⟨hpos, -⟩ | ⟨-, -, heq⟩ |
      ⟨hnone, -, -⟩
    · exact absurd hpos hneg.not_gt
    · rw [heq]
      exact CoinState.average_remove hheld hsound.cost (Decimal.zero_le_abs _) hless
    · exact absurd hheld (hnone hneg)
  · rcases CoinState.step_cases fallback (coinState fallback moves) m with ⟨hpos, -⟩ | ⟨-, -, heq⟩ |
      ⟨hnone, -, heq⟩
    · exact absurd hpos hneg.not_gt
    · rw [heq]
      exact CoinState.remove_all hall
    · have hzero := le_antisymm (not_lt.mp (hnone hneg)) hsound.held
      rw [heq]
      exact ⟨hzero, hsound.empty hzero⟩
  · have hshown : (foldStablecoinCost moves fallback).avgToman =
        ((coinState fallback moves).cost.div (coinState fallback moves).held).toFixed 0 := if_pos hheld
    have hfixed := Decimal.abs_toFixed_sub_le
      ((coinState fallback moves).cost.div (coinState fallback moves).held)
    have hquotient := Decimal.abs_div_sub_le (coinState fallback moves).cost hheld.ne'
    rw [hshown]
    exact (abs_sub_le _ _ _).trans (add_le_add hfixed hquotient)

/-- Three coins for 100 Toman, and one of them sold. -/
def threeCoins : List StablecoinMove :=
  [⟨.ofInt 3, .ofInt 3, none, .ofInt 100, 0, 0⟩, ⟨.ofInt (-1), .ofInt (-1), none, 0, 0, 0⟩]

theorem coinState_average_threeCoins :
    100 / 3 ≤ (coinState 0 threeCoins).average ∧
      (coinState 0 threeCoins).average ≤ 100 / 3 + roundingOf threeCoins / 2 := by
  have hcost : ∀ m ∈ threeCoins, 0 < m.qty → 0 ≤ m.toman 0 := by decide
  have hunits : ∀ m ∈ threeCoins, 0 < m.qty →
      (100 / 3 : ℚ) ≤ m.unitCost 0 ∧ m.unitCost 0 ≤ 100 / 3 := by
    simp only [threeCoins, List.forall_mem_cons, List.not_mem_nil, false_implies, implies_true,
      and_true]
    have hfirst : StablecoinMove.unitCost 0 ⟨.ofInt 3, .ofInt 3, none, .ofInt 100, 0, 0⟩ =
        100 / 3 := by
      have htoman : StablecoinMove.toman 0 ⟨.ofInt 3, .ofInt 3, none, .ofInt 100, 0, 0⟩ =
          .ofInt 100 := by decide
      rw [StablecoinMove.unitCost, htoman, Decimal.toRat_ofInt, Decimal.toRat_ofInt]
      norm_num
    exact ⟨fun _ => ⟨hfirst.ge, hfirst.le⟩, fun hpos => absurd hpos (by decide)⟩
  have hheld : (coinState 0 threeCoins).held = .ofInt 2 := by decide
  have h := (coinState_average hcost).2.1 [] threeCoins _ _ rfl (by decide) hunits (by decide)
  rwa [hheld, Decimal.toRat_ofInt] at h

end Pwos
