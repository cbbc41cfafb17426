import Pwos.Rwa.Booked
import Pwos.Rwa.SoldOnce

/-!
# Toman in, Toman out

A sale of a vehicle or a property for whole Toman, into a Toman account. The price becomes
dollars, to the cent, at the rate of the sale, and Toman again at the reciprocal of the current
rate. What is credited is the price exactly where the cents are worth it (`credits_price_iff`).
-/

namespace Pwos

/-! ## Toman to dollars and back -/

/-- A price of `p` Toman in whole cents, at a rate of `s` units, half up. -/
def saleCents (p s : Int) : Int := (2 * 10 ^ 20 * p + s) / (2 * s)

/-- What `c` cents come back as, in units of Toman, where a Toman costs `u` units. -/
def unitsBack (c u : Int) : Int := if 0 < u then c * 10 ^ 34 / u else c * 10 ^ 16

theorem raw_tomanToUsd {p : Int} {s : Decimal} (hp : 0 < p) (hs : 0 < s) :
    (tomanToUsd (.ofInt p) s).raw = saleCents p s.raw * 10 ^ 16 := by
  have hsr : 0 < s.raw := Decimal.lt_iff.mp hs
  have hone : ONE = 10 ^ 18 := rfl
  have hnum : 0 ≤ p * 10 ^ 18 * 10 ^ 18 := by positivity
  have hdiv : ((Decimal.ofInt p).div s).raw = p * 10 ^ 18 * 10 ^ 18 / s.raw := by
    rw [Decimal.div, if_neg hsr.ne', Decimal.raw_ofInt, hone, Int.tdiv_eq_ediv_of_nonneg hnum]
  have hpos : 0 ≤ p * 10 ^ 18 * 10 ^ 18 / s.raw := Int.ediv_nonneg hnum hsr.le
  have hcents : (p * 10 ^ 18 * 10 ^ 18 / s.raw + 5 * 10 ^ 15) / 10 ^ 16 = saleCents p s.raw := by
    unfold saleCents
    rw [← Int.add_mul_ediv_right _ _ hsr.ne', Int.ediv_ediv_of_nonneg hsr.le]
    have h₁ : p * 10 ^ 18 * 10 ^ 18 + 5 * 10 ^ 15 * s.raw =
        5 * 10 ^ 15 * (2 * 10 ^ 20 * p + s.raw) := by ring
    have h₂ : s.raw * 10 ^ 16 = 5 * 10 ^ 15 * (2 * s.raw) := by ring
    rw [h₁, h₂, Int.mul_ediv_mul_of_pos _ _ (by norm_num)]
  rw [tomanToUsd, if_neg hs.not_ge, Decimal.toFixed]
  have hfactor : (10 : Int) ^ (SCALE - 2) = 10 ^ 16 := rfl
  simp only [hfactor, Decimal.raw_abs, hdiv, abs_of_nonneg hpos, if_neg hpos.not_gt]
  rw [← hcents]
  norm_num

theorem raw_unitPrice {r : Decimal} (hr : 0 < r) :
    ((Decimal.ofInt 1).div r).raw = 10 ^ 36 / r.raw := by
  have hrr : 0 < r.raw := Decimal.lt_iff.mp hr
  rw [Decimal.div, if_neg hrr.ne', Decimal.raw_ofInt]
  have hnum : 1 * ONE * ONE = 10 ^ 36 := by norm_num [ONE]
  rw [hnum, Int.tdiv_eq_ediv_of_nonneg (by norm_num)]

theorem raw_cashUnits {usd unit : Decimal} {c : Int} (hc : 0 ≤ c)
    (husd : usd.raw = c * 10 ^ 16) : (cashUnits usd unit).raw = unitsBack c unit.raw := by
  have hone : ONE = 10 ^ 18 := rfl
  have hiff : 0 < unit ↔ 0 < unit.raw := Decimal.lt_iff
  unfold cashUnits unitsBack
  simp only [hiff]
  split
  · rename_i hu
    have h : c * 10 ^ 16 * 10 ^ 18 = c * 10 ^ 34 := by ring
    rw [Decimal.div, if_neg hu.ne', husd, hone, h, Int.tdiv_eq_ediv_of_nonneg (by positivity)]
  · exact husd

theorem unitsBack_nonneg {c u : Int} (hc : 0 ≤ c) : 0 ≤ unitsBack c u := by
  unfold unitsBack
  split
  · exact Int.ediv_nonneg (by positivity) (by omega)
  · positivity

/-- Whole Toman come back from a property when the cents are worth that at the unit price. -/
theorem unitsBack_eq_iff {c u p : Int} (hu : 0 ≤ u) : unitsBack c u = p * 10 ^ 18 ↔
    (0 < u ∧ p * 10 ^ 18 * u ≤ c * 10 ^ 34 ∧ c * 10 ^ 34 < p * 10 ^ 18 * u + u) ∨
      (u = 0 ∧ c = 100 * p) := by
  unfold unitsBack
  split
  · rename_i hpos
    rw [Int.ediv_eq_iff_of_pos hpos]
    constructor
    · exact fun h => .inl ⟨hpos, h⟩
    · rintro (⟨-, h⟩ | ⟨h, -⟩)
      · exact h
      · omega
  · constructor
    · exact fun h => .inr ⟨by omega, by omega⟩
    · rintro (⟨h, -⟩ | ⟨-, h⟩)
      · omega
      · omega

/-- What a disposal without a fee credits: the units of a dollar, times the dollars. -/
theorem raw_disposalCash {cmd : RegistryDisposalCmd} {c q : Int} (hc : 0 < c) (hq : 0 ≤ q)
    (hfee : cmd.feeBase = 0) (hproceeds : cmd.proceedsBase.raw = c * 10 ^ 16)
    (hcash : cmd.cashQuantity.raw = q) : cmd.cashLine.quantity.raw =
      if c * (100 * q / c) / 100 = 0 then c * 10 ^ 16 else c * (100 * q / c) / 100 := by
  have hone : ONE = 10 ^ 18 := rfl
  have hnet : cmd.net.raw = c * 10 ^ 16 := by
    rw [RegistryDisposalCmd.net, hfee, sub_zero, hproceeds]
  have hne : cmd.proceedsBase ≠ 0 := by
    intro h
    rw [h, Decimal.raw_zero] at hproceeds
    omega
  have hunits : cmd.cashUnitsPerUsd.raw = 100 * q / c := by
    have hraw : cmd.proceedsBase.raw ≠ 0 := by omega
    rw [RegistryDisposalCmd.cashUnitsPerUsd, if_neg hne, Decimal.div, if_neg hraw, hcash,
      hproceeds, hone, Int.tdiv_eq_ediv_of_nonneg (by positivity)]
    have h₁ : q * 10 ^ 18 = 100 * q * 10 ^ 16 := by ring
    rw [h₁, Int.mul_ediv_mul_of_pos_left _ _ (by norm_num)]
  have hk : 0 ≤ 100 * q / c := Int.ediv_nonneg (by positivity) hc.le
  have hquantity : (cmd.net.mul cmd.cashUnitsPerUsd).raw = c * (100 * q / c) / 100 := by
    rw [Decimal.raw_mul, hnet, hunits, hone, Int.tdiv_eq_ediv_of_nonneg (by positivity)]
    have h₁ : c * 10 ^ 16 * (100 * q / c) = c * (100 * q / c) * 10 ^ 16 := by ring
    have h₂ : (10 : Int) ^ 18 = 100 * 10 ^ 16 := by norm_num
    rw [h₁, h₂, Int.mul_ediv_mul_of_pos_left _ _ (by norm_num)]
  have hzero : cmd.net.mul cmd.cashUnitsPerUsd = 0 ↔ c * (100 * q / c) / 100 = 0 := by
    rw [← hquantity]
    exact ⟨fun h => by rw [h]; rfl, fun h => Decimal.raw_injective h⟩
  unfold RegistryDisposalCmd.cashLine safeQty
  dsimp only
  simp only [hzero]
  split
  · rw [Decimal.raw_abs, hnet, abs_of_pos (by positivity)]
  · exact hquantity

/-- The same for a vehicle, whose units are divided by the dollars and multiplied again. A unit
price of at most one dollar for a unit of Toman is never lost on the way. -/
theorem disposalUnits_eq_iff {c u p q : Int} (hp : 0 < p) (hc : 0 < c) (hu : u ≤ 10 ^ 36)
    (hq : q = unitsBack c u) :
    (if c * (100 * q / c) / 100 = 0 then c * 10 ^ 16 else c * (100 * q / c) / 100) = p * 10 ^ 18 ↔
      p * 10 ^ 18 * 100 ≤ c * (100 * q / c) ∧ c * (100 * q / c) < p * 10 ^ 18 * 100 + 100 := by
  rw [← Int.ediv_eq_iff_of_pos (by norm_num : (0 : Int) < 100)]
  split
  · rename_i hzero
    constructor
    · intro h
      have hc' : c = 100 * p := by omega
      have hpq : p ≤ q := by
        rw [hq, unitsBack]
        split
        · rename_i hpos
          rw [Int.le_ediv_iff_mul_le hpos, hc']
          nlinarith
        · omega
      have hk : 1 ≤ 100 * q / c := by
        rw [Int.le_ediv_iff_mul_le hc]
        omega
      have hck : c * 1 ≤ c * (100 * q / c) := Int.mul_le_mul_of_nonneg_left hk hc.le
      omega
    · intro h
      omega
  · exact Iff.rfl

/-! ## The sales -/

inductive RegistrySale where
  | vehicle (input : SellVehicleInput)
  | property (input : SellRealEstateInput)

namespace RegistrySale
variable (history : IsoDate → Option DatedRate) (formatMoney : Decimal → String) (env : Env) (db : Db)

/-- The call, with the entry it books. -/
def program : RegistrySale → Sql (Option Uuid)
  | .vehicle input => sellVehicle history env input
  | .property input => do
    let sold ← sellRealEstateAsset history formatMoney env input
    pure (some sold.ledgerEntryId)

def userId : RegistrySale → Option Uuid
  | .vehicle input => input.userId
  | .property input => input.userId

def salePriceToman : RegistrySale → Decimal
  | .vehicle input => input.salePriceToman
  | .property input => input.salePriceToman

def payout : RegistrySale → Sql (Option PayoutAccount)
  | .vehicle input => vehiclePayout input
  | .property input => resolvePayoutAccount input.saleAccountId input.userId

/-- What the proceeds are booked under. -/
def proceedsMemo : RegistrySale → String
  | .vehicle _ => "واریز وجه فروش"
  | .property _ => "واریز وجه فروش ملک"

/-- The rate of the sale, given or found. -/
def saleRate : RegistrySale → Option Decimal
  | .vehicle input => input.saleDate.bind fun saleDate =>
    ((vehicleSaleRate history env input saleDate).answer db).toOption
  | .property input => input.saleDate.bind fun saleDate =>
    (((propertySaleRate history env input saleDate).answer db).map (·.rate)).toOption

/-- A sale for `p` Toman into the Toman account `cash`, at the rate `s`, while the user's current
rate is `r`. -/
structure InToman (c : RegistrySale) (p : Int) (cash : PayoutAccount) (s r : Decimal) : Prop where
  price : c.salePriceToman = .ofInt p
  payout : c.payout.answer db = .ok (some cash)
  toman : db.unitOf cash.assetId = "IRT"
  saleRate : c.saleRate history env db = some s
  current : ∃ fx, (getLatestUsdIrtRateForUser c.userId).answer db = .ok fx ∧ fx.rate = r

/-- The entry credits the account with `toman`, and as much is frozen with it. -/
def Credits (c : RegistrySale) (cash : PayoutAccount) (toman : Decimal) (entryId : Uuid) : Prop :=
  (∃ p ∈ db.postingsOf entryId, p.memo = some c.proceedsMemo ∧ p.accountId = cash.id ∧
    p.assetId = cash.assetId ∧ p.quantity = toman) ∧
    ∃ f ∈ db.snapshotOf entryId, ∃ a ∈ f.amounts, a.irtAmount = toman

/-- The price of `p` Toman comes back from the cents it is worth at the rate of `s` units when a
Toman costs the reciprocal of the rate of `r` units. -/
def ReturnsPrice (p s r : Int) : RegistrySale → Prop
  | .property _ =>
    let cents := saleCents p s
    let unit := 10 ^ 36 / r
    (0 < unit ∧ p * 10 ^ 18 * unit ≤ cents * 10 ^ 34 ∧
      cents * 10 ^ 34 < p * 10 ^ 18 * unit + unit) ∨ (unit = 0 ∧ cents = 100 * p)
  | .vehicle _ =>
    let cents := saleCents p s
    let perDollar := 100 * unitsBack cents (10 ^ 36 / r) / cents
    p * 10 ^ 18 * 100 ≤ cents * perDollar ∧ cents * perDollar < p * 10 ^ 18 * 100 + 100

instance (p s r : Int) (c : RegistrySale) : Decidable (c.ReturnsPrice p s r) :=
  match c with
  | .property _ => inferInstanceAs (Decidable (_ ∨ _))
  | .vehicle _ => inferInstanceAs (Decidable (_ ∧ _))

end RegistrySale

/-! ## What is credited -/

section Credits
variable {history : IsoDate → Option DatedRate} {formatMoney : Decimal → String} {env : Env}
  {db db' : Db}

/-- The price of a Toman, whether the rate is a real one or not. -/
theorem irtPrice_ok {assetId : Uuid} {userId : Option Uuid} {fx : FxSnapshot} {unit : Decimal}
    (htoman : db.unitOf assetId = "IRT")
    (hfx : (getLatestUsdIrtRateForUser userId).answer db = .ok fx)
    (h : (nativeUnitPriceUsd assetId userId).answer db = .ok unit) :
    0 < fx.rate ∧ unit = (Decimal.ofInt 1).div fx.rate := by
  have hrun := (readOnly_nativeUnitPriceUsd _ _).run_ok.mpr ⟨h, rfl⟩
  unfold nativeUnitPriceUsd at hrun
  have hsymbol : upper (((db.findAsset assetId).map (·.symbol)).getD "") = "IRT" := htoman
  rw [Tx.run_read_bind] at hrun
  simp only [hsymbol, if_true] at hrun
  rw [Tx.run_bind_of_ok ((readOnly_getLatestUsdIrtRateForUser _).run_ok.mpr ⟨hfx, rfl⟩),
    Tx.run_require_bind] at hrun
  split at hrun
  · rename_i hpos
    cases hrun
    exact ⟨hpos, rfl⟩
  · cases hrun

theorem unitOf_withChart {accounts : List Account} {assets : List Asset} {assetId : Uuid}
    (h : db.unitOf assetId = "IRT") : (db.withChart accounts assets).unitOf assetId = "IRT" := by
  cases hfind : db.findAsset assetId with
  | none =>
    rw [Db.unitOf, hfind] at h
    exact absurd h (by decide)
  | some a =>
    have hchart : (db.withChart accounts assets).findAsset assetId = some a := by
      have hfind : db.assets.find? (·.id = assetId) = some a := hfind
      simp [Db.findAsset, Db.withChart, List.find?_append, hfind]
    rw [Db.unitOf, hchart, ← hfind]
    exact h

/-- One line of an entry is known by its memo. -/
theorem line_by_memo {before after : List DraftPosting} {line : DraftPosting} {memo : String}
    {id : Uuid} {cash : PayoutAccount} {toman : Decimal} (hline : line.memo = some memo)
    (haccount : line.accountId = cash.id) (hasset : line.assetId = cash.assetId)
    (hbefore : ∀ l ∈ before, l.memo ≠ some memo) (hafter : ∀ l ∈ after, l.memo ≠ some memo) :
    (∃ p ∈ (before ++ line :: after).map (DraftPosting.row id), p.memo = some memo ∧
      p.accountId = cash.id ∧ p.assetId = cash.assetId ∧ p.quantity = toman) ↔
      line.quantity = toman := by
  constructor
  · rintro ⟨p, hp, hmemo, -, -, hquantity⟩
    obtain ⟨l, hl, rfl⟩ := List.mem_map.mp hp
    rcases List.mem_append.mp hl with hl | hl
    · exact absurd hmemo (hbefore l hl)
    · rcases List.mem_cons.mp hl with rfl | hl
      · exact hquantity
      · exact absurd hmemo (hafter l hl)
  · intro h
    exact ⟨line.row id, List.mem_map_of_mem (by simp), hline, haccount, hasset, h⟩

/-- The entry is new, and so is its snapshot. -/
theorem credits_iff {c : RegistrySale} {cash : PayoutAccount} {p : Int} {before after : List DraftPosting}
    {line : DraftPosting} {f : EntryFxSnapshot} {a : FrozenAmounts}
    (hpostings : db'.postingsOf env.entryId =
      (before ++ line :: after).map (DraftPosting.row env.entryId))
    (hsnapshot : db'.snapshotOf env.entryId = some f) (hamounts : f.amounts = some a)
    (hirt : a.irtAmount = .ofInt p) (hline : line.memo = some c.proceedsMemo)
    (haccount : line.accountId = cash.id) (hasset : line.assetId = cash.assetId)
    (hbefore : ∀ l ∈ before, l.memo ≠ some c.proceedsMemo)
    (hafter : ∀ l ∈ after, l.memo ≠ some c.proceedsMemo) :
    c.Credits db' cash (.ofInt p) env.entryId ↔ line.quantity.raw = p * 10 ^ 18 := by
  have hfrozen : ∃ f ∈ db'.snapshotOf env.entryId, ∃ a ∈ f.amounts, a.irtAmount = .ofInt p :=
    ⟨f, hsnapshot, a, hamounts, hirt⟩
  unfold RegistrySale.Credits
  rw [and_iff_left hfrozen, hpostings, line_by_memo hline haccount hasset hbefore hafter]
  exact ⟨fun h => by rw [h]; rfl, fun h => Decimal.raw_injective h⟩

/-- The snapshot of a new entry. -/
theorem snapshotOf_new {f : EntryFxSnapshot} {id : Uuid} (hnew : ∀ g ∈ db.entryFxSnapshots, g.entryId ≠ id)
    (hf : f.entryId = id) : (Write.apply (.insertFxSnapshot f) db).snapshotOf id = some f := by
  have hnone : db.entryFxSnapshots.find? (·.entryId = id) = none := by
    rw [List.find?_eq_none]
    simpa using hnew
  simp [Db.snapshotOf, Write.apply, List.find?_append, hnone, hf]

theorem vehicle_credits_iff {input : SellVehicleInput} {p : Int} {cash : PayoutAccount}
    {s r : Decimal} (h : (RegistrySale.vehicle input).InToman history env db p cash s r)
    (hnew : db.Unused env.entryId)
    (hok : (sellVehicle history env input).run db = .ok (some env.entryId, db')) :
    (RegistrySale.vehicle input).Credits db' cash (.ofInt p) env.entryId ↔
      (RegistrySale.vehicle input).ReturnsPrice p s.raw r.raw := by
  obtain ⟨v⟩ := sellVehicle_ok hok
  -- What the call was given.
  have hprice : input.salePriceToman = .ofInt p := h.price
  have hp : 0 < p := by
    have := v.price
    rwa [hprice, ← Decimal.ofInt_zero, Decimal.ofInt_lt] at this
  obtain rfl : v.cash = cash := by
    have := v.payout.symm.trans h.payout
    simpa using this
  obtain rfl : v.rate = s := by
    have hrate := h.saleRate
    simp only [RegistrySale.saleRate, v.date, Option.bind_some, v.rated] at hrate
    exact Option.some.inj hrate
  set columns := input.columns v.saleDate v.rate with hcolumns
  set cmd := input.disposal v.row columns v.cash v.unitPriceUsd with hcmd
  have hfixed : columns.salePriceToman = .ofInt p := by
    rw [hcolumns, SellVehicleInput.columns, hprice]
    exact Decimal.toFixed_ofInt p
  have husd : columns.saleValueUsd = tomanToUsd (.ofInt p) v.rate := by
    rw [← hfixed]
    rfl
  -- The dollars, in whole cents.
  have hnet : cmd.net = columns.saleValueUsd := sub_zero _
  have hpos : 0 < columns.saleValueUsd := hnet ▸ v.steps.net
  have hs : 0 < v.rate := by
    by_contra hle
    rw [husd, tomanToUsd, if_pos (not_lt.mp hle)] at hpos
    exact lt_irrefl _ hpos
  have hraw : columns.saleValueUsd.raw = saleCents p v.rate.raw * 10 ^ 16 := by
    rw [husd, raw_tomanToUsd hp hs]
  have hc : 0 < saleCents p v.rate.raw := by
    rw [Decimal.lt_iff, Decimal.raw_zero, hraw] at hpos
    omega
  -- The unit price, at the current rate.
  obtain ⟨fx, hfx, rfl⟩ := h.current
  set sold := Write.apply (.sellVehicle input.vehicleId columns) db with hsold
  have htoman : sold.unitOf v.cash.assetId = "IRT" := h.toman
  have hrates : sold.userFxSettings = db.userFxSettings := rfl
  have hfx' := (latestRate_congr hrates rfl rfl input.userId).trans hfx
  obtain ⟨hr, hunit⟩ := irtPrice_ok htoman hfx' v.unit
  have hu : v.unitPriceUsd.raw = 10 ^ 36 / fx.rate.raw := by rw [hunit, raw_unitPrice hr]
  have hrr : 0 < fx.rate.raw := Decimal.lt_iff.mp hr
  have hule : (10 : Int) ^ 36 / fx.rate.raw ≤ 10 ^ 36 := Int.ediv_le_self _ (by norm_num)
  have hcash : cmd.cashQuantity.raw =
      unitsBack (saleCents p v.rate.raw) (10 ^ 36 / fx.rate.raw) := by
    rw [← hu]
    exact raw_cashUnits hc.le hraw
  -- The entry.
  obtain ⟨accounts, assets, hchart⟩ := resultLines_chart v.steps.counter
  have hunused : v.steps.db₁.Unused env.entryId := by
    rw [hchart]
    exact withChart_unused ⟨hnew.entry, hnew.posting, hnew.snapshot⟩
  obtain ⟨userId, -, hentry⟩ := postEntry_new rfl rfl hunused v.entry v.steps.entry
  set f : EntryFxSnapshot := ⟨env.entryId, columns.saleUsdRate,
    some ⟨columns.salePriceToman.toFixed 0, columns.saleValueUsd, columns.saleDate⟩⟩ with hf
  have hsnapshots : ∀ g ∈ v.steps.db₂.entryFxSnapshots, g.entryId ≠ f.entryId := by
    rw [hentry]
    exact hunused.snapshot
  have hdb' : db' = Write.apply (.insertFxSnapshot f) v.steps.db₂ := by
    have hfrozen : (freezeRate f).run v.steps.db₂ = .ok ((), db') := by
      have := v.steps.frozen
      rw [v.entry] at this
      exact this
    rw [freezeRate_new hsnapshots] at hfrozen
    exact (Prod.mk.inj (Except.ok.inj hfrozen)).2.symm
  have hbooked : v.steps.db₂.postingsOf env.entryId =
      (cmd.assetLines v.steps.account v.disposal.carryingBase ++ cmd.cashLine ::
        v.steps.result).map (DraftPosting.row env.entryId) := by
    rw [hentry]
    exact postingsOf_withEntry hunused
  have hpostings := (congrArg (Db.postingsOf · env.entryId) hdb').trans hbooked
  have hsnapshot := (congrArg (Db.snapshotOf · env.entryId) hdb').trans (snapshotOf_new hsnapshots rfl)
  refine (credits_iff hpostings hsnapshot rfl ?_ rfl rfl rfl ?_ ?_).trans ?_
  · dsimp only
    rw [hfixed, Decimal.toFixed_ofInt]
  · intro l hl
    unfold RegistryDisposalCmd.assetLines at hl
    split at hl
    · cases hl
    · obtain ⟨a, -, rfl⟩ := List.mem_map.mp hl
      change some "فروش خودرو (بهای ثبت‌شده: صفر)" ≠ some "واریز وجه فروش"
      decide
  · intro l hl
    obtain ⟨-, hnone, -⟩ | ⟨-, counter, -, hone⟩ := resultLines_ok v.steps.counter
    · rw [hnone] at hl
      cases hl
    · rw [hone, List.mem_singleton] at hl
      rw [hl]
      unfold RegistryDisposalCmd.resultLine RegistrySale.proceedsMemo
      dsimp only
      split <;> decide
  · rw [raw_disposalCash hc (unitsBack_nonneg hc.le) rfl hraw hcash]
    exact disposalUnits_eq_iff hp hc hule rfl

/-- Taking a property off the register leaves the ledger and the snapshots. -/
theorem removeProperty_ok {prop : RealEstateProperty} (h : (removeProperty prop).run db = .ok ((), db')) :
    db'.postings = db.postings ∧ db'.entryFxSnapshots = db.entryFxSnapshots := by
  unfold removeProperty at h
  rw [Tx.run_write_bind, Tx.run_write_bind, Tx.run_write] at h
  cases h
  exact ⟨rfl, rfl⟩

theorem assetLine_memo (sale : PropertySale) (accountId : Uuid) :
    (sale.assetLine formatMoney accountId).memo ≠ some "واریز وجه فروش ملک" := by
  unfold PropertySale.assetLine
  intro h
  have hchars := congrArg String.toList (Option.some.inj h)
  rw [String.toList_append] at hchars
  exact absurd (List.cons.inj hchars).1 (by decide)

theorem propertyResultLines_mem {input : SellRealEstateInput} {sale : PropertySale}
    {usdAssetId : Uuid} {result : List DraftPosting} {l : DraftPosting}
    (h : (propertyResultLines env input sale usdAssetId).run db = .ok (result, db'))
    (hl : l ∈ result) : ∃ accountId assetId unit, l = sale.resultLine accountId assetId unit := by
  unfold propertyResultLines at h
  split at h
  · cases h
    cases hl
  · obtain ⟨account, _, h₁, k₁⟩ := Tx.run_bind_ok.mp h
    obtain ⟨account, _, h₂, k₂⟩ := Tx.run_bind_ok.mp k₁
    obtain ⟨unit, _, h₃, k₃⟩ := Tx.run_bind_ok.mp k₂
    cases k₃
    exact ⟨_, _, _, List.mem_singleton.mp hl⟩

theorem property_credits_iff {input : SellRealEstateInput} {p : Int} {cash : PayoutAccount}
    {s r : Decimal} {sold : SoldRealEstate}
    (h : (RegistrySale.property input).InToman history env db p cash s r)
    (hnew : db.Unused env.entryId) (hid : sold.ledgerEntryId = env.entryId)
    (hok : (sellRealEstateAsset history formatMoney env input).run db = .ok (sold, db')) :
    (RegistrySale.property input).Credits db' cash (.ofInt p) env.entryId ↔
      (RegistrySale.property input).ReturnsPrice p s.raw r.raw := by
  obtain ⟨v⟩ := sellRealEstateAsset_ok hok
  -- What the call was given.
  have hprice : v.sale.salePrice = .ofInt p := v.priced.asked.trans h.price
  have hp : 0 < p := by
    have := v.priced.price
    rwa [← v.priced.asked, hprice, ← Decimal.ofInt_zero, Decimal.ofInt_lt] at this
  obtain rfl : v.sale.cash = cash := by
    have := v.priced.payout.symm.trans h.payout
    simpa using this
  obtain rfl : v.sale.fx.rate = s := by
    have hrate := h.saleRate
    simp only [RegistrySale.saleRate, v.priced.date, Option.bind_some, v.priced.rated] at hrate
    exact Option.some.inj hrate
  have hs : 0 < v.sale.fx.rate := v.priced.rate
  have hfixed : v.sale.salePrice.toFixed 0 = .ofInt p := by
    rw [hprice]
    exact Decimal.toFixed_ofInt p
  have hraw : v.sale.valueUsd.raw = saleCents p v.sale.fx.rate.raw * 10 ^ 16 := by
    rw [PropertySale.valueUsd, hfixed, raw_tomanToUsd hp hs]
  have hc : 0 ≤ saleCents p v.sale.fx.rate.raw := by
    have hsr : 0 < v.sale.fx.rate.raw := Decimal.lt_iff.mp hs
    exact Int.ediv_nonneg (by positivity) (by omega)
  -- The unit price, over the chart as it has grown.
  obtain ⟨as₁, bs₁, h₁⟩ := extendsChart_run
    (extendsChart_of_accounts (ensureRealEstateLedgerAccounts_writesOnly env)) v.chart
  obtain ⟨as₂, bs₂, h₂⟩ := extendsChart_run (ensureUsdAssetId_writesOnly env) v.dollar
  obtain ⟨as₃, bs₃, h₃⟩ := extendsChart_run
    (extendsChart_of_accounts (propertyResultLines_writesOnly _ _ _ _)) v.counter
  obtain ⟨fx, hfx, rfl⟩ := h.current
  have htoman : v.db₂.unitOf v.sale.cash.assetId = "IRT" := by
    rw [h₂, h₁]
    exact unitOf_withChart (unitOf_withChart h.toman)
  have hrates : v.db₂.userFxSettings = db.userFxSettings := by
    rw [h₂, h₁]
    rfl
  have hstored : v.db₂.exchangeRates = db.exchangeRates := by
    rw [h₂, h₁]
    rfl
  have hsettings : v.db₂.settings = db.settings := by
    rw [h₂, h₁]
    rfl
  have hfx' := (latestRate_congr hrates hstored hsettings input.userId).trans hfx
  obtain ⟨hr, hunit⟩ := irtPrice_ok htoman hfx' v.unit
  have hu : v.unitPriceUsd.raw = 10 ^ 36 / fx.rate.raw := by rw [hunit, raw_unitPrice hr]
  have hrr : 0 < fx.rate.raw := Decimal.lt_iff.mp hr
  -- The entry.
  have hunused : v.db₃.Unused env.entryId := by
    rw [h₃, h₂, h₁]
    exact withChart_unused (withChart_unused (withChart_unused hnew))
  obtain ⟨userId, -, hentry⟩ := postEntry_new rfl rfl hunused (v.posted_id.trans hid) v.entry
  set f : EntryFxSnapshot := v.sale.snapshot env.entryId with hf
  have hsnapshots : ∀ g ∈ v.db₄.entryFxSnapshots, g.entryId ≠ f.entryId := by
    rw [hentry]
    exact hunused.snapshot
  have hdb₅ : v.db₅ = Write.apply (.insertFxSnapshot f) v.db₄ := by
    have hfrozen := v.frozen
    rw [v.posted_id.trans hid, freezeRate_new hsnapshots] at hfrozen
    exact (Prod.mk.inj (Except.ok.inj hfrozen)).2.symm
  obtain ⟨hlines, hfx⟩ := removeProperty_ok v.removed
  have hpostings : db'.postingsOf env.entryId =
      ([v.sale.assetLine formatMoney v.accounts.assetAccountId] ++
        v.sale.cashLine v.unitPriceUsd :: v.result).map (DraftPosting.row env.entryId) := by
    unfold Db.postingsOf
    rw [hlines, hdb₅]
    change v.db₄.postingsOf env.entryId = _
    rw [hentry]
    exact postingsOf_withEntry hunused
  have hsnapshot : db'.snapshotOf env.entryId = some f := by
    unfold Db.snapshotOf
    rw [hfx, hdb₅]
    exact snapshotOf_new hsnapshots rfl
  refine (credits_iff hpostings hsnapshot rfl hfixed rfl rfl rfl ?_ ?_).trans ?_
  · intro l hl
    rw [List.mem_singleton.mp hl]
    exact assetLine_memo _ _
  · intro l hl hmemo
    obtain ⟨account, assetId, unit, rfl⟩ := propertyResultLines_mem v.counter hl
    change some "سود/زیان تحقق‌یافته از فروش ملک" = some "واریز وجه فروش ملک" at hmemo
    exact absurd hmemo (by decide)
  · change (cashUnits v.sale.valueUsd v.unitPriceUsd).raw = p * 10 ^ 18 ↔ _
    rw [raw_cashUnits hc hraw, hu]
    exact unitsBack_eq_iff (Int.ediv_nonneg (by norm_num) hrr.le)

/-- A sale in Toman that books its entry credits the price, and freezes it with the entry, exactly
where the cents at the rate of the sale come back as the price at the current rate. -/
theorem credits_price_iff {c : RegistrySale} {p : Int} {cash : PayoutAccount} {s r : Decimal}
    (h : c.InToman history env db p cash s r) (hnew : db.Unused env.entryId)
    (hok : (c.program history formatMoney env).run db = .ok (some env.entryId, db')) :
    c.Credits db' cash (.ofInt p) env.entryId ↔ c.ReturnsPrice p s.raw r.raw := by
  cases c with
  | vehicle input => exact vehicle_credits_iff h hnew hok
  | property input =>
    obtain ⟨sold, _, h₁, k₁⟩ := Tx.run_bind_ok.mp hok
    obtain ⟨hid, rfl⟩ := Prod.mk.inj (Except.ok.inj k₁)
    exact property_credits_iff h hnew (Option.some.inj hid) h₁

end Credits

/-! ## A car for Toman -/

/-- A car and a Toman account, while a dollar is worth so many Toman. -/
def tomanGarage (rate : Int) : Db :=
  { users := [1]
    assets := [⟨1, "IRT", "CASH", false⟩, ⟨2, "001", "RWA", false⟩]
    accounts := [⟨11, 0, some 1, "1010", "بانک", .asset, some 1, false⟩,
      ⟨12, 0, some 1, OPENING_EQUITY_CODE, "سرمایه افتتاحیه", .equity, some 1, false⟩]
    userFxSettings := [⟨1, .ofInt rate⟩]
    vehicleAssets := [{ id := 5, userId := some 1, assetId := 2, brand := "پژو", model := "۲۰۶" }] }

def tomanCarSale (price rate : Int) : SellVehicleInput :=
  { vehicleId := 5, saleDate := some 20260501, salePriceToman := .ofInt price
    saleUsdRate := some (.ofInt rate), saleAccountId := some 11, userId := some 1 }

theorem upper_irt : upper "IRT" = "IRT" := by decide

/-- The sale, at the current rate. -/
theorem tomanCarSale_inToman (price rate : Int) : (RegistrySale.vehicle (tomanCarSale price rate)).InToman
    (fun _ => none) { entryId := 1 } (tomanGarage rate) price ⟨11, 1⟩ (.ofInt rate) (.ofInt rate) :=
  ⟨rfl, rfl, upper_irt, rfl, ⟨.ofInt rate, .userSettings⟩, rfl, rfl⟩

theorem tomanGarage_unused (rate : Int) : (tomanGarage rate).Unused 1 :=
  ⟨by simp [tomanGarage], by simp [tomanGarage], by simp [tomanGarage]⟩

theorem round_price_credited : ∃ db',
    ((RegistrySale.vehicle (tomanCarSale 500000000 100000)).program (fun _ => none) (fun _ => "")
      { entryId := 1 }).run (tomanGarage 100000) = .ok (some 1, db') ∧
    (RegistrySale.vehicle (tomanCarSale 500000000 100000)).Credits db' ⟨11, 1⟩ (.ofInt 500000000) 1 := by
  have hok : ∃ db', ((RegistrySale.vehicle (tomanCarSale 500000000 100000)).program
      (fun _ => none) (fun _ => "") { entryId := 1 }).run (tomanGarage 100000) =
        .ok (some 1, db') := ⟨_, rfl⟩
  obtain ⟨db', hok⟩ := hok
  refine ⟨db', hok, ?_⟩
  rw [credits_price_iff (tomanCarSale_inToman _ _) (tomanGarage_unused _) hok]
  decide

/-- At 190000 Toman, the dollars of a price of a billion are worth 400 Toman more. -/
theorem odd_price_lost : (RegistrySale.vehicle (tomanCarSale 1000000000 190000)).InToman
    (fun _ => none) { entryId := 1 } (tomanGarage 190000) 1000000000 ⟨11, 1⟩ (.ofInt 190000)
      (.ofInt 190000) ∧ (tomanGarage 190000).Unused 1 ∧ ∃ db',
    ((RegistrySale.vehicle (tomanCarSale 1000000000 190000)).program (fun _ => none) (fun _ => "")
      { entryId := 1 }).run (tomanGarage 190000) = .ok (some 1, db') ∧
    ¬ (RegistrySale.vehicle (tomanCarSale 1000000000 190000)).Credits db' ⟨11, 1⟩
      (.ofInt 1000000000) 1 := by
  refine ⟨tomanCarSale_inToman _ _, tomanGarage_unused _, _, rfl, ?_⟩
  rw [vehicle_credits_iff (tomanCarSale_inToman _ _) (tomanGarage_unused _) rfl]
  decide

end Pwos
