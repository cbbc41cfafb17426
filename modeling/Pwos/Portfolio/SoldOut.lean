import Pwos.Ledger.CounterLegs
import Pwos.Portfolio.Holdings

/-!
# Selling a position in full

`recordBuy` opens a lot at the unit cost `value / quantity`, and each `recordSell` takes its
quantity at that cost off the asset account. Both are truncated. The account is back where it
was exactly when neither truncation cuts anything off (`position_closed_iff`).
-/

namespace Pwos

/-! ## What the sales take off -/

/-- Neither the unit cost of the lot nor the cost of a sale has more than eighteen decimals. -/
def ExactCost (quantity value : Decimal) (sold : List Decimal) : Prop :=
  ∃ unit : Int, quantity.raw * unit = value.raw * ONE ∧
    ∀ q ∈ sold, ONE ∣ q.raw * unit

theorem sum_mul_add_loss (unit : Int) (sold : List Decimal) :
    ONE * (sold.map fun q => q.raw * unit / ONE).sum +
      (sold.map fun q => q.raw * unit % ONE).sum = sold.sum.raw * unit := by
  induction sold with
  | nil => simp
  | cons q sold ih =>
    simp only [List.map_cons, List.sum_cons, Decimal.raw_add, mul_add, add_mul]
    have := Int.mul_ediv_add_emod (q.raw * unit) ONE
    omega

theorem soldCost_eq_iff {quantity value : Decimal} {sold : List Decimal} (hquantity : 0 < quantity)
    (hvalue : 0 ≤ value) (hsold : ∀ q ∈ sold, 0 < q) (hsum : sold.sum = quantity) :
    (sold.map fun q => q.mul (value.div quantity)).sum = value ↔ ExactCost quantity value sold := by
  have hq : 0 < quantity.raw := Decimal.lt_iff.mp hquantity
  have hv : 0 ≤ value.raw := Decimal.le_iff.mp hvalue
  have hone := Decimal.one_pos
  set unit := value.raw * ONE / quantity.raw with hunit
  have hdiv : (value.div quantity).raw = unit := by
    have hpos : 0 ≤ value.raw * ONE := mul_nonneg hv hone.le
    rw [Decimal.div, if_neg hq.ne', Int.tdiv_eq_ediv_of_nonneg hpos]
  have hunit0 : 0 ≤ unit := Int.ediv_nonneg (mul_nonneg hv hone.le) hq.le
  have hraw : (sold.map fun q : Decimal => q.mul (value.div quantity)).sum.raw =
      (sold.map fun q => q.raw * unit / ONE).sum := by
    rw [Decimal.raw_sum, List.map_map]
    refine congrArg List.sum (List.map_congr_left fun q hmem => ?_)
    have hpos : 0 ≤ q.raw * unit := mul_nonneg (Decimal.lt_iff.mp (hsold q hmem)).le hunit0
    simp only [Function.comp_apply, Decimal.raw_mul, hdiv]
    exact Int.tdiv_eq_ediv_of_nonneg hpos
  have hloss := sum_mul_add_loss unit sold
  rw [hsum] at hloss
  have hrest := Int.mul_ediv_add_emod (value.raw * ONE) quantity.raw
  rw [← hunit] at hrest
  have hrest0 := Int.emod_nonneg (value.raw * ONE) hq.ne'
  have hloss0 : ∀ q ∈ sold, 0 ≤ q.raw * unit % ONE := fun q _ =>
    Int.emod_nonneg _ hone.ne'
  have hlosses := sum_eq_zero_iff_of_nonneg hloss0
  have hsum0 : 0 ≤ (sold.map fun q => q.raw * unit % ONE).sum := by
    refine List.sum_nonneg fun r hr => ?_
    obtain ⟨q, hmem, rfl⟩ := List.mem_map.mp hr
    exact hloss0 q hmem
  rw [← Decimal.raw_injective.eq_iff, hraw]
  constructor
  · -- Nothing was lost, neither in the unit cost nor in a sale.
    intro hback
    rw [hback] at hloss
    refine ⟨unit, by linarith, fun q hmem => Int.dvd_of_emod_eq_zero ?_⟩
    exact hlosses.mp (by linarith) q hmem
  · rintro ⟨unit', hexact, hdvd⟩
    obtain rfl : unit = unit' := by rw [hunit, ← hexact, Int.mul_ediv_cancel_left _ hq.ne']
    have hzero := hlosses.mpr fun q hmem => Int.emod_eq_zero_of_dvd (hdvd q hmem)
    refine Int.eq_of_mul_eq_mul_left hone.ne' ?_
    linarith

/-! ## The other legs of a trade -/

/-- The account is there, and is none that fees or results are booked on. -/
abbrev Db.Position (x : Uuid) (db : Db) : Prop := db.Apart x [FEE_EXPENSE_CODE, REALIZED_PNL_CODE]

section Counter
variable {x : Uuid} {db db' : Db} {env : Env} {tenant : Option Uuid} {cmd : TradeCmd}

theorem buyFeeLines_elsewhere {lines : List DraftPosting} (hx : db.Position x)
    (hfee : cmd.feeAccountId ≠ some x) (h : (cmd.buyFeeLines env).run db = .ok (lines, db')) :
    (∀ p ∈ lines, p.accountId ≠ x) ∧ AddsOthers x db db' := by
  unfold TradeCmd.buyFeeLines at h
  split at h
  · obtain ⟨found, db₁, h₁, k₁⟩ := Tx.run_bind_ok.mp h
    have helse := chosenOrEnsured_elsewhere hfee
      (fun _ _ => ensureSystemAccount_elsewhere hx (by simp)) h₁
    obtain ⟨acct, _, h₂, k₂⟩ := Tx.run_bind_ok.mp k₁
    obtain ⟨rfl, rfl⟩ := assertSystemAccount_ok h₂
    obtain ⟨units, _, h₃, k₃⟩ := Tx.run_bind_ok.mp k₂
    obtain rfl := (readOnly_counterUnits _ _ _).run_state h₃
    cases k₃
    refine ⟨fun p hp => ?_, helse.adds⟩
    rw [List.mem_singleton.mp hp]
    exact helse.other acct rfl
  · cases h
    exact ⟨by simp, .refl⟩

theorem sellPnlLines_elsewhere {realized : Decimal} {lines : List DraftPosting}
    (hx : db.Position x) (hpnl : cmd.pnlAccountId ≠ some x)
    (h : (cmd.sellPnlLines env tenant realized).run db = .ok (lines, db')) :
    (∀ p ∈ lines, p.accountId ≠ x) ∧ AddsOthers x db db' := by
  unfold TradeCmd.sellPnlLines at h
  split at h
  · cases h
    exact ⟨by simp, .refl⟩
  · obtain ⟨found, db₁, h₁, k₁⟩ := Tx.run_bind_ok.mp h
    have helse := chosenOrEnsured_elsewhere hpnl
      (fun _ _ => ensureRealizedPnlAccount_elsewhere hx (by simp)) h₁
    obtain ⟨acct, _, h₂, k₂⟩ := Tx.run_bind_ok.mp k₁
    obtain ⟨rfl, rfl⟩ := assertSystemAccount_ok h₂
    obtain ⟨units, _, h₃, k₃⟩ := Tx.run_bind_ok.mp k₂
    obtain rfl := (readOnly_counterUnits _ _ _).run_state h₃
    cases k₃
    refine ⟨fun p hp => ?_, helse.adds⟩
    rw [List.mem_singleton.mp hp]
    exact helse.other acct rfl

end Counter

/-! ## The lot of the position -/

/-- The only lot the tenant can sell the asset from, with its unit cost and what is left. -/
structure SoleLot (tenant : Option Uuid) (a : Uuid) (unit left : Decimal) (db : Db) (l : Lot) :
    Prop where
  mem : l ∈ db.lots
  mine : l.Of tenant a
  cost : l.unitCostBase = unit
  remaining : l.qtyRemaining = left
  sole : ∀ m ∈ db.lots, m.Sellable a tenant → m = l

section SoleLot
variable {tenant : Option Uuid} {a : Uuid} {unit left : Decimal} {db : Db} {l : Lot}

theorem SoleLot.sellableLots (h : SoleLot tenant a unit left db l)
    (hnd : (db.lots.map (·.id)).Nodup) (hleft : 0 < left) (order : Uuid → Nat) :
    db.sellableLots a tenant order = [l.toOpenLot] := by
  have hsells : l.Sellable a tenant := ⟨h.mine.2, h.mine.1, h.remaining ▸ hleft⟩
  have hfilter : db.lots.filter (fun m => m.Sellable a tenant) = [l] := by
    refine List.perm_singleton.mp ((List.perm_ext_iff_of_nodup (hnd.of_map.filter _)
      (List.nodup_singleton l)).mpr fun m => ?_)
    rw [List.mem_filter, decide_eq_true_eq, List.mem_singleton]
    refine ⟨fun hm => h.sole m hm.1 hm.2, ?_⟩
    rintro rfl
    exact ⟨h.mem, hsells⟩
  rw [Db.sellableLots, hfilter]
  rfl

/-- Selling no more than what is left of one lot. -/
theorem consumeFifo_single {o : OpenLot} {qty : Decimal} (hqty : 0 < qty)
    (hle : qty ≤ o.qtyRemaining) (proceeds : Decimal) :
    (consumeFifo [o] qty proceeds).allocations = [o.allocation (unitProceeds qty proceeds) qty] ∧
      (consumeFifo [o] qty proceeds).totalCost = qty.mul o.unitCostBase := by
  have hsort : sortByOpened [o] = [o] := rfl
  have hopen : ¬ o.qtyRemaining ≤ 0 := not_le.mpr (hqty.trans_le hle)
  have hall : allocate (unitProceeds qty proceeds) qty [o] =
      [o.allocation (unitProceeds qty proceeds) qty] := by
    rw [allocate, if_neg (not_le.mpr hqty), if_neg hopen, min_eq_left hle]
    rfl
  rw [consumeFifo_eq, hsort, hall]
  exact ⟨rfl, by simp [OpenLot.allocation]⟩

/-- The lot after a sale of `qty` units from it. -/
theorem SoleLot.sold (h : SoleLot tenant a unit left db l) (hnd : (db.lots.map (·.id)).Nodup)
    {c : LotConsumption} (hlot : c.lotId = l.id) {db' : Db}
    (hlots : db'.lots = db.lots.map (Lot.adjust fun i => -taken [c] i)) :
    SoleLot tenant a unit (left - c.quantity) db' (l.adjust fun i => -taken [c] i) where
  mem := by
    rw [hlots]
    exact List.mem_map_of_mem h.mem
  mine := h.mine
  cost := h.cost
  remaining := by
    rw [adjust_qtyRemaining, taken_cons, if_pos hlot, taken_nil, add_zero, h.remaining,
      sub_eq_add_neg]
  sole := by
    intro m' hm' hsells
    rw [hlots] at hm'
    obtain ⟨m, hm, rfl⟩ := List.mem_map.mp hm'
    by_cases hid : m.id = l.id
    · rw [List.inj_on_of_nodup_map hnd hm h.mem hid]
    · have hkept : taken [c] m.id = 0 := by
        rw [taken_cons, if_neg (hlot ▸ Ne.symm hid), taken_nil, add_zero]
      have hsame := adjust_of_eq_zero (fun i => -taken [c] i) m (by simp [hkept])
      rw [hsame] at hsells
      exact absurd (congrArg Lot.id (h.sole m hm hsells)) hid

end SoleLot

/-! ## One trade -/

/-- A buy or a sell, with what the world supplies when it is made. -/
structure PositionTrade where
  env : Env
  cmd : TradeCmd

namespace PositionTrade

def buy (t : PositionTrade) : Call := ⟨t.env, .buy t.cmd⟩

def sell (t : PositionTrade) : Call := ⟨t.env, .sell t.cmd⟩

/-- The trade is of the asset on the account, for the tenant. Its other legs are elsewhere. -/
structure Of (tenant : Option Uuid) (x a : Uuid) (t : PositionTrade) (db : Db) : Prop where
  account : t.cmd.assetAccountId = x
  asset : t.cmd.assetId = a
  quantity : 0 < t.cmd.quantity
  tenant : (resolveServiceUserId t.env t.cmd.userId [x]).answer db = .ok tenant
  cash : t.cmd.cashAccountId ≠ x
  fee : t.cmd.feeAccountId ≠ some x
  pnl : t.cmd.pnlAccountId ≠ some x

end PositionTrade

section Tenant
variable {x : Uuid} {db db' : Db} {env : Env} {explicitUserId : Option Uuid}

/-- The tenant depends on the first account. -/
theorem resolveServiceUserId_head {ids : List Uuid} (h : ids.head? = some x) :
    resolveServiceUserId env explicitUserId ids = resolveServiceUserId env explicitUserId [x] := by
  unfold resolveServiceUserId
  rw [h]
  rfl

theorem tenant_adds (hx : db.Position x) (h : AddsOthers x db db') :
    (resolveServiceUserId env explicitUserId [x]).answer db' =
      (resolveServiceUserId env explicitUserId [x]).answer db := by
  obtain ⟨accounts, rfl, -⟩ := h
  obtain ⟨acct, hacct, hid⟩ := hx.present
  have hfind : (db.withAccounts accounts).findAccount x = db.findAccount x := by
    have hsome : (db.accounts.find? (·.id = x)).isSome := by
      rw [List.find?_isSome]
      exact ⟨acct, hacct, by simpa using hid⟩
    unfold Db.findAccount Db.withAccounts
    rw [List.find?_append, Option.or_of_isSome hsome]
  unfold resolveServiceUserId Tx.answer
  cases explicitUserId with
  | some u => rfl
  | none =>
    simp only [Tx.run_read_bind, List.head?_cons, Option.bind_some, hfind]
    cases (db.findAccount x).bind (·.userId) with
    | some u => rfl
    | none =>
      cases env.currentUser with
      | some u => rfl
      | none =>
        simp only [Tx.run_read_bind]
        have husers : (db.withAccounts accounts).users = db.users := rfl
        rw [husers]
        split <;> rfl

end Tenant

theorem Call.Records.run {c : Call} {db : Db} (h : c.Records db) :
    c.program.run db = .ok (⟨c.env.entryId, false⟩, c.exec db) := by
  unfold Call.Records Tx.answer at h
  rcases c.program.ok_or_refused db with ⟨r, db', hr⟩ | ⟨e, hr⟩
  · rw [hr] at h
    have hr' : r = ⟨c.env.entryId, false⟩ := Option.some.inj h
    rw [Call.exec, Tx.exec_of_ok hr, hr, hr']
  · rw [hr] at h
    cases h

section Posted
variable {tenant : Option Uuid} {x a : Uuid} {t : PositionTrade} {db : Db}

/-- After the counter-legs the entry is posted for the tenant. -/
theorem posted_of_run {input : PostEntryInput} {priced : Option (List OpenLot)} {db₁ db' : Db}
    (hx : db.Position x) (ht : t.Of tenant x a db) (hi : LedgerInv db₁)
    (hadds : AddsOthers x db db₁) (huser : input.userId = t.cmd.userId)
    (hfirst : (input.postings.map (·.accountId)).head? = some x)
    (h : (postEntryPriced priced t.env input).run db₁ = .ok (⟨t.env.entryId, false⟩, db')) :
    Posted t.env input tenant db₁ db' := by
  rcases postEntryPriced_ok hi.lotIds h with ⟨hreplay, -⟩ | ⟨-, u, hp⟩
  · obtain ⟨_, _, _, -, -, -, hr, -⟩ := hreplay
    exact absurd (congrArg PostResult.idempotentReplay hr) Bool.false_ne_true
  · have hu := hp.user
    rw [huser, resolveServiceUserId_head hfirst, tenant_adds hx hadds, ht.tenant] at hu
    rwa [Except.ok.inj hu]

theorem buy_posted (hx : db.Position x) (hi : LedgerInv db) (ht : t.Of tenant x a db)
    (h : t.buy.Records db) : ∃ feeLines db₁, (∀ p ∈ feeLines, p.accountId ≠ x) ∧
      AddsOthers x db db₁ ∧
      Posted t.env (t.cmd.buyInput feeLines) tenant db₁ (t.buy.exec db) := by
  obtain ⟨lines, db₁, h₁, h⟩ := Tx.run_bind_ok.mp h.run
  obtain ⟨hlines, hadds⟩ := buyFeeLines_elsewhere hx ht.fee h₁
  refine ⟨lines, db₁, hlines, hadds, posted_of_run hx ht (hi.adds hadds) hadds rfl ?_ h⟩
  exact congrArg some ht.account

/-- The asset leg of a sell is at the cost that the lots of the tenant give. -/
theorem sell_posted (hx : db.Position x) (hi : LedgerInv db) (ht : t.Of tenant x a db)
    (h : t.sell.Records db) : ∃ pnlLines db₁, (∀ p ∈ pnlLines, p.accountId ≠ x) ∧
      AddsOthers x db db₁ ∧
      Posted t.env (t.cmd.sellInput (consumeFifo (db.sellableLots a tenant t.env.previewOrder)
        t.cmd.quantity t.cmd.netProceeds).totalCost pnlLines) tenant db₁ (t.sell.exec db) := by
  obtain ⟨userId, db₀, h₁, k₁⟩ := Tx.run_bind_ok.mp h.run
  obtain ⟨huser, hsame⟩ := (readOnly_resolveServiceUserId _ _ _).run_ok.mp h₁
  rw [hsame] at k₁
  have huser' : (resolveServiceUserId t.env t.cmd.userId [t.cmd.assetAccountId]).answer db =
      .ok tenant := ht.account ▸ ht.tenant
  obtain rfl := Except.ok.inj (huser.symm.trans huser')
  obtain ⟨early, db₂, h₂, k₂⟩ := Tx.run_bind_ok.mp k₁
  have hread : (earlyReplay userId (trimmedKey t.cmd.idempotencyKey)).ReadOnly := by
    unfold earlyReplay
    split
    · exact Tx.readOnly_done _
    · exact Tx.readOnly_read _
  rw [hread.run_state h₂] at k₂
  cases early with
  | some found =>
    have hr := (Prod.mk.inj (Except.ok.inj k₂)).1
    exact nomatch congrArg PostResult.idempotentReplay hr
  | none =>
    rw [Tx.run_read_bind] at k₂
    obtain ⟨lines, db₁, h₃, k₃⟩ := Tx.run_bind_ok.mp k₂
    obtain ⟨hlines, hadds⟩ := sellPnlLines_elsewhere hx ht.pnl h₃
    refine ⟨lines, db₁, hlines, hadds, ?_⟩
    rw [ht.asset] at k₃
    refine posted_of_run hx ht (hi.adds hadds) hadds rfl ?_ k₃
    exact congrArg some ht.account

end Posted

/-! ## Buying and selling -/

section Steps
variable {tenant : Option Uuid} {x a : Uuid} {unit left : Decimal} {t : PositionTrade} {db : Db}

/-- What is held of the position between two sells. -/
structure HeldPosition (tenant : Option Uuid) (x a : Uuid) (unit left : Decimal) (db : Db) : Prop where
  inv : LedgerInv db
  position : db.Position x
  lot : ∃ l, SoleLot tenant a unit left db l

/-- What a call brings onto the account. -/
structure Brings (tenant : Option Uuid) (x a : Uuid) (quantity value : Decimal) (db db' : Db) :
    Prop where
  native : db'.nativeBalance tenant x a = db.nativeBalance tenant x a + quantity
  book : db'.bookBalance tenant x = db.bookBalance tenant x + value

/-- An entry whose first line alone is on the account. -/
theorem brings_of_posted {input : PostEntryInput} {p : DraftPosting} {rest : List DraftPosting}
    {db₁ db' : Db} (hi : LedgerInv db₁) (hadds : AddsOthers x db db₁)
    (hp : Posted t.env input tenant db₁ db') (hlines : input.postings = p :: rest)
    (hacc : p.accountId = x) (hasset : p.assetId = a) (hrest : ∀ q ∈ rest, q.accountId ≠ x) :
    Brings tenant x a p.quantity p.baseValue db db' := by
  obtain ⟨accounts, rfl, -⟩ := hadds
  have hbook : rest.filter (·.accountId = x) = [] :=
    List.filter_eq_nil_iff.mpr fun q hq => by simpa using hrest q hq
  have hnative : rest.filter (fun q => q.accountId = x ∧ q.assetId = a) = [] :=
    List.filter_eq_nil_iff.mpr fun q hq => by simp [hrest q hq]
  constructor
  · rw [hp.nativeBalance hi, nativeChange, hlines, List.filter_cons_of_pos (by simp [hacc, hasset]),
      hnative]
    simp
    rfl
  · rw [hp.bookBalance hi, hlines, List.filter_cons_of_pos (by simp [hacc]), hbook]
    simp
    rfl

theorem buy_step (hx : db.Position x) (hi : LedgerInv db) (ht : t.Of tenant x a db)
    (hnone : ∀ l ∈ db.lots, ¬ l.Sellable a tenant) (h : t.buy.Records db) :
    Brings tenant x a t.cmd.quantity t.cmd.baseValue db (t.buy.exec db) ∧
      HeldPosition tenant x a (t.cmd.baseValue.div t.cmd.quantity) t.cmd.quantity (t.buy.exec db) := by
  obtain ⟨feeLines, db₁, hlines, hadds, hp⟩ := buy_posted hx hi ht h
  have hi₁ := hi.adds hadds
  have hrest : ∀ p ∈ t.cmd.buyCashLine :: feeLines, p.accountId ≠ x := by
    intro p hp
    rcases List.mem_cons.mp hp with rfl | hp
    · exact ht.cash
    · exact hlines p hp
  refine ⟨brings_of_posted (p := t.cmd.buyAssetLine) hi₁ hadds hp rfl ht.account ht.asset hrest,
    hi₁.step (hp.step hi₁.lotIds), ?_, ?_⟩
  · obtain ⟨acct, hacct, hid⟩ := (hx.adds hadds).present
    rw [hp.written.result]
    exact ⟨⟨acct, hacct, hid⟩, (hx.adds hadds).apart⟩
  · set lot := ({ accountId := t.cmd.assetAccountId, assetId := t.cmd.assetId
                  quantity := t.cmd.quantity, costBase := t.cmd.baseValue } : LotInput).row
      (t.env.lotIds 0) t.env.entryId t.cmd.entryDate tenant with hlot
    have hlots : (t.buy.exec db).lots = db₁.lots ++ [lot] := by
      have hnew : (t.cmd.buyInput feeLines).newLots t.env tenant = [lot] := by
        have hzip : (t.cmd.buyInput feeLines).lotList.zipIdx =
            [({ accountId := t.cmd.assetAccountId, assetId := t.cmd.assetId
                quantity := t.cmd.quantity, costBase := t.cmd.baseValue }, 0)] := rfl
        rw [PostEntryInput.newLots, hzip, lotRows_single, if_pos ht.quantity]
        rfl
      have hcs : (t.cmd.buyInput feeLines).consumptions t.env tenant db₁ = [] := consumptions_nil rfl
      rw [hp.written.result, hnew, hcs]
      exact map_adjust_of_eq_zero fun l _ => by simp
    obtain ⟨accounts, rfl, -⟩ := hadds
    refine ⟨lot, ?_, ⟨.inr rfl, ht.asset⟩, rfl, rfl, ?_⟩
    · rw [hlots]
      simp
    · intro m hm hsells
      rw [hlots] at hm
      rcases List.mem_append.mp hm with hm | hm
      · exact absurd hsells (hnone m hm)
      · exact List.mem_singleton.mp hm

theorem sell_step (hheld : HeldPosition tenant x a unit left db) (ht : t.Of tenant x a db)
    (hle : t.cmd.quantity ≤ left) (h : t.sell.Records db) :
    Brings tenant x a (-t.cmd.quantity) (-t.cmd.quantity.mul unit) db (t.sell.exec db) ∧
      HeldPosition tenant x a unit (left - t.cmd.quantity) (t.sell.exec db) := by
  obtain ⟨hi, hx, l, hl⟩ := hheld
  obtain ⟨pnlLines, db₁, hlines, hadds, hp⟩ := sell_posted hx hi ht h
  have hi₁ := hi.adds hadds
  have hleft : 0 < left := ht.quantity.trans_le hle
  have hopen : t.cmd.quantity ≤ l.toOpenLot.qtyRemaining := hle.trans hl.remaining.ge
  rw [hl.sellableLots hi.lotIds hleft, (consumeFifo_single ht.quantity hopen _).2] at hp
  have hcost : l.toOpenLot.unitCostBase = unit := hl.cost
  rw [hcost] at hp
  have hrest : ∀ p ∈ t.cmd.sellCashLine :: pnlLines, p.accountId ≠ x := by
    intro p hp
    rcases List.mem_cons.mp hp with rfl | hp
    · exact ht.cash
    · exact hlines p hp
  refine ⟨brings_of_posted (p := t.cmd.sellAssetLine _) hi₁ hadds hp rfl ht.account ht.asset
    hrest, hi₁.step (hp.step hi₁.lotIds), ?_, ?_⟩
  · obtain ⟨acct, hacct, hid⟩ := (hx.adds hadds).present
    rw [hp.written.result]
    exact ⟨⟨acct, hacct, hid⟩, (hx.adds hadds).apart⟩
  · obtain ⟨accounts, rfl, -⟩ := hadds
    have hl₁ : SoleLot tenant a unit left (db.withAccounts accounts) l :=
      ⟨hl.mem, hl.mine, hl.cost, hl.remaining, hl.sole⟩
    have hcs : (t.cmd.sellInput (t.cmd.quantity.mul unit) pnlLines).consumptions t.env tenant
        (db.withAccounts accounts) =
        [(l.toOpenLot.allocation (unitProceeds t.cmd.quantity t.cmd.netProceeds)
          t.cmd.quantity).row t.env.entryId] := by
      have hall : (t.cmd.sellInput (t.cmd.quantity.mul unit) pnlLines).allocations t.env tenant
          (db.withAccounts accounts) = (consumeFifo ((db.withAccounts accounts).sellableLots
            t.cmd.assetId tenant t.env.lotOrder) t.cmd.quantity t.cmd.netProceeds).allocations :=
        if_pos ht.quantity
      rw [consumptions_sell, hall, ht.asset, hl₁.sellableLots hi₁.lotIds hleft,
        (consumeFifo_single ht.quantity hopen _).1]
      rfl
    have hlots : (t.sell.exec db).lots = (db.withAccounts accounts).lots.map (Lot.adjust fun i =>
        -taken [(l.toOpenLot.allocation (unitProceeds t.cmd.quantity t.cmd.netProceeds)
          t.cmd.quantity).row t.env.entryId] i) := by
      rw [(posted_sell hi₁ hp).2, hcs]
      simp only [Db.recorded, List.append_nil]
    exact ⟨_, hl₁.sold hi₁.lotIds rfl hlots⟩

/-- The sell is of the position and is recorded. -/
def PositionTrade.Sells (tenant : Option Uuid) (x a : Uuid) (t : PositionTrade) (db : Db) : Prop :=
  t.Of tenant x a db ∧ t.sell.Records db

def PositionTrade.execSell (t : PositionTrade) (db : Db) : Db := t.sell.exec db

def sellAll (sells : List PositionTrade) (db : Db) : Db := runAll PositionTrade.execSell sells db

theorem sells_run {sells : List PositionTrade} (hheld : HeldPosition tenant x a unit left db)
    (hsells : EveryCall PositionTrade.execSell (PositionTrade.Sells tenant x a) sells db)
    (hle : (sells.map (·.cmd.quantity)).sum ≤ left) :
    Brings tenant x a (-(sells.map (·.cmd.quantity)).sum)
      (-((sells.map (·.cmd.quantity)).map fun q => q.mul unit).sum) db (sellAll sells db) := by
  induction sells generalizing left db with
  | nil => exact ⟨by simp [sellAll], by simp [sellAll]⟩
  | cons t sells ih =>
    obtain ⟨⟨ht, hrecords⟩, hrest⟩ := hsells
    have hpos := (everyCall_mono (fun _ _ h => h.1.quantity) sells hrest).forall_mem
    have hnonneg : 0 ≤ (sells.map (·.cmd.quantity)).sum := by
      refine List.sum_nonneg fun q hq => ?_
      obtain ⟨t', ht', rfl⟩ := List.mem_map.mp hq
      exact (hpos t' ht').le
    rw [List.map_cons, List.sum_cons] at hle
    have hfirst : t.cmd.quantity ≤ left := (le_add_of_nonneg_right hnonneg).trans hle
    obtain ⟨hbrings, hheld'⟩ := sell_step hheld ht hfirst hrecords
    obtain ⟨hnative, hbook⟩ := ih hheld' hrest (le_sub_iff_add_le'.mpr hle)
    have hstep : sellAll (t :: sells) db = sellAll sells (t.sell.exec db) := rfl
    simp only [List.map_cons, List.sum_cons]
    constructor
    · rw [hstep, hnative, hbrings.native]
      abel
    · rw [hstep, hbook, hbrings.book]
      abel

/-- After a position is sold in full its account is back where it was before the buy exactly
when no cost was truncated. -/
theorem position_closed_iff (hi : LedgerInv db) (hx : db.Position x)
    (hnone : ∀ l ∈ db.lots, ¬ l.Sellable a tenant) (ht : t.Of tenant x a db)
    (hbought : t.buy.Records db) (hvalue : 0 < t.cmd.baseValue) {sells : List PositionTrade}
    (hsells : EveryCall PositionTrade.execSell (PositionTrade.Sells tenant x a) sells
      (t.buy.exec db))
    (hall : (sells.map (·.cmd.quantity)).sum = t.cmd.quantity) :
    ((sellAll sells (t.buy.exec db)).nativeBalance tenant x a = db.nativeBalance tenant x a ∧
        (sellAll sells (t.buy.exec db)).bookBalance tenant x = db.bookBalance tenant x) ↔
      ExactCost t.cmd.quantity t.cmd.baseValue (sells.map (·.cmd.quantity)) := by
  obtain ⟨hbrings, hheld⟩ := buy_step hx hi ht hnone hbought
  have hsold := sells_run hheld hsells hall.le
  have hpos := (everyCall_mono (fun _ _ h => h.1.quantity) sells hsells).forall_mem
  have hpos' : ∀ q ∈ sells.map (·.cmd.quantity), 0 < q := by
    intro q hq
    obtain ⟨t', ht', rfl⟩ := List.mem_map.mp hq
    exact hpos t' ht'
  rw [← soldCost_eq_iff ht.quantity hvalue.le hpos' hall, hsold.native, hsold.book, hbrings.native,
    hbrings.book, hall, add_neg_cancel_right, add_assoc, add_eq_left, add_neg_eq_zero]
  exact ⟨fun h => h.2.symm, fun h => ⟨rfl, h.symm⟩⟩

end Steps

section Examples

def demoPosition (entryId : Uuid) (quantity value : Int) : PositionTrade :=
  ⟨{ entryId }, demoTrade quantity value⟩

theorem demo_position : demo.Position 12 where
  present := by decide
  apart := by decide

/-- Two coins for ten dollars, sold one by one. -/
theorem two_coins_closed :
    ((sellAll [demoPosition 2 1 7, demoPosition 3 1 4] ((demoPosition 1 2 10).buy.exec
        demo)).nativeBalance (some 1) 12 3 = demo.nativeBalance (some 1) 12 3 ∧
      (sellAll [demoPosition 2 1 7, demoPosition 3 1 4] ((demoPosition 1 2 10).buy.exec
        demo)).bookBalance (some 1) 12 = demo.bookBalance (some 1) 12) ↔
      ExactCost (.ofInt 2) (.ofInt 10) [.ofInt 1, .ofInt 1] := by
  have hof : ∀ i quantity value db, 0 < quantity →
      (demoPosition i quantity value).Of (some 1) 12 3 db := by
    intro i quantity value db hq
    have hcash : (10 : Uuid) ≠ 12 := by decide
    exact ⟨rfl, rfl, Decimal.ofInt_zero ▸ Decimal.ofInt_lt.mpr hq, rfl, hcash, nofun, nofun⟩
  exact position_closed_iff demo_empty.inv demo_position (by decide) (hof _ _ _ _ (by decide))
    (by decide) (by decide) ⟨⟨hof _ _ _ _ (by decide), by decide⟩,
      ⟨hof _ _ _ _ (by decide), by decide⟩, trivial⟩ (by decide)

/-- Three coins for a dollar, all sold: nothing is left of them, and the account keeps the
last digit of a dollar. -/
theorem three_coins_leave_a_ghost :
    (demoPosition 1 3 1).buy.Records demo ∧
      (demoPosition 2 3 1).sell.Records ((demoPosition 1 3 1).buy.exec demo) ∧
      (sellAll [demoPosition 2 3 1] ((demoPosition 1 3 1).buy.exec demo)).nativeBalance
        (some 1) 12 3 = 0 ∧
      (sellAll [demoPosition 2 3 1] ((demoPosition 1 3 1).buy.exec demo)).bookBalance
        (some 1) 12 = ⟨1⟩ := by
  refine ⟨?_, ?_, ?_, ?_⟩ <;> decide

end Examples

end Pwos
