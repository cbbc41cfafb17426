import Pwos.Planning.CreateDebt
import Pwos.Planning.Settlements

/-!
# Schedules that can be settled

Where the payer has a Toman account, a bucket, a rate and a new entry id, Quick Pay of a
row is accepted and closes it. So the debts that are paid off by paying their rows, in
any order, are those with a schedule whose rows are all at least one Toman.
-/

namespace Pwos

/-! ## A payment that is accepted -/

/-- The payment of a row of the debt `d` by `u` can be posted. -/
structure Payer (u : Uuid) (d : Debt) (db : Db) (c : PayCall) : Prop where
  caller : c.cmd.userId = some u
  whole : c.cmd.payToman = none
  owner : ∀ v ∈ d.userId, v = u
  bucketed : d.accountId = none
  user : u ∈ db.users
  rate : ∃ fx, db.RateIs (some u) fx ∧ fx.rate ≤ .ofInt ONE
  cash : ∃ a x, db.findAccount c.cmd.cashAccountId = some a ∧ a.deleted = false ∧
    a.type = .asset ∧ a.userId = some u ∧ a.assetId = some x ∧ db.unitOf x = "IRT"
  bucket : ∃ b y, (resolveSystemAccount (bucketCode d.direction) (some u)).answer db = .ok (some b) ∧
    db.findAccount b.id = some b ∧ b.assetId = some y ∧ db.unitOf y ∈ FACE_VALUE_SYMBOLS
  fresh : ∀ e ∈ db.journalEntries, e.id ≠ c.env.entryId

section Accepted
variable {env : Env} {db : Db} {userId : Option Uuid} {u : Uuid} {d : Debt} {c : PayCall}

theorem ensureBucket_run {direction : String} {b : Account}
    (h : (resolveSystemAccount (bucketCode direction) userId).answer db = .ok (some b)) :
    (ensureBucket env userId direction).run db = .ok (some b, db) := by
  have hensure : ∀ name type, (ensureSystemAccount env (bucketCode direction) name type userId).run db =
      .ok (some b, db) := by
    intro name type
    unfold ensureSystemAccount
    rw [Tx.run_bind_of_ok ((readOnly_resolveSystemAccount _ _).run_ok.mpr ⟨h, rfl⟩)]
    rfl
  unfold ensureBucket
  unfold bucketCode at hensure
  split
  · simpa [ensureReceivableCollectionAccount, *] using hensure RECEIVABLE_COLLECTION_NAME .income
  · simpa [ensureInstallmentPaymentAccount, *] using hensure INSTALLMENT_PAYMENT_NAME .expense

/-- A Toman costs the reciprocal of the rate. -/
theorem nativeUnitPriceUsd_irt {assetId : Uuid} {fx : FxSnapshot} (hunit : db.unitOf assetId = "IRT")
    (hrate : db.RateIs userId fx) :
    (nativeUnitPriceUsd assetId userId).run db = .ok ((Decimal.ofInt 1).div fx.rate, db) := by
  unfold nativeUnitPriceUsd
  rw [Tx.run_read_bind]
  have hsymbol : upper (((db.findAsset assetId).map (·.symbol)).getD "") = "IRT" := hunit
  simp only [hsymbol, if_true]
  rw [Tx.run_bind_of_ok ((readOnly_getLatestUsdIrtRateForUser _).run_ok.mpr ⟨hrate.1, rfl⟩),
    Tx.run_require_bind, if_pos hrate.pos]
  rfl

theorem nativeUnitPriceUsd_face {assetId : Uuid} (hunit : db.unitOf assetId ∈ FACE_VALUE_SYMBOLS) :
    (nativeUnitPriceUsd assetId userId).run db = .ok (.ofInt 1, db) := by
  have hne : db.unitOf assetId ≠ "IRT" := by
    intro h
    rw [h] at hunit
    exact absurd hunit (by decide)
  unfold nativeUnitPriceUsd
  rw [Tx.run_read_bind]
  have hsymbol : upper (((db.findAsset assetId).map (·.symbol)).getD "") = db.unitOf assetId := rfl
  simp only [hsymbol, if_neg hne, if_pos hunit]
  rfl

theorem unitsFor_run {accountId x : Uuid} {a : Account} {base unit : Decimal}
    (ha : db.findAccount accountId = some a) (hx : a.assetId = some x)
    (hunit : (nativeUnitPriceUsd x userId).run db = .ok (unit, db)) :
    (unitsFor accountId base userId).run db =
      .ok ((x, base.div (if unit = 0 then .ofInt 1 else unit)), db) := by
  unfold unitsFor
  rw [Tx.run_read_bind, ha, Option.bind_some, hx]
  simp only
  rw [Tx.run_bind_of_ok hunit]
  rfl

/-- The dollars of a whole number of Toman, where a Toman is worth a unit. -/
theorem toman_in_usd_pos {k : Nat} (hk : 0 < k) {rate : Decimal} (hpos : 0 < rate)
    (hle : rate ≤ .ofInt ONE) : 0 < (Decimal.ofInt k).div rate := by
  have hraw : 0 < rate.raw := Decimal.lt_iff.mp hpos
  have hbound : rate.raw ≤ ONE * ONE := by simpa [Decimal.le_iff] using hle
  have hone := mul_pos Decimal.one_pos Decimal.one_pos
  have hnum : ONE * ONE ≤ k * ONE * ONE := by
    have hk' : (1 : Int) ≤ k := by omega
    nlinarith
  have hquot : 1 ≤ k * ONE * ONE / rate.raw :=
    Int.le_ediv_of_mul_le hraw (by rw [one_mul]; exact hbound.trans hnum)
  rw [Decimal.lt_iff, Decimal.div, if_neg hraw.ne', Decimal.raw_zero, Decimal.raw_ofInt,
    Int.tdiv_eq_ediv_of_nonneg (hone.le.trans hnum)]
  exact Int.lt_of_lt_of_le Int.one_pos hquot

theorem realRate_run {fx : FxSnapshot} (h : db.RateIs userId fx) :
    (do assertRealUsdIrtRate (← getLatestUsdIrtRateForUser userId)).run db = .ok (fx, db) := by
  have hlatest := (readOnly_getLatestUsdIrtRateForUser _).run_ok.mpr ⟨h.1, rfl⟩
  rw [Tx.run_bind_of_ok hlatest, assertRealUsdIrtRate, Tx.run_require_bind, if_pos h.2]
  rfl

theorem sign_ne_zero (p : Payment) : p.sign ≠ 0 := by
  rcases settlementSign_eq p.debt.direction with h | h <;> rw [Payment.sign, h] <;> decide

/-- The amounts of the payment, worked out. -/
theorem resolve_run {i : Installment} {b : Balance} (h : Payer u d db c) (hb : i.Holds b)
    (hopen : i.status ≠ .paid) : ∃ p : Payment,
      (Payment.resolve c.env (some u) c.cmd i d).run db = .ok (some p, db) ∧
        p.userId = some u ∧ p.debt = d ∧ Balanced (p.input c.env).postings ∧
        ∀ q ∈ (p.input c.env).postings, (db.findAccount q.accountId).isSome = true := by
  obtain ⟨fx, hfx, hunit⟩ := h.rate
  obtain ⟨a, x, ha, hlive, hasset, howner, hx, hirt⟩ := h.cash
  obtain ⟨bucket, y, hbucket, hby, hy, hface⟩ := h.bucket
  have hleft : 0 < b.left := Nat.pos_of_ne_zero fun hz =>
    hopen (hb.closed.mpr (b.full_iff_left.mpr hz))
  have hcontra : (resolveContra c.env (some u) d).run db =
      .ok (⟨bucket.id, some bucket.name⟩, db) := by
    unfold resolveContra
    rw [h.bucketed]
    simp only
    rw [Tx.run_bind_of_ok (ensureBucket_run hbucket)]
    rfl
  have hcontract : contractualToman i fx.rate = .ok (.ofInt b.contract) := by
    rw [contractualToman, hb.contract]
  have hnext : applyPartialPayment (i.balanceRow (.ofInt b.contract)) ((Decimal.ofInt b.left).toFixed 0) =
      .ok (b.afterPaying b.left) :=
    (applyPartialPayment_iff hb _ _).mpr ⟨b.left, hleft, le_rfl, Decimal.toFixed_ofInt _, rfl⟩
  have hcash : (assertCashAccount (some u) c.cmd.cashAccountId).run db = .ok ("IRT", db) := by
    have hfound : (db.findAccount c.cmd.cashAccountId).filter (fun a => !a.deleted ∧ a.type = .asset ∧
        ¬ ((some u).isSome ∧ a.userId.isSome ∧ a.userId ≠ some u)) = some a := by
      simp [ha, hlive, hasset, howner]
    unfold assertCashAccount
    rw [Tx.run_read_bind, hfound]
    simp only [Tx.run_read, hx, Option.bind_some]
    exact congrArg (fun t => Except.ok (t, db)) hirt
  set usd := (Decimal.ofInt b.left).div fx.rate with husd
  have hpos : 0 < usd := toman_in_usd_pos hleft hfx.pos hunit
  have hunits : ∃ q, (unitsFor c.cmd.cashAccountId usd (some u)).run db = .ok ((x, q), db) :=
    ⟨_, unitsFor_run ha hx (nativeUnitPriceUsd_irt hirt hfx)⟩
  obtain ⟨q, hunits⟩ := hunits
  have hcontraUnits : (unitsFor bucket.id usd (some u)).run db = .ok ((y, usd), db) := by
    rw [unitsFor_run hby hy (nativeUnitPriceUsd_face hface), if_neg (by decide), Decimal.div_ofInt_one]
  have hsnapshot : calculateInstallmentPayment (.ofInt b.left) fx.rate =
      .ok ⟨.ofInt b.left, fx.rate, usd⟩ := by
    rw [calculateInstallmentPayment, if_neg (not_le.mpr hfx.pos), Decimal.toFixed_ofInt]
  have hquantity : cashQuantity "IRT" (.ofInt b.left) q = .ofInt b.left := by
    rw [cashQuantity, if_pos rfl, Decimal.toFixed_ofInt]
  refine ⟨{ userId := some u, cashAccountId := c.cmd.cashAccountId, inst := i, debt := d
            contra := ⟨bucket.id, some bucket.name⟩, settled := .ofInt b.left
            next := b.afterPaying b.left, snapshot := ⟨.ofInt b.left, fx.rate, usd⟩
            cash := (x, cashQuantity "IRT" (.ofInt b.left) q), contraUnits := (y, usd) },
    ?_, rfl, rfl, ?_, ?_⟩
  · unfold Payment.resolve
    rw [Tx.run_bind_of_ok hcontra, Tx.run_bind_of_ok (realRate_run hfx), hcontract,
      Tx.run_bind_of_ok (Tx.run_ofExcept_ok.mpr ⟨rfl, rfl⟩)]
    simp only [hb.remaining, h.whole, Option.getD_none]
    rw [if_neg (by rw [← Decimal.ofInt_zero, Decimal.ofInt_le]; omega), hnext,
      Tx.run_bind_of_ok (Tx.run_ofExcept_ok.mpr ⟨rfl, rfl⟩), hsnapshot,
      Tx.run_bind_of_ok (Tx.run_ofExcept_ok.mpr ⟨rfl, rfl⟩), Tx.run_bind_of_ok hcash,
      Tx.run_bind_of_ok hunits, Tx.run_bind_of_ok hcontraUnits]
    rfl
  · refine ⟨le_rfl, ?_, ?_⟩
    · have hsum : ∀ v : Decimal, ([v, -v].sum).abs ≤ TOLERANCE := by
        intro v
        have hzero : [v, -v].sum = 0 := by simp
        rw [hzero]
        decide
      exact hsum _
    · intro r hr
      obtain rfl | rfl := by simpa [Payment.input] using hr
      · simp only [Payment.cashLeg, hquantity, Decimal.zsmul_ofInt]
        rw [Ne, ← Decimal.ofInt_zero, Decimal.ofInt_inj]
        exact mul_ne_zero (sign_ne_zero _) (by omega)
      · simp only [Payment.contraLeg]
        exact smul_ne_zero (neg_ne_zero.mpr (sign_ne_zero _)) hpos.ne'
  · intro r hr
    obtain rfl | rfl := by simpa [Payment.input] using hr
    · simp [Payment.cashLeg, ha]
    · simp [Payment.contraLeg, hby]

theorem payRow_run {p : Payment} (huser : p.userId = some u) (hu : u ∈ db.users)
    (hb : Balanced (p.input env).postings)
    (hacc : ∀ q ∈ (p.input env).postings, (db.findAccount q.accountId).isSome = true)
    (hfresh : ∀ e ∈ db.journalEntries, e.id ≠ env.entryId) :
    ∃ r db', (payRow env p).run db = .ok (r, db') := by
  have hpost := postEntry_run hb huser hu (by simp [Payment.input, trimmedKey]) hacc rfl rfl rfl hfresh
  unfold payRow
  rw [Tx.run_bind_of_ok hpost, Tx.run_write_bind, Tx.run_bind_of_ok (settleDebtIfPaid_run _ _)]
  exact ⟨_, _, rfl⟩

/-- Quick Pay of what is left of a row is accepted. -/
theorem payInstallment_accepted {i : Installment} {b : Balance}
    (hi : db.findInstallment c.cmd.installmentId = some i) (hd : db.findDebt i.debtId = some d)
    (hb : i.Holds b) (hopen : i.status ≠ .paid) (h : Payer u d db c) :
    ¬ (payInstallment c.env c.cmd).Refused db := by
  obtain ⟨p, hrun, huser, -, hbalanced, hacc⟩ := resolve_run h hb hopen
  obtain ⟨r, db', hrow⟩ := payRow_run huser h.user hbalanced hacc h.fresh
  have hcaller : (resolvePlanningUserId c.env c.cmd.userId).run db = .ok (some u, db) := by
    rw [h.caller]
    rfl
  have hpayable : db.payableRow (some u) c.cmd.installmentId = some (i, d) := by
    have howner : d.userId = some u ∨ d.userId = none := by
      cases hv : d.userId with
      | none => exact .inr rfl
      | some v => exact .inl (by rw [h.owner v hv])
    unfold Db.payableRow
    rw [hi, Option.bind_some, hd]
    simp [Option.filter, howner]
  rintro ⟨e, he⟩
  unfold payInstallment at he
  rw [Tx.run_bind_of_ok hcaller, Tx.run_lock_bind, Tx.run_read_bind, hpayable] at he
  simp only [if_neg hopen] at he
  rw [Tx.run_bind_of_ok hrun] at he
  simp only [hrow] at he
  cases he

end Accepted

/-! ## Paying off a debt -/

/-- The call pays what is left of its row. -/
structure PayCall.PaysWhole (c : PayCall) (db : Db) : Prop where
  whole : c.cmd.payToman = none
  accepted : ¬ (payInstallment c.env c.cmd).Refused db

/-- Payments of what is left of each row of a debt, in any order. -/
structure PaysOff (debtId : Uuid) (calls : List PayCall) (db : Db) : Prop where
  whole : EveryCall PayCall.exec (fun c s => c.On debtId s → c.PaysWhole s) calls db
  rows : ∀ i ∈ db.rowsOf debtId, ∃ c ∈ calls, c.cmd.installmentId = i.id
  one : ∃ c ∈ calls, c.On debtId db

section Off
variable {debtId : Uuid} {db : Db} {c : PayCall}

/-- The row that is paid in whole is paid. -/
theorem PayCall.PaysWhole.closes (h : c.PaysWhole db) (hr : Repaying db debtId) {i : Installment}
    (hi : i ∈ db.rowsOf debtId) (hid : i.id = c.cmd.installmentId) :
    ∃ j ∈ (c.exec db).rowsOf debtId, j.id = c.cmd.installmentId ∧ j.status = .paid := by
  obtain ⟨b, hb, -⟩ := hr.rows i hi
  obtain ⟨r, db', hrun⟩ := ((payInstallment c.env c.cmd).ok_or_refused db).resolve_right h.accepted
  rw [PayCall.exec, Tx.exec_of_ok hrun]
  cases payInstallment_ok hr.lotIds hrun with
  | closed row paid =>
    obtain rfl := hr.payable_eq hi hid row
    exact ⟨_, hi, hid, paid⟩
  | empty accounts row unpaid nothing =>
    obtain rfl := hr.payable_eq hi hid row
    obtain ⟨rate, contractual, hc, hnone⟩ := nothing
    obtain rfl := hb.contractual_eq hc
    rw [hb.remaining, ← Decimal.ofInt_zero, Decimal.ofInt_le] at hnone
    exact absurd (hb.closed.mpr (b.full_iff_left.mpr (by omega))) unpaid
  | settled accounts made posted =>
    rename_i p userId mid
    obtain rfl := hr.payable_eq hi hid made.row
    obtain ⟨fx, -, howed⟩ := made.owed
    obtain ⟨contractual, hc, -, hask, -⟩ := howed.contract
    obtain ⟨k, -, -, hk, hnext⟩ := howed.fills hb
    obtain rfl := hb.contractual_eq hc
    rw [hb.remaining, h.whole, Option.getD_none] at hask
    rw [hask, Decimal.toFixed_ofInt, Decimal.ofInt_inj] at hk
    have hfull : b.paid + k = b.contract := by
      have := b.within
      unfold Balance.left at hk
      omega
    refine ⟨_, mem_rowsOf_result.mpr ⟨_, hi, rfl⟩, ?_, ?_⟩
    · rw [if_pos rfl]
      exact hid
    · rw [if_pos rfl, settle_status]
      change p.next.status = .paid
      rw [hnext, Balance.afterPaying]
      simp [hfull]

theorem PayCall.exec_ledger (hi : LedgerInv db) : LedgerInv (c.exec db) := by
  rcases exec_payInstallment c hi.lotIds with ⟨accounts, heq⟩ | ⟨p, _, _, _, _, posted, heq⟩
  · rw [heq]
    exact hi.step (.provision accounts)
  · rw [heq]
    exact result_inv hi posted

/-- The rows of a debt keep their ids. -/
theorem mem_ids_exec (hi : LedgerInv db) {j : Installment}
    (hj : j ∈ (c.exec db).rowsOf debtId) : ∃ i ∈ db.rowsOf debtId, i.id = j.id := by
  rcases exec_payInstallment c hi.lotIds with ⟨accounts, heq⟩ | ⟨p, _, _, _, _, _, heq⟩
  · rw [heq] at hj
    exact ⟨j, hj, rfl⟩
  · rw [heq] at hj
    obtain ⟨i, hi, rfl⟩ := mem_rowsOf_result.mp hj
    refine ⟨i, hi, ?_⟩
    split <;> rfl

theorem mem_ids_run (calls : List PayCall) (hi : LedgerInv db) {j : Installment}
    (hj : j ∈ (runPayments calls db).rowsOf debtId) : ∃ i ∈ db.rowsOf debtId, i.id = j.id := by
  induction calls generalizing db with
  | nil => exact ⟨j, hj, rfl⟩
  | cons c calls ih =>
    obtain ⟨k, hk, hid⟩ := ih (PayCall.exec_ledger hi) hj
    obtain ⟨i, hi, hid'⟩ := mem_ids_exec hi hk
    exact ⟨i, hi, hid'.trans hid⟩

/-- A row is paid after a run in which what was left of it is paid. -/
theorem paid_of_targeted (calls : List PayCall) (hr : Repaying db debtId)
    (h : EveryCall PayCall.exec (fun c s => c.On debtId s → c.PaysWhole s) calls db)
    {i : Installment} (hi : i ∈ db.rowsOf debtId) (ht : ∃ c ∈ calls, c.cmd.installmentId = i.id) :
    ∃ j ∈ (runPayments calls db).rowsOf debtId, j.id = i.id ∧ j.status = .paid := by
  induction calls generalizing db i with
  | nil =>
    obtain ⟨c, hc, -⟩ := ht
    cases hc
  | cons c calls ih =>
    by_cases hc : i.id = c.cmd.installmentId
    · obtain ⟨j, hj, hid, hpaid⟩ := (h.1 ⟨i, hi, hc⟩).closes hr hi hc
      obtain ⟨k, hk, hkj, -, hsame⟩ := forward_run calls (hr.exec c) j hj
      exact ⟨k, hk, (hkj.trans hid).trans hc.symm, by rw [hsame hpaid, hpaid]⟩
    · obtain ⟨j, hj, hid, -⟩ := forward_exec c hr i hi
      have ht' : ∃ c ∈ calls, c.cmd.installmentId = j.id := by
        obtain ⟨c', hc', hid'⟩ := ht
        rcases List.mem_cons.mp hc' with rfl | hc'
        · exact absurd hid'.symm hc
        · exact ⟨c', hc', hid'.trans hid.symm⟩
      obtain ⟨k, hk, hkj, hpaid⟩ := ih (hr.exec c) h.2 hj ht'
      exact ⟨k, hk, hkj.trans hid, hpaid⟩

theorem PaysOff.settles {calls : List PayCall} (h : PaysOff debtId calls db)
    (hr : Repaying db debtId) : (∀ i ∈ (runPayments calls db).rowsOf debtId, i.status = .paid) ∧
      ∃ d, (runPayments calls db).findDebt debtId = some d ∧ d.status = .settled := by
  have hlast := runPayments_repaying calls hr
  have hall : ∀ j ∈ (runPayments calls db).rowsOf debtId, j.status = .paid := by
    intro j hj
    obtain ⟨i, hi, hid⟩ := mem_ids_run calls hr.toLedgerInv hj
    obtain ⟨k, hk, hki, hpaid⟩ := paid_of_targeted calls hr h.whole hi (h.rows i hi)
    obtain rfl := List.inj_on_of_nodup_map hlast.installmentIds (List.mem_of_mem_filter hj)
      (List.mem_of_mem_filter hk) (hid.symm.trans hki.symm)
    exact hpaid
  obtain ⟨d, hd, hiff⟩ := hlast.debt
  exact ⟨hall, d, hd, hiff.mpr (outstandingOf_eq_nil.mpr hall)⟩

end Off

/-! ## What is created -/

/-- The sum of ones below a bound. -/
theorem sum_below (r n : Nat) :
    ((List.range n).map fun i => if i < r then 1 else 0).sum = min r n := by
  induction n with
  | zero => simp
  | succ n ih =>
    rw [List.range_succ, List.map_append, List.sum_append, ih]
    simp only [List.map_cons, List.map_nil, List.sum_cons, List.sum_nil]
    split <;> omega

/-- The share of one row: the floor, or one Toman more. -/
def share (total count i : Nat) : Nat := total / count + if i < total % count then 1 else 0

theorem sum_shares (total : Nat) {count : Nat} (h : 0 < count) :
    ((List.range count).map (share total count)).sum = total := by
  have hmod := Nat.mod_lt total h
  unfold share
  rw [List.sum_map_add, sum_below, min_eq_left hmod.le]
  simp [Nat.div_add_mod]

theorem share_pos_iff (total : Nat) {count : Nat} (h : 0 < count) :
    (∀ i < count, 0 < share total count i) ↔ count ≤ total := by
  unfold share
  constructor
  · intro hall
    by_contra hlt
    have hlast := hall (count - 1) (by omega)
    rw [Nat.div_eq_of_lt (by omega), Nat.mod_eq_of_lt (by omega)] at hlast
    split at hlast <;> omega
  · intro hle i _
    have := Nat.div_pos hle h
    omega

theorem splitPrincipal_ok {principal : Decimal} {count : Nat} {amounts : List Decimal}
    (h : splitPrincipal (principal.toFixed 0) count = .ok amounts) :
    0 < count ∧ ∃ total : Nat, principal.toFixed 0 = .ofInt total ∧
      amounts = (List.range count).map fun i => .ofInt (share total count i) := by
  obtain ⟨n, hn⟩ := Decimal.exists_toFixed_zero principal
  unfold splitPrincipal at h
  rw [hn] at h
  split at h
  · cases h
  rename_i hcount
  split at h
  · cases h
  rename_i hpos
  rw [← Decimal.ofInt_zero, Decimal.ofInt_le] at hpos
  lift n to Nat using by omega
  refine ⟨by omega, n, hn, ?_⟩
  cases h
  simp only [Decimal.toFixed_ofInt, Decimal.raw_ofInt, Int.mul_tdiv_cancel _ Decimal.one_pos.ne']
  refine List.map_congr_left fun i _ => ?_
  unfold share
  rw [← Int.ofNat_tdiv, ← Int.ofNat_tmod]
  push_cast
  norm_cast

/-- The amounts of a schedule: the figure given for each row, or the shares. -/
theorem resolveScheduleAmounts_ok {principal : Decimal} {count : Nat} {each : Option Decimal}
    {amounts : List Decimal} (hc : 0 < count)
    (h : resolveScheduleAmounts (principal.toFixed 0) count each = .ok amounts) :
    (∃ t, each.filter (0 < ·) = some t ∧ amounts = List.replicate count (t.toFixed 0)) ∨
      each.filter (0 < ·) = none ∧ ∃ total : Nat, principal.toFixed 0 = .ofInt total ∧
        amounts = (List.range count).map fun i => .ofInt (share total count i) := by
  unfold resolveScheduleAmounts at h
  rw [if_neg (by omega)] at h
  split at h
  · rename_i t ht
    cases h
    exact .inl ⟨t, ht, rfl⟩
  · rename_i ht
    exact .inr ⟨ht, (splitPrincipal_ok h).2⟩

namespace CreateDebtInput
variable {env : Env} {input : CreateDebtInput} {rate : Decimal} {db db' : Db} {debtId : Uuid}

/-- The record an accepted input leaves. -/
theorem createDebtRecord_ok (h : (createDebtRecord env input rate).run db = .ok (debtId, db')) :
    debtId = env.debtId ∧ validateDebtInput input = none ∧ 0 < rate ∧ ∃ amounts,
      resolveScheduleAmounts (input.principalIrt.toFixed 0) input.dueDates.length
        input.installmentIrt = .ok amounts ∧
      db.DebtInsertable (input.debtRow env rate) ∧
      db.InstallmentsInsertable (input.installmentRows env rate amounts) ∧
      db' = { db with
        debts := db.debts ++ [input.debtRow env rate]
        installments := db.installments ++ input.installmentRows env rate amounts } := by
  unfold createDebtRecord at h
  obtain ⟨_, _, hrun, hrest⟩ := Tx.run_bind_ok.mp h
  obtain ⟨hvalid, rfl⟩ := Tx.run_ofExcept_ok.mp hrun
  rw [Tx.run_require_bind] at hrest
  split at hrest
  swap
  · cases hrest
  rename_i hrate
  obtain ⟨amounts, _, hrun, hrows⟩ := Tx.run_bind_ok.mp hrest
  obtain ⟨hamounts, rfl⟩ := Tx.run_ofExcept_ok.mp hrun
  dsimp only at hrows
  rw [Tx.run_insert_bind] at hrows
  split at hrows
  swap
  · cases hrows
  rename_i hdebt
  have hnone : validateDebtInput input = none := by
    unfold refuseInvalid at hvalid
    split at hvalid
    · cases hvalid
    · assumption
  by_cases hdue : input.dueDates = []
  · have hempty : input.installmentRows env rate amounts = [] := by
      simp [installmentRows, hdue]
    rw [Tx.when, if_neg (not_not_intro hdue)] at hrows
    cases hrows
    refine ⟨rfl, hnone, hrate, amounts, hamounts, hdebt, ?_, ?_⟩
    · rw [hempty]
      exact ⟨List.nodup_nil, by simp⟩
    · rw [hempty, List.append_nil]
      rfl
  · rw [Tx.when, if_pos hdue, Tx.run_insert_bind] at hrows
    split at hrows
    swap
    · cases hrows
    rename_i hinsert
    cases hrows
    exact ⟨rfl, hnone, hrate, amounts, hamounts, hdebt, hinsert, rfl⟩

theorem dueDates_eq_nil : input.dueDates = [] ↔ resolveScheduleInput input = none := by
  unfold dueDates
  constructor
  · intro h
    by_contra hsome
    obtain ⟨schedule, hs⟩ := Option.ne_none_iff_exists'.mp hsome
    rw [hs, Option.map_some, Option.getD_some] at h
    unfold resolveScheduleInput at hs
    split at hs
    · rename_i hcustom
      cases hs
      have hlen := congrArg List.length h
      rw [generateDueDates, List.length_insertionSort] at hlen
      exact hcustom (List.length_eq_zero_iff.mp hlen)
    · dsimp only at hs
      split at hs
      · cases hs
      · rename_i hcount
        cases hs
        have hlen := congrArg List.length h
        simp only [generateDueDates, List.length_map, List.length_range, List.length_nil] at hlen
        omega
  · intro h
    rw [h]
    rfl

/-- A given figure of an accepted schedule is positive. -/
theorem installmentIrt_pos (h : validateDebtInput input = none) (hdue : input.dueDates ≠ [])
    {t : Decimal} (ht : input.installmentIrt = some t) : 0 < t := by
  obtain ⟨schedule, hs⟩ := Option.ne_none_iff_exists'.mp (mt dueDates_eq_nil.mpr hdue)
  by_contra hle
  have hex : ∃ s ∈ input.installmentIrt, s ≤ 0 := ⟨t, ht, not_lt.mp hle⟩
  unfold validateDebtInput at h
  rw [hs] at h
  grind

theorem amounts_of_rows {amounts : List Decimal} (hlen : amounts.length = input.dueDates.length) :
    (input.installmentRows env rate amounts).map (·.amountToman) = amounts.map some := by
  have hsnd : (input.dueDates.zip amounts).map Prod.snd = amounts :=
    List.map_snd_zip hlen.le
  unfold installmentRows
  rw [List.mapIdx_eq_zipIdx_map, List.map_map]
  conv_rhs => rw [← hsnd, ← List.zipIdx_map_fst 0 (input.dueDates.zip amounts), List.map_map,
    List.map_map]
  rfl

/-- Every row of the schedule comes to at least a Toman. -/
def EveryShareAToman : Prop :=
  input.dueDates = [] ∨ match input.installmentIrt with
    | some each => .ofInt 1 ≤ each.toFixed 0
    | none => .ofInt input.dueDates.length ≤ input.principalIrt.toFixed 0

instance : Decidable input.EveryShareAToman := by
  unfold EveryShareAToman
  split <;> infer_instance

/-- The whole amounts of the rows of an accepted schedule. -/
theorem amounts_whole {amounts : List Decimal} (hvalid : validateDebtInput input = none)
    (hdue : input.dueDates ≠ [])
    (h : resolveScheduleAmounts (input.principalIrt.toFixed 0) input.dueDates.length
      input.installmentIrt = .ok amounts) : ∃ ns : List Nat,
      amounts = ns.map (fun n : Nat => Decimal.ofInt n) ∧ ns.length = input.dueDates.length ∧
        (input.EveryShareAToman ↔ ∀ n ∈ ns, 0 < n) ∧
        (input.installmentIrt = none → input.principalIrt.toFixed 0 = .ofInt ns.sum) := by
  have hcount : 0 < input.dueDates.length := List.length_pos_of_ne_nil hdue
  unfold EveryShareAToman
  rw [or_iff_right hdue]
  rcases resolveScheduleAmounts_ok hcount h with ⟨t, ht, rfl⟩ | ⟨hnone, total, htotal, rfl⟩
  · obtain ⟨hgiven, hpos⟩ := Option.filter_eq_some_iff.mp ht
    obtain ⟨n, hn⟩ := Decimal.exists_toFixed_zero t
    have hn0 : 0 ≤ n := by
      have := Decimal.toFixed_nonneg (of_decide_eq_true hpos).le 0
      rwa [hn, ← Decimal.ofInt_zero, Decimal.ofInt_le] at this
    lift n to Nat using hn0
    refine ⟨List.replicate input.dueDates.length n, by rw [hn, List.map_replicate], by simp, ?_, ?_⟩
    · rw [hgiven]
      simp only [hn, Decimal.ofInt_le]
      constructor
      · intro hone m hm
        rw [List.eq_of_mem_replicate hm]
        omega
      · intro hall
        have := hall n (List.mem_replicate.mpr ⟨hcount.ne', rfl⟩)
        omega
    · intro hno
      rw [hno] at hgiven
      cases hgiven
  · have hgiven : input.installmentIrt = none := by
      cases hi : input.installmentIrt with
      | none => rfl
      | some t =>
        have hpos := installmentIrt_pos hvalid hdue hi
        rw [hi, Option.filter_some, if_pos (decide_eq_true hpos)] at hnone
        cases hnone
    refine ⟨(List.range input.dueDates.length).map (share total input.dueDates.length),
      by rw [List.map_map]; rfl, by simp, ?_, fun _ => by rw [htotal, sum_shares total hcount]⟩
    rw [hgiven]
    simp only [htotal, Decimal.ofInt_le, Nat.cast_le, List.mem_map, List.mem_range,
      forall_exists_index, and_imp, forall_apply_eq_imp_iff₂]
    exact (share_pos_iff total hcount).symm

/-- The rows of the debt are those of its schedule. -/
theorem rowsOf_created (amounts : List Decimal) (hdebt : db.DebtInsertable (input.debtRow env rate))
    (hfk : ∀ i ∈ db.installments, ∃ d ∈ db.debts, d.id = i.debtId) :
    ({ db with
      debts := db.debts ++ [input.debtRow env rate]
      installments := db.installments ++ input.installmentRows env rate amounts } : Db).rowsOf
        env.debtId = input.installmentRows env rate amounts := by
  have hold : db.installments.filter (·.debtId = env.debtId) = [] := by
    refine List.filter_eq_nil_iff.mpr fun i hi => ?_
    obtain ⟨d, hd, hid⟩ := hfk i hi
    rw [decide_eq_true_eq, ← hid]
    exact hdebt.1 d hd
  have hnew : (input.installmentRows env rate amounts).filter (·.debtId = env.debtId) =
      input.installmentRows env rate amounts := by
    refine List.filter_eq_self.mpr fun i hi => ?_
    obtain ⟨j, hj, rfl⟩ := List.mem_mapIdx.mp hi
    exact decide_eq_true rfl
  unfold Db.rowsOf
  rw [List.filter_append, hold, hnew, List.nil_append]

end CreateDebtInput

/-- Primary and foreign keys around a debt that is to be created. -/
structure Db.DebtsSound (db : Db) : Prop where
  ledger : LedgerInv db
  installmentIds : (db.installments.map (·.id)).Nodup
  debtIds : (db.debts.map (·.id)).Nodup
  installmentDebt : ∀ i ∈ db.installments, ∃ d ∈ db.debts, d.id = i.debtId
  settlementRow : ∀ s ∈ db.settlements, ∃ i ∈ db.installments, i.id = s.installmentId

/-- What is claimed of a debt that was created. -/
structure DebtLaws (input : CreateDebtInput) (db : Db) (debtId : Uuid) : Prop where
  positive : ∀ i ∈ db.rowsOf debtId, ∃ t ∈ i.amountToman, 0 < t
  sums : db.rowsOf debtId ≠ [] → input.installmentIrt = none →
    ((db.rowsOf debtId).map fun i => i.amountToman.getD 0).sum = input.principalIrt.toFixed 0
  settles : ∀ calls, PaysOff debtId calls db →
    (∀ i ∈ (runPayments calls db).rowsOf debtId, i.status = .paid) ∧
      ∃ d, (runPayments calls db).findDebt debtId = some d ∧ d.status = .settled
  payable : ∀ calls, ∀ i ∈ (runPayments calls db).rowsOf debtId, i.status ≠ .paid →
    ∀ u d c, (runPayments calls db).findDebt debtId = some d → c.cmd.installmentId = i.id →
      Payer u d (runPayments calls db) c →
        ¬ (payInstallment c.env c.cmd).Refused (runPayments calls db)

theorem DebtLaws.of_empty {input : CreateDebtInput} {db : Db} {debtId : Uuid} (hi : LedgerInv db)
    (h : db.rowsOf debtId = []) : DebtLaws input db debtId where
  positive := by simp [h]
  sums := fun hne => absurd h hne
  settles := by
    rintro calls ⟨-, -, c, -, i, hmem, -⟩
    rw [h] at hmem
    cases hmem
  payable := by
    intro calls i hmem
    obtain ⟨j, hj, -⟩ := mem_ids_run calls hi hmem
    rw [h] at hj
    cases hj

theorem findInstallment_of_mem {db : Db} (hnd : (db.installments.map (·.id)).Nodup)
    {i : Installment} (hi : i ∈ db.installments) : db.findInstallment i.id = some i := by
  unfold Db.findInstallment
  cases h : db.installments.find? (·.id = i.id) with
  | none => simpa using List.find?_eq_none.mp h i hi
  | some j =>
    have hid : j.id = i.id := by simpa using List.find?_some h
    rw [List.inj_on_of_nodup_map hnd (List.mem_of_find?_eq_some h) hi hid]

theorem Db.Scheduled.payable {db : Db} {debtId : Uuid} (hs : db.Scheduled debtId)
    (calls : List PayCall) {i : Installment} (hi : i ∈ (runPayments calls db).rowsOf debtId)
    (hopen : i.status ≠ .paid) {u : Uuid} {d : Debt} {c : PayCall}
    (hd : (runPayments calls db).findDebt debtId = some d) (hid : c.cmd.installmentId = i.id)
    (hp : Payer u d (runPayments calls db) c) :
    ¬ (payInstallment c.env c.cmd).Refused (runPayments calls db) := by
  have hr := runPayments_repaying calls hs.repaying
  obtain ⟨b, hb, -⟩ := hr.rows i hi
  obtain ⟨hmem, hdebt⟩ := List.mem_filter.mp hi
  have hfound : (runPayments calls db).findInstallment c.cmd.installmentId = some i := by
    rw [hid]
    exact findInstallment_of_mem hr.installmentIds hmem
  rw [← of_decide_eq_true hdebt] at hd
  exact payInstallment_accepted hfound hd hb hopen hp

/-- The created debt obeys the laws if every row comes to at least a Toman, and only then. -/
theorem createDebtRecord_laws {env : Env} {input : CreateDebtInput} {rate : Decimal} {db db' : Db}
    {debtId : Uuid} (hs : db.DebtsSound)
    (h : (createDebtRecord env input rate).run db = .ok (debtId, db')) :
    DebtLaws input db' debtId ↔ input.EveryShareAToman := by
  obtain ⟨rfl, hvalid, hrate, amounts, hamounts, hdebt, hinsert, rfl⟩ :=
    CreateDebtInput.createDebtRecord_ok h
  have hrows := CreateDebtInput.rowsOf_created amounts hdebt hs.installmentDebt
  set db' : Db := { db with
    debts := db.debts ++ [input.debtRow env rate]
    installments := db.installments ++ input.installmentRows env rate amounts } with hdb'
  have hledger : LedgerInv db' := hs.ledger.planning _ _ _
  by_cases hdue : input.dueDates = []
  · have hempty : db'.rowsOf env.debtId = [] := by
      rw [hrows]
      simp [CreateDebtInput.installmentRows, hdue]
    exact ⟨fun _ => .inl hdue, fun _ => .of_empty hledger hempty⟩
  obtain ⟨ns, rfl, hlen, hshare, hsum⟩ := input.amounts_whole hvalid hdue hamounts
  have hmap : (db'.rowsOf env.debtId).map (·.amountToman) = ns.map fun n : Nat => some (.ofInt n) := by
    rw [hrows, CreateDebtInput.amounts_of_rows (by rw [List.length_map, hlen]), List.map_map]
    rfl
  have hpositive : (∀ i ∈ db'.rowsOf env.debtId, ∃ t ∈ i.amountToman, 0 < t) ↔ ∀ n ∈ ns, 0 < n := by
    have hall : (∀ i ∈ db'.rowsOf env.debtId, ∃ t ∈ i.amountToman, 0 < t) ↔
        ∀ a ∈ (db'.rowsOf env.debtId).map (·.amountToman), ∃ t ∈ a, 0 < t := by simp
    rw [hall, hmap]
    simp [← Decimal.ofInt_zero]
  rw [hshare]
  constructor
  · exact fun hl => hpositive.mp hl.positive
  intro hns
  have hsched : db'.Scheduled env.debtId :=
    { ledger := hledger
      installmentIds := by
        rw [hdb', List.map_append]
        refine List.Nodup.append hs.installmentIds hinsert.1 fun i hold hnew => ?_
        obtain ⟨r, hr, rfl⟩ := List.mem_map.mp hold
        obtain ⟨r', hr', hid⟩ := List.mem_map.mp hnew
        exact hinsert.2 r' hr' r hr hid.symm
      debtIds := by
        rw [hdb', List.map_append]
        refine List.Nodup.append hs.debtIds (List.nodup_singleton _) fun i hold hnew => ?_
        obtain ⟨d, hd, rfl⟩ := List.mem_map.mp hold
        exact hdebt.1 d hd (List.mem_singleton.mp hnew)
      rows := by
        intro i hi
        have hamount : i.amountToman ∈ ns.map fun n : Nat => some (Decimal.ofInt n) :=
          hmap ▸ List.mem_map_of_mem hi
        obtain ⟨n, hn, heq⟩ := List.mem_map.mp hamount
        rw [hrows] at hi
        obtain ⟨j, hj, rfl⟩ := List.mem_mapIdx.mp hi
        exact ⟨rfl, rfl, n, hns n hn, heq.symm⟩
      nonempty := by
        intro hnil
        rw [hnil, List.map_nil] at hmap
        have hzero := congrArg List.length hmap
        rw [List.length_nil, List.length_map, hlen] at hzero
        exact hdue (List.length_eq_zero_iff.mp hzero.symm)
      unsettled := by
        intro i hi
        rw [hrows] at hi
        refine List.filter_eq_nil_iff.mpr fun s hmem => ?_
        obtain ⟨r, hr, hid⟩ := hs.settlementRow s hmem
        rw [decide_eq_true_eq, ← hid]
        exact hinsert.2 i hi r hr
      debt := by
        refine ⟨input.debtRow env rate, ?_, rfl⟩
        have hnone : db.debts.find? (·.id = env.debtId) = none :=
          List.find?_eq_none.mpr fun d hd => by
            rw [decide_eq_true_eq]
            exact hdebt.1 d hd
        unfold Db.findDebt
        rw [hdb', List.find?_append, hnone]
        simp [CreateDebtInput.debtRow] }
  refine ⟨hpositive.mpr hns, ?_, fun calls hoff => hoff.settles hsched.repaying, ?_⟩
  · intro _ hnone
    have hgetD : (db'.rowsOf env.debtId).map (fun i => i.amountToman.getD 0) =
        ((db'.rowsOf env.debtId).map (·.amountToman)).map (·.getD 0) := by
      rw [List.map_map]
      rfl
    rw [hgetD, hmap, List.map_map, hsum hnone]
    exact Decimal.sum_ofInt ns
  · exact fun calls i hi hopen u d c hd hid hp => hsched.payable calls hi hopen hd hid hp

/-! ## A small schedule -/

theorem demoDebt_sound : demoDebt.DebtsSound where
  ledger := demoDebt_scheduled.ledger
  installmentIds := demoDebt_scheduled.installmentIds
  debtIds := demoDebt_scheduled.debtIds
  installmentDebt := by decide
  settlementRow := by decide

/-- A debt of `principal` Toman in three monthly rows. -/
def demoLoan (principal : Int) : CreateDebtInput :=
  { userId := some 1, title := "وام", creditor := "بانک", principalIrt := .ofInt principal
    startDate := some 20250101, installmentCount := some 3, firstDueDate := 20250201 }

def demoCreate (principal : Int) : Sql Uuid :=
  createDebtRecord { entryId := 1, debtId := 2, installmentIds := fun n => n + 3 }
    (demoLoan principal) (.ofInt 100000)

theorem demoLoan_laws : DebtLaws (demoLoan 100) ((demoCreate 100).exec demoDebt) 2 := by
  have hrun : (demoCreate 100).run demoDebt = .ok (2, (demoCreate 100).exec demoDebt) := rfl
  exact (createDebtRecord_laws demoDebt_sound hrun).mpr (by decide)

/-- Two Toman in three rows: the third row is nothing, and nothing pays it. -/
theorem third_share_stuck : (∃ db', (demoCreate 2).run demoDebt = .ok (2, db')) ∧
    (∃ i ∈ (runPayments [demoPay 1 3 11 none, demoPay 2 4 11 none, demoPay 3 5 11 none]
      ((demoCreate 2).exec demoDebt)).rowsOf 2, i.amountToman = some 0 ∧ i.status = .pending) ∧
    ¬ DebtLaws (demoLoan 2) ((demoCreate 2).exec demoDebt) 2 := by
  refine ⟨⟨_, rfl⟩, by decide, fun h => ?_⟩
  have hzero : ∃ i ∈ ((demoCreate 2).exec demoDebt).rowsOf 2, i.amountToman = some 0 := by decide
  obtain ⟨i, hi, hamount⟩ := hzero
  obtain ⟨t, ht, hpos⟩ := h.positive i hi
  rw [hamount] at ht
  cases ht
  exact absurd hpos (by decide)

end Pwos
