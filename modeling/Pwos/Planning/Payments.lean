import Pwos.Ledger.CommandRuns
import Pwos.Planning.PayInstallment

/-!
# What Quick Pay does

For a transaction that runs alone: `payInstallment` finds nothing left to pay, or posts
one entry and settles the row by the amount it was given (`payInstallment_ok`). Nothing
later unfolds the program for runs of this kind.
-/

namespace Pwos

/-! ## System accounts -/

/-- The write adds an account of which `P` holds. -/
def Write.Adds (P : Account → Prop) (w : Write) : Prop := ∃ a, P a ∧ w = .insertAccount a

theorem applyAll_adds {P : Account → Prop} {ws : List Write} (h : ∀ w ∈ ws, w.Adds P) (db : Db) :
    ∃ accounts : List Account, (∀ a ∈ accounts, P a) ∧ applyAll ws db = db.withAccounts accounts := by
  induction ws generalizing db with
  | nil => exact ⟨[], by simp, (withAccounts_nil db).symm⟩
  | cons w ws ih =>
    obtain ⟨a, ha, rfl⟩ := h w (by simp)
    obtain ⟨as, has, heq⟩ := ih (fun v hv => h v (by simp [hv])) (db.withAccounts [a])
    refine ⟨a :: as, by simpa [ha] using has, heq.trans ?_⟩
    simp [Db.withAccounts]

/-- A system account the tenant did not have. -/
def Account.IsSystem (code : String) (type : AccountType) (userId : Option Uuid) (a : Account) :
    Prop := a.code = code ∧ a.type = type ∧ a.userId = userId ∧ a.deleted = false

theorem ensureSystemAccount_adds (env : Env) (code name : String) (type : AccountType)
    (userId : Option Uuid) : (ensureSystemAccount env code name type userId).WritesOnly
      (Write.Adds (Account.IsSystem code type userId)) := by
  unfold ensureSystemAccount
  refine (readOnly_resolveSystemAccount _ _).writesOnly.bind fun own => ?_
  split
  · trivial
  refine readOnly_findBaseAssetId.writesOnly.bind fun base => ?_
  refine Tx.WritesOnly.bind ?_ fun created => ?_
  · intro db
    constructor
    · intro w hw
      simp only at hw
      split at hw
      · cases hw
      · exact ⟨_, ⟨rfl, rfl, rfl, rfl⟩, List.mem_singleton.mp hw⟩
    · simp only
      split
      · trivial
      · split <;> trivial
  · split
    · trivial
    · exact (readOnly_resolveSystemAccount _ _).writesOnly

/-- The bucket of a direction, by code and type. -/
def bucketCode (direction : String) : String :=
  if isReceivable direction then RECEIVABLE_COLLECTION_CODE else INSTALLMENT_PAYMENT_CODE
def bucketType (direction : String) : AccountType :=
  if isReceivable direction then .income else .expense

def Account.IsBucket (direction : String) (userId : Option Uuid) (a : Account) : Prop :=
  a.IsSystem (bucketCode direction) (bucketType direction) userId

theorem ensureBucket_adds (env : Env) (userId : Option Uuid) (direction : String) :
    (ensureBucket env userId direction).WritesOnly
      (Write.Adds (Account.IsBucket direction userId)) := by
  unfold ensureBucket Account.IsBucket bucketCode bucketType
  split <;> exact ensureSystemAccount_adds _ _ _ _ _

theorem resolveContra_adds (env : Env) (userId : Option Uuid) (debt : Debt) :
    (resolveContra env userId debt).WritesOnly
      (Write.Adds (Account.IsBucket debt.direction userId)) := by
  unfold resolveContra
  split
  · trivial
  refine (ensureBucket_adds _ _ _).bind fun bucket => ?_
  split <;> trivial

/-! ## The amounts of a payment -/

/-- What the payment `p` asks the row `inst` to take, at the rate. -/
structure Payment.Owed (cmd : PayCmd) (rate : Decimal) (p : Payment) : Prop where
  contract : ∃ contractual, contractualToman p.inst rate = .ok contractual ∧
    0 < remainingToman (p.inst.balanceRow contractual) ∧
    p.settled = cmd.payToman.getD (remainingToman (p.inst.balanceRow contractual)) ∧
    applyPartialPayment (p.inst.balanceRow contractual) (p.settled.toFixed 0) = .ok p.next
  snapshot : calculateInstallmentPayment p.settled rate = .ok p.snapshot

/-- The account that pays, with its unit. -/
structure Payment.FromCash (db : Db) (cmd : PayCmd) (p : Payment) : Prop where
  account : p.cashAccountId = cmd.cashAccountId
  moves : ∃ a units, db.findAccount cmd.cashAccountId = some a ∧ a.type = .asset ∧
    a.assetId = some p.cash.1 ∧
    p.cash.2 = cashQuantity (upper (((db.findAsset p.cash.1).map (·.symbol)).getD ""))
      p.settled units

/-- What the paying account pays: the settled Toman, or the dollars at the asset's price. -/
def Payment.Priced (db : Db) (p : Payment) : Prop :=
  ∃ price, (nativeUnitPriceUsd p.cash.1 p.userId).answer db = .ok price ∧
    p.cash.2 = cashQuantity (db.unitOf p.cash.1) p.settled
      (p.snapshot.paidUsd.div (if price = 0 then .ofInt 1 else price))

theorem assertCashAccount_ok {userId : Option Uuid} {accountId : Uuid} {db db' : Db}
    {symbol : String} (h : (assertCashAccount userId accountId).run db = .ok (symbol, db')) :
    db' = db ∧ ∃ a, db.findAccount accountId = some a ∧ a.type = .asset ∧
      symbol = upper (((a.assetId.bind db.findAsset).map (·.symbol)).getD "") := by
  unfold assertCashAccount at h
  rw [Tx.run_read_bind] at h
  split at h
  · cases h
  · rename_i a ha
    cases h
    obtain ⟨ha, hp⟩ := Option.filter_eq_some_iff.mp ha
    exact ⟨rfl, a, ha, (of_decide_eq_true hp).2.1, rfl⟩

theorem readOnly_unitsFor (accountId : Uuid) (baseAmount : Decimal) (userId : Option Uuid) :
    (unitsFor accountId baseAmount userId).ReadOnly := by
  unfold unitsFor
  refine (Tx.readOnly_read _).bind fun row => ?_
  split
  · exact Tx.readOnly_fail _
  · exact (readOnly_nativeUnitPriceUsd _ _).bind fun _ => Tx.readOnly_done _

/-- The units of an amount, at the price of the account's asset. -/
theorem unitsFor_ok {accountId : Uuid} {baseAmount : Decimal} {userId : Option Uuid}
    {db db' : Db} {units : Uuid × Decimal}
    (h : (unitsFor accountId baseAmount userId).run db = .ok (units, db')) :
    db' = db ∧ (db.findAccount accountId).bind (·.assetId) = some units.1 ∧
      ∃ price, (nativeUnitPriceUsd units.1 userId).answer db = .ok price ∧
        units.2 = baseAmount.div (if price = 0 then .ofInt 1 else price) := by
  obtain rfl := (readOnly_unitsFor _ _ _).run_state h
  refine ⟨rfl, ?_⟩
  unfold unitsFor at h
  rw [Tx.run_read_bind] at h
  split at h
  · cases h
  · rename_i a ha
    obtain ⟨price, _, hprice, h₁⟩ := Tx.run_bind_ok.mp h
    obtain ⟨hanswer, rfl⟩ := (readOnly_nativeUnitPriceUsd _ _).run_ok.mp hprice
    cases h₁
    exact ⟨ha, price, hanswer, rfl⟩

/-! ## The rows -/

/-- The row of an installment and the record of its settlement. -/
def Db.settledWith (db : Db) (installmentId : Uuid) (c : SettledColumns) (s : Settlement) : Db :=
  { db with
    installments := db.installments.map fun r => if r.id = installmentId then r.settle c else r
    settlements := db.settlements ++ [s] }

/-- The debt is settled if nothing is outstanding on it. -/
def Db.closeDebt (db : Db) (debtId : Uuid) : Db :=
  if db.outstandingOf debtId = [] then
    { db with debts := db.debts.map fun d =>
        if d.id = debtId then { d with status := .settled } else d }
  else db

theorem settleDebtIfPaid_run (debtId : Uuid) (db : Db) :
    (settleDebtIfPaid debtId).run db = .ok ((), db.closeDebt debtId) := by
  unfold settleDebtIfPaid Db.closeDebt Tx.when
  rw [Tx.run_read_bind]
  by_cases h : db.outstandingOf debtId = []
  · rw [if_pos (by rw [h]; rfl), if_pos h]; rfl
  · rw [if_neg (mt List.length_eq_zero_iff.mp h), if_neg h]; rfl

namespace Payment
variable (env : Env) (p : Payment)

/-- The entry of the payment and its lines. -/
def entry (userId : Option Uuid) : JournalEntry := (p.input env).entryRow env.entryId userId
def lines : List Posting := (p.input env).postings.map (DraftPosting.row env.entryId)

/-- What the payment has written when it counts. -/
def writes (userId : Option Uuid) : List Write :=
  [.insertEntry (p.entry env userId), .insertPostings (p.lines env),
    .settleInstallment p.inst.id (p.columns env env.entryId),
    .noteSettlement (p.settlement env.entryId)]

/-- The database after the payment, its bucket included. -/
def result (db : Db) (accounts : List Account) (userId : Option Uuid) : Db :=
  (((db.withAccounts accounts).withEntry (p.entry env userId) (p.lines env)).settledWith p.inst.id
    (p.columns env env.entryId) (p.settlement env.entryId)).closeDebt p.debt.id

end Payment

/-- The entry of a payment is posted. It has no key, so it is never a replay. -/
theorem postPayment_ok {env : Env} {p : Payment} {db db' : Db} {r : PostResult}
    (hnd : (db.lots.map (·.id)).Nodup) (h : (postEntry env (p.input env)).run db = .ok (r, db')) :
    r = ⟨env.entryId, false⟩ ∧ ∃ userId, Posted env (p.input env) userId db db' ∧
      db' = db.withEntry (p.entry env userId) (p.lines env) := by
  rcases postEntryPriced_ok hnd h with ⟨⟨_, _, _, _, hk, _⟩, _⟩ | ⟨hr, userId, hp⟩
  · cases hk
  · refine ⟨hr, userId, hp, ?_⟩
    rw [hp.written.result, newLots_nil rfl, consumptions_nil rfl, recorded_plain]
    rfl

theorem payRow_ok {env : Env} {p : Payment} {db db' : Db} {r : PayResult}
    (hnd : (db.lots.map (·.id)).Nodup) (h : (payRow env p).run db = .ok (r, db')) :
    ∃ userId mid, Posted env (p.input env) userId db mid ∧
      r = .settled ⟨env.entryId, false⟩ p.contra (resolveDirection p.debt.direction) p.next ∧
      db' = ((db.withEntry (p.entry env userId) (p.lines env)).settledWith p.inst.id
        (p.columns env env.entryId) (p.settlement env.entryId)).closeDebt p.debt.id := by
  obtain ⟨entry, mid, hpost, h⟩ := Tx.run_bind_ok.mp h
  obtain ⟨rfl, userId, hp, rfl⟩ := postPayment_ok hnd hpost
  rw [Tx.run_write_bind, Tx.run_bind_of_ok (settleDebtIfPaid_run _ _)] at h
  cases h
  exact ⟨userId, _, hp, rfl, rfl⟩

/-! ## The payment -/

/-- The rate a write may freeze. -/
def Db.RateIs (db : Db) (userId : Option Uuid) (fx : FxSnapshot) : Prop :=
  (getLatestUsdIrtRateForUser userId).answer db = .ok fx ∧ ¬ fx.isPlaceholder

theorem Db.RateIs.pos {db : Db} {userId : Option Uuid} {fx : FxSnapshot} (h : db.RateIs userId fx) :
    0 < fx.rate := not_le.mp fun hle => h.2 (.inr hle)

/-- The rate depends on the three tables of rates only. -/
theorem latestRate_congr {db db' : Db} (hu : db.userFxSettings = db'.userFxSettings)
    (he : db.exchangeRates = db'.exchangeRates) (hs : db.settings = db'.settings)
    (userId : Option Uuid) : (getLatestUsdIrtRateForUser userId).answer db =
      (getLatestUsdIrtRateForUser userId).answer db' := by
  unfold getLatestUsdIrtRateForUser Tx.answer
  simp only [Tx.run_read_bind, hu]
  split
  · rfl
  simp only [Tx.run_read_bind, he]
  split
  · rfl
  simp only [Tx.run_read_bind, hs]
  split <;> rfl

theorem rateIs_withAccounts {db : Db} {accounts : List Account} {userId : Option Uuid}
    {fx : FxSnapshot} : (db.withAccounts accounts).RateIs userId fx ↔ db.RateIs userId fx := by
  unfold Db.RateIs
  have hsame : (db.withAccounts accounts).userFxSettings = db.userFxSettings := rfl
  rw [latestRate_congr hsame rfl rfl]

theorem realRate_ok {userId : Option Uuid} {db db' : Db} {fx : FxSnapshot}
    (h : (do assertRealUsdIrtRate (← getLatestUsdIrtRateForUser userId)).run db = .ok (fx, db')) :
    db' = db ∧ db.RateIs userId fx := by
  obtain ⟨snap, db₁, hrun, hreal⟩ := Tx.run_bind_ok.mp h
  obtain ⟨hsnap, rfl⟩ := (readOnly_getLatestUsdIrtRateForUser _).run_ok.mp hrun
  unfold assertRealUsdIrtRate at hreal
  rw [Tx.run_require_bind] at hreal
  split at hreal <;> cases hreal
  exact ⟨rfl, hsnap, ‹_›⟩

/-- At some rate nothing is owed on the row. -/
def Installment.NothingOwed (inst : Installment) : Prop :=
  ∃ rate contractual, contractualToman inst rate = .ok contractual ∧
    remainingToman (inst.balanceRow contractual) ≤ 0

/-- What the payment was made of, in the database it was made in. -/
structure Payment.Made (db : Db) (cmd : PayCmd) (p : Payment) : Prop where
  row : db.payableRow p.userId cmd.installmentId = some (p.inst, p.debt)
  unpaid : p.inst.status ≠ .paid
  owed : ∃ fx, db.RateIs p.userId fx ∧ p.Owed cmd fx.rate
  fromCash : p.FromCash db cmd

theorem resolve_ok {env : Env} {userId : Option Uuid} {cmd : PayCmd} {inst : Installment}
    {debt : Debt} {db db' : Db} {result : Option Payment}
    (h : (Payment.resolve env userId cmd inst debt).run db = .ok (result, db')) :
    ∃ accounts : List Account, (∀ a ∈ accounts, a.IsBucket debt.direction userId) ∧
      db' = db.withAccounts accounts ∧ (result = none → inst.NothingOwed) ∧
        ∀ p ∈ result, p.userId = userId ∧ p.inst = inst ∧ p.debt = debt ∧
          (∃ fx, db.RateIs userId fx ∧ p.Owed cmd fx.rate) ∧ p.Priced db' ∧ p.FromCash db' cmd := by
  unfold Payment.resolve at h
  obtain ⟨contra, db₁, hcontra, h⟩ := Tx.run_bind_ok.mp h
  obtain ⟨ws, hws, rfl⟩ := (resolveContra_adds _ _ _).run_ok hcontra
  obtain ⟨accounts, hacc, heq⟩ := applyAll_adds hws db
  rw [heq] at h
  refine ⟨accounts, hacc, ?_⟩
  obtain ⟨fx, db₂, hrate, h⟩ := Tx.run_bind_ok.mp h
  obtain ⟨rfl, hfx⟩ := realRate_ok hrate
  obtain ⟨contractual, db₃, hrun, h⟩ := Tx.run_bind_ok.mp h
  obtain ⟨hcontract, rfl⟩ := Tx.run_ofExcept_ok.mp hrun
  dsimp only at h
  split at h
  · rename_i hleft
    cases h
    exact ⟨rfl, fun _ => ⟨fx.rate, contractual, hcontract, hleft⟩, by simp⟩
  · rename_i hleft
    obtain ⟨next, db₄, hrun, h⟩ := Tx.run_bind_ok.mp h
    obtain ⟨hnext, rfl⟩ := Tx.run_ofExcept_ok.mp hrun
    obtain ⟨snapshot, db₅, hrun, h⟩ := Tx.run_bind_ok.mp h
    obtain ⟨hsnap, rfl⟩ := Tx.run_ofExcept_ok.mp hrun
    obtain ⟨symbol, db₆, hcash, h⟩ := Tx.run_bind_ok.mp h
    obtain ⟨rfl, a, ha, htype, rfl⟩ := assertCashAccount_ok hcash
    obtain ⟨cash, db₇, hunits, h⟩ := Tx.run_bind_ok.mp h
    obtain ⟨rfl, hasset, price, hprice, hcash⟩ := unitsFor_ok hunits
    obtain ⟨contraUnits, db₈, hunits', h⟩ := Tx.run_bind_ok.mp h
    obtain ⟨rfl, -⟩ := unitsFor_ok hunits'
    cases h
    refine ⟨rfl, nofun, ?_⟩
    rintro p ⟨⟩
    rw [ha] at hasset
    have hasset : a.assetId = some cash.1 := hasset
    refine ⟨rfl, rfl, rfl,
      ⟨fx, rateIs_withAccounts.mp hfx, ⟨contractual, hcontract, not_le.mp hleft, rfl, hnext⟩, hsnap⟩,
      ⟨price, hprice, ?_⟩, rfl, a, cash.2, ha, htype, hasset, ?_⟩
    · simp [hasset, ← hcash, Db.unitOf]
    · simp [hasset]

/-- The part of `Payment.resolve` after the counter-leg. -/
def Payment.amounts (userId : Option Uuid) (cmd : PayCmd) (inst : Installment) (debt : Debt)
    (contra : Contra) : Sql (Option Payment) := do
  let paymentFx ← (do assertRealUsdIrtRate (← getLatestUsdIrtRateForUser userId))
  let contractual ← Tx.ofExcept (contractualToman inst paymentFx.rate)
  let outstanding := remainingToman (inst.balanceRow contractual)
  if outstanding ≤ 0 then pure none
  else
    let settled := cmd.payToman.getD outstanding
    let next ← Tx.ofExcept (applyPartialPayment (inst.balanceRow contractual) (settled.toFixed 0))
    let snapshot ← Tx.ofExcept (calculateInstallmentPayment settled paymentFx.rate)
    let cashSymbol ← assertCashAccount userId cmd.cashAccountId
    let cashUnits ← unitsFor cmd.cashAccountId snapshot.paidUsd userId
    let contraUnits ← unitsFor contra.accountId snapshot.paidUsd userId
    pure (some
      { userId, cashAccountId := cmd.cashAccountId, inst, debt, contra, settled, next, snapshot
        cash := (cashUnits.1, cashQuantity cashSymbol settled cashUnits.2), contraUnits })

theorem resolve_eq (env : Env) (userId : Option Uuid) (cmd : PayCmd) (inst : Installment)
    (debt : Debt) : Payment.resolve env userId cmd inst debt =
      (resolveContra env userId debt >>= Payment.amounts userId cmd inst debt) := rfl

/-- What holds of a payment whatever its statements found. -/
structure Payment.Fits (userId : Option Uuid) (cmd : PayCmd) (inst : Installment) (debt : Debt)
    (contra : Contra) (p : Payment) : Prop where
  user : p.userId = userId
  cash : p.cashAccountId = cmd.cashAccountId
  row : p.inst = inst
  debt : p.debt = debt
  contra : p.contra = contra
  owed : ∃ rate, p.Owed cmd rate

theorem readOnly_assertCashAccount (userId : Option Uuid) (accountId : Uuid) :
    (assertCashAccount userId accountId).ReadOnly := by
  unfold assertCashAccount
  refine (Tx.readOnly_read _).bind fun row => ?_
  split
  · exact Tx.readOnly_fail _
  · exact Tx.readOnly_read _

theorem amounts_yields (userId : Option Uuid) (cmd : PayCmd) (inst : Installment) (debt : Debt)
    (contra : Contra) {vs : List Write} {js : List Row} :
    (Payment.amounts userId cmd inst debt contra).Yields (fun result ws ks => ws = vs ∧ ks = js ∧
      ∀ p ∈ result, p.Fits userId cmd inst debt contra) vs js := by
  unfold Payment.amounts
  have hrate : (do assertRealUsdIrtRate (← getLatestUsdIrtRateForUser userId) : Sql FxSnapshot).ReadOnly :=
    (readOnly_getLatestUsdIrtRateForUser _).bind fun _ =>
      (Tx.readOnly_require _ _).bind fun _ => Tx.readOnly_done _
  refine hrate.yields_bind fun fx => ?_
  cases hc : contractualToman inst fx.rate with
  | error e => trivial
  | ok contractual =>
  by_cases hleft : remainingToman (inst.balanceRow contractual) ≤ 0
  · simp only [Tx.ofExcept, Tx.done_bind, if_pos hleft]
    exact ⟨rfl, rfl, by simp⟩
  simp only [Tx.ofExcept, Tx.done_bind, if_neg hleft]
  cases hnext : applyPartialPayment (inst.balanceRow contractual) ((cmd.payToman.getD
      (remainingToman (inst.balanceRow contractual))).toFixed 0) with
  | error e => trivial
  | ok next =>
  cases hsnap : calculateInstallmentPayment (cmd.payToman.getD
      (remainingToman (inst.balanceRow contractual))) fx.rate with
  | error e => trivial
  | ok snapshot =>
  simp only [Tx.done_bind]
  refine (readOnly_assertCashAccount _ _).yields_bind fun symbol => ?_
  refine (readOnly_unitsFor _ _ _).yields_bind fun cash => ?_
  refine (readOnly_unitsFor _ _ _).yields_bind fun contraUnits => ?_
  refine ⟨rfl, rfl, ?_⟩
  rintro p ⟨⟩
  exact ⟨rfl, rfl, rfl, rfl, rfl, fx.rate, ⟨contractual, hc, not_le.mp hleft, rfl, hnext⟩, hsnap⟩

theorem readOnly_resolvePlanningUserId (env : Env) (explicitUserId : Option Uuid) :
    (resolvePlanningUserId env explicitUserId).ReadOnly := by
  unfold resolvePlanningUserId
  split
  · exact Tx.readOnly_done _
  refine (Tx.readOnly_read _).bind fun users => ?_
  split
  · exact Tx.readOnly_done _
  · exact (Tx.readOnly_require _ _).bind fun _ => Tx.readOnly_done _
  · exact Tx.readOnly_fail _

/-- What an accepted payment did. -/
inductive PayOutcome (env : Env) (cmd : PayCmd) (db : Db) : PayResult → Db → Prop where
  | closed {userId : Option Uuid} {inst : Installment} {debt : Debt}
      (row : db.payableRow userId cmd.installmentId = some (inst, debt))
      (paid : inst.status = .paid) :
      PayOutcome env cmd db (.alreadyPaid inst.paidEntryId) db
  | empty {userId : Option Uuid} {inst : Installment} {debt : Debt} (accounts : List Account)
      (row : db.payableRow userId cmd.installmentId = some (inst, debt))
      (unpaid : inst.status ≠ .paid) (nothing : inst.NothingOwed) :
      PayOutcome env cmd db (.alreadyPaid inst.paidEntryId) (db.withAccounts accounts)
  | settled {p : Payment} {userId : Option Uuid} {mid : Db} (accounts : List Account)
      (made : p.Made db cmd)
      (posted : Posted env (p.input env) userId (db.withAccounts accounts) mid) :
      PayOutcome env cmd db
        (.settled ⟨env.entryId, false⟩ p.contra (resolveDirection p.debt.direction) p.next)
        (p.result env db accounts userId)

/-- An asset account is none of the buckets a payment provisions. -/
theorem findAccount_of_buckets {db : Db} {accounts : List Account} {direction : String}
    {userId : Option Uuid} (hacc : ∀ a ∈ accounts, a.IsBucket direction userId) {i : Uuid}
    {a : Account} (ha : (db.withAccounts accounts).findAccount i = some a) (htype : a.type = .asset) :
    db.findAccount i = some a := by
  unfold Db.findAccount Db.withAccounts at *
  rw [List.find?_append] at ha
  cases h : db.accounts.find? (·.id = i) with
  | some b => rw [h] at ha; exact ha
  | none =>
    rw [h, Option.none_or] at ha
    have hb := (hacc a (List.mem_of_find?_eq_some ha)).2.1
    rw [htype] at hb
    unfold bucketType at hb
    split at hb <;> cases hb

theorem payInstallment_ok {env : Env} {cmd : PayCmd} {db db' : Db} {r : PayResult}
    (hnd : (db.lots.map (·.id)).Nodup) (h : (payInstallment env cmd).run db = .ok (r, db')) :
    PayOutcome env cmd db r db' := by
  unfold payInstallment at h
  obtain ⟨userId, h⟩ := (readOnly_resolvePlanningUserId _ _).run_bind_ok h
  rw [Tx.run_lock_bind, Tx.run_read_bind] at h
  split at h
  · cases h
  rename_i inst debt hrow
  split at h
  · rename_i hpaid
    cases h
    exact .closed hrow hpaid
  rename_i hunpaid
  obtain ⟨result, db₂, hresolve, hrest⟩ := Tx.run_bind_ok.mp h
  obtain ⟨accounts, hacc, rfl, hnone, hmade⟩ := resolve_ok hresolve
  have hnd' : ((db.withAccounts accounts).lots.map (·.id)).Nodup := hnd
  cases result with
  | none =>
    cases hrest
    exact .empty accounts hrow hunpaid (hnone rfl)
  | some p =>
    obtain ⟨user, mid, hposted, rfl, rfl⟩ := payRow_ok hnd' hrest
    obtain ⟨rfl, rfl, rfl, howed, -, haccount, a, units, ha, htype, hcash⟩ := hmade p rfl
    exact .settled accounts ⟨hrow, hunpaid, howed, haccount, a, units,
      findAccount_of_buckets hacc ha htype, htype, hcash⟩ hposted

/-- The price of a payment that settles a row. -/
theorem payInstallment_settled {env : Env} {cmd : PayCmd} {db db' : Db} {e : PostResult}
    {contra : Contra} {direction : ObligationDirection} {next : PartialPayment}
    (hnd : (db.lots.map (·.id)).Nodup)
    (h : (payInstallment env cmd).run db = .ok (.settled e contra direction next, db')) :
    ∃ p accounts userId mid, Payment.Made db cmd p ∧ p.Priced (db.withAccounts accounts) ∧
      Posted env (p.input env) userId (db.withAccounts accounts) mid ∧
      db' = p.result env db accounts userId := by
  unfold payInstallment at h
  obtain ⟨userId, h₁⟩ := (readOnly_resolvePlanningUserId _ _).run_bind_ok h
  rw [Tx.run_lock_bind, Tx.run_read_bind] at h₁
  split at h₁
  · cases h₁
  rename_i inst debt hrow
  split at h₁
  · cases h₁
  rename_i hunpaid
  obtain ⟨result, db₂, hresolve, hrest⟩ := Tx.run_bind_ok.mp h₁
  obtain ⟨accounts, hacc, rfl, -, hmade⟩ := resolve_ok hresolve
  have hnd' : ((db.withAccounts accounts).lots.map (·.id)).Nodup := hnd
  cases result with
  | none => cases hrest
  | some p =>
    obtain ⟨user, mid, hposted, -, rfl⟩ := payRow_ok hnd' hrest
    obtain ⟨rfl, rfl, rfl, howed, hpriced, haccount, a, units, ha, htype, hcash⟩ := hmade p rfl
    exact ⟨p, accounts, user, mid, ⟨hrow, hunpaid, howed, haccount, a, units,
      findAccount_of_buckets hacc ha htype, htype, hcash⟩, hpriced, hposted, rfl⟩

end Pwos
