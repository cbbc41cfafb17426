import Mathlib.Data.List.Sort
import Pwos.Lib.Tx
import Pwos.Domain.Accounting
import Pwos.Lib.Upsert

/-!
# The tables

`db/schema.ts`, as far as the ledger reads and writes it. A table is the list of its
rows. Amounts are the numbers their texts stand for (`Decimal.parse_toText`).

A statement writes one or more `Write`s, takes the locks of the `Row`s it touches, and
may state an `Assumption`.
-/

namespace Pwos

inductive EntryStatus where
  | posted | void
  deriving DecidableEq, Repr

inductive EntrySource where
  | manual | plan | imported
  deriving DecidableEq, Repr

structure Asset where
  id : Uuid
  symbol : String
  classCode : String
  deleted : Bool := false
  deriving DecidableEq, Repr

structure Account where
  id : Uuid
  createdAt : Nat
  userId : Option Uuid
  code : String
  name : String
  type : AccountType
  assetId : Option Uuid
  deleted : Bool := false
  deriving DecidableEq, Repr

structure Price where
  assetId : Uuid
  asOf : IsoDate
  priceBase : Decimal
  deriving DecidableEq, Repr

structure UserFxSetting where
  userId : Uuid
  currentRate : Decimal
  deriving DecidableEq, Repr

structure ExchangeRate where
  baseCurrency : String
  quoteCurrency : String
  effectiveDate : IsoDate
  rate : Decimal
  source : Option String := none
  deriving DecidableEq, Repr

structure Setting where
  key : String
  value : String
  deriving DecidableEq, Repr

/-- An opening day as the caller typed it. -/
inductive OpenedAt where
  | malformed
  | day (d : IsoDate)
  deriving DecidableEq, Repr

/-- A lot to open, as the caller gives it. -/
structure LotInput where
  accountId : Uuid
  assetId : Uuid
  quantity : Decimal
  costBase : Decimal
  openedAt : Option OpenedAt := none
  purchaseFxRate : Option Decimal := none
  deriving DecidableEq, Repr

/-- Lots to consume. -/
structure CloseLot where
  assetId : Uuid
  quantity : Decimal
  proceedsBase : Decimal
  deriving DecidableEq, Repr

/-- A posting as it is hashed. The memo is not. -/
structure CanonicalPosting where
  accountId : Uuid
  assetId : Uuid
  quantity : Decimal
  baseValue : Decimal
  deriving DecidableEq, Repr

/-- What `canonicalizePayload` hashes. It stands for its SHA-256 digest: digests are
compared only with each other, and two payloads are taken to have two digests. -/
structure Digest where
  entryDate : IsoDate
  type : EntryType
  description : String
  categoryId : Option Uuid
  postings : List CanonicalPosting
  openLots : List LotInput
  closeLot : Option CloseLot
  deriving DecidableEq, Repr

structure JournalEntry where
  id : Uuid
  userId : Option Uuid
  entryDate : IsoDate
  type : EntryType
  description : String
  reference : Option String := none
  status : EntryStatus
  reversalOf : Option Uuid := none
  source : EntrySource := .manual
  idempotencyKey : Option String := none
  idempotencyHash : Option Digest := none
  categoryId : Option Uuid := none
  deriving DecidableEq, Repr

structure Posting where
  entryId : Uuid
  accountId : Uuid
  assetId : Uuid
  quantity : Decimal
  baseValue : Decimal
  memo : Option String
  deriving DecidableEq, Repr

structure Lot where
  id : Uuid
  userId : Option Uuid
  accountId : Uuid
  assetId : Uuid
  openEntryId : Uuid
  openedAt : IsoDate
  qtyOpened : Decimal
  qtyRemaining : Decimal
  unitCostBase : Decimal
  purchaseFxRate : Option Decimal
  deriving DecidableEq, Repr

structure LotConsumption where
  lotId : Uuid
  entryId : Uuid
  quantity : Decimal
  costBase : Decimal
  proceedsBase : Decimal
  realizedPnl : Decimal
  deriving DecidableEq, Repr

inductive DebtStatus where
  | active | settled | cancelled
  deriving DecidableEq, Repr

structure Debt where
  id : Uuid
  userId : Option Uuid
  title : String
  /-- `payable` or `receivable`. -/
  direction : String := "payable"
  accountId : Option Uuid := none
  status : DebtStatus := .active
  creditor : String := ""
  principalToman : Option Decimal := none
  principalBase : Decimal := 0
  startDate : IsoDate := 0
  deleted : Bool := false
  deriving DecidableEq, Repr

/-- pending, partial, paid. -/
inductive InstallmentStatus where
  | pending | partlyPaid | paid
  deriving DecidableEq, Repr

structure Installment where
  id : Uuid
  debtId : Uuid
  seq : Nat
  amountBase : Decimal
  amountToman : Option Decimal := none
  paidToman : Option Decimal := none
  paidUsd : Option Decimal := none
  paidFxRate : Option Decimal := none
  status : InstallmentStatus := .pending
  paidEntryId : Option Uuid := none
  paidAt : Option IsoDate := none
  dueDate : IsoDate := 0
  deriving DecidableEq, Repr

/-- What one settlement settled: kept for the specification alone. There is no such table
and no program reads it; the row of an installment names its last entry only. -/
structure Settlement where
  installmentId : Uuid
  entryId : Uuid
  cashAccountId : Option Uuid
  toman : Decimal
  deriving DecidableEq, Repr

inductive PlanDirection where
  | inflow | outflow
  deriving DecidableEq, Repr

inductive Recurrence where
  | none | monthly | yearly
  deriving DecidableEq, Repr

inductive PlanStatus where
  | pending | executed | cancelled
  deriving DecidableEq, Repr

structure PlannedTransaction where
  id : Uuid
  userId : Option Uuid
  title : String
  plannedDate : IsoDate
  direction : PlanDirection
  amountBase : Decimal
  fromAccountId : Option Uuid := none
  toAccountId : Option Uuid := none
  assetId : Option Uuid := none
  recurrence : Recurrence := .none
  status : PlanStatus := .pending
  executedEntryId : Option Uuid := none
  goalId : Option Uuid := none
  eventId : Option Uuid := none
  note : Option String := none
  categoryId : Option Uuid := none
  amountNative : Option Decimal := none
  dayOfMonth : Option Nat := none
  depositId : Option Uuid := none
  insurancePolicyId : Option Uuid := none
  deleted : Bool := false
  /-- The first reminder of its chain, if it is not that itself: kept for the specification
  alone, no program reads it. -/
  chain : Option Uuid := none
  deriving DecidableEq, Repr

inductive DepositStatus where
  | active | closed
  deriving DecidableEq, Repr

structure Deposit where
  id : Uuid
  userId : Uuid
  status : DepositStatus := .active
  maturityDate : Option IsoDate := none
  deriving DecidableEq, Repr

/-- A row of `snapshots`. -/
structure Snapshot where
  id : Uuid
  userId : Option Uuid
  asOf : IsoDate
  totalAssets : Decimal
  totalLiabilities : Decimal
  netWorth : Decimal
  deriving DecidableEq, Repr

structure SnapshotLine where
  snapshotId : Uuid
  assetId : Uuid
  quantity : Decimal
  priceBase : Decimal
  valueBase : Decimal
  deriving DecidableEq, Repr

structure PortfolioSnapshot where
  id : Uuid
  userId : Option Uuid
  snapshotDate : IsoDate
  totalPortfolioValue : Decimal
  deriving DecidableEq, Repr

/-- A row of `portfolio_valuations`. -/
structure PortfolioValuation where
  userId : Option Uuid
  assetId : Uuid
  quantity : Decimal
  marketPrice : Decimal
  totalValue : Decimal
  valuationDate : IsoDate
  deriving DecidableEq, Repr

inductive PremiumFrequency where
  | once | monthly | quarterly | annual
  deriving DecidableEq, Repr

inductive PolicyStatus where
  | active | renewed | cancelled
  deriving DecidableEq, Repr

structure InsurancePolicy where
  id : Uuid
  userId : Uuid
  kind : String
  title : String
  insurer : Option String := none
  policyNumber : Option String := none
  startDate : IsoDate
  endDate : Option IsoDate := none
  premiumToman : Decimal
  premiumFrequency : PremiumFrequency
  payAccountId : Option Uuid := none
  debtId : Option Uuid := none
  coverageToman : Option Decimal := none
  insuredPropertyId : Option Uuid := none
  insuredVehicleId : Option Uuid := none
  savingsAccountId : Option Uuid := none
  status : PolicyStatus := .active
  renewedFromId : Option Uuid := none
  note : Option String := none
  deriving DecidableEq, Repr

/-- Where the rate of a dated conversion comes from. -/
inductive RateOrigin where
  | manual | exact | historical | nearest | current | fallback
  deriving DecidableEq, Repr

inductive RwaKind where
  | property | vehicle
  deriving DecidableEq, Repr

structure RealEstateProperty where
  id : Uuid
  userId : Option Uuid
  assetId : Uuid := 0
  cityId : Option Uuid := none
  neighborhoodId : Option Uuid := none
  propertyTypeId : Option Uuid := none
  sizeSqm : Option Decimal := none
  purchasePriceToman : Option Decimal := none
  purchaseFxRate : Option Decimal := none
  purchaseValueUsd : Option Decimal := none
  currentValueToman : Option Decimal := none
  valuationFxRate : Option Decimal := none
  valuationFxRateSource : Option RateOrigin := none
  valuationFxRateDate : Option IsoDate := none
  currentValueUsd : Option Decimal := none
  valuationDate : Option IsoDate := none
  valuationDatePersian : Option String := none
  ledgerEntryId : Option Uuid := none
  userSeq : Option Nat := none
  deriving DecidableEq, Repr

structure RealEstateValuationSnapshot where
  propertyId : Uuid
  assetId : Uuid
  userId : Option Uuid
  snapshotDate : IsoDate
  snapshotDatePersian : Option String
  currentValueToman : Decimal
  usdRate : Decimal
  usdRateSource : RateOrigin
  usdRateDate : IsoDate
  currentValueUsd : Decimal
  note : Option String
  deriving DecidableEq, Repr

inductive VehicleStatus where
  | active | sold
  deriving DecidableEq, Repr

structure VehicleAsset where
  id : Uuid
  userId : Option Uuid
  assetId : Uuid := 0
  brand : String := ""
  model : String := ""
  year : Nat := 0
  purchasePriceToman : Option Decimal := none
  purchaseUsdRate : Option Decimal := none
  purchaseValueUsd : Option Decimal := none
  status : VehicleStatus := .active
  saleDate : Option IsoDate := none
  salePriceToman : Option Decimal := none
  saleUsdRate : Option Decimal := none
  saleValueUsd : Option Decimal := none
  userSeq : Option Nat := none
  deriving DecidableEq, Repr

structure Goal where
  id : Uuid
  userId : Option Uuid
  deleted : Bool := false
  deriving DecidableEq, Repr

structure GoalContribution where
  goalId : Uuid
  amountBase : Decimal
  occurredAt : IsoDate
  deriving DecidableEq, Repr

structure UserSetupState where
  userId : Uuid
  completed : Bool
  currentStep : Nat
  updatedAt : Nat
  deriving DecidableEq, Repr

inductive SmsStatus where
  | pending | processing | confirmed | rejected
  deriving DecidableEq, Repr

/-- A row of `bank_sms_inbox`. -/
structure BankSms where
  id : Uuid
  userId : Uuid
  fingerprint : String
  encryptedPayload : Option String
  sentAt : Nat
  status : SmsStatus := .pending
  processingAt : Option Nat := none
  entryId : Option Uuid := none
  deriving DecidableEq, Repr

structure BalanceCheckpoint where
  id : Uuid
  userId : Uuid
  accountId : Uuid
  asOf : IsoDate
  observedAt : Nat
  createdAt : Nat := 0
  balance : Decimal
  resolutionEntryId : Option Uuid := none
  deriving DecidableEq, Repr

/-- Who read the numbers of a trading account. -/
inductive MarkSource where
  | manual | hyperliquid | lighter | lighterRh
  deriving DecidableEq, Repr

/-- A row of `trading_account_marks`. -/
structure TradingMark where
  createdAt : Nat
  userId : Uuid
  accountId : Uuid
  asOf : IsoDate
  accountValue : Decimal
  unrealizedPnl : Decimal
  source : MarkSource
  entryId : Option Uuid
  deriving DecidableEq, Repr

inductive ChequeDirection where
  | issued | received
  deriving DecidableEq, Repr

inductive ChequeStatus where
  | pending | cleared | bounced | cancelled
  deriving DecidableEq, Repr

structure Cheque where
  id : Uuid
  userId : Uuid
  direction : ChequeDirection
  counterparty : String
  amountToman : Decimal
  dueDate : IsoDate
  accountId : Option Uuid := none
  sayadId : Option String := none
  installmentId : Option Uuid := none
  status : ChequeStatus := .pending
  clearedEntryId : Option Uuid := none
  deriving DecidableEq, Repr

structure WallexAsset where
  symbol : String
  priceTmn : Option Decimal
  deriving DecidableEq, Repr

/-- What a snapshot keeps beside the rate. -/
structure FrozenAmounts where
  irtAmount : Decimal
  usdAmount : Decimal
  rateDate : IsoDate
  deriving DecidableEq, Repr

structure EntryFxSnapshot where
  entryId : Uuid
  fxRate : Decimal
  /-- Kept for the entries of the registries only. -/
  amounts : Option FrozenAmounts := none
  deriving DecidableEq, Repr

structure Db where
  users : List Uuid := []
  assets : List Asset := []
  accounts : List Account := []
  prices : List Price := []
  userFxSettings : List UserFxSetting := []
  exchangeRates : List ExchangeRate := []
  settings : List Setting := []
  journalEntries : List JournalEntry := []
  postings : List Posting := []
  lots : List Lot := []
  lotConsumptions : List LotConsumption := []
  entryFxSnapshots : List EntryFxSnapshot := []
  debts : List Debt := []
  installments : List Installment := []
  settlements : List Settlement := []
  plannedTransactions : List PlannedTransaction := []
  /-- The reminders that were closed, once for each time: for the specification alone. -/
  closings : List Uuid := []
  deposits : List Deposit := []
  snapshots : List Snapshot := []
  snapshotLines : List SnapshotLine := []
  portfolioSnapshots : List PortfolioSnapshot := []
  portfolioValuations : List PortfolioValuation := []
  insurancePolicies : List InsurancePolicy := []
  realEstateProperties : List RealEstateProperty := []
  realEstateValuationSnapshots : List RealEstateValuationSnapshot := []
  vehicleAssets : List VehicleAsset := []
  goals : List Goal := []
  goalContributions : List GoalContribution := []
  userSetupState : List UserSetupState := []
  bankSmsInbox : List BankSms := []
  balanceCheckpoints : List BalanceCheckpoint := []
  tradingMarks : List TradingMark := []
  cheques : List Cheque := []
  wallexAssetCatalog : List WallexAsset := []
  /-- Assets with an active ownership record. -/
  rwaRegistry : List Uuid := []

/-- `.set({ qtyRemaining: qty })`. -/
def Lot.setRemaining (l : Lot) (qty : Decimal) : Lot := { l with qtyRemaining := qty }

/-- `.set({ status: "void" })`. -/
def JournalEntry.setVoid (e : JournalEntry) : JournalEntry := { e with status := .void }

/-- What a settlement writes into the row of an installment. -/
structure SettledColumns where
  status : InstallmentStatus
  paidAt : IsoDate
  paidEntryId : Uuid
  paidToman : Decimal
  paidFxRate : Decimal
  paidUsd : Decimal
  deriving DecidableEq, Repr

def Installment.settle (i : Installment) (c : SettledColumns) : Installment :=
  { i with status := c.status, paidAt := c.paidAt, paidEntryId := c.paidEntryId
           paidToman := c.paidToman, paidFxRate := c.paidFxRate, paidUsd := c.paidUsd }

def PlannedTransaction.execute (p : PlannedTransaction) (entryId : Uuid) : PlannedTransaction :=
  { p with status := .executed, executedEntryId := some entryId }

/-- `.set({ status, executedEntryId })`. -/
def PlannedTransaction.close (p : PlannedTransaction) (status : PlanStatus)
    (entryId : Option Uuid) : PlannedTransaction := { p with status, executedEntryId := entryId }

def PlannedTransaction.cancel (p : PlannedTransaction) : PlannedTransaction :=
  { p with status := .cancelled }

/-- `.set({ status: "cancelled", recurrence: "none" })`. -/
def PlannedTransaction.stop (p : PlannedTransaction) : PlannedTransaction :=
  { p with status := .cancelled, recurrence := .none }

/-- A pending interest reminder of a deposit of the user. -/
def PlannedTransaction.IsInterest (depositId userId : Uuid) (p : PlannedTransaction) : Prop :=
  p.depositId = some depositId ∧ p.userId = some userId ∧ p.status = .pending

instance (depositId userId : Uuid) :
    DecidablePred (PlannedTransaction.IsInterest depositId userId) :=
  fun _ => inferInstanceAs (Decidable (_ ∧ _ ∧ _))

/-- A pending premium of a policy of the user. -/
def PlannedTransaction.IsPremium (policyId userId : Uuid) (p : PlannedTransaction) : Prop :=
  p.insurancePolicyId = some policyId ∧ p.userId = some userId ∧ p.status = .pending

instance (policyId userId : Uuid) : DecidablePred (PlannedTransaction.IsPremium policyId userId) :=
  fun _ => inferInstanceAs (Decidable (_ ∧ _ ∧ _))

/-- A pending plan that moves money of the account. -/
def PlannedTransaction.Uses (accountId : Uuid) (p : PlannedTransaction) : Prop :=
  p.status = .pending ∧ p.deleted = false ∧
    (p.fromAccountId = some accountId ∨ p.toAccountId = some accountId)

instance (accountId : Uuid) : DecidablePred (PlannedTransaction.Uses accountId) :=
  fun _ => inferInstanceAs (Decidable (_ ∧ _ ∧ _))

/-- `.set({ status: next, dueDate? })`. -/
def Cheque.setStatus (c : Cheque) (status : ChequeStatus) (dueDate : Option IsoDate) : Cheque :=
  { c with status, dueDate := dueDate.getD c.dueDate }

def Cheque.clear (c : Cheque) (entryId : Uuid) : Cheque :=
  { c with status := .cleared, clearedEntryId := some entryId }

/-- Same user and day. Users that are absent are never the same. -/
def PortfolioSnapshot.Conflicts (s t : PortfolioSnapshot) : Prop :=
  s.userId.isSome ∧ s.userId = t.userId ∧ s.snapshotDate = t.snapshotDate

instance (s t : PortfolioSnapshot) : Decidable (s.Conflicts t) :=
  inferInstanceAs (Decidable (_ ∧ _ ∧ _))

def PortfolioSnapshot.set (s t : PortfolioSnapshot) : PortfolioSnapshot :=
  { s with totalPortfolioValue := t.totalPortfolioValue }

def PortfolioValuation.Conflicts (l m : PortfolioValuation) : Prop :=
  l.userId.isSome ∧ l.userId = m.userId ∧ l.assetId = m.assetId ∧ l.valuationDate = m.valuationDate

instance (l m : PortfolioValuation) : Decidable (l.Conflicts m) :=
  inferInstanceAs (Decidable (_ ∧ _ ∧ _ ∧ _))

def PortfolioValuation.set (l m : PortfolioValuation) : PortfolioValuation :=
  { l with quantity := m.quantity, marketPrice := m.marketPrice, totalValue := m.totalValue }

/-- The valuation columns of a property show the snapshot. -/
def RealEstateProperty.valued (p : RealEstateProperty) (s : RealEstateValuationSnapshot) :
    RealEstateProperty :=
  { p with currentValueToman := s.currentValueToman, valuationFxRate := s.usdRate
           valuationFxRateSource := s.usdRateSource, valuationFxRateDate := s.usdRateDate
           currentValueUsd := s.currentValueUsd, valuationDate := s.snapshotDate
           valuationDatePersian := s.snapshotDatePersian }

/-- What a sale writes into the row of a vehicle. -/
structure SaleColumns where
  saleDate : IsoDate
  salePriceToman : Decimal
  saleUsdRate : Decimal
  saleValueUsd : Decimal
  deriving DecidableEq, Repr

def VehicleAsset.sell (v : VehicleAsset) (c : SaleColumns) : VehicleAsset :=
  { v with status := .sold, saleDate := c.saleDate, salePriceToman := c.salePriceToman
           saleUsdRate := c.saleUsdRate, saleValueUsd := c.saleValueUsd }

/-- Five minutes, in milliseconds. -/
def SMS_TAKEOVER : Nat := 300000

/-- `status = 'pending' or (status = 'processing' and processing_at < now() - 5 minutes)`. -/
def BankSms.Claimable (m : BankSms) (now : Nat) : Prop :=
  m.status = .pending ∨ (m.status = .processing ∧ ∃ t ∈ m.processingAt, t + SMS_TAKEOVER < now)

instance (m : BankSms) (now : Nat) : Decidable (m.Claimable now) :=
  inferInstanceAs (Decidable (_ ∨ (_ ∧ ∃ t ∈ m.processingAt, t + SMS_TAKEOVER < now)))

def BankSms.claim (m : BankSms) (now : Nat) : BankSms :=
  { m with status := .processing, processingAt := some now }

/-- The replay branch leaves `processing_at` alone. -/
def BankSms.confirm (m : BankSms) (entryId : Uuid) (release : Bool) : BankSms :=
  { m with status := .confirmed, entryId := some entryId, encryptedPayload := none
           processingAt := if release then none else m.processingAt }

def BankSms.reject (m : BankSms) : BankSms :=
  { m with status := .rejected, encryptedPayload := none }

def BankSms.release (m : BankSms) : BankSms :=
  { m with status := .pending, processingAt := none }

def Cheque.reopen (c : Cheque) : Cheque := { c with status := .pending, clearedEntryId := none }

inductive Write where
  | insertAccount (a : Account)
  | insertEntry (e : JournalEntry)
  | insertPostings (ps : List Posting)
  | insertLot (l : Lot)
  | setRemaining (lotId : Uuid) (qty : Decimal)
  | insertConsumption (c : LotConsumption)
  | deleteConsumptions (entryId : Uuid)
  | setVoid (entryId : Uuid)
  | insertFxSnapshot (f : EntryFxSnapshot)
  | settleInstallment (id : Uuid) (c : SettledColumns)
  | settleDebt (id : Uuid)
  | noteSettlement (s : Settlement)
  | insertDebt (d : Debt)
  | insertInstallments (is : List Installment)
  | setPaidEntry (installmentId entryId : Uuid)
  | setUserFxRate (u : UserFxSetting)
  | executePlan (id entryId : Uuid)
  | insertPlan (p : PlannedTransaction)
  | insertCheque (c : Cheque)
  | setChequeStatus (id userId : Uuid) (current next : ChequeStatus) (dueDate : Option IsoDate)
  | clearCheque (id entryId : Uuid)
  | reopenCheques (entryId : Uuid)
  | deleteCheque (id : Uuid)
  | closePlan (id : Uuid) (status : PlanStatus) (entryId : Option Uuid)
  | noteClosing (id : Uuid)
  | cancelPlansOf (accountId : Uuid)
  | cancelPlans (ids : List Uuid)
  | setPlansAccount (ids : List Uuid) (accountId : Uuid)
  | insertPolicy (p : InsurancePolicy)
  | setPolicyStatus (id userId : Uuid) (status : PolicyStatus)
  | setPolicySavings (id accountId : Uuid)
  | detachRenewals (id userId : Uuid)
  | deletePolicy (id userId : Uuid)
  | archiveAccount (id : Uuid)
  | insertDeposit (d : Deposit)
  | closeDeposit (id userId : Uuid)
  | deleteDeposit (id userId : Uuid)
  | insertSnapshot (s : Snapshot)
  | setSnapshot (s : Snapshot)
  | deleteSnapshotLines (snapshotId : Uuid)
  | insertSnapshotLines (ls : List SnapshotLine)
  | upsertPortfolioSnapshot (s : PortfolioSnapshot)
  | upsertPortfolioValuation (l : PortfolioValuation)
  | insertCheckpoint (c : BalanceCheckpoint)
  | resolveCheckpoint (id userId entryId : Uuid)
  | insertTradingMark (m : TradingMark)
  | insertValuation (s : RealEstateValuationSnapshot)
  | setValuation (propertyId : Uuid) (s : RealEstateValuationSnapshot)
  | upsertPrice (p : Price)
  | deletePrices (assetId : Uuid)
  | insertAsset (a : Asset)
  | archiveAsset (id : Uuid)
  | restoreAsset (id : Uuid)
  | insertVehicle (v : VehicleAsset)
  | sellVehicle (id : Uuid) (c : SaleColumns)
  | insertProperty (p : RealEstateProperty)
  | setPropertyEntry (id entryId : Uuid)
  | deleteProperty (id : Uuid)
  | insertContribution (c : GoalContribution)
  | insertSetupState (u : UserSetupState)
  | insertSms (m : BankSms)
  | claimSms (id userId : Uuid) (now : Nat)
  | confirmSms (id userId entryId : Uuid) (release : Bool)
  | rejectSms (id userId : Uuid)
  | releaseSms (id userId : Uuid) (claimedAt : Nat)

def Write.apply : Write → Db → Db
  | .insertAccount a, db => { db with accounts := db.accounts ++ [a] }
  | .insertEntry e, db => { db with journalEntries := db.journalEntries ++ [e] }
  | .insertPostings ps, db => { db with postings := db.postings ++ ps }
  | .insertLot l, db => { db with lots := db.lots ++ [l] }
  | .setRemaining i qty, db =>
    { db with lots := db.lots.map fun l => if l.id = i then l.setRemaining qty else l }
  | .insertConsumption c, db => { db with lotConsumptions := db.lotConsumptions ++ [c] }
  | .deleteConsumptions e, db =>
    { db with lotConsumptions := db.lotConsumptions.filter (·.entryId ≠ e) }
  | .setVoid i, db =>
    { db with journalEntries := db.journalEntries.map fun e =>
        if e.id = i ∧ e.status = .posted then e.setVoid else e }
  | .insertFxSnapshot f, db => { db with entryFxSnapshots := db.entryFxSnapshots ++ [f] }
  | .settleInstallment i c, db =>
    { db with installments := db.installments.map fun r => if r.id = i then r.settle c else r }
  | .settleDebt i, db =>
    { db with debts := db.debts.map fun d =>
        if d.id = i then { d with status := .settled } else d }
  | .noteSettlement s, db => { db with settlements := db.settlements ++ [s] }
  | .insertDebt d, db => { db with debts := db.debts ++ [d] }
  | .insertInstallments is, db => { db with installments := db.installments ++ is }
  | .setPaidEntry i e, db =>
    { db with installments := db.installments.map fun r =>
        if r.id = i then { r with paidEntryId := some e } else r }
  | .setUserFxRate u, db =>
    { db with userFxSettings := db.userFxSettings.filter (·.userId ≠ u.userId) ++ [u] }
  | .executePlan i e, db =>
    { db with plannedTransactions := db.plannedTransactions.map fun p =>
        if p.id = i then p.execute e else p }
  | .insertPlan p, db => { db with plannedTransactions := db.plannedTransactions ++ [p] }
  | .insertCheque c, db => { db with cheques := db.cheques ++ [c] }
  | .setChequeStatus i u current next due, db =>
    { db with cheques := db.cheques.map fun c =>
        if c.id = i ∧ c.userId = u ∧ c.status = current then c.setStatus next due else c }
  | .clearCheque i e, db =>
    { db with cheques := db.cheques.map fun c => if c.id = i then c.clear e else c }
  | .reopenCheques e, db =>
    { db with cheques := db.cheques.map fun c =>
        if c.clearedEntryId = some e then c.reopen else c }
  | .deleteCheque i, db => { db with cheques := db.cheques.filter (·.id ≠ i) }
  | .closePlan i status e, db =>
    { db with plannedTransactions := db.plannedTransactions.map fun p =>
        if p.id = i then p.close status e else p }
  | .noteClosing i, db => { db with closings := db.closings ++ [i] }
  | .cancelPlansOf a, db =>
    { db with plannedTransactions := db.plannedTransactions.map fun p =>
        if p.Uses a then p.cancel else p }
  | .cancelPlans is, db =>
    { db with plannedTransactions := db.plannedTransactions.map fun p =>
        if p.id ∈ is then p.stop else p }
  | .setPlansAccount is a, db =>
    { db with plannedTransactions := db.plannedTransactions.map fun p =>
        if p.id ∈ is then { p with toAccountId := some a } else p }
  | .insertPolicy p, db => { db with insurancePolicies := db.insurancePolicies ++ [p] }
  | .setPolicyStatus i u status, db =>
    { db with insurancePolicies := db.insurancePolicies.map fun p =>
        if p.id = i ∧ p.userId = u then { p with status } else p }
  | .setPolicySavings i a, db =>
    { db with insurancePolicies := db.insurancePolicies.map fun p =>
        if p.id = i then { p with savingsAccountId := some a } else p }
  | .detachRenewals i u, db =>
    { db with insurancePolicies := db.insurancePolicies.map fun p =>
        if p.renewedFromId = some i ∧ p.userId = u then { p with renewedFromId := none } else p }
  -- The foreign keys on the policy are `set null`.
  | .deletePolicy i u, db =>
    if db.insurancePolicies.any fun p => p.id = i ∧ p.userId = u then
      { db with
        insurancePolicies := (db.insurancePolicies.filter (·.id ≠ i)).map fun p =>
          if p.renewedFromId = some i then { p with renewedFromId := none } else p
        plannedTransactions := db.plannedTransactions.map fun p =>
          if p.insurancePolicyId = some i then { p with insurancePolicyId := none } else p }
    else db
  | .archiveAccount i, db =>
    { db with accounts := db.accounts.map fun a => if a.id = i then { a with deleted := true } else a }
  | .insertDeposit d, db => { db with deposits := db.deposits ++ [d] }
  | .closeDeposit i u, db =>
    { db with deposits := db.deposits.map fun d =>
        if d.id = i ∧ d.userId = u ∧ d.status = .active then { d with status := .closed } else d }
  -- The foreign key on the deposit is `set null`.
  | .deleteDeposit i u, db =>
    if db.deposits.any fun d => d.id = i ∧ d.userId = u then
      { db with
        deposits := db.deposits.filter (·.id ≠ i)
        plannedTransactions := db.plannedTransactions.map fun p =>
          if p.depositId = some i then { p with depositId := none } else p }
    else db
  | .insertSnapshot s, db => { db with snapshots := db.snapshots ++ [s] }
  | .setSnapshot s, db =>
    { db with snapshots := db.snapshots.map fun r => if r.id = s.id then s else r }
  | .deleteSnapshotLines i, db =>
    { db with snapshotLines := db.snapshotLines.filter (·.snapshotId ≠ i) }
  | .insertSnapshotLines ls, db => { db with snapshotLines := db.snapshotLines ++ ls }
  | .upsertPortfolioSnapshot s, db =>
    { db with portfolioSnapshots := upserted (·.Conflicts s) (·.set s) s db.portfolioSnapshots }
  | .upsertPortfolioValuation l, db =>
    { db with portfolioValuations := upserted (·.Conflicts l) (·.set l) l db.portfolioValuations }
  | .insertCheckpoint c, db => { db with balanceCheckpoints := db.balanceCheckpoints ++ [c] }
  | .insertTradingMark m, db => { db with tradingMarks := db.tradingMarks ++ [m] }
  | .resolveCheckpoint i u e, db =>
    { db with balanceCheckpoints := db.balanceCheckpoints.map fun c =>
        if c.id = i ∧ c.userId = u then { c with resolutionEntryId := some e } else c }
  | .insertAsset a, db => { db with assets := db.assets ++ [a] }
  | .archiveAsset i, db =>
    { db with assets := db.assets.map fun a => if a.id = i then { a with deleted := true } else a }
  | .restoreAsset i, db =>
    { db with assets := db.assets.map fun a => if a.id = i then { a with deleted := false } else a }
  | .deletePrices i, db => { db with prices := db.prices.filter (·.assetId ≠ i) }
  | .insertValuation s, db =>
    { db with realEstateValuationSnapshots := db.realEstateValuationSnapshots ++ [s] }
  | .setValuation i s, db =>
    { db with realEstateProperties := db.realEstateProperties.map fun p =>
        if p.id = i then p.valued s else p }
  | .upsertPrice p, db =>
    { db with prices := if db.prices.any fun q => q.assetId = p.assetId ∧ q.asOf = p.asOf then
        db.prices.map fun q => if q.assetId = p.assetId ∧ q.asOf = p.asOf then p else q
        else db.prices ++ [p] }
  | .sellVehicle i c, db =>
    { db with vehicleAssets := db.vehicleAssets.map fun v => if v.id = i then v.sell c else v }
  | .insertVehicle v, db => { db with vehicleAssets := db.vehicleAssets ++ [v] }
  | .insertProperty p, db => { db with realEstateProperties := db.realEstateProperties ++ [p] }
  | .setPropertyEntry i e, db =>
    { db with realEstateProperties := db.realEstateProperties.map fun p =>
        if p.id = i then { p with ledgerEntryId := some e } else p }
  -- The snapshots of the property go with it.
  | .deleteProperty i, db =>
    { db with
      realEstateProperties := db.realEstateProperties.filter (·.id ≠ i)
      realEstateValuationSnapshots :=
        db.realEstateValuationSnapshots.filter (·.propertyId ≠ i) }
  | .insertContribution c, db => { db with goalContributions := db.goalContributions ++ [c] }
  | .insertSetupState u, db => { db with userSetupState := db.userSetupState ++ [u] }
  | .insertSms m, db => { db with bankSmsInbox := db.bankSmsInbox ++ [m] }
  | .claimSms i u now, db =>
    { db with bankSmsInbox := db.bankSmsInbox.map fun m =>
        if m.id = i ∧ m.userId = u ∧ m.Claimable now then m.claim now else m }
  | .confirmSms i u e release, db =>
    { db with bankSmsInbox := db.bankSmsInbox.map fun m =>
        if m.id = i ∧ m.userId = u then m.confirm e release else m }
  | .rejectSms i u, db =>
    { db with bankSmsInbox := db.bankSmsInbox.map fun m =>
        if m.id = i ∧ m.userId = u ∧ m.status = .pending then m.reject else m }
  | .releaseSms i u at', db =>
    { db with bankSmsInbox := db.bankSmsInbox.map fun m =>
        if m.id = i ∧ m.userId = u ∧ m.status = .processing ∧ m.processingAt = some at' then
          m.release
        else m }

instance : Writable Db Write := ⟨Write.apply⟩

/-- What is locked: a row, or the entry of a unique index. -/
inductive Row where
  | account (id : Uuid)
  | accountCode (userId : Uuid) (code : String)
  | entry (id : Uuid)
  | idempotency (userId : Uuid) (key : String)
  | lot (id : Uuid)
  | installment (id : Uuid)
  | debt (id : Uuid)
  | fxSnapshot (entryId : Uuid)
  | plan (id : Uuid)
  | cheque (id : Uuid)
  | policy (id : Uuid)
  | checkpoint (id : Uuid)
  | property (id : Uuid)
  | valuation (propertyId : Uuid) (date : IsoDate)
  | price (assetId : Uuid) (date : IsoDate)
  | vehicle (id : Uuid)
  | asset (id : Uuid)
  /-- The class of the real assets, which orders their numbering. -/
  | rwaClass
  /-- The advisory lock of a user's numbers of one kind. -/
  | rwaSeq (kind : RwaKind) (userId : Option Uuid)
  | user (id : Uuid)
  | sms (id : Uuid)
  | deposit (id : Uuid)
  /-- The entry of the unique index on user and day. -/
  | snapshotDay (userId : Option Uuid) (date : IsoDate)
  | portfolioDay (userId : Option Uuid) (date : IsoDate)
  deriving DecidableEq

/-- What a statement may take for granted. -/
inductive Assumption where
  /-- The lot that is overwritten has the remaining quantity that was read. -/
  | remainingAsRead
  /-- The lots to consume are those the sale was priced on. -/
  | lotsAsPriced
  /-- The installment that is overwritten is as it was read. -/
  | installmentAsRead
  /-- The reminder that is overwritten is as it was read. -/
  | planAsRead
  /-- The pending interest reminders of the deposit are those that were found. -/
  | interestAsFound
  /-- Nothing more has been taken back from the goal than was read. -/
  | takeBacksAsRead
  /-- The vehicle to be sold has not been sold yet. -/
  | vehicleUnsold
  /-- The user has not completed the setup. -/
  | setupIncomplete
  deriving DecidableEq

/-- The errors of the modelled functions. -/
inductive AppError where
  | unbalanced (e : UnbalancedEntryError)
  | unauthorized
  | idempotencyConflict
  | accountLockFailed
  | insufficientBalance
  | constraintViolation (table : String)
  | lotOpenedAtInvalid
  | lotRateInvalid
  | lotsInsufficient
  | entryNotFound
  | entryAlreadyVoid
  | lotsPartlySold
  | rateInvalid
  | systemAccountMissing (code label : String)
  | crossCurrencyTransfer
  | transferAssetMismatch
  | fxSameAsset
  | fxAssetMismatch
  | fxAmountsNotPositive
  | fxRateInvalid
  | fxQuantitiesMismatch
  | fxBookMismatch
  | fxFeeTooLarge
  | rateMissing
  | rateNotRecorded
  | amountNotPositive
  | incomeNotPositive
  | sourceAccountMissing
  | counterAccountMissing
  | accountWithoutAsset
  | incomeAccountUnavailable
  | expenseAccountUnavailable
  | reserveWithoutAsset
  | installmentNotFound
  | installmentNotYours
  | installmentAlreadyPaid
  | installmentExceeded
  | debtNotFound
  | debtSettled
  | debtNotChosen
  | contraMissing (text : String)
  | cashAccountInvalid
  | paymentRateMissing
  | settlementClosed
  | settlementNotPositive
  | nothingOutstanding
  | settlementExceeds
  /-- Any other error, by its message. -/
  | failure (text : String)
  deriving DecidableEq, Repr

def AppError.message : AppError → String
  | .unbalanced e => e.message
  | .unauthorized => "Authentication/Database error: Access denied"
  | .idempotencyConflict =>
    "Idempotency Conflict (409): Same idempotency key used with different payload."
  | .accountLockFailed => "Account lock failed"
  | .insufficientBalance => "موجودی حساب کافی نیست (Overdraft prevented)"
  | .constraintViolation table => "constraint violation: " ++ table
  | .lotOpenedAtInvalid => "تاریخ خرید لات نامعتبر است."
  | .lotRateInvalid => "نرخ خرید لات نامعتبر است."
  | .lotsInsufficient => "موجودی دارایی برای فروش کافی نیست."
  | .entryNotFound => "سند یافت نشد"
  | .entryAlreadyVoid => "این سند قبلاً ابطال شده است"
  | .lotsPartlySold =>
    "امکان ابطال این سند وجود ندارد زیرا بخشی از دارایی‌های آن در تراکنش‌های بعدی فروخته شده است. لطفاً ابتدا تراکنش‌های فروش بعدی را ابطال کنید."
  | .rateInvalid => "نرخ تبدیل دلار به تومان معتبر نیست."
  | .systemAccountMissing code label =>
    "حساب سیستمی «" ++ label ++ "» (" ++ code ++ ") برای این کاربر موجود نیست و ساخت آن ناموفق بود."
  | .crossCurrencyTransfer =>
    "انتقال بین حساب‌های با واحد متفاوت باید با تبدیل ارز (recordFx) ثبت شود، نه انتقال ساده."
  | .transferAssetMismatch => "دارایی انتقال با واحد بومی حساب مبدأ یکسان نیست."
  | .fxSameAsset =>
    "تبدیل ارز فقط بین دو واحد بومی متفاوت مجاز است. برای واحد یکسان از انتقال استفاده کنید."
  | .fxAssetMismatch => "واحد بومی حساب با دارایی پستینگ تبدیل ارز مطابقت ندارد."
  | .fxAmountsNotPositive => "مقادیر تبدیل ارز باید بزرگ‌تر از صفر باشند."
  | .fxRateInvalid => "نرخ تبدیل نامعتبر است."
  | .fxQuantitiesMismatch => "مقادیر بومی با نرخ تبدیل سازگار نیستند."
  | .fxBookMismatch => "ارزش دفتری USD با نرخ و مقادیر بومی سازگار نیست."
  | .fxFeeTooLarge => "کارمزد باید کمتر از مبلغ دریافتی باشد."
  | .rateMissing =>
    "نرخ دلار هنوز از بازار دریافت نشده است؛ چند لحظه دیگر دوباره تلاش کنید. تا نرخ واقعی نرسد، ثبتِ این مورد انجام نمی‌شود."
  | .rateNotRecorded => "نرخ دلار ثبت نشده است. ابتدا نرخ را در تنظیمات ثبت کنید."
  | .amountNotPositive => "مبلغ باید بزرگ‌تر از صفر باشد"
  | .incomeNotPositive => "مبلغ درآمد باید بزرگ‌تر از صفر باشد"
  | .sourceAccountMissing => "حساب مبدأ را انتخاب کنید"
  | .counterAccountMissing => "حساب مقابل را انتخاب کنید"
  | .accountWithoutAsset => "حساب انتخاب‌شده به هیچ دارایی متصل نیست"
  | .incomeAccountUnavailable => "حساب سیستمی درآمد در دسترس نیست"
  | .expenseAccountUnavailable => "حساب سیستمی هزینه در دسترس نیست"
  | .reserveWithoutAsset => "حساب ذخیره استهلاک به دارایی پایه متصل نیست"
  | .installmentNotFound => "قسط انتخاب‌شده یافت نشد"
  | .installmentNotYours => "قسط یافت نشد یا متعلق به شما نیست"
  | .installmentAlreadyPaid =>
    "این قسط قبلاً به‌طور کامل پرداخت شده است — جلوگیری از ثبت تکراری"
  | .installmentExceeded => "مبلغ واردشده بیشتر از مبلغ قسط است"
  | .debtNotFound => "بدهی انتخاب‌شده یافت نشد"
  | .debtSettled => "این بدهی قبلاً تسویه شده است"
  | .debtNotChosen => "برای بازپرداخت بدهی، ابتدا یک بدهی یا قسط را انتخاب کنید"
  | .contraMissing text => text
  | .cashAccountInvalid =>
    "حساب پرداخت معتبر نیست؛ یکی از حساب‌های بانکی یا نقدی خودتان را انتخاب کنید."
  | .paymentRateMissing => "نرخ تبدیل دلار به تومان برای ثبت پرداخت این قسط موجود نیست."
  | .settlementClosed => "این قسط قبلاً به‌طور کامل تسویه شده است."
  | .settlementNotPositive => "مبلغ پرداخت باید بزرگ‌تر از صفر باشد."
  | .nothingOutstanding => "مانده‌ای برای این قسط باقی نمانده است."
  | .settlementExceeds => "مبلغ پرداخت از مانده این قسط بیشتر است."
  | .failure text => text

/-- `err.code`, where the source sets one. -/
def AppError.code : AppError → Option String
  | .unauthorized => some "UNAUTHORIZED"
  | .idempotencyConflict => some "IDEMPOTENCY_CONFLICT"
  | .insufficientBalance => some "INSUFFICIENT_BALANCE"
  | .systemAccountMissing _ _ => some "SYSTEM_ACCOUNT_MISSING"
  | .crossCurrencyTransfer => some "CROSS_CURRENCY_USE_FX"
  | _ => none

abbrev Sql := Tx Db Write Row Assumption AppError

/-- What a call does not compute itself: who is logged in, the day, the random ids the
database draws, and the order in which it returns rows that no `ORDER BY` tells apart. -/
structure Env where
  currentUser : Option Uuid := none
  /-- Under Supabase an unknown user is refused even if there is one user only. -/
  supabase : Bool := false
  today : IsoDate := 0
  now : Nat := 0
  entryId : Uuid
  lotIds : Nat → Uuid := fun n => n
  accountId : Uuid := 0
  /-- The other accounts of a call that opens several. -/
  accountIds : Nat → Uuid := fun n => n
  debtId : Uuid := 0
  depositId : Uuid := 0
  snapshotId : Uuid := 0
  installmentIds : Nat → Uuid := fun n => n
  planId : Uuid := 0
  chequeId : Uuid := 0
  policyId : Uuid := 0
  checkpointId : Uuid := 0
  assetId : Uuid := 0
  vehicleId : Uuid := 0
  propertyId : Uuid := 0
  /-- The asset of a new vehicle or property. -/
  rwaAssetId : Uuid := 0
  /-- The place of a lot in the preview of a sale. -/
  previewOrder : Uuid → Nat := fun n => n
  /-- The place of a lot in the scan that consumes. -/
  lotOrder : Uuid → Nat := fun n => n

/-! ## Table by table -/

namespace Db
variable (db : Db)

/-- The rows of an entry, by its primary key. -/
def findEntry (id : Uuid) : Option JournalEntry := db.journalEntries.find? (·.id = id)

def findAccount (id : Uuid) : Option Account := db.accounts.find? (·.id = id)

def findAsset (id : Uuid) : Option Asset := db.assets.find? (·.id = id)

def findLot (id : Uuid) : Option Lot := db.lots.find? (·.id = id)

def findDebt (id : Uuid) : Option Debt := db.debts.find? (·.id = id)

def findInstallment (id : Uuid) : Option Installment := db.installments.find? (·.id = id)

def findPlan (id : Uuid) : Option PlannedTransaction := db.plannedTransactions.find? (·.id = id)

def findCheque (id : Uuid) : Option Cheque := db.cheques.find? (·.id = id)

def findProperty (id : Uuid) : Option RealEstateProperty :=
  db.realEstateProperties.find? (·.id = id)

def findVehicle (id : Uuid) : Option VehicleAsset := db.vehicleAssets.find? (·.id = id)

def findPolicy (id : Uuid) : Option InsurancePolicy := db.insurancePolicies.find? (·.id = id)

def postingsOf (entryId : Uuid) : List Posting := db.postings.filter (·.entryId = entryId)

def lotsOpenedBy (entryId : Uuid) : List Lot := db.lots.filter (·.openEntryId = entryId)

def consumptionsOf (entryId : Uuid) : List LotConsumption :=
  db.lotConsumptions.filter (·.entryId = entryId)

def consumptionsFrom (lotId : Uuid) : List LotConsumption :=
  db.lotConsumptions.filter (·.lotId = lotId)

/-- `sum(lc.quantity)` over the consumptions of a lot. -/
def consumed (lotId : Uuid) : Decimal := ((db.consumptionsFrom lotId).map (·.quantity)).sum

/-- Is the entry live? -/
def Posted (entryId : Uuid) : Prop :=
  ∃ e ∈ db.journalEntries, e.id = entryId ∧ e.status = .posted

instance (entryId : Uuid) : Decidable (db.Posted entryId) :=
  inferInstanceAs (Decidable (∃ e ∈ db.journalEntries, e.id = entryId ∧ e.status = .posted))

/-- No entry has been recorded yet. The chart of accounts, the assets and the rates may
be anything. -/
structure EmptyLedger : Prop where
  journalEntries : db.journalEntries = []
  postings : db.postings = []
  lots : db.lots = []
  lotConsumptions : db.lotConsumptions = []

end Db

end Pwos
