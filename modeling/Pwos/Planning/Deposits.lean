import Pwos.Fx.UnitPrice
import Pwos.Planning.Cheques
import Pwos.Planning.Insurance

/-!
# Deposits

`createDeposit`, `closeDeposit` and `deleteDeposit` of `features/deposits/service.ts`, and
`stopIncomePlan` of `features/income/service.ts`. The interest of a deposit is a recurring income
whose reminder names the deposit. Categories, and which accounts are active Toman bank accounts,
are parameters.
-/

namespace Pwos

inductive DepositKind where
  | bank | fund
  deriving DecidableEq, Repr

def DepositKind.parse : String → Option DepositKind
  | "bank" => some .bank
  | "fund" => some .fund
  | _ => none

def INTEREST_CATEGORY : DepositKind → String
  | .bank => "INC-INV-INTEREST"
  | .fund => "INC-INV-DIVIDEND"

structure DepositInput where
  kind : String
  title : String
  accountId : Uuid
  payoutAccountId : Option Uuid := none
  principalToman : Decimal
  annualRate : Decimal
  /-- `none` for a text that has not the form of a day, here and below. -/
  startDate : Option IsoDate
  maturityDate : Option (Option IsoDate) := none

/-- Principal by annual rate by a twelfth, in whole Toman. -/
def monthlyInterest (principalToman annualRate : Decimal) : Decimal :=
  ((principalToman.mul annualRate).div (.ofInt 1200)).toFixed 0

/-- What `createDeposit` works out of the input before it reads anything. -/
structure DepositTerms where
  kind : DepositKind
  title : String
  monthly : Decimal
  startDate : IsoDate
  maturityDate : Option IsoDate

def DepositInput.terms (input : DepositInput) : Except AppError DepositTerms := do
  let title ← orComplain (if trimText input.title = "" ∨ 120 < trimmedLength input.title then none
    else some (trimText input.title)) "نام سپرده را وارد کنید."
  let kind ← orComplain (DepositKind.parse input.kind) "نوع سپرده معتبر نیست."
  let principal ← orComplain (if 0 < input.principalToman then some input.principalToman else none)
    "مبلغ سپرده باید بیشتر از صفر باشد."
  let rate ← orComplain
    (if 0 < input.annualRate ∧ input.annualRate ≤ .ofInt 100 then some input.annualRate else none)
    "نرخ سود سالانه باید بین ۰ و ۱۰۰ درصد باشد."
  let startDate ← orComplain input.startDate "تاریخ شروع معتبر نیست."
  let maturityDate ← orComplain
    (if ∃ m ∈ input.maturityDate, ∀ d ∈ m, d ≤ startDate then none else some input.maturityDate.join)
    "تاریخ سررسید باید بعد از تاریخ شروع باشد."
  pure { kind, title, monthly := monthlyInterest principal rate, startDate, maturityDate }

section Create
variable (cal : JalaliCalendar) (categoryByCode : String → Option Uuid)
  (isActive : Account → Bool) (isTomanBankAccount : Account → Option Asset → Bool) (env : Env)
  (userId : Uuid) (input : DepositInput) (terms : DepositTerms)

/-- Step from month to month while the days are not after `today`; `guard` steps at most. -/
def payoutSteps (day : Nat) (today : IsoDate) : Nat → IsoDate → IsoDate
  | 0, next => next
  | n + 1, next =>
    if next ≤ today then payoutSteps day today n (nextMonthlyDate cal next day) else next

/-- The first day of interest after `today`, unless that is past maturity. -/
def firstPayoutDate (startDate today : IsoDate) (maturityDate : Option IsoDate) :
    Option IsoDate :=
  let day := jalaliDayOf cal startDate
  let next := payoutSteps cal day today 600 (nextMonthlyDate cal startDate day)
  if maturityDate.any (· < next) then none else some next

/-- A live asset account of the user, with its asset. -/
def ownAccount (accountId : Uuid) : Sql (Account × Option Asset) := do
  let found ← Tx.read fun db => (db.findAccount accountId).map fun a =>
    (a, a.assetId.bind db.findAsset)
  Tx.ofExcept (orComplain (found.filter fun (a, asset) => a.userId = some userId ∧ a.type = .asset ∧
    a.deleted = false ∧ isActive a ∧ !(asset.any (·.deleted)))
    "حساب انتخاب‌شده متعلق به شما نیست.")

/-- The reminder of the first interest. -/
def DepositTerms.interest (payout : Account) (asset : Option Asset) (categoryId : Uuid)
    (first : IsoDate) : NewIncomePlan :=
  { userId
    title := "سود " ++ (if terms.kind = .fund then "صندوق" else "سپرده") ++ " «" ++ terms.title ++ "»"
    fromDate := terms.startDate, onDate := some first
    dayOfMonth := jalaliDayOf cal terms.startDate, categoryId, accountId := payout.id
    assetId := payout.assetId
    amountNative := if upper ((asset.map (·.symbol)).getD "") = "IRR"
      then (terms.monthly.mul (.ofInt 10)).toFixed 0 else terms.monthly
    amountBase := terms.monthly, depositId := some env.depositId, lastDate := terms.maturityDate }

def DepositTerms.row : Deposit :=
  { id := env.depositId, userId, status := .active, maturityDate := terms.maturityDate }

def insertDepositRow (row : Deposit) : Sql Unit :=
  Tx.insert (fun _ => [.deposit row.id]) (fun db => ∀ d ∈ db.deposits, d.id ≠ row.id)
    (fun _ => [.insertDeposit row]) (.constraintViolation "deposits")

/-- The transaction of `createDeposit`. -/
def insertDeposit (payout : Account) (asset : Option Asset) (categoryId : Uuid) : Sql Uuid := do
  insertDepositRow (terms.row env userId)
  match (firstPayoutDate cal terms.startDate env.today terms.maturityDate).filter
      fun _ => 0 < terms.monthly with
  | none => pure env.depositId
  | some first => do
    let _ ← scheduleNextIncome cal env
      (terms.interest cal env userId payout asset categoryId first) none
    pure env.depositId

def createDeposit : Sql Uuid := do
  let terms ← Tx.ofExcept input.terms
  let (source, asset) ← ownAccount isActive userId input.accountId
  Tx.require (isTomanBankAccount source asset)
    (.failure "حساب سپرده باید یک حساب بانکی تومانی یا ریالی باشد.")
  let (payout, asset) ← ownAccount isActive userId (input.payoutAccountId.getD input.accountId)
  Tx.require (isTomanBankAccount payout asset)
    (.failure "سود باید به یک حساب بانکی تومانی یا ریالی واریز شود.")
  let categoryId ← Tx.ofExcept (orComplain (categoryByCode (INTEREST_CATEGORY terms.kind))
    "دسته‌ی درآمد سود پیدا نشد؛ یک بار صفحه‌ی ثبت درآمد را باز کنید.")
  insertDeposit cal env userId terms payout asset categoryId

end Create

/-! ## The end of a deposit -/

/-- The pending interest reminders of a deposit: those found are cancelled once their rows are
free, if they still are what was looked for. -/
def cancelPendingInterest (userId depositId : Uuid) : Sql Unit := do
  let found ← Tx.read fun db =>
    (db.plannedTransactions.filter fun p => p.IsInterest depositId userId).map (·.id)
  Tx.writeExpecting (fun _ => found.map .plan)
    (fun a db => a = .interestAsFound →
      ∀ p ∈ db.plannedTransactions, p.IsInterest depositId userId → p.id ∈ found)
    fun db => [.cancelPlans ((db.plannedTransactions.filter fun p =>
      p.id ∈ found ∧ p.IsInterest depositId userId).map (·.id))]

/-- The deposit is the user's and active. -/
def Db.OwnsActiveDeposit (userId id : Uuid) (db : Db) : Prop :=
  ∃ d ∈ db.deposits, d.id = id ∧ d.userId = userId ∧ d.status = .active

instance (userId id : Uuid) : DecidablePred (Db.OwnsActiveDeposit userId id) :=
  fun db => inferInstanceAs (Decidable (∃ d ∈ db.deposits, _))

def closeDeposit (userId id : Uuid) : Sql Unit := do
  Tx.insert (fun _ => [.deposit id]) (Db.OwnsActiveDeposit userId id)
    (fun _ => [.closeDeposit id userId]) (.failure "سپرده پیدا نشد یا قبلاً بسته شده است.")
  cancelPendingInterest userId id

/-- The rows a deletion touches: the deposit, and the reminders that refer to it. -/
def Db.rowsOfDeposit (id : Uuid) (db : Db) : List Row :=
  .deposit id :: (db.plannedTransactions.filter (·.depositId = some id)).map (.plan ·.id)

/-- Interest that was recorded stays in the ledger. -/
def deleteDeposit (userId id : Uuid) : Sql Unit := do
  cancelPendingInterest userId id
  Tx.insert (Db.rowsOfDeposit id) (fun db => ∃ d ∈ db.deposits, d.id = id ∧ d.userId = userId)
    (fun _ => [.deleteDeposit id userId]) (.failure "سپرده پیدا نشد.")

/-- One update: a reminder that is pending is cancelled for good. -/
def stopIncomePlan (planId userId : Uuid) : Sql Unit :=
  Tx.write
    (fun db => (db.plannedTransactions.filter fun p => p.id = planId ∧ p.userId = some userId ∧
      p.status = .pending).map (.plan ·.id))
    fun db => [.cancelPlans ((db.plannedTransactions.filter fun p => p.id = planId ∧
      p.userId = some userId ∧ p.status = .pending).map (·.id))]

end Pwos
