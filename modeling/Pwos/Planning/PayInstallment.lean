import Pwos.Ledger.Commands
import Pwos.Planning.Obligations

/-!
# Quick Pay

`payInstallment` of `features/planning/service.ts`: settle an installment, whole or in
part, in one transaction that locks its row, posts the movement and updates the row and
its debt.
-/

namespace Pwos

/-- The caller, else the session, else the only user there is. An unknown caller is
refused where several users, or Supabase, make it unsafe. -/
def resolvePlanningUserId (env : Env) (explicitUserId : Option Uuid) : Sql (Option Uuid) :=
  match explicitUserId <|> env.currentUser with
  | some u => pure (some u)
  | none => do
    match ← Tx.read (·.users.take 2) with
    | [u] => pure (some u)
    | [] => do
      Tx.require (¬ env.supabase) .unauthorized
      pure none
    | _ => .fail .unauthorized

structure PayCmd where
  installmentId : Uuid
  cashAccountId : Uuid
  userId : Option Uuid := none
  /-- Toman to settle; the whole balance if it is left out. -/
  payToman : Option Decimal := none

/-- The installment with its debt, if the debt is the tenant's or nobody's. -/
def Db.payableRow (db : Db) (userId : Option Uuid) (installmentId : Uuid) :
    Option (Installment × Debt) :=
  (db.findInstallment installmentId).bind fun inst =>
    ((db.findDebt inst.debtId).filter fun d =>
      userId = none ∨ d.userId = userId ∨ d.userId = none).map (inst, ·)

/-! ## The counter-leg -/

structure Contra where
  accountId : Uuid
  /-- The name of the bucket, for a debt without an account of its own. -/
  bucketName : Option String
  deriving DecidableEq, Repr

def collectionMissing : String :=
  "سرفصل «دریافت مطالبات» برای شما ساخته نشد؛ در «تنظیمات ← حساب‌ها» یک حساب درآمد بسازید."
def repaymentMissing : String :=
  "سرفصل «پرداخت اقساط» برای شما ساخته نشد؛ در «تنظیمات ← حساب‌ها» یک حساب هزینه بسازید."

/-- The bucket of the settlements of a debt without an account. -/
def ensureBucket (env : Env) (userId : Option Uuid) (direction : String) : Sql (Option Account) :=
  if isReceivable direction then ensureReceivableCollectionAccount env userId
  else ensureInstallmentPaymentAccount env userId

def resolveContra (env : Env) (userId : Option Uuid) (debt : Debt) : Sql Contra :=
  match debt.accountId with
  | some a => pure ⟨a, none⟩
  | none => do
    match ← ensureBucket env userId debt.direction with
    | some bucket => pure ⟨bucket.id, some bucket.name⟩
    | none => .fail (.contraMissing
        (if isReceivable debt.direction then collectionMissing else repaymentMissing))

/-! ## The amounts -/

/-- The Toman of the contract, or the book amount at the rate of the payment. -/
def contractualToman (inst : Installment) (rate : Decimal) : Except AppError Decimal :=
  match inst.amountToman with
  | some contractual => .ok contractual
  | none => if 0 < rate then .ok (inst.amountBase.mul rate) else .error .paymentRateMissing

/-- What `applyPartialPayment` looks at. -/
def Installment.balanceRow (inst : Installment) (contractual : Decimal) : PartialPaymentRow :=
  { status := inst.status, amountToman := some (contractual.toFixed 0)
    paidToman := inst.paidToman }

/-- The paying account is a live asset account, not of another user. Its unit. -/
def assertCashAccount (userId : Option Uuid) (accountId : Uuid) : Sql String := do
  let cashRow ← Tx.read fun db => (db.findAccount accountId).filter fun a =>
    !a.deleted ∧ a.type = .asset ∧ ¬ (userId.isSome ∧ a.userId.isSome ∧ a.userId ≠ userId)
  match cashRow with
  | none => .fail .cashAccountInvalid
  | some a => Tx.read fun db => upper (((a.assetId.bind db.findAsset).map (·.symbol)).getD "")

/-- A Toman or Rial account moves by the settled Toman itself. -/
def cashQuantity (symbol : String) (settled units : Decimal) : Decimal :=
  if symbol = "IRT" then settled.toFixed 0
  else if symbol = "IRR" then (settled.mul (.ofInt 10)).toFixed 0
  else units

/-! ## The entry -/

/-- All that the entry of a payment is made of. -/
structure Payment where
  userId : Option Uuid
  cashAccountId : Uuid
  inst : Installment
  debt : Debt
  contra : Contra
  settled : Decimal
  next : PartialPayment
  snapshot : InstallmentPayment
  cash : Uuid × Decimal
  contraUnits : Uuid × Decimal

namespace Payment
variable (p : Payment)

def sign : Int := settlementSign p.debt.direction

def cashLeg : DraftPosting :=
  { accountId := p.cashAccountId, assetId := p.cash.1
    quantity := p.sign • p.cash.2, baseValue := p.sign • p.snapshot.paidUsd }

def contraMemo : String :=
  match p.contra.bucketName with
  | some name =>
    if isReceivable p.debt.direction then
      "طلبِ بدون حساب دریافتنی — ورود وجه در سرفصل «" ++ name ++
        "»؛ وصول مطالبات است، نه درآمد، و در گزارش درآمد شمرده نمی‌شود"
    else
      "بدهیِ بدون حساب بدهی — خروج وجه در سرفصل «" ++ name ++
        "»، نه «هزینه متفرقه»؛ خارج از گزارش هزینه‌ها و خارج از بودجه‌ها"
  | none =>
    if isReceivable p.debt.direction then "کاهش مانده مطالبات" else "کاهش مانده بدهی"

def contraLeg : DraftPosting :=
  { accountId := p.contra.accountId, assetId := p.contraUnits.1
    quantity := -p.sign • p.contraUnits.2, baseValue := -(p.sign • p.snapshot.paidUsd)
    memo := some p.contraMemo }

def description : String :=
  (if isReceivable p.debt.direction then "دریافت قسط " else "پرداخت قسط ") ++
    toString p.inst.seq ++ " — " ++ p.debt.title ++
    (if p.next.status = .partlyPaid then " (پرداخت بخشی)" else "")

def input (env : Env) : PostEntryInput :=
  { entryDate := env.today
    type := if p.contra.bucketName.isSome then .debtRepayment else .installment
    description := p.description, userId := p.userId
    postings := [p.cashLeg, p.contraLeg] }

/-- What the payment writes into the row. -/
def columns (env : Env) (entryId : Uuid) : SettledColumns :=
  { status := p.next.status, paidAt := env.today, paidEntryId := entryId
    paidToman := p.next.paidToman, paidFxRate := p.snapshot.paidFxRate
    paidUsd := p.snapshot.paidUsd }

def settlement (entryId : Uuid) : Settlement :=
  { installmentId := p.inst.id, entryId, cashAccountId := some p.cashAccountId
    toman := p.settled.toFixed 0 }

end Payment

inductive PayResult where
  /-- Nothing was left to pay. -/
  | alreadyPaid (entryId : Option Uuid)
  | settled (entry : PostResult) (contra : Contra) (direction : ObligationDirection)
      (next : PartialPayment)
  deriving DecidableEq, Repr

/-! ## The transaction -/

def Db.outstandingOf (db : Db) (debtId : Uuid) : List Installment :=
  db.installments.filter fun i => i.debtId = debtId ∧ i.status ≠ .paid

/-- Settle the obligation once nothing is outstanding on it. -/
def settleDebtIfPaid (debtId : Uuid) : Sql Unit := do
  let pending ← Tx.read fun db => (db.outstandingOf debtId).length
  Tx.when (pending = 0) do
    Tx.write (fun _ => [.debt debtId]) (fun _ => [.settleDebt debtId])

/-- The units of both legs. -/
def Payment.resolve (env : Env) (userId : Option Uuid) (cmd : PayCmd) (inst : Installment)
    (debt : Debt) : Sql (Option Payment) := do
  let contra ← resolveContra env userId debt
  let paymentFx ← (do assertRealUsdIrtRate (← getLatestUsdIrtRateForUser userId))
  let contractual ← Tx.ofExcept (contractualToman inst paymentFx.rate)
  let outstanding := remainingToman (inst.balanceRow contractual)
  if outstanding ≤ 0 then pure none
  else
    let settled := cmd.payToman.getD outstanding
    let next ← Tx.ofExcept (applyPartialPayment (inst.balanceRow contractual) (settled.toFixed 0))
    let snapshot ← Tx.ofExcept (calculateInstallmentPayment settled paymentFx.rate)
    let cashSymbol ← assertCashAccount userId cmd.cashAccountId
    let cashUnits ← unitsFor cmd.cashAccountId snapshot.paidUsd userId
    let contraUnits ← unitsFor contra.accountId snapshot.paidUsd userId
    pure (some
      { userId, cashAccountId := cmd.cashAccountId, inst, debt, contra, settled, next, snapshot
        cash := (cashUnits.1, cashQuantity cashSymbol settled cashUnits.2), contraUnits })

def payRow (env : Env) (p : Payment) : Sql PayResult := do
  let entry ← postEntry env (p.input env)
  Tx.write (fun _ => [.installment p.inst.id]) fun _ =>
    [.settleInstallment p.inst.id (p.columns env entry.id), .noteSettlement (p.settlement entry.id)]
  settleDebtIfPaid p.debt.id
  pure (.settled entry p.contra (resolveDirection p.debt.direction) p.next)

def payInstallment (env : Env) (cmd : PayCmd) : Sql PayResult := do
  let userId ← resolvePlanningUserId env cmd.userId
  Tx.lock (fun _ => [.installment cmd.installmentId]) fun _ => ()
  match ← Tx.read (·.payableRow userId cmd.installmentId) with
  | none => .fail .installmentNotYours
  | some (inst, debt) =>
    if inst.status = .paid then pure (.alreadyPaid inst.paidEntryId)
    else do
      match ← Payment.resolve env userId cmd inst debt with
      | none => pure (.alreadyPaid inst.paidEntryId)
      | some p => payRow env p

end Pwos
