import Pwos.Db.Schema

/-!
# System accounts

`features/accounts/systemAccounts.ts` and the reserve account of
`features/categories/service.ts`: counter-legs the user does not choose are posted to
accounts found by code, the tenant's own first, then the shared one. A missing account
is provisioned for the tenant. Only the accounts table is written.
-/

namespace Pwos

def FEE_EXPENSE_CODE : String := "5040"
def FEE_EXPENSE_NAME : String := "کارمزد و بانک"
def REALIZED_PNL_CODE : String := "4100"

def RESERVE_ACCOUNT_CODE : String := "3200"
def RESERVE_ACCOUNT_NAME : String := "ذخیره استهلاک و تعمیرات آتی"
def OPENING_EQUITY_CODE : String := "3010"
def MISC_EXPENSE_CODE : String := "5900"
def INCOME_ACCOUNT_CODE : String := "4010"
def INCOME_ACCOUNT_NAME : String := "درآمدها"
def INSTALLMENT_PAYMENT_CODE : String := "5960"
def INSTALLMENT_PAYMENT_NAME : String := "پرداخت اقساط"
def RECEIVABLE_COLLECTION_CODE : String := "4960"
def RECEIVABLE_COLLECTION_NAME : String := "دریافت مطالبات"

/-- The first account, oldest first, that satisfies `p`. -/
def Db.oldestAccount (db : Db) (p : Account → Bool) : Option Account :=
  ((db.accounts.filter p).insertionSort fun a b => a.createdAt ≤ b.createdAt).head?

theorem oldestAccount_spec {db : Db} {p : Account → Bool} {a : Account}
    (h : db.oldestAccount p = some a) : a ∈ db.accounts ∧ p a = true := by
  have hmem := List.mem_of_mem_head? h
  rw [List.mem_insertionSort] at hmem
  exact ⟨List.mem_of_mem_filter hmem, (List.mem_filter.mp hmem).2⟩

def resolveSystemAccount (code : String) (userId : Option Uuid) : Sql (Option Account) := do
  let own ← Tx.read fun db => userId.bind fun u =>
    db.oldestAccount fun a => a.code = code ∧ a.userId = some u ∧ !a.deleted
  match own with
  | some a => pure (some a)
  | none => Tx.read fun db =>
      db.oldestAccount fun a => a.code = code ∧ a.userId = none ∧ !a.deleted

/-- An account the caller chose counts only within the tenant's scope. -/
def resolveSystemAccountById (accountId : Uuid) (userId : Option Uuid) : Sql (Option Account) :=
  Tx.read fun db => db.accounts.find? fun a =>
    a.id = accountId ∧ (a.userId = none ∨ (userId.isSome ∧ a.userId = userId)) ∧ !a.deleted

/-- USD, else IRT, else any asset. -/
def findBaseAssetId : Sql (Option Uuid) := do
  let usd ← Tx.read fun db => db.assets.find? fun a => a.symbol = "USD" ∧ !a.deleted
  match usd with
  | some a => pure (some a.id)
  | none =>
    let irt ← Tx.read fun db => db.assets.find? fun a => a.symbol = "IRT" ∧ !a.deleted
    match irt with
    | some a => pure (some a.id)
    | none =>
      let any ← Tx.read fun db => db.assets.find? fun a => !a.deleted
      pure (any.map (·.id))

/-- The unique index on `(user_id, code)` has an entry for the account. -/
def Db.CodeTaken (db : Db) (userId : Option Uuid) (code : String) : Prop :=
  userId.isSome ∧ ∃ a ∈ db.accounts, a.userId = userId ∧ a.code = code

instance (db : Db) (userId : Option Uuid) (code : String) :
    Decidable (db.CodeTaken userId code) :=
  inferInstanceAs (Decidable (_ ∧ ∃ a ∈ db.accounts, a.userId = userId ∧ a.code = code))

/-- `INSERT … ON CONFLICT (user_id, code) DO NOTHING RETURNING …`. -/
def insertAccountOnConflictDoNothing (a : Account) : Sql (Option Account) :=
  .stmt (fun _ => .account a.id :: (a.userId.map (.accountCode · a.code)).toList) (fun _ _ => True)
    (fun db =>
      if db.CodeTaken a.userId a.code ∨ ∃ b ∈ db.accounts, b.id = a.id then []
      else [.insertAccount a])
    (fun db =>
      if db.CodeTaken a.userId a.code then .done none
      else if ∃ b ∈ db.accounts, b.id = a.id then .fail (.constraintViolation "accounts")
      else .done (some a))

def ensureSystemAccount (env : Env) (code name : String) (type : AccountType)
    (userId : Option Uuid) : Sql (Option Account) := do
  match ← resolveSystemAccount code userId with
  | some a => pure (some a)
  | none =>
    let baseAssetId ← findBaseAssetId
    let created ← insertAccountOnConflictDoNothing
      { id := env.accountId, createdAt := env.now, userId, code, name, type,
        assetId := baseAssetId }
    match created with
    | some a => pure (some a)
    | none => resolveSystemAccount code userId

def ensureFeeExpenseAccount (env : Env) (userId : Option Uuid) : Sql (Option Account) :=
  ensureSystemAccount env FEE_EXPENSE_CODE FEE_EXPENSE_NAME .expense userId

def ensureRealizedPnlAccount (env : Env) (userId : Option Uuid) : Sql (Option Account) := do
  match ← resolveSystemAccount REALIZED_PNL_CODE userId with
  | some a => pure (some a)
  | none => ensureSystemAccount env REALIZED_PNL_CODE "سود سرمایه‌ای تحقق‌یافته" .income userId

/-- The bucket of repayments of debts without an account of their own. -/
def ensureInstallmentPaymentAccount (env : Env) (userId : Option Uuid) : Sql (Option Account) :=
  ensureSystemAccount env INSTALLMENT_PAYMENT_CODE INSTALLMENT_PAYMENT_NAME .expense userId

def ensureReceivableCollectionAccount (env : Env) (userId : Option Uuid) : Sql (Option Account) :=
  ensureSystemAccount env RECEIVABLE_COLLECTION_CODE RECEIVABLE_COLLECTION_NAME .income userId

def resolveIncomeCounterAccount (env : Env) (userId : Option Uuid) : Sql (Option Account) :=
  ensureSystemAccount env INCOME_ACCOUNT_CODE INCOME_ACCOUNT_NAME .income userId

/-- The tenant's 5900, else the first expense account in scope by code. -/
def resolveExpenseCounterAccount (userId : Option Uuid) : Sql (Option Account) := do
  let preferred ← resolveSystemAccount MISC_EXPENSE_CODE userId
  match preferred.filter (·.type = .expense) with
  | some a => pure (some a)
  | none => Tx.read fun db =>
      ((db.accounts.filter fun a => a.type = .expense ∧
        (userId = none ∨ a.userId = userId ∨ a.userId = none) ∧ !a.deleted).insertionSort
          fun a b => a.code ≤ b.code).head?

/-- The reserve account non-cash expenses are booked against. A new one takes its unit
from the opening-equity account, the tenant's own before a shared one. -/
def ensureReserveAccount (env : Env) (userId : Option Uuid) : Sql Account := do
  let found ← Tx.read fun db => db.accounts.find? fun a =>
    a.code = RESERVE_ACCOUNT_CODE ∧ a.userId = userId
  match found with
  | some a => pure a
  | none =>
    let equity ← Tx.read fun db =>
      ((db.accounts.filter fun a => a.code = OPENING_EQUITY_CODE ∧
        (userId = none ∨ a.userId = userId ∨ a.userId = none)).insertionSort
          fun a b => b.userId = none ∨ ∃ u ∈ a.userId, ∃ v ∈ b.userId, u ≤ v).head?
    let created : Account :=
      { id := env.accountId, createdAt := env.now, userId, code := RESERVE_ACCOUNT_CODE
        name := RESERVE_ACCOUNT_NAME, type := .equity, assetId := equity.bind (·.assetId) }
    Tx.insert (fun _ => .account created.id :: (userId.map (.accountCode · created.code)).toList)
      (fun db => ¬ db.CodeTaken userId created.code ∧ ∀ b ∈ db.accounts, b.id ≠ created.id)
      (fun _ => [.insertAccount created]) (.constraintViolation "accounts")
    pure created

def assertSystemAccount (account : Option Account) (code label : String) : Sql Account :=
  match account with
  | some a => pure a
  | none => .fail (.systemAccountMissing code label)

end Pwos
