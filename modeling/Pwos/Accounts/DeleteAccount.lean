import Pwos.Accounts.SystemAccounts
import Pwos.Ledger.ReverseEntry

/-!
# Deleting a money account

`deleteMoneyAccount` of `features/accounts/service.ts`. An account whose whole history is its
own opening entry goes with that entry reversed; any other is archived, if nothing is left on
it. Wallets, goals and the audit trail are left out.
-/

namespace Pwos

/-- Accounts of the chart that other programs look up by code. -/
def PROTECTED_ACCOUNT_CODES : List String :=
  ["1000", "1300", "1400", "1600", "2000", "2010", "3000", OPENING_EQUITY_CODE, "3015", "3200",
    "4000", "4010", "4100", "4900", "4960", "5000", "5010", "5020", "5030", "5040", "5050",
    "5900", "5960"]

inductive MoneyAccountDeletionMode where
  | full | archive
  deriving DecidableEq, Repr

structure DeleteMoneyAccountResult where
  message : String
  mode : MoneyAccountDeletionMode
  reversalEntryId : Option Uuid
  deriving DecidableEq, Repr

/-- The user's own account; without a user, one that nobody owns. -/
def loadDeletableAccount (accountId userId : Option Uuid) : Sql Account :=
  match accountId with
  | none => .fail (.failure "شناسه حساب الزامی است.")
  | some i => do
    match ← Tx.read (·.accounts.find? fun a => a.id = i ∧ a.userId = userId ∧ !a.deleted) with
    | none => .fail (.failure "حساب یافت نشد یا متعلق به شما نیست.")
    | some row => do
      Tx.require (row.type = .asset)
        (.failure "تنها حساب‌های دارایی (بانک، صندوق و کیف پول) از این مسیر حذف می‌شوند.")
      Tx.require (row.code ∉ PROTECTED_ACCOUNT_CODES)
        (.failure "این حساب بخشی از ساختار پایه‌ی برنامه است و حذف نمی‌شود.")
      pure row

/-! ## The history of an account -/

/-- The posted entries with a line on the account. -/
def Db.entriesOn (accountId : Uuid) (db : Db) : List JournalEntry :=
  db.journalEntries.filter fun e => e.status = .posted ∧
    ∃ p ∈ db.postings, p.entryId = e.id ∧ p.accountId = accountId

/-- The posted quantity on the account, whatever it is of and whoever posted it. -/
def Db.postedQuantity (accountId : Uuid) (db : Db) : Decimal :=
  (((db.livePostings none).filter (·.accountId = accountId)).map (·.quantity)).sum

/-- The other lines of the entry are there, and all on equity accounts. -/
def Db.OnlyEquityCounterparts (accountId entryId : Uuid) (db : Db) : Prop :=
  let foreign := ((db.postingsOf entryId).filterMap fun p => db.findAccount p.accountId).filter
    (·.id ≠ accountId)
  foreign ≠ [] ∧ ∀ a ∈ foreign, a.type = .equity

instance (accountId entryId : Uuid) (db : Db) :
    Decidable (db.OnlyEquityCounterparts accountId entryId) :=
  inferInstanceAs (Decidable (_ ∧ _))

/-- The entry that opened the account, if nothing else touched it since. -/
def Db.reversibleOpeningEntryId (accountId : Uuid) (db : Db) : Option Uuid :=
  match db.entriesOn accountId with
  | [e] =>
    if e.type = .opening ∧ db.OnlyEquityCounterparts accountId e.id then some e.id else none
  | _ => none

structure AccountHistory where
  entryCount : Nat
  quantity : Decimal
  baseValue : Decimal
  reversibleOpeningEntryId : Option Uuid

def AccountHistory.mode (history : AccountHistory) : MoneyAccountDeletionMode :=
  if history.reversibleOpeningEntryId.isSome then .full else .archive

def Db.summarizeAccountHistory (accountId : Uuid) (db : Db) : AccountHistory :=
  { entryCount := (db.entriesOn accountId).length
    quantity := db.postedQuantity accountId
    baseValue := db.bookBalance none accountId
    reversibleOpeningEntryId := db.reversibleOpeningEntryId accountId }

/-! ## The deletion -/

/-- Pending plans of the account are cancelled. -/
def cancelLinkedPlans (accountId : Uuid) : Sql Unit := do
  let links ← Tx.read fun db => db.plannedTransactions.filter fun p => p.Uses accountId
  Tx.when (0 < links.length) (Tx.write
    (fun db => (db.plannedTransactions.filter fun p => p.Uses accountId).map (.plan ·.id))
    (fun _ => [.cancelPlansOf accountId]))

def reverseOpening (env : Env) : Option Uuid → Sql (Option Uuid)
  | none => pure none
  | some entryId => do
    let reversal ← reverseEntry env entryId
    pure (some reversal.id)

/-- `shown` writes a balance of the account, as `formatMoney` does. -/
def deleteMoneyAccount (env : Env) (shown : Account → Decimal → String)
    (accountId userId : Option Uuid) : Sql DeleteMoneyAccountResult := do
  let account ← loadDeletableAccount accountId userId
  let history ← Tx.read (·.summarizeAccountHistory account.id)
  Tx.require (¬ (history.mode = .archive ∧ history.quantity ≠ 0)) (.failure
    ("این حساب هنوز موجودی دارد (" ++ shown account history.quantity ++
      "). ابتدا موجودی را صفر کنید — با انتقال به حساب دیگر یا با اصلاح موجودی — سپس حساب را حذف کنید."))
  let reversalEntryId ← reverseOpening env history.reversibleOpeningEntryId
  cancelLinkedPlans account.id
  Tx.write (fun _ => [.account account.id]) (fun _ => [.archiveAccount account.id])
  let tail := match history.mode with
    | .full => "سند افتتاحیه‌ی آن ابطال شد و اثری در دارایی خالص باقی نماند."
    | .archive => "سوابق مالی آن دست‌نخورده باقی ماند و گزارش‌های گذشته تغییر نکرد."
  pure ⟨"حساب «" ++ account.name ++ "» حذف شد. " ++ tail, history.mode, reversalEntryId⟩

end Pwos
