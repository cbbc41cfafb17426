import Pwos.Ledger.Commands

/-!
# Reconciliation with the bank

`features/reconcile/service.ts` and `reasons.ts`. A checkpoint is what the bank said of an
account on a day. Whether the books agree is computed on every read from the latest checkpoint
and the posted ledger up to its day; a difference may be closed by one adjusting entry.
-/

namespace Pwos

def RECONCILE_EQUITY_CODE : String := "3020"
def RECONCILE_EQUITY_NAME : String := "اختلاف تطبیق حساب‌ها"

/-! ## Why a balance is corrected -/

inductive ReconcileReason where
  | elsewhere | lost | missing | unknown
  deriving DecidableEq, Repr

def ReconcileReason.label : ReconcileReason → String
  | .elsewhere => "پول جای دیگری رفت"
  | .lost => "از دست رفت"
  | .missing => "تراکنشی جا افتاده"
  | .unknown => "نمی‌دانم"

def NOTE_MAX : Nat := 80

/-- `text.replace(/\s+/g, " ")`. -/
def squeezeSpaces : List Char → List Char
  | [] => []
  | c :: cs =>
    let rest := squeezeSpaces cs
    if c.isWhitespace then if rest.head? = some ' ' then rest else ' ' :: rest else c :: rest

/-- The description of the adjusting entry. -/
def reconcileDescription (accountName : String) (reason : Option ReconcileReason)
    (note : Option String) : String :=
  match reason with
  | none => "تطبیق موجودی «" ++ accountName ++ "» با بانک"
  | some found =>
    let text := (((squeezeSpaces (note.getD "").toList).dropWhile Char.isWhitespace).rdropWhile
      Char.isWhitespace).take NOTE_MAX
    "اصلاح موجودی «" ++ accountName ++ "» — " ++ found.label ++
      if text = [] then "" else ": " ++ String.ofList text

/-! ## Tolerance -/

/-- One Toman or Rial, else a hundredth of the unit. -/
def reconcileTolerance (symbol : String) : Decimal :=
  if upper symbol = "IRT" ∨ upper symbol = "IRR" then .ofInt 1 else ⟨10 ^ 16⟩

def isWithinTolerance (difference : Decimal) (symbol : String) : Prop :=
  difference.abs < reconcileTolerance symbol

instance (difference : Decimal) (symbol : String) :
    Decidable (isWithinTolerance difference symbol) := inferInstanceAs (Decidable (_ < _))

/-! ## Accounts and balances -/

/-- What the tables of the model do not say: which accounts are active and money by their
class and wallet, and the order of checkpoints no column tells apart. -/
structure ReconcileRules where
  isLiquid : Account → Asset → Bool := fun _ _ => true
  order : Uuid → Nat := fun i => i

/-- The user's own money account, with its asset. -/
def Db.moneyAccount (rules : ReconcileRules) (userId accountId : Uuid) (db : Db) :
    Option (Account × Asset) :=
  (db.accounts.find? fun a => a.id = accountId ∧ a.userId = some userId ∧ a.type = .asset ∧
      !a.deleted).bind fun a =>
    (((a.assetId.bind db.findAsset).filter fun x => !x.deleted).filter (rules.isLiquid a)).map
      (a, ·)

def assertMoneyAccount (rules : ReconcileRules) (userId accountId : Uuid) :
    Sql (Account × Asset) := do
  match ← Tx.read (·.moneyAccount rules userId accountId) with
  | none =>
    .fail (.failure "فقط حساب‌های پول فعالِ خودتان را می‌توان با بانک تطبیق داد.")
  | some found => pure found

/-- The entry counts at the end of the day. -/
def JournalEntry.CountsOn (userId : Uuid) (asOf : IsoDate) (e : JournalEntry) : Prop :=
  e.status = .posted ∧ (e.userId = some userId ∨ e.userId = none) ∧ e.entryDate ≤ asOf

instance (userId : Uuid) (asOf : IsoDate) : DecidablePred (JournalEntry.CountsOn userId asOf) :=
  fun _ => inferInstanceAs (Decidable (_ ∧ _ ∧ _))

def Db.postingsOn (userId : Uuid) (asOf : IsoDate) (db : Db) : List Posting :=
  db.postings.filter fun p => ∃ e ∈ db.journalEntries, e.id = p.entryId ∧ e.CountsOn userId asOf

/-- The balance of an account at the end of a day, in its own unit. -/
def Db.ledgerBalanceAsOf (userId accountId : Uuid) (asOf : IsoDate) (db : Db) : Decimal :=
  (((db.postingsOn userId asOf).filter (·.accountId = accountId)).map (·.quantity)).sum

/-! ## Checkpoints -/

structure CheckpointInput where
  userId : Uuid
  accountId : Uuid
  /-- `none` if it is not written as a day. -/
  asOf : Option IsoDate
  /-- `none` if it is not written as a number. -/
  balance : Option Decimal
  observedAt : Option Nat := none

def Db.CheckpointFits (c : BalanceCheckpoint) (db : Db) : Prop :=
  (∀ d ∈ db.balanceCheckpoints, d.id ≠ c.id) ∧ ∃ a ∈ db.accounts, a.id = c.accountId

instance (c : BalanceCheckpoint) : DecidablePred (Db.CheckpointFits c) :=
  fun _ => inferInstanceAs (Decidable (_ ∧ _))

def recordBalanceCheckpoint (env : Env) (rules : ReconcileRules) (input : CheckpointInput) :
    Sql Uuid :=
  match input.asOf.filter fun d => 19000101 ≤ d ∧ d ≤ env.today, input.balance with
  | none, _ => .fail (.failure "تاریخ موجودی باید امروز یا گذشته باشد.")
  | some _, none => .fail (.failure "موجودی را به عدد وارد کنید.")
  | some asOf, some balance => do
    let _ ← assertMoneyAccount rules input.userId input.accountId
    let row : BalanceCheckpoint :=
      { id := env.checkpointId, userId := input.userId, accountId := input.accountId, asOf
        observedAt := input.observedAt.getD env.now, createdAt := env.now, balance }
    Tx.insert (fun _ => [.checkpoint row.id]) (Db.CheckpointFits row)
      (fun _ => [.insertCheckpoint row]) (.constraintViolation "balance_checkpoints")
    pure row.id

/-- `a` comes before `b` in `order by as_of desc, observed_at desc, created_at desc`. -/
def BalanceCheckpoint.before (a b : BalanceCheckpoint) : Prop :=
  b.asOf < a.asOf ∨ a.asOf = b.asOf ∧ (b.observedAt < a.observedAt ∨
    a.observedAt = b.observedAt ∧ b.createdAt ≤ a.createdAt)

instance (a b : BalanceCheckpoint) : Decidable (a.before b) :=
  inferInstanceAs (Decidable (_ ∨ _ ∧ (_ ∨ _ ∧ _)))

/-- The row of the account in `latestCheckpoints`. -/
def Db.latestCheckpoint (rules : ReconcileRules) (userId accountId : Uuid) (db : Db) :
    Option BalanceCheckpoint :=
  (((db.balanceCheckpoints.filter fun c => c.userId = userId ∧ c.accountId = accountId).insertionSort
    fun a b => rules.order a.id ≤ rules.order b.id).insertionSort BalanceCheckpoint.before).head?

/-- A checkpoint of the user. -/
def Db.ownCheckpoint (userId checkpointId : Uuid) (db : Db) : Option BalanceCheckpoint :=
  db.balanceCheckpoints.find? fun c => c.id = checkpointId ∧ c.userId = userId

/-! ## Adjusting -/

/-- `reconcile:${cp.id}`. -/
def reconcileKey (checkpointId : Uuid) : String :=
  "reconcile:" ++ String.ofList (Nat.toDigits 10 checkpointId)

structure ReconcileWhy where
  reason : Option ReconcileReason := none
  note : Option String := none

/-- The adjusting entry: the difference onto the account, against equity. -/
def adjustInput (cp : BalanceCheckpoint) (account : Account) (assetId equityId : Uuid)
    (diff baseValue : Decimal) (why : ReconcileWhy) : PostEntryInput :=
  { entryDate := cp.asOf, type := .adjustment
    description := reconcileDescription account.name why.reason why.note, source := some .manual
    postings := [
      { accountId := cp.accountId, assetId, quantity := diff, baseValue },
      { accountId := equityId, assetId, quantity := -diff, baseValue := -baseValue }]
    userId := some cp.userId, idempotencyKey := some (reconcileKey cp.id) }

/-- `INSERT … ON CONFLICT DO NOTHING`. -/
def freezeRate (f : EntryFxSnapshot) : Sql Unit :=
  Tx.write (fun _ => [.fxSnapshot f.entryId]) fun db =>
    if ∃ g ∈ db.entryFxSnapshots, g.entryId = f.entryId then [] else [.insertFxSnapshot f]

/-- Close the difference of the latest checkpoint of an account. The rate is read before the
transaction; a refresh of the market's rate counts as made before. -/
def adjustToReported (env : Env) (rules : ReconcileRules) (userId checkpointId : Uuid)
    (why : ReconcileWhy) : Sql (Uuid × Decimal) := do
  match ← Tx.read (·.ownCheckpoint userId checkpointId) with
  | none => .fail (.failure "این موجودی پیدا نشد.")
  | some _ => do
  let fx ← getWritableUsdIrtRateForUser (pure ()) (some userId)
  match ← Tx.lock (fun db => ((db.ownCheckpoint userId checkpointId).map (.checkpoint ·.id)).toList)
      (·.ownCheckpoint userId checkpointId) with
  | none => .fail (.failure "این موجودی پیدا نشد.")
  | some cp => do
  Tx.require (cp.resolutionEntryId = none) (.failure "این اختلاف قبلاً اصلاح شده است.")
  let latest ← Tx.read (·.latestCheckpoint rules userId cp.accountId)
  Tx.require (latest.map (·.id) = some cp.id)
    (.failure "موجودی تازه‌تری برای این حساب ثبت شده است؛ صفحه را تازه کنید.")
  let (account, asset) ← assertMoneyAccount rules userId cp.accountId
  let ledger ← Tx.read (·.ledgerBalanceAsOf userId cp.accountId cp.asOf)
  let diff := cp.balance - ledger
  Tx.require (¬ isWithinTolerance diff asset.symbol)
    (.failure "این حساب با بانک یکی است؛ اصلاحی لازم نیست.")
  let unitUsd ← nativeUnitPriceUsd asset.id (some userId)
  let baseValue := diff.mul unitUsd
  match ← ensureSystemAccount env RECONCILE_EQUITY_CODE RECONCILE_EQUITY_NAME .equity
      (some userId) with
  | none => .fail (.failure "حساب «اختلاف تطبیق» ساخته نشد.")
  | some equity => do
  let entry ← postEntry env (adjustInput cp account asset.id equity.id diff baseValue why)
  freezeRate { entryId := entry.id, fxRate := fx.rate }
  Tx.write (fun _ => [.checkpoint cp.id]) (fun _ => [.resolveCheckpoint cp.id userId entry.id])
  pure (entry.id, diff)

end Pwos
