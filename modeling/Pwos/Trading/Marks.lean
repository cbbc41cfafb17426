import Pwos.Lib.First
import Pwos.Ledger.CounterLegs
import Pwos.Ledger.Journal
import Pwos.Ledger.Statements
import Pwos.Accounts.DeleteAccount
import Pwos.Reconcile.Checkpoints
import Pwos.Reconcile.Runs

/-!
# Marks of trading accounts

`features/trading/service.ts`. A mark is what the venue shows of a margin account: its value, and
the gain of the positions still open. What the books miss of the rest is realised, and is booked
against `4100`. Two queries read the latest mark of an account back.
-/

namespace Pwos

/-- A cent of margin is not a realised result. -/
def TRADING_TOLERANCE : Decimal := ⟨10 ^ 16⟩

/-- What the tables of the model do not say: which accounts are active, and the perp venue of the
wallet an account is in. -/
structure TradingRules where
  active : Account → Bool := fun _ => true
  venueOf : Account → Option String := fun _ => none

/-! ## Recording a mark -/

structure MarkInput where
  accountValue : Decimal
  unrealizedPnl : Decimal
  asOf : Option IsoDate := none
  source : Option MarkSource := none
  deriving DecidableEq, Repr

/-- The collateral: the account without its open positions. -/
def MarkInput.realized (input : MarkInput) : Decimal := input.accountValue - input.unrealizedPnl

def MarkInput.day (env : Env) (input : MarkInput) : IsoDate := input.asOf.getD env.today

structure PerpAccount where
  id : Uuid
  assetId : Uuid
  place : String
  deriving DecidableEq, Repr

def Db.ownedPerpAccount (rules : TradingRules) (userId accountId : Uuid) (db : Db) :
    Option PerpAccount :=
  (db.accounts.find? fun a => a.id = accountId ∧ a.userId = some userId ∧ a.type = .asset ∧
      !a.deleted).bind fun a =>
    (a.assetId.bind db.findAsset).bind fun x =>
      (rules.venueOf a).map fun place => ⟨a.id, x.id, place⟩

/-- What is known once the input is checked and everything is read. -/
structure MarkBasis where
  account : PerpAccount
  rate : Decimal
  balance : Decimal

/-- The checks and the reads before the first write. The rate is read before the transaction; a
refresh of the market's rate counts as made before. -/
def markBasis (rules : TradingRules) (userId accountId : Uuid) (input : MarkInput) :
    Sql MarkBasis := do
  Tx.require (0 ≤ input.accountValue) (.failure "ارزش حساب نمی‌تواند منفی باشد.")
  Tx.require (-TRADING_TOLERANCE ≤ input.realized)
    (.failure "سود و زیان باز از ارزش حساب بیشتر است؛ عددها را دوباره از پلتفرم ببینید.")
  Tx.require (input.source.getD .manual = .manual ∨ input.accountValue ≠ 0)
    (.failure ("پلتفرم برای این آدرس ارزش صفر نشان می‌دهد. اگر آدرس درست است و حساب واقعاً خالی یا " ++
      "لیکویید شده، آن را دستی ثبت کنید."))
  match ← Tx.read (·.ownedPerpAccount rules userId accountId) with
  | none => .fail (.failure "این حساب، حساب معاملاتی یک پلتفرم پرپ نیست.")
  | some account => do
  let fx ← getWritableUsdIrtRateForUser (pure ()) (some userId)
  let balance ← Tx.read (·.postedQuantity accountId)
  pure { account, rate := fx.rate, balance }

/-- The entry of a realised difference. -/
def realizedInput (userId : Uuid) (day : IsoDate) (account : PerpAccount) (pnlId : Uuid)
    (diff baseValue : Decimal) : PostEntryInput :=
  { entryDate := day, type := .adjustment
    description := (if diff < 0 then "زیان" else "سود") ++ " معاملات " ++ account.place
    source := some .manual
    postings := [
      { accountId := account.id, assetId := account.assetId, quantity := diff, baseValue },
      { accountId := pnlId, assetId := account.assetId, quantity := -diff
        baseValue := -baseValue }]
    userId := some userId }

def bookRealized (env : Env) (userId : Uuid) (day : IsoDate) (basis : MarkBasis) (diff : Decimal) :
    Sql Uuid := do
  let unitUsd ← nativeUnitPriceUsd basis.account.assetId (some userId)
  match ← ensureRealizedPnlAccount env (some userId) with
  | none => .fail (.failure "حساب «سود و زیان سرمایه‌گذاری» ساخته نشد.")
  | some pnl => do
  let entry ← postEntry env
    (realizedInput userId day basis.account pnl.id diff (diff.mul unitUsd))
  freezeRate { entryId := entry.id, fxRate := basis.rate }
  pure entry.id

/-- An entry if the difference is worth one. -/
def bookDifference (env : Env) (userId : Uuid) (day : IsoDate) (basis : MarkBasis)
    (diff : Decimal) : Sql (Option Uuid) :=
  if TRADING_TOLERANCE ≤ diff.abs then do
    let entryId ← bookRealized env userId day basis diff
    pure (some entryId)
  else pure none

def markRow (env : Env) (userId accountId : Uuid) (input : MarkInput) (entryId : Option Uuid) :
    TradingMark :=
  { createdAt := env.now, userId, accountId, asOf := input.day env
    accountValue := input.accountValue, unrealizedPnl := input.unrealizedPnl
    source := input.source.getD .manual, entryId }

def storeMark (env : Env) (userId accountId : Uuid) (input : MarkInput) (entryId : Option Uuid) :
    Sql Unit :=
  Tx.insert (fun _ => []) (fun db => ∃ a ∈ db.accounts, a.id = accountId)
    (fun _ => [.insertTradingMark (markRow env userId accountId input entryId)])
    (.constraintViolation "trading_account_marks")

/-- What follows the reads. -/
def recordAgainst (env : Env) (userId accountId : Uuid) (input : MarkInput) (basis : MarkBasis) :
    Sql (Decimal × Option Uuid) := do
  let diff := input.realized - basis.balance
  let entryId ← bookDifference env userId (input.day env) basis diff
  storeMark env userId accountId input entryId
  pure (if TRADING_TOLERANCE ≤ diff.abs then diff else 0, entryId)

def recordTradingMark (env : Env) (rules : TradingRules) (userId accountId : Uuid)
    (input : MarkInput) : Sql (Decimal × Option Uuid) := do
  let basis ← markBasis rules userId accountId input
  recordAgainst env userId accountId input basis

/-! ## Reading marks back -/

/-- `order by m.created_at desc`. -/
def TradingMark.newer (a b : TradingMark) : Prop := b.createdAt ≤ a.createdAt

instance (a b : TradingMark) : Decidable (a.newer b) := inferInstanceAs (Decidable (_ ≤ _))

/-- `order by m.as_of desc, m.created_at desc`. -/
def TradingMark.later (a b : TradingMark) : Prop :=
  b.asOf < a.asOf ∨ a.asOf = b.asOf ∧ b.createdAt ≤ a.createdAt

instance (a b : TradingMark) : Decidable (a.later b) := inferInstanceAs (Decidable (_ ∨ _ ∧ _))

def Db.marksOf (userId accountId : Uuid) (db : Db) : List TradingMark :=
  db.tradingMarks.filter fun m => m.userId = userId ∧ m.accountId = accountId

structure TradingAccount where
  accountId : Uuid
  name : String
  symbol : String
  assetId : Uuid
  venue : String
  ledgerBalance : Decimal
  mark : Option TradingMark
  accountValue : Decimal
  unrealizedPnl : Decimal
  netDeposited : Decimal

/-- Transfers only: what the user moved in or out. -/
def Db.netDeposited (accountId : Uuid) (db : Db) : Decimal :=
  ((db.postings.filter fun p => p.accountId = accountId ∧ ∃ e ∈ db.journalEntries,
    e.id = p.entryId ∧ e.status = .posted ∧ e.type ≠ .adjustment).map (·.quantity)).sum

def Db.tradingAccount (rules : TradingRules) (userId : Uuid) (db : Db) (a : Account) :
    Option TradingAccount :=
  ((a.assetId.bind db.findAsset).filter (!·.deleted)).bind fun x =>
    (rules.venueOf a).map fun venue =>
      let balance := db.postedQuantity a.id
      let mark := firstBy TradingMark.newer (db.marksOf userId a.id)
      let upnl := (mark.map (·.unrealizedPnl)).getD 0
      { accountId := a.id, name := a.name, symbol := x.symbol, assetId := x.id, venue
        ledgerBalance := balance, mark, accountValue := balance + upnl, unrealizedPnl := upnl
        netDeposited := db.netDeposited a.id }

def Db.listTradingAccounts (rules : TradingRules) (userId : Uuid) (db : Db) :
    List TradingAccount :=
  ((db.accounts.filter fun a => a.userId = some userId ∧ a.type = .asset ∧ !a.deleted ∧
    rules.active a).insertionSort fun a b => a.code ≤ b.code).filterMap
      (db.tradingAccount rules userId)

structure OpenPosition where
  accountId : Uuid
  assetId : Option Uuid
  unrealizedPnl : Decimal
  deriving DecidableEq, Repr

def Db.openPosition (userId : Uuid) (asOf : IsoDate) (db : Db) (accountId : Uuid) :
    Option OpenPosition :=
  (db.accounts.find? fun a => a.id = accountId ∧ !a.deleted).bind fun a =>
    ((firstBy TradingMark.later ((db.marksOf userId accountId).filter (·.asOf ≤ asOf))).map
      fun m => ⟨accountId, a.assetId, m.unrealizedPnl⟩).filter (·.unrealizedPnl ≠ 0)

/-- The open gain of each account, as the valuation adds it to the account's asset. -/
def Db.openPositionMarks (userId : Uuid) (asOf : IsoDate) (db : Db) : List OpenPosition :=
  ((((db.tradingMarks.filter fun m => m.userId = userId ∧ m.asOf ≤ asOf).map
    (·.accountId)).dedup).insertionSort (· ≤ ·)).filterMap (db.openPosition userId asOf)

/-! ## What recording a mark does to the marks -/

section Record
variable {db db' : Db} {env : Env} {rules : TradingRules} {userId accountId : Uuid}
  {input : MarkInput} {basis : MarkBasis}

theorem readOnly_markBasis : (markBasis rules userId accountId input).ReadOnly := by
  unfold markBasis
  refine (Tx.readOnly_require _ _).bind fun _ => ?_
  refine (Tx.readOnly_require _ _).bind fun _ => ?_
  refine (Tx.readOnly_require _ _).bind fun _ => ?_
  refine (Tx.readOnly_read _).bind fun found => ?_
  split
  · exact Tx.readOnly_fail _
  · refine (readOnly_getWritableUsdIrtRateForUser _).bind fun fx => ?_
    exact (Tx.readOnly_read _).bind fun _ => Tx.readOnly_done _

theorem bookRealized_marks {day : IsoDate} {diff : Decimal} {i : Uuid}
    (h : (bookRealized env userId day basis diff).run db = .ok (i, db')) :
    db'.tradingMarks = db.tradingMarks := by
  unfold bookRealized at h
  obtain ⟨unitUsd, h⟩ := (readOnly_nativeUnitPriceUsd _ _).run_bind_ok h
  obtain ⟨found, db₁, hensure, h⟩ := Tx.run_bind_ok.mp h
  cases found with
  | none => cases h
  | some pnl =>
  obtain ⟨entry, db₂, hpost, h⟩ := Tx.run_bind_ok.mp h
  obtain ⟨snapshots, hfreeze⟩ := freezeRate_run { entryId := entry.id, fxRate := basis.rate } db₂
  rw [Tx.run_bind_of_ok hfreeze] at h
  cases h
  have hensured : db₁.tradingMarks = db.tradingMarks := by
    obtain ⟨ws, hws, rfl⟩ := (ensureRealizedPnlAccount_writesOnly env _).run_ok hensure
    obtain ⟨accounts, haccounts⟩ := applyAll_addsAccount hws
    rw [haccounts]
    rfl
  have hposted : db₂.tradingMarks = db₁.tradingMarks := by
    obtain ⟨ws, ks, hws, rfl⟩ := (postEntry_writes env _).run_ok (s := db₁) hpost
    refine applyAll_keeps (f := Db.tradingMarks) (fun w hw db => ?_) db₁
    rcases hws w hw with ⟨e, rfl⟩ | ⟨ps, rfl⟩ | hw
    · rfl
    · rfl
    · cases w <;> first | rfl | exact hw.elim
  exact hposted.trans hensured

theorem bookDifference_marks {day : IsoDate} {diff : Decimal} {entryId : Option Uuid}
    (h : (bookDifference env userId day basis diff).run db = .ok (entryId, db')) :
    db'.tradingMarks = db.tradingMarks := by
  unfold bookDifference at h
  split at h
  · obtain ⟨i, db₁, hbook, h⟩ := Tx.run_bind_ok.mp h
    cases h
    exact bookRealized_marks hbook
  · cases h
    rfl

/-- Accepted, a mark is added to the marks. -/
theorem recordTradingMark_marks {r : Decimal × Option Uuid}
    (h : (recordTradingMark env rules userId accountId input).run db = .ok (r, db')) :
    ∃ entryId, db'.tradingMarks =
      db.tradingMarks ++ [markRow env userId accountId input entryId] := by
  obtain ⟨basis, h⟩ := readOnly_markBasis.run_bind_ok h
  obtain ⟨entryId, db₁, hbook, h⟩ := Tx.run_bind_ok.mp h
  rw [storeMark, Tx.run_insert_bind] at h
  split at h
  · cases h
    refine ⟨entryId, ?_⟩
    rw [← bookDifference_marks hbook]
    rfl
  · cases h

end Record

end Pwos
