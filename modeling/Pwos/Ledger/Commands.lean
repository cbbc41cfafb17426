import Pwos.Accounts.SystemAccounts
import Pwos.Fx.UnitPrice
import Pwos.Ledger.ReverseEntry

/-!
# The recorded commands

The use cases of `features/ledger/service.ts`: transfer, currency conversion, buy, sell,
income and expense. Each builds the postings of one entry and hands them to `postEntry`.
A call runs in its caller's transaction.
-/

namespace Pwos

/-! ## Transfers -/

structure TransferCmd where
  source : Option EntrySource := none
  reference : Option String := none
  entryDate : IsoDate
  description : String
  fromAccountId : Uuid
  toAccountId : Uuid
  assetId : Uuid
  quantity : Decimal
  /-- The empty text is no price. -/
  unitPrice : Option Decimal
  feeBase : Decimal := 0
  feeAccountId : Option Uuid := none
  feeAssetId : Option Uuid := none
  userId : Option Uuid := none
  idempotencyKey : Option String := none
  preventOverdraft : Bool := false

def accountAssetId (accountId : Uuid) : Sql (Option Uuid) :=
  Tx.read fun db => (db.findAccount accountId).bind (·.assetId)

namespace TransferCmd
variable (cmd : TransferCmd)

def value : Decimal := cmd.quantity.mul (cmd.unitPrice.getD 0)

/-- The fee in units of the asset, at the unit price. -/
def feeQuantity : Decimal := cmd.feeBase.div (cmd.unitPrice.getD (.ofInt 1))

def fromLine : DraftPosting :=
  { accountId := cmd.fromAccountId, assetId := cmd.assetId
    quantity := -(cmd.quantity + cmd.feeQuantity), baseValue := -(cmd.value + cmd.feeBase) }

def toLine : DraftPosting :=
  { accountId := cmd.toAccountId, assetId := cmd.assetId
    quantity := cmd.quantity, baseValue := cmd.value }

/-- The fee goes to its own account, if one is named. -/
def feeLines : List DraftPosting :=
  match cmd.feeAccountId with
  | some a =>
    if 0 < cmd.feeBase then
      [{ accountId := a, assetId := cmd.feeAssetId.getD cmd.assetId
         quantity := cmd.feeQuantity, baseValue := cmd.feeBase, memo := some "کارمزد انتقال" }]
    else []
  | none => []

def input : PostEntryInput :=
  { source := cmd.source, reference := cmd.reference, entryDate := cmd.entryDate
    type := .transfer, description := cmd.description
    postings := [cmd.fromLine, cmd.toLine] ++ cmd.feeLines
    userId := cmd.userId, idempotencyKey := cmd.idempotencyKey
    preventOverdraft := cmd.preventOverdraft }

end TransferCmd

/-- The checks of `recordTransfer`. -/
def TransferCmd.check (cmd : TransferCmd) : Sql Unit := do
  let fromAsset ← accountAssetId cmd.fromAccountId
  let toAsset ← accountAssetId cmd.toAccountId
  Tx.require (fromAsset = none ∨ toAsset = none ∨ fromAsset = toAsset) .crossCurrencyTransfer
  Tx.require (fromAsset = none ∨ fromAsset = some cmd.assetId) .transferAssetMismatch

def recordTransfer (env : Env) (cmd : TransferCmd) : Sql PostResult := do
  cmd.check
  postEntry env cmd.input

/-! ## Currency conversion -/

inductive FeePaidBy where
  | fromAccount | toAccount
  deriving DecidableEq, Repr

structure FxCmd where
  entryDate : IsoDate
  description : String
  fromAccountId : Uuid
  toAccountId : Uuid
  fromAssetId : Uuid
  toAssetId : Uuid
  fromQuantity : Decimal
  toQuantity : Decimal
  bookValue : Decimal
  rateIrtPerUsd : Option Decimal := none
  feeBase : Decimal := 0
  feeAccountId : Option Uuid := none
  feeAssetId : Option Uuid := none
  feeQuantity : Option Decimal := none
  feePaidBy : Option FeePaidBy := none
  userId : Option Uuid := none
  idempotencyKey : Option String := none
  preventOverdraft : Bool := false

/-- 0.02 -/
def FX_QTY_TOLERANCE : Decimal := ⟨2 * 10 ^ 16⟩

namespace FxCmd
variable (cmd : FxCmd)

/-- The native amounts agree with a rate, one way or the other. -/
def fromMatchesTo (rate : Decimal) : Prop :=
  (cmd.fromQuantity.div rate - cmd.toQuantity).abs ≤ FX_QTY_TOLERANCE
def toMatchesFrom (rate : Decimal) : Prop :=
  (cmd.toQuantity.div rate - cmd.fromQuantity).abs ≤ FX_QTY_TOLERANCE

instance (rate : Decimal) : Decidable (cmd.fromMatchesTo rate) :=
  inferInstanceAs (Decidable (_ ≤ _))
instance (rate : Decimal) : Decidable (cmd.toMatchesFrom rate) :=
  inferInstanceAs (Decidable (_ ≤ _))

/-- The checks against the rate, when one is given. -/
def checkRate : Sql Unit :=
  match cmd.rateIrtPerUsd with
  | none => pure ()
  | some rate => do
    Tx.require (0 < rate) .fxRateInvalid
    Tx.require (cmd.fromMatchesTo rate ∨ cmd.toMatchesFrom rate) .fxQuantitiesMismatch
    let impliedBook := if cmd.fromMatchesTo rate then cmd.toQuantity else cmd.fromQuantity
    Tx.require ((cmd.bookValue - impliedBook).abs ≤ FX_QTY_TOLERANCE ∨
      (cmd.bookValue - cmd.fromQuantity.div rate).abs ≤ FX_QTY_TOLERANCE) .fxBookMismatch

/-- The fee in the unit of the account that pays it. -/
def nativeFee : Option Decimal :=
  if cmd.feePaidBy.isSome then cmd.feeQuantity.filter (0 < ·) else none

/-- What the paying side pays in its own unit. -/
def paidBy (side : FeePaidBy) : Option Decimal :=
  if cmd.feePaidBy = some side then cmd.nativeFee else none

def fromLine : DraftPosting :=
  { accountId := cmd.fromAccountId, assetId := cmd.fromAssetId
    quantity := -(cmd.fromQuantity + (cmd.paidBy .fromAccount).getD 0)
    baseValue :=
      if (cmd.paidBy .toAccount).isSome then -cmd.bookValue else -(cmd.bookValue + cmd.feeBase)
    memo := some "خروج واحد بومی (تبدیل ارز)" }

def toLine : DraftPosting :=
  { accountId := cmd.toAccountId, assetId := cmd.toAssetId
    quantity := cmd.toQuantity - (cmd.paidBy .toAccount).getD 0
    baseValue :=
      if (cmd.paidBy .toAccount).isSome then cmd.bookValue - cmd.feeBase else cmd.bookValue
    memo := some (if (cmd.paidBy .toAccount).isSome then
      "ورود خالص واحد بومی (پس از کسر کارمزد)" else "ورود واحد بومی (تبدیل ارز)") }

def feeLines : List DraftPosting :=
  match cmd.feeAccountId with
  | some a =>
    if 0 < cmd.feeBase then
      [{ accountId := a
         assetId :=
          if cmd.nativeFee.isSome then
            if (cmd.paidBy .toAccount).isSome then cmd.toAssetId else cmd.fromAssetId
          else cmd.feeAssetId.getD cmd.fromAssetId
         quantity := cmd.nativeFee.getD cmd.feeBase, baseValue := cmd.feeBase
         memo := some "کارمزد تبدیل ارز" }]
    else []
  | none => []

def input : PostEntryInput :=
  { entryDate := cmd.entryDate, description := cmd.description, type := .fx
    postings := [cmd.fromLine, cmd.toLine] ++ cmd.feeLines
    userId := cmd.userId, idempotencyKey := cmd.idempotencyKey
    preventOverdraft := cmd.preventOverdraft }

/-- The checks of `recordFx`. -/
def check : Sql Unit := do
  Tx.require (cmd.fromAssetId ≠ cmd.toAssetId) .fxSameAsset
  let fromAsset ← accountAssetId cmd.fromAccountId
  let toAsset ← accountAssetId cmd.toAccountId
  Tx.require (fromAsset = some cmd.fromAssetId ∧ toAsset = some cmd.toAssetId) .fxAssetMismatch
  Tx.require (0 < cmd.bookValue ∧ 0 < cmd.fromQuantity ∧ 0 < cmd.toQuantity)
    .fxAmountsNotPositive
  cmd.checkRate
  Tx.require (∀ f ∈ cmd.paidBy .toAccount, f < cmd.toQuantity) .fxFeeTooLarge

end FxCmd

def recordFx (env : Env) (cmd : FxCmd) : Sql PostResult := do
  cmd.check
  postEntry env cmd.input

/-! ## Trades -/

structure TradeCmd where
  entryDate : IsoDate
  description : String
  assetAccountId : Uuid
  cashAccountId : Uuid
  assetId : Uuid
  quantity : Decimal
  cashAssetId : Uuid
  cashQuantity : Decimal
  baseValue : Decimal
  feeBase : Decimal := 0
  feeAccountId : Option Uuid := none
  /-- Sells only. -/
  pnlAccountId : Option Uuid := none
  userId : Option Uuid := none
  idempotencyKey : Option String := none
  preventOverdraft : Bool := false

/-- Native units of one dollar of an account's denomination. -/
def nativeUnitsPerUsd (assetId : Option Uuid) (fallbackPerUsd : Decimal) (userId : Option Uuid) :
    Sql Decimal :=
  match assetId with
  | none => pure fallbackPerUsd
  | some a => do
    match ← (nativeUnitPriceUsd a userId).attempt with
    | .ok unit => pure (if 0 < unit then (Decimal.ofInt 1).div unit else fallbackPerUsd)
    | .error _ => pure fallbackPerUsd

/-- A base amount in the units of an account. -/
def unitsFor (accountId : Uuid) (baseAmount : Decimal) (userId : Option Uuid) :
    Sql (Uuid × Decimal) := do
  match (← Tx.read (·.findAccount accountId)).bind (·.assetId) with
  | none => .fail .accountWithoutAsset
  | some assetId =>
    let unit ← nativeUnitPriceUsd assetId userId
    pure (assetId, baseAmount.div (if unit = 0 then .ofInt 1 else unit))

/-- A posting quantity must not be zero. -/
def safeQty (value fallback : Decimal) : Decimal := if value = 0 then fallback.abs else value

/-- The units of a counter-leg: dollars, unless the trade has a cash rate. -/
def counterUnits (account : Account) (cashUnitsPerUsd : Decimal) (userId : Option Uuid) :
    Sql Decimal :=
  if cashUnitsPerUsd = 0 then pure (.ofInt 1)
  else nativeUnitsPerUsd account.assetId cashUnitsPerUsd userId

/-- The account a caller chose if it is in scope, else the tenant's own. -/
def chosenOrEnsured (chosen : Option Uuid) (userId : Option Uuid)
    (ensure : Sql (Option Account)) : Sql (Option Account) := do
  let own ← match chosen with
    | some a => resolveSystemAccountById a userId
    | none => pure none
  match own with
  | some a => pure (some a)
  | none => ensure

namespace TradeCmd
variable (cmd : TradeCmd)

/-- Units of cash in one dollar of the trade. -/
def cashUnitsPerUsd : Decimal :=
  if cmd.baseValue = 0 then 0 else cmd.cashQuantity.div cmd.baseValue

def netProceeds : Decimal := cmd.baseValue - cmd.feeBase

def buyAssetLine : DraftPosting :=
  { accountId := cmd.assetAccountId, assetId := cmd.assetId
    quantity := cmd.quantity, baseValue := cmd.baseValue }

def buyCashLine : DraftPosting :=
  { accountId := cmd.cashAccountId, assetId := cmd.cashAssetId
    quantity := -((cmd.baseValue + cmd.feeBase).mul cmd.cashUnitsPerUsd)
    baseValue := -(cmd.baseValue + cmd.feeBase) }

def buyFeeLine (feeAccount : Account) (unitsPerUsd : Decimal) : DraftPosting :=
  { accountId := feeAccount.id, assetId := feeAccount.assetId.getD cmd.cashAssetId
    quantity := safeQty (cmd.feeBase.mul unitsPerUsd) cmd.feeBase
    baseValue := cmd.feeBase, memo := some "کارمزد معامله" }

def buyInput (feeLines : List DraftPosting) : PostEntryInput :=
  { entryDate := cmd.entryDate, description := cmd.description, type := .buy
    postings := [cmd.buyAssetLine, cmd.buyCashLine] ++ feeLines
    openLot := some
      { accountId := cmd.assetAccountId, assetId := cmd.assetId
        quantity := cmd.quantity, costBase := cmd.baseValue }
    userId := cmd.userId, idempotencyKey := cmd.idempotencyKey
    preventOverdraft := cmd.preventOverdraft }

/-- The leg that leaves the asset account, at the cost of what is sold. -/
def SELL_ASSET_MEMO : String := "خروج به بهای تمام‌شده (FIFO)"
def SELL_PNL_MEMO : String := "سود/زیان تحقق‌یافته"

def sellAssetLine (costBasis : Decimal) : DraftPosting :=
  { accountId := cmd.assetAccountId, assetId := cmd.assetId
    quantity := -cmd.quantity, baseValue := -costBasis, memo := some SELL_ASSET_MEMO }

def sellCashLine : DraftPosting :=
  { accountId := cmd.cashAccountId, assetId := cmd.cashAssetId
    quantity := safeQty (cmd.netProceeds.mul cmd.cashUnitsPerUsd) cmd.netProceeds
    baseValue := cmd.netProceeds
    memo := some (if 0 < cmd.feeBase then
      "واریز خالص وجه (کسر کارمزد " ++ String.ofList cmd.feeBase.toText ++ ")"
      else "واریز وجه فروش") }

def sellPnlLine (pnlAccount : Account) (unitsPerUsd realized : Decimal) : DraftPosting :=
  { accountId := pnlAccount.id, assetId := pnlAccount.assetId.getD cmd.cashAssetId
    quantity := safeQty ((-realized).mul unitsPerUsd) realized
    baseValue := -realized, memo := some SELL_PNL_MEMO }

def sellInput (costBasis : Decimal) (pnlLines : List DraftPosting) : PostEntryInput :=
  { entryDate := cmd.entryDate, description := cmd.description, type := .sell
    postings := [cmd.sellAssetLine costBasis, cmd.sellCashLine] ++ pnlLines
    closeLot := some
      { assetId := cmd.assetId, quantity := cmd.quantity, proceedsBase := cmd.netProceeds }
    userId := cmd.userId, idempotencyKey := cmd.idempotencyKey
    preventOverdraft := cmd.preventOverdraft }

/-- The commission of a buy is an expense of its own. -/
def buyFeeLines (env : Env) : Sql (List DraftPosting) :=
  if 0 < cmd.feeBase then do
    let feeAccount ← chosenOrEnsured cmd.feeAccountId cmd.userId
      (ensureFeeExpenseAccount env cmd.userId)
    let feeAsset ← assertSystemAccount feeAccount FEE_EXPENSE_CODE "کارمزد و بانک"
    let units ← counterUnits feeAsset cmd.cashUnitsPerUsd cmd.userId
    pure [cmd.buyFeeLine feeAsset units]
  else pure []

/-- The realised result of a sell goes to its own account, unless it is zero. -/
def sellPnlLines (env : Env) (userId : Option Uuid) (realized : Decimal) :
    Sql (List DraftPosting) :=
  if realized = 0 then pure []
  else do
    let pnlAccount ← chosenOrEnsured cmd.pnlAccountId userId (ensureRealizedPnlAccount env userId)
    let pnlAcct ← assertSystemAccount pnlAccount REALIZED_PNL_CODE "سود سرمایه‌ای تحقق‌یافته"
    let units ← counterUnits pnlAcct cmd.cashUnitsPerUsd userId
    pure [cmd.sellPnlLine pnlAcct units realized]

end TradeCmd

def recordBuy (env : Env) (cmd : TradeCmd) : Sql PostResult := do
  let feeLines ← cmd.buyFeeLines env
  postEntry env (cmd.buyInput feeLines)

/-- The key's entry, whatever its payload. -/
def earlyReplay (userId : Option Uuid) (key : Option String) : Sql (Option JournalEntry) :=
  match key with
  | none => pure none
  | some k => Tx.read (·.findByIdempotencyKey userId k)

def recordSell (env : Env) (cmd : TradeCmd) : Sql PostResult := do
  let userId ← resolveServiceUserId env cmd.userId [cmd.assetAccountId]
  match ← earlyReplay userId (trimmedKey cmd.idempotencyKey) with
  | some found => pure ⟨found.id, true⟩
  | none =>
    let lots ← Tx.read (·.sellableLots cmd.assetId userId env.previewOrder)
    let preview := consumeFifo lots cmd.quantity cmd.netProceeds
    let pnlLines ← cmd.sellPnlLines env userId (cmd.netProceeds - preview.totalCost)
    postEntryPriced (some lots) env (cmd.sellInput preview.totalCost pnlLines)

/-! ## Income and expense -/

structure FlowCmd where
  source : Option EntrySource := none
  reference : Option String := none
  entryDate : IsoDate
  description : String
  cashAccountId : Uuid
  categoryAccountId : Uuid
  assetId : Uuid
  quantity : Decimal
  baseValue : Decimal
  categoryId : Option Uuid := none
  userId : Option Uuid := none
  idempotencyKey : Option String := none
  preventOverdraft : Bool := false

/-- The two legs of a flow into (`sign = 1`) or out of (`sign = -1`) the cash account. -/
def FlowCmd.input (cmd : FlowCmd) (type : EntryType) (sign : Int) : PostEntryInput :=
  { source := cmd.source, reference := cmd.reference, entryDate := cmd.entryDate
    type, description := cmd.description
    postings := [
      { accountId := cmd.cashAccountId, assetId := cmd.assetId
        quantity := sign • cmd.quantity, baseValue := sign • cmd.baseValue },
      { accountId := cmd.categoryAccountId, assetId := cmd.assetId
        quantity := -sign • cmd.quantity, baseValue := -sign • cmd.baseValue }]
    categoryId := cmd.categoryId
    userId := cmd.userId, idempotencyKey := cmd.idempotencyKey
    preventOverdraft := cmd.preventOverdraft }

def recordIncome (env : Env) (cmd : FlowCmd) : Sql PostResult :=
  postEntry env (cmd.input .income 1)

def recordExpense (env : Env) (cmd : FlowCmd) : Sql PostResult :=
  postEntry env (cmd.input .expense (-1))

/-! ## Commands -/

inductive Command where
  | transfer (cmd : TransferCmd)
  | fx (cmd : FxCmd)
  | buy (cmd : TradeCmd)
  | sell (cmd : TradeCmd)
  | income (cmd : FlowCmd)
  | expense (cmd : FlowCmd)
  | reverse (entryId : Uuid)

def Command.program (env : Env) : Command → Sql PostResult
  | .transfer cmd => recordTransfer env cmd
  | .fx cmd => recordFx env cmd
  | .buy cmd => recordBuy env cmd
  | .sell cmd => recordSell env cmd
  | .income cmd => recordIncome env cmd
  | .expense cmd => recordExpense env cmd
  | .reverse entryId => reverseEntry env entryId

end Pwos
