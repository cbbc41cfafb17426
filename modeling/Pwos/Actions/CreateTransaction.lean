import Pwos.Planning.Cheques
import Pwos.Planning.PayInstallment

/-!
# The transaction form

`createTransactionAction` of `app/actions.ts`: what the payment form records. The request
is checked first, outside any transaction (`prepareTransaction`); then one database
transaction books the entry of its type, freezes the rate, clears a cheque and settles an
installment (`recordTransaction`). Sales of properties and vehicles, tags, reviews and
reminders are left out.
-/

namespace Pwos

/-- A category of an expense or an income. -/
structure Category where
  id : Uuid
  nonCash : Bool := false
  deriving DecidableEq, Repr

/-- A request. A text that is no id counts as absent, an empty one too. -/
structure TxForm where
  type : TxType
  entryDate : IsoDate
  description : String
  primaryAccountId : Option Uuid := none
  counterAccountId : Option Uuid := none
  /-- The category the request names, else the last resort of its type. -/
  category : Option Category := none
  amount : Option Decimal := none
  irtAmount : Option Decimal := none
  /-- Income: the amount in the receiving account's own unit. -/
  nativeAmount : Option Decimal := none
  quantity : Option Decimal := none
  settleQuantity : Option Decimal := none
  fee : Option Decimal := none
  /-- The fee is typed in the paying account's unit. -/
  feeNative : Bool := false
  debtId : Option Uuid := none
  installmentId : Option Uuid := none
  chequeId : Option Uuid := none
  idempotencyKey : Option String := none
  /-- A confirmed bank import, with the rate it was reviewed at. -/
  bankImport : Option (Option Decimal) := none

/-- The rules on the places where accounts are held, and the dollar of a past day. A rule
only refuses; `heldAt` names the account a coin bought elsewhere is held in. -/
structure TxRules where
  bankHeld : Db → Uuid → Bool := fun _ _ => true
  transferError : Db → Uuid → Uuid → Option String := fun _ _ _ => none
  tradeError : Db → TxType → Account → Account → Option String := fun _ _ _ _ => none
  heldAt : Db → Account → Account → Option Account := fun _ _ _ => none
  purchaseRate : Db → IsoDate → Except AppError Decimal := fun _ _ => .error .rateMissing

/-- The amount, where it is given and positive. -/
def positive (amount : Option Decimal) : Option Decimal := amount.filter (0 < ·)

/-- `throw` if there is a reason to. -/
def refuse (reason : Option String) : Sql Unit :=
  Tx.each reason.toList fun text => .fail (.failure text)

/-! ## Ownership -/

def SYSTEM_ACCOUNT_CODES : List String :=
  ["1000", "2000", "3000", "3010", "4000", "4010", "4100", "4900", "5000", "5010", "5020",
    "5030", "5040", "5050", "5900", "5960"]

/-- An account of nobody's that everybody may name. -/
def Account.isShared (a : Account) : Bool := a.code ∈ SYSTEM_ACCOUNT_CODES ∨ a.type ≠ .asset

def validateAccountOwnership (userId accountId : Uuid) : Sql Unit := do
  match ← Tx.read (·.findAccount accountId) with
  | none => .fail (.failure "حساب انتخاب‌شده یافت نشد.")
  | some a =>
    Tx.require (a.userId = none → a.isShared = true)
      (.failure "دسترسی غیرمجاز: این حساب بدون مالک و غیرسیستمی است.")
    Tx.require (a.userId = none ∨ a.userId = some userId)
      (.failure "دسترسی غیرمجاز: این حساب متعلق به شما نیست.")

def NOT_TOMAN_BANK : String :=
  "پرداخت بدهی فقط از حساب بانکی تومانی ممکن است؛ یکی از حساب‌های بانکی خود را انتخاب کنید."

/-- A debt is paid from a Toman account held at a bank. -/
def assertTomanBankAccount (rules : TxRules) (accountId : Uuid) : Sql Unit := do
  let bank ← Tx.read fun db =>
    let asset := ((db.findAccount accountId).bind (·.assetId)).bind db.findAsset
    let unit := upper (trimText ((asset.map (·.symbol)).getD ""))
    decide (unit = "IRT" ∨ unit = "IRR") && rules.bankHeld db accountId
  Tx.require (bank = true) (.failure NOT_TOMAN_BANK)

def assertDebtOwnership (userId debtId : Uuid) : Sql Unit := do
  match ← Tx.read (·.findDebt debtId) with
  | none => .fail (.failure "بدهی انتخاب‌شده یافت نشد.")
  | some d =>
    Tx.require (d.userId = none ∨ d.userId = some userId)
      (.failure "دسترسی غیرمجاز: این بدهی متعلق به شما نیست.")

def assertInstallmentOwnership (userId installmentId : Uuid) : Sql Unit := do
  match ← Tx.read (·.findInstallment installmentId) with
  | none => .fail (.failure "قسط یافت نشد.")
  | some i => assertDebtOwnership userId i.debtId

/-- Every account and reference that the request names is the user's or shared. -/
def authorizeForm (rules : TxRules) (form : TxForm) (userId : Uuid) : Sql Unit := do
  Tx.each form.primaryAccountId.toList (validateAccountOwnership userId)
  Tx.each form.counterAccountId.toList (validateAccountOwnership userId)
  Tx.when (form.type = .debtRepayment) do
    Tx.each form.primaryAccountId.toList (assertTomanBankAccount rules)
  match form.installmentId with
  | some i => assertInstallmentOwnership userId i
  | none => Tx.each form.debtId.toList (assertDebtOwnership userId)

/-! ## The rate and the amounts -/

def isExchangeListedInstrument (a : Asset) : Bool :=
  String.ofList (a.classCode.toList.map Char.toLower) ∈ ["fund", "stock", "mutualfund"]

/-- A purchase of a past day, of an asset that is not listed at the Tehran exchange. -/
def isDatedPurchase (env : Env) (form : TxForm) : Sql Bool :=
  match form.primaryAccountId with
  | none => pure false
  | some a =>
    if form.type = .buy ∧ form.entryDate < env.today then
      Tx.read fun db => (((db.findAccount a).bind (·.assetId)).bind db.findAsset).any
        fun i => !isExchangeListedInstrument i
    else pure false

/-- The rate the entry freezes. A refresh of the market's rate counts as made before. -/
def formRate (rules : TxRules) (env : Env) (form : TxForm) (dated : Bool) : Sql Decimal := do
  let rate ←
    if dated then do
      Tx.ofExcept (← Tx.read (rules.purchaseRate · form.entryDate))
    else do
      let fx ← getWritableUsdIrtRateForUser (pure ()) env.currentUser
      pure fx.rate
  Tx.require (0 < rate) .rateNotRecorded
  Tx.require (∀ expected ∈ form.bankImport, expected = some rate) (.failure
    "نرخ ارز از زمان بازبینی تغییر کرده است؛ صفحه را تازه کنید و نرخ جدید را بررسی کنید.")
  pure rate

/-- The typed Toman and its dollars; or typed dollars and their Toman. -/
def formAmounts (form : TxForm) (rate : Decimal) : Except AppError (Decimal × Decimal) :=
  let amounts : Option (Decimal × Decimal) :=
    match positive form.irtAmount with
    | some toman => some ((toman.toFixed 0).div rate, toman.toFixed 0)
    | none => (positive form.amount).map fun usd => (usd, (usd.mul rate).toFixed 0)
  match amounts with
  | some (usd, toman) => if usd ≤ 0 then .error .amountNotPositive else .ok (usd, toman)
  | none => .error .amountNotPositive

/-- The commission in dollars. -/
def feeInUsd (form : TxForm) (userId : Option Uuid) (rate : Decimal) : Sql Decimal :=
  match positive form.fee with
  | none => pure 0
  | some fee => do
    let payAccount := if form.type = .buy ∨ form.type = .sell then form.counterAccountId
      else form.primaryAccountId
    let payAsset ← Tx.read fun db =>
      if form.feeNative then payAccount.bind fun a => (db.findAccount a).bind (·.assetId) else none
    match payAsset with
    | none => pure (fee.div rate)
    | some asset =>
      let unitUsd ← nativeUnitPriceUsd asset userId
      pure (if 0 < unitUsd then fee.mul unitUsd else fee.div rate)

/-! ## The linked obligation -/

/-- 1.05: what may be typed of what an installment asks for. -/
def LINK_TOLERANCE : Decimal := ⟨105 * 10 ^ 16⟩

/-- The amount does not exceed what the installment asks for, in Toman if it has any. -/
def Installment.Covers (i : Installment) (usd toman : Decimal) : Prop :=
  match i.amountToman with
  | some contractual => toman ≤ contractual.mul LINK_TOLERANCE
  | none => usd ≤ i.amountBase.mul LINK_TOLERANCE

instance (i : Installment) (usd toman : Decimal) : Decidable (i.Covers usd toman) := by
  unfold Installment.Covers; split <;> infer_instance

/-- The debt and the installment the request names, as they are now. -/
def linkedRows (form : TxForm) (usd toman : Decimal) : Sql (Option Debt × Option Installment) :=
  match form.installmentId, form.debtId with
  | some i, _ => do
    match ← Tx.read (·.findInstallment i) with
    | none => .fail .installmentNotFound
    | some row =>
      Tx.require (row.status ≠ .paid) .installmentAlreadyPaid
      let debt ← Tx.read (·.findDebt row.debtId)
      Tx.require (row.Covers usd toman) .installmentExceeded
      pure (debt, some row)
  | none, some d => do
    match ← Tx.read (·.findDebt d) with
    | none => .fail .debtNotFound
    | some debt =>
      Tx.require (debt.status ≠ .settled) .debtSettled
      pure (some debt, none)
  | none, none => pure (none, none)

/-! ## Before the transaction -/

/-- What the transaction is given. -/
structure Prepared where
  dated : Bool
  rate : Decimal
  usd : Decimal
  toman : Decimal
  feeUsd : Decimal
  debt : Option Debt
  inst : Option Installment
  /-- The account of the expenses, or of the categorised incomes. -/
  categoryAccountId : Option Uuid

/-- The counter-account of an expense or a categorised income. -/
def resolveCategoryAccount (env : Env) (form : TxForm) : Sql (Option Uuid) :=
  if form.type = .expense then do
    match ← resolveExpenseCounterAccount env.currentUser with
    | some a => pure (some a.id)
    | none => .fail .expenseAccountUnavailable
  else if form.type = .income ∧ form.category.isSome then do
    match ← resolveIncomeCounterAccount env env.currentUser with
    | some a => pure (some a.id)
    | none => .fail .incomeAccountUnavailable
  else pure none

def prepareTransaction (rules : TxRules) (env : Env) (form : TxForm) : Sql Prepared := do
  Tx.each env.currentUser.toList (authorizeForm rules form)
  let dated ← isDatedPurchase env form
  let rate ← formRate rules env form dated
  let (usd, toman) ← Tx.ofExcept (formAmounts form rate)
  let feeUsd ← feeInUsd form env.currentUser rate
  Tx.require (form.chequeId.isSome → env.currentUser.isSome)
    (.failure "برای ثبت پاس شدن چک وارد شوید")
  let (debt, inst) ← linkedRows form usd toman
  Tx.require (form.type = .debtRepayment → debt.isSome) .debtNotChosen
  let categoryAccountId ← resolveCategoryAccount env form
  pure { dated, rate, usd, toman, feeUsd, debt, inst, categoryAccountId }

/-! ## The entry -/

/-- The entry with the Toman it is frozen at. -/
structure Booked where
  entry : PostResult
  toman : Decimal

def accountAsset (accountId : Uuid) : Sql Uuid := do
  match ← accountAssetId accountId with
  | some a => pure a
  | none => .fail .accountWithoutAsset

/-- The market's Toman for a Tether, if it quotes one. -/
def Db.usdtQuote (db : Db) : Option Decimal :=
  positive ((db.wallexAssetCatalog.find? (·.symbol = "USDT")).bind (·.priceTmn))

/-! ### Units -/

def sym (symbol : String) : String := upper (trimText symbol)

def TOMAN_SYMBOLS : List String := ["IRT", "IRR"]

def STABLECOIN_SYMBOLS : List String :=
  ["USDT", "USDC", "USDG", "USDE", "USDS", "PYUSD", "BUSD", "DAI", "USDD", "FDUSD"]

inductive SettlementUnit where
  | toman | stablecoin | usd
  deriving DecidableEq, Repr

/-- What an account may settle a trade in; nothing if it is a position, not money. -/
def settlementUnitOf (symbol : String) : Option SettlementUnit :=
  if sym symbol ∈ TOMAN_SYMBOLS then some .toman
  else if sym symbol ∈ STABLECOIN_SYMBOLS then some .stablecoin
  else if sym symbol = "USD" then some .usd
  else none

inductive TradeRoute where
  | conversion | trade
  deriving DecidableEq, Repr

/-- A stablecoin or dollar position moves by conversion, not by a trade of lots. -/
def tradeRouteFor (symbol : String) : TradeRoute :=
  if sym symbol ∈ STABLECOIN_SYMBOLS ∨ sym symbol = "USD" then .conversion else .trade

def Db.symbolOf (db : Db) (assetId : Uuid) : String :=
  ((db.findAsset assetId).map (·.symbol)).getD ""

def USD_FACE : List String := ["USD", "USDT", "USDC", "USDG", "USDE", "USDS"]

structure FxLegsInput where
  fromSymbol : String
  toSymbol : String
  rateIrtPerUsd : Decimal
  fromQuantity : Option Decimal := none
  toQuantity : Option Decimal := none
  irtAmount : Option Decimal := none
  claimedBookValue : Option Decimal := none

structure FxLegs where
  fromQuantity : Decimal
  toQuantity : Decimal
  bookValue : Decimal

/-- The dollars of a conversion: the dollar face of a side that has one, else its Toman at
the rate. -/
def fxBookValue (source dest : String) (rate fromQty toQty : Decimal) : Option Decimal :=
  if source ∈ USD_FACE then some fromQty
  else if dest ∈ USD_FACE then some toQty
  else if source = "IRT" then some (fromQty.div rate)
  else if dest = "IRT" then some (toQty.div rate)
  else none

/-- Native quantities and book value of a conversion. A missing quantity follows from the
other at the rate, a Toman one from the typed Toman. -/
def resolveFxBookLegs (input : FxLegsInput) : Except AppError FxLegs :=
  let rate := input.rateIrtPerUsd
  let source := upper input.fromSymbol
  let dest := upper input.toSymbol
  if rate ≤ 0 then .error .fxRateInvalid
  else if source = "" ∨ dest = "" ∨ source = dest then
    .error (.failure "واحد مبدأ و مقصد تبدیل ارز نامعتبر است.")
  else
    let hint := positive input.irtAmount
    let fromGiven := positive input.fromQuantity <|> if source = "IRT" then hint else none
    let toGiven := positive input.toQuantity <|> if dest = "IRT" then hint else none
    let fromQty := fromGiven <|> toGiven.map fun t => if source = "IRT" then t.mul rate else t
    let toQty := toGiven <|> fromQty.map fun f =>
      if dest = "IRT" then f.mul rate else if source = "IRT" then f.div rate else f
    match fromQty, toQty with
    | some f, some t =>
      match fxBookValue source dest rate f t with
      | none => .error (.failure "واحد بومی برای محاسبه ارزش دفتری USD پشتیبانی نمی‌شود.")
      | some book =>
        if book ≤ 0 then .error (.failure "ارزش دفتری باید بزرگ‌تر از صفر باشد.")
        else if ∃ claimed ∈ positive input.claimedBookValue,
            FX_QTY_TOLERANCE < (claimed - book).abs then
          .error (.failure "bookValue ارسالی با نرخ سرور سازگار نیست.")
        else .ok ⟨f, t, book⟩
    | _, _ => .error (.failure "fromQuantity و toQuantity برای تبدیل ارز الزامی هستند.")

section Book
variable (rules : TxRules) (env : Env) (form : TxForm) (prep : Prepared)

def TxForm.source : Option EntrySource := form.bankImport.map fun _ => .imported

def TxForm.reference : Option String := form.bankImport.bind fun _ => form.idempotencyKey

/-- Against the reserve, so that no balance of cash moves. -/
def nonCashInput (categoryId reserveId categoryAccountId asset : Uuid) (qty : Decimal) :
    PostEntryInput :=
  { entryDate := form.entryDate, type := .expense, description := form.description
    categoryId := some categoryId, userId := env.currentUser
    idempotencyKey := form.idempotencyKey
    postings := [
      { accountId := reserveId, assetId := asset, quantity := -qty, baseValue := -prep.usd
        memo := some "ثبت غیرنقدی (استهلاک/ذخیره)" },
      { accountId := categoryAccountId, assetId := asset, quantity := qty
        baseValue := prep.usd }] }

/-- An expense in reports that moves no cash. -/
def bookNonCash (categoryId categoryAccountId : Uuid) : Sql Booked := do
  let reserve ← ensureReserveAccount env env.currentUser
  match reserve.assetId with
  | none => .fail .reserveWithoutAsset
  | some asset =>
    let price ← nativeUnitPriceUsd asset env.currentUser
    let entry ← postEntry env
      (nonCashInput env form prep categoryId reserve.id categoryAccountId asset (prep.usd.div price))
    pure ⟨entry, prep.toman⟩

/-- Quantity, dollars and Toman of an income typed in the account's own unit. -/
def nativeIncome (asset : Uuid) (native : Decimal) : Sql (Decimal × Decimal × Decimal) := do
  let unit ← Tx.read (·.unitOf asset)
  if unit = "IRT" ∨ unit = "IRR" then
    let toman := (if unit = "IRR" then native.div (.ofInt 10) else native).toFixed 0
    pure (native, toman.div prep.rate, toman)
  else
    let price ← nativeUnitPriceUsd asset env.currentUser
    let quote ← Tx.read (·.usdtQuote)
    let tomanPerUsd := if unit = "USDT" then quote.getD prep.rate else prep.rate
    pure (native, native.mul price, ((native.mul price).mul tomanPerUsd).toFixed 0)

/-- What an income or an expense moves. -/
def flowAmounts (asset : Uuid) : Sql (Decimal × Decimal × Decimal) := do
  match positive (if form.type = .income then form.nativeAmount else none) with
  | some native =>
    let (qty, usd, toman) ← nativeIncome env prep asset native
    Tx.require (0 < usd) .incomeNotPositive
    pure (qty, usd, toman)
  | none =>
    let price ← nativeUnitPriceUsd asset env.currentUser
    pure (prep.usd.div price, prep.usd, prep.toman)

def flowCmd (cash categoryAccountId asset : Uuid) (qty usd : Decimal) : FlowCmd :=
  { source := form.source, reference := form.reference, entryDate := form.entryDate
    description := form.description, cashAccountId := cash, categoryAccountId
    assetId := asset, quantity := qty, baseValue := usd
    categoryId := form.category.map (·.id), userId := env.currentUser
    idempotencyKey := form.idempotencyKey }

/-- An income or an expense in cash. -/
def bookFlow (categoryAccountId : Uuid) : Sql Booked := do
  match form.primaryAccountId with
  | none => .fail .sourceAccountMissing
  | some cash =>
    let asset ← accountAsset cash
    let (qty, usd, toman) ← flowAmounts env form prep asset
    let cmd := flowCmd env form cash categoryAccountId asset qty usd
    let entry ← if form.type = .income then recordIncome env cmd else recordExpense env cmd
    pure ⟨entry, toman⟩

def bookIncomeOrExpense : Sql Booked :=
  match prep.categoryAccountId <|> (if form.type = .income then form.counterAccountId else none) with
  | none => .fail (if form.type = .expense then .expenseAccountUnavailable
      else .counterAccountMissing)
  | some categoryAccountId =>
    match form.category.filter (·.nonCash) with
    | some category => bookNonCash env form prep category.id categoryAccountId
    | none => bookFlow env form prep categoryAccountId

def formCollectionMissing : String :=
  "این طلب حساب دریافتنی جداگانه ندارد و سرفصل «دریافت مطالبات» هم ساخته نشد؛ در «تنظیمات ← حساب‌ها» یک حساب درآمد بسازید."
def formRepaymentMissing : String :=
  "این بدهی حساب بدهی جداگانه ندارد و سرفصل «پرداخت اقساط» هم ساخته نشد؛ در «تنظیمات ← حساب‌ها» یک حساب هزینه بسازید."

def formBucket (direction : Option String) : Sql (Option Account) :=
  if isReceivable direction then ensureReceivableCollectionAccount env env.currentUser
  else ensureInstallmentPaymentAccount env env.currentUser

/-- The counter-account of a settlement of a debt without an account of its own. Nothing
the request says counts for a receivable. -/
def repaymentContra (direction : Option String) : Sql Uuid := do
  let chosen := if isReceivable direction then none else form.counterAccountId
  match chosen with
  | some a => pure a
  | none =>
    match ← formBucket env direction with
    | some a => pure a.id
    | none => .fail (.contraMissing
        (if isReceivable direction then formCollectionMissing else formRepaymentMissing))

/-- The counter-leg of a settlement: on the debt's account in its own unit, else in cash. -/
def repaymentContraLeg (cashAsset : Uuid) (qty : Decimal) : Sql DraftPosting := do
  let direction := prep.debt.map (·.direction)
  let sign := settlementSign direction
  match prep.debt.bind (·.accountId) with
  | some account =>
    let debtAsset ← accountAsset account
    let debtPrice ← nativeUnitPriceUsd debtAsset env.currentUser
    pure { accountId := account, assetId := debtAsset
           quantity := -sign • prep.usd.div debtPrice, baseValue := -sign • prep.usd }
  | none =>
    let contra ← repaymentContra env form direction
    pure { accountId := contra, assetId := cashAsset, quantity := -sign • qty
           baseValue := -sign • prep.usd }

def repaymentInput (cash cashAsset : Uuid) (qty : Decimal) (contra : DraftPosting) :
    PostEntryInput :=
  let sign := settlementSign (prep.debt.map (·.direction))
  { entryDate := form.entryDate, type := .debtRepayment, description := form.description
    userId := env.currentUser, idempotencyKey := form.idempotencyKey
    postings := [
      { accountId := cash, assetId := cashAsset, quantity := sign • qty
        baseValue := sign • prep.usd }, contra] }

/-- A settlement of an obligation. Its direction is that of the debt. -/
def bookRepayment : Sql Booked := do
  match form.primaryAccountId with
  | none => .fail .sourceAccountMissing
  | some cash =>
    let cashAsset ← accountAsset cash
    let price ← nativeUnitPriceUsd cashAsset env.currentUser
    let qty := prep.usd.div price
    let contra ← repaymentContraLeg env form prep cashAsset qty
    let entry ← postEntry env (repaymentInput env form prep cash cashAsset qty contra)
    pure ⟨entry, prep.toman⟩

/-! ### Transfers -/

def NOT_A_SOURCE : String := "حساب مبدأ انتقال نامعتبر است (باید حساب دارایی باشد)"
def NOT_A_DESTINATION : String := "حساب مقصد انتقال نامعتبر است (باید حساب دارایی باشد)"

def assertAssetAccount (accountId : Uuid) (text : String) : Sql Unit := do
  let row ← Tx.read (·.findAccount accountId)
  Tx.require (∃ a ∈ row, a.type = .asset) (.failure text)

/-- The fee of a conversion, in the unit of the account it leaves. -/
def transferFeeNative (sourceUnit : String) (fromQuantity : Decimal) : Option Decimal :=
  (positive form.fee).map fun raw =>
    if sourceUnit = "IRT" then raw
    else if sourceUnit = "IRR" then if form.feeNative then raw else raw.mul (.ofInt 10)
    else if form.feeNative then raw else raw.div (prep.toman.div fromQuantity)

def fxTransferCmd (source dest sourceAsset destAsset : Uuid) (legs : FxLegs)
    (fee : Option Decimal) (feeAccountId : Option Uuid) : FxCmd :=
  { entryDate := form.entryDate, description := form.description
    fromAccountId := source, toAccountId := dest, fromAssetId := sourceAsset
    toAssetId := destAsset, fromQuantity := legs.fromQuantity, toQuantity := legs.toQuantity
    bookValue := legs.bookValue, rateIrtPerUsd := some prep.rate
    feeBase := fee.elim 0 fun f => (f.mul legs.bookValue).div legs.fromQuantity
    feeQuantity := fee, feePaidBy := some .fromAccount, feeAccountId
    userId := env.currentUser, idempotencyKey := form.idempotencyKey, preventOverdraft := true }

/-- A transfer between accounts of different units. -/
def bookFxTransfer (source dest sourceAsset destAsset : Uuid) : Sql Booked := do
  let fromSymbol ← Tx.read (·.unitOf sourceAsset)
  let toSymbol ← Tx.read (·.unitOf destAsset)
  let legs ← Tx.ofExcept (resolveFxBookLegs
    { fromSymbol, toSymbol, rateIrtPerUsd := prep.rate, irtAmount := some prep.toman })
  let fee := transferFeeNative form prep fromSymbol legs.fromQuantity
  let feeAccount ← ensureFeeExpenseAccount env env.currentUser
  let entry ← recordFx env
    (fxTransferCmd env form prep source dest sourceAsset destAsset legs fee (feeAccount.map (·.id)))
  pure ⟨entry, prep.toman⟩

/-- Toman moves by exactly the Toman typed. -/
def transferQuantity (sourceUnit : String) (price : Decimal) : Decimal :=
  if sourceUnit = "IRT" then prep.toman
  else if sourceUnit = "IRR" then prep.toman.mul (.ofInt 10)
  else (positive form.quantity).getD (prep.usd.div price)

def NOT_ENOUGH : String := "موجودی حساب مبدأ کافی نیست."
def NOT_ENOUGH_FEE : String := "موجودی حساب مبدأ برای این مبلغ و کارمزد کافی نیست."

/-- What an account holds, whatever the asset. -/
def Db.heldQuantity (db : Db) (userId : Option Uuid) (accountId : Uuid) : Decimal :=
  (((db.livePostings userId).filter (·.accountId = accountId)).map (·.quantity)).sum

def transferCmd (source dest asset : Uuid) (qty feeQty bookUnit : Decimal)
    (feeAccountId : Option Uuid) : TransferCmd :=
  { source := form.source, reference := form.reference, entryDate := form.entryDate
    description := form.description, fromAccountId := source, toAccountId := dest
    assetId := asset, quantity := qty, unitPrice := some bookUnit
    feeBase := feeQty.mul bookUnit, feeAccountId
    userId := env.currentUser, idempotencyKey := form.idempotencyKey, preventOverdraft := true }

/-- A transfer within one unit moves money at its book cost. -/
def bookPlainTransfer (source dest asset : Uuid) : Sql Booked := do
  let price ← nativeUnitPriceUsd asset env.currentUser
  let sourceUnit ← Tx.read (·.unitOf asset)
  let qty := transferQuantity form prep sourceUnit price
  let feeQty := if 0 < prep.feeUsd then prep.feeUsd.div price else 0
  let (held, heldBase) ← Tx.read fun db =>
    (db.heldQuantity env.currentUser source, db.bookBalance env.currentUser source)
  Tx.require (qty + feeQty ≤ held) (.failure (if 0 < feeQty then NOT_ENOUGH_FEE else NOT_ENOUGH))
  let bookUnit := if 0 < held ∧ 0 < heldBase then heldBase.div held else price
  let feeAccount ← ensureFeeExpenseAccount env env.currentUser
  let entry ← recordTransfer env
    (transferCmd env form source dest asset qty feeQty bookUnit (feeAccount.map (·.id)))
  pure ⟨entry, prep.toman⟩

def bookTransfer : Sql Booked :=
  match form.primaryAccountId, form.counterAccountId with
  | none, _ => .fail .sourceAccountMissing
  | some _, none => .fail .counterAccountMissing
  | some source, some dest => do
    assertAssetAccount source NOT_A_SOURCE
    assertAssetAccount dest NOT_A_DESTINATION
    refuse (← Tx.read fun db => rules.transferError db source dest)
    let asset ← accountAsset source
    let destAsset ← accountAsset dest
    if asset = destAsset then bookPlainTransfer env form prep source dest asset
    else bookFxTransfer env form prep source dest asset destAsset

/-! ### Trades -/

/-- A trade, once its accounts, amounts and fee are known. -/
structure Trade where
  asset : Account
  cash : Account
  assetId : Uuid
  cashAssetId : Uuid
  quantity : Decimal
  /-- What leaves or reaches the settlement account, in its own unit. -/
  settleNative : Decimal
  usd : Decimal
  toman : Decimal
  feeNative : Option Decimal
  feeAccountId : Option Uuid

/-- The fee reaches the book at the trade's own rate. -/
def Trade.feeUsd (t : Trade) (book : Decimal) : Decimal :=
  t.feeNative.elim 0 fun f => (f.mul book).div t.settleNative

/-- Why the units of a trade do not go together. -/
def tradePairError (type : TxType) (assetSymbol cashSymbol : String) : Option String :=
  if sym assetSymbol = "" then some "دارایی معامله مشخص نیست."
  else if sym assetSymbol ∈ TOMAN_SYMBOLS then
    some "تومان دارایی قابل خرید یا فروش نیست؛ برای جابه‌جایی پول از «انتقال» استفاده کنید."
  else if settlementUnitOf cashSymbol = none then
    some (if type = .buy then
      "پرداخت فقط از حساب تومانی یا کیف پول استیبل‌کوین انجام می‌شود."
      else "وجه فروش فقط به حساب تومانی یا کیف پول استیبل‌کوین واریز می‌شود.")
  else if sym cashSymbol = sym assetSymbol then
    some "دارایی و حساب پرداخت/دریافت نمی‌توانند یکی باشند."
  else none

/-- The account the bought asset is held in, made on first use. -/
def placedHoldingAccount (placed : Account) : Sql Account := do
  match ← Tx.read (·.findAccount placed.id) with
  | some a => pure a
  | none =>
    Tx.insert (fun _ => .account placed.id :: (placed.userId.map (.accountCode · placed.code)).toList)
      (fun db => ¬ db.CodeTaken placed.userId placed.code ∧ ∀ b ∈ db.accounts, b.id ≠ placed.id)
      (fun _ => [.insertAccount placed]) (.constraintViolation "accounts")
    pure placed

def NOT_AN_ASSET : String := "حساب دارایی نامعتبر است (باید حساب دارایی باشد)"
def NOT_CASH : String := "حساب واریز/پرداخت نقدی نامعتبر است (باید حساب نقد/بانک باشد)"
def NOT_PLACED : String := "حساب دارایی در محل خرید ایجاد نشد"

/-- An asset account with its unit. -/
def loadTradeAccount (accountId : Uuid) (text : String) : Sql (Account × Uuid) := do
  match ← Tx.read (·.findAccount accountId) with
  | none => .fail (.failure text)
  | some a =>
    match a.assetId with
    | none => .fail (.failure text)
    | some asset =>
      Tx.require (a.type = .asset) (.failure text)
      pure (a, asset)

/-- The two accounts of a trade, under the rules. -/
def tradeAccounts (primary counter : Uuid) : Sql ((Account × Uuid) × Account × Uuid) := do
  let asset ← loadTradeAccount primary NOT_AN_ASSET
  let cash ← loadTradeAccount counter NOT_CASH
  refuse (← Tx.read fun db => tradePairError form.type (db.symbolOf asset.2) (db.symbolOf cash.2))
  refuse (← Tx.read fun db => rules.tradeError db form.type asset.1 cash.1)
  match ← Tx.read fun db => if form.type = .buy then rules.heldAt db asset.1 cash.1 else none with
  | none => pure (asset, cash)
  | some place =>
    let placed ← placedHoldingAccount place
    match placed.assetId with
    | none => .fail (.failure NOT_PLACED)
    | some a => pure ((placed, a), cash)

/-- What leaves or reaches the settlement account, as it is typed, with its dollars and
its Toman. -/
def settleAmounts (cashAsset : Uuid) (cashSymbol : String) : Sql (Decimal × Decimal × Decimal) := do
  let quote ← Tx.read (·.usdtQuote)
  let usdtToman := if prep.dated then prep.rate else quote.getD prep.rate
  if settlementUnitOf cashSymbol = some .toman then
    let settleQty := (positive form.settleQuantity).getD prep.toman
    Tx.require (0 < settleQty) (.failure "مبلغ معامله باید بزرگ‌تر از صفر باشد")
    pure (settleQty, (settleQty.toFixed 0).div prep.rate, settleQty.toFixed 0)
  else
    let unit ← nativeUnitPriceUsd cashAsset env.currentUser
    let settleQty := (positive form.settleQuantity).getD (prep.usd.div unit)
    Tx.require (0 < settleQty) (.failure "مبلغ معامله باید بزرگ‌تر از صفر باشد")
    pure (settleQty, settleQty.mul unit, (settleQty.mul usdtToman).toFixed 0)

/-- The fee moves the settlement account by exactly what is typed, in its own unit. -/
def tradeFeeNative (cashSymbol : String) (settleQty toman : Decimal) : Option Decimal :=
  (positive form.fee).map fun raw =>
    if settlementUnitOf cashSymbol = some .toman then
      if cashSymbol = "IRR" ∧ !form.feeNative then raw.mul (.ofInt 10) else raw
    else if form.feeNative then raw else raw.div (toman.div settleQty)

/-- What the asset account holds, of all users. -/
def assertHeld (accountId : Uuid) (qty : Decimal) : Sql Unit := do
  let held ← Tx.read (·.heldQuantity none accountId)
  Tx.require (qty ≤ held) (.failure ("مقدار فروش از موجودی شما بیشتر است (موجودی: " ++
    String.ofList held.toText ++ ")."))

/-- All the checks of a trade. -/
def resolveTrade (primary counter : Uuid) : Sql Trade := do
  let ((asset, assetId), cash, cashAssetId) ← tradeAccounts rules form primary counter
  match positive form.quantity with
  | none => .fail (.failure "مقدار دارایی را وارد کنید")
  | some quantity =>
    let cashSymbol ← Tx.read (·.unitOf cashAssetId)
    let (settleQty, usd, toman) ← settleAmounts env form prep cashAssetId cashSymbol
    let settleNative := if cashSymbol = "IRR" then settleQty.mul (.ofInt 10) else settleQty
    let feeNative := tradeFeeNative form cashSymbol settleQty toman
    Tx.require (form.type = .sell → ∀ f ∈ feeNative, f < settleNative)
      (.failure "کارمزد باید کمتر از مبلغ فروش باشد")
    Tx.when (form.type = .sell) (assertHeld asset.id quantity)
    let feeAccount ← ensureFeeExpenseAccount env env.currentUser
    pure { asset, cash, assetId, cashAssetId, quantity, settleNative, usd, toman, feeNative
           feeAccountId := feeAccount.map (·.id) }

def conversionCmd (t : Trade) (book : Decimal) : FxCmd :=
  let selling := form.type = .sell
  { entryDate := form.entryDate, description := form.description
    fromAccountId := if selling then t.asset.id else t.cash.id
    toAccountId := if selling then t.cash.id else t.asset.id
    fromAssetId := if selling then t.assetId else t.cashAssetId
    toAssetId := if selling then t.cashAssetId else t.assetId
    fromQuantity := if selling then t.quantity else t.settleNative
    toQuantity := if selling then t.settleNative else t.quantity
    bookValue := book, feeBase := t.feeUsd book, feeAccountId := t.feeAccountId
    feeQuantity := t.feeNative
    feePaidBy := some (if selling then .toAccount else .fromAccount)
    userId := env.currentUser, idempotencyKey := form.idempotencyKey, preventOverdraft := true }

/-- A stablecoin against Toman or another stablecoin: money changes its form. -/
def bookConversion (t : Trade) : Sql Booked := do
  let unit ← nativeUnitPriceUsd t.assetId env.currentUser
  let entry ← recordFx env (conversionCmd env form t (t.quantity.mul unit))
  pure ⟨entry, t.toman⟩

def Trade.cmd (t : Trade) : TradeCmd :=
  { entryDate := form.entryDate, description := form.description
    assetAccountId := t.asset.id, cashAccountId := t.cash.id, assetId := t.assetId
    quantity := t.quantity, cashAssetId := t.cashAssetId, cashQuantity := t.settleNative
    baseValue := t.usd, feeBase := t.feeUsd t.usd, feeAccountId := t.feeAccountId
    userId := env.currentUser, idempotencyKey := form.idempotencyKey }

def bookTrade : Sql Booked :=
  match form.primaryAccountId, form.counterAccountId with
  | none, _ => .fail (.failure "دارایی را انتخاب کنید")
  | some _, none => .fail (.failure "حساب پرداخت یا دریافت را انتخاب کنید")
  | some primary, some counter => do
    let t ← resolveTrade rules env form prep primary counter
    let route ← Tx.read fun db => tradeRouteFor (db.symbolOf t.assetId)
    match route with
    | .conversion => bookConversion env form t
    | .trade =>
      if form.type = .buy then
        let entry ← recordBuy env { t.cmd env form with preventOverdraft := true }
        pure ⟨entry, t.toman⟩
      else
        match ← ensureRealizedPnlAccount env env.currentUser with
        | none => .fail (.failure "حساب سود سرمایه‌ای (۴۱۰۰) تعریف نشده است")
        | some pnl =>
          let entry ← recordSell env { t.cmd env form with pnlAccountId := some pnl.id }
          pure ⟨entry, t.toman⟩

/-! ## The transaction -/

/-- The entry of the request's type. -/
def bookEntry : Sql Booked :=
  match form.type with
  | .income | .expense => bookIncomeOrExpense env form prep
  | .debtRepayment => bookRepayment env form prep
  | .transfer => bookTransfer rules env form prep
  | .buy | .sell => bookTrade rules env form prep

/-- The account whose money the request moves. -/
def TxForm.cashAccountId : Option Uuid :=
  match form.type with
  | .buy | .sell => form.counterAccountId
  | .expense | .income => if form.category.any (·.nonCash) then none else form.primaryAccountId
  | .debtRepayment | .transfer => form.primaryAccountId

/-- Settle the linked installment by the Toman of the entry. The row is overwritten with
what follows from the row that was read before the transaction. -/
def settleLinked (inst : Installment) (booked : Booked) : Sql Unit := do
  let snapshot ← Tx.ofExcept (calculateInstallmentPayment booked.toman prep.rate)
  let contractual ← Tx.ofExcept (contractualToman inst prep.rate)
  let next ← Tx.ofExcept (applyPartialPayment (inst.balanceRow contractual) snapshot.paidToman)
  let columns : SettledColumns :=
    { status := next.status, paidAt := form.entryDate, paidEntryId := booked.entry.id
      paidToman := next.paidToman, paidFxRate := snapshot.paidFxRate, paidUsd := snapshot.paidUsd }
  Tx.writeExpecting (fun _ => [.installment inst.id])
    (fun a db => a = .installmentAsRead → ∀ r ∈ db.installments, r.id = inst.id → r = inst)
    fun _ => [.settleInstallment inst.id columns, .noteSettlement
      { installmentId := inst.id, entryId := booked.entry.id
        cashAccountId := form.cashAccountId, toman := snapshot.paidToman }]
  settleDebtIfPaid inst.debtId

/-- Freeze the entry, clear the cheque, settle the installment. -/
def linkEntry (booked : Booked) : Sql Unit := do
  insertFxSnapshot { entryId := booked.entry.id, fxRate := prep.rate }
  match form.chequeId, env.currentUser with
  | some cheque, some user => clearChequeInTx cheque user booked.entry.id form.type
  | _, _ => pure ()
  Tx.each prep.inst.toList fun inst => settleLinked form prep inst booked

def recordTransaction : Sql PostResult := do
  let booked ← bookEntry rules env form prep
  linkEntry env form prep booked
  pure booked.entry

end Book

/-! ## A request -/

/-- A request, with what the world supplies when it is made. -/
structure TxCall where
  rules : TxRules := {}
  env : Env
  form : TxForm

def TxCall.prepare (c : TxCall) : Sql Prepared := prepareTransaction c.rules c.env c.form

def TxCall.record (c : TxCall) (prep : Prepared) : Sql PostResult :=
  recordTransaction c.rules c.env c.form prep

/-- Answer a request when nobody else is about: the checks, then the transaction. -/
def TxCall.run (c : TxCall) (db : Db) : Except AppError (PostResult × Db) :=
  match c.prepare.run db with
  | .error e => .error e
  | .ok (prep, db') => (c.record prep).run db'

/-- The database after a request. What the checks provided stays. -/
def TxCall.exec (c : TxCall) (db : Db) : Db :=
  match c.prepare.run db with
  | .error _ => db
  | .ok (prep, db') => (c.record prep).exec db'

end Pwos
