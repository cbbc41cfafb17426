import Pwos.Setup.Opening
import Pwos.Rwa.Purchase

/-!
# The setup transaction

`completeSetup` of `features/setup/service.ts` for an existing user, up to its commit, with
`registerInstrument` of `features/funds/service.ts` and `registerWallexAsset`. Wallets, SMS
identifiers, categories and the audit row are left out; vehicles and properties come after.
-/

namespace Pwos

/-- The ids drawn for new rows: of accounts by code, of assets by symbol. -/
structure SetupIds where
  account : String → Uuid
  asset : String → Uuid

/-- What one row of the wizard puts into the opening entry. -/
structure OpeningLine where
  posting : DraftPosting
  lot : Option LotInput := none
  deriving DecidableEq, Repr

/-- A loop that collects what its rounds give. -/
def gather {α β : Type} (xs : List α) (f : α → Sql (Option β)) : Sql (List β) :=
  match xs with
  | [] => pure []
  | x :: xs => do
    let found ← f x
    let rest ← gather xs f
    pure (found.toList ++ rest)

/-! ## Shared assets -/

/-- `Object.fromEntries` over the assets: of two with one symbol the later one counts. -/
def Db.assetNamed (db : Db) (symbol : String) : Option Asset :=
  db.assets.reverse.find? (·.symbol = symbol)

def Db.assetMap (db : Db) (symbol : String) : Option Uuid := (db.assetNamed symbol).map (·.id)

/-- A live asset of the symbol exists. -/
def Db.SymbolTaken (db : Db) (symbol : String) : Prop :=
  ∃ a ∈ db.assets, a.symbol = symbol ∧ a.deleted = false

instance (db : Db) (symbol : String) : Decidable (db.SymbolTaken symbol) :=
  inferInstanceAs (Decidable (∃ a ∈ db.assets, a.symbol = symbol ∧ a.deleted = false))

/-- A row of `insert into assets … on conflict do nothing`. -/
def insertRequiredAsset (rules : SetupRules) (ids : SetupIds) (row : String × String) : Sql Unit :=
  Tx.write (fun _ => [.asset (ids.asset row.1)]) fun db =>
    if db.SymbolTaken row.1 ∨ rules.coingeckoTaken row.1 ∨ ∃ a ∈ db.assets, a.id = ids.asset row.1
    then [] else [.insertAsset { id := ids.asset row.1, symbol := row.1, classCode := row.2 }]

/-- `update assets set is_active = true, deleted_at = null where symbol = …`: two live assets of
one symbol violate the index. -/
def reviveSymbol (symbol : String) : Sql Unit :=
  Tx.insert (fun db => (db.assets.filter (·.symbol = symbol)).map fun a => .asset a.id)
    (fun db => (db.assets.filter (·.symbol = symbol)).length ≤ 1)
    (fun db => (db.assets.filter (·.symbol = symbol)).map fun a => .restoreAsset a.id)
    (.constraintViolation "assets")

/-- The same for one row. -/
def reviveAsset (asset : Asset) : Sql Unit :=
  Tx.insert (fun _ => [.asset asset.id])
    (fun db => ∀ a ∈ db.assets, a.symbol = asset.symbol → a.deleted = false → a.id = asset.id)
    (fun _ => [.restoreAsset asset.id]) (.constraintViolation "assets")

def insertNewAsset (asset : Asset) : Sql Unit :=
  Tx.insert (fun _ => [.asset asset.id])
    (fun db => ¬ db.SymbolTaken asset.symbol ∧ ∀ a ∈ db.assets, a.id ≠ asset.id)
    (fun _ => [.insertAsset asset]) (.constraintViolation "assets")

/-! ## Instruments -/

structure RegisteredInstrument where
  assetId : Uuid
  name : String
  accountId : Option Uuid
  deriving DecidableEq, Repr

/-- An asset account of the user that holds the asset. -/
def Db.accountHolding (db : Db) (userId assetId : Uuid) : Option Account :=
  db.accounts.find? fun a =>
    a.assetId = some assetId ∧ a.type = .asset ∧ a.userId = some userId

/-- `INS-` and the digits of the asset's id. -/
def SetupRules.instrumentCode (rules : SetupRules) (assetId : Uuid) : String :=
  "INS-" ++ rules.idDigits assetId

section Register
variable (rules : SetupRules) (env : Env) (ids : SetupIds) (userId : Uuid)

/-- The account the asset is held on, opened under `code` if there is none. -/
def ensureHoldingAccount (code name : String) (assetId : Uuid) : Sql (Option Account) := do
  let existing ← Tx.read (·.accountHolding userId assetId)
  match existing with
  | some account => pure (some account)
  | none =>
    let created ← insertAccountOnConflictDoNothing
      { id := ids.account code, createdAt := env.now, userId := some userId, code, name
        type := .asset, assetId := some assetId }
    match created with
    | some account => pure (some account)
    | none => Tx.read (·.accountHolding userId assetId)

def ensureInstrumentAccount (assetId : Uuid) (name symbol : String) : Sql (Option Uuid) := do
  let account ← ensureHoldingAccount env ids userId (rules.instrumentCode assetId)
    (name ++ " (" ++ symbol ++ ")") assetId
  pure (account.map (·.id))

/-- Of a fund or a share. A removed one is revived. -/
def registerInstrument (kind : InstrumentKind) (symbol : String) (name : Option String) :
    Sql RegisteredInstrument := do
  let name := rules.nameOf symbol name
  let existing ← Tx.read fun db => db.assets.find? (·.symbol = symbol)
  match existing with
  | some asset =>
    reviveAsset asset
    let accountId ← ensureInstrumentAccount rules env ids userId asset.id name symbol
    pure ⟨asset.id, name, accountId⟩
  | none =>
    insertNewAsset { id := ids.asset symbol, symbol, classCode := rules.instrumentClass kind }
    let accountId ← ensureInstrumentAccount rules env ids userId (ids.asset symbol) name symbol
    pure ⟨ids.asset symbol, name, accountId⟩

/-- `WLX-` and the symbol, in the characters of codes. -/
def wallexCode (symbol : String) : String :=
  String.ofList ((("WLX-" ++ symbol).toList.map fun c =>
    let u := c.toUpper
    if u.isUpper || u.isDigit || u = '-' then u else '-').take 48)

/-- The asset of the symbol, revived or inserted. -/
def ensureWallexAsset (symbol : String) : Sql Uuid := do
  let existing ← Tx.read fun db => db.assets.find? (·.symbol = symbol)
  match existing with
  | some asset => do
    reviveAsset asset
    pure asset.id
  | none => do
    let classCode ← Tx.ofExcept
      (orComplain (rules.wallexClass symbol) "شناسه معتبر رمزارز یافت نشد.")
    insertNewAsset { id := ids.asset symbol, symbol, classCode }
    pure (ids.asset symbol)

def registerWallexAsset (symbol : String) : Sql RegisteredInstrument := do
  let symbol := upper (trimText symbol)
  let name := rules.nameOf symbol none
  let entry ← Tx.read fun db => db.wallexAssetCatalog.find? (·.symbol = symbol)
  Tx.require (entry.isSome = true) (.failure ("«" ++ symbol ++ "» در کاتالوگ والکس یافت نشد."))
  let assetId ← ensureWallexAsset rules ids symbol
  let account ← ensureHoldingAccount env ids userId (wallexCode symbol)
    (name ++ " (" ++ symbol ++ ")") assetId
  match account with
  | some account => pure ⟨assetId, name, some account.id⟩
  | none => .fail (.failure "ایجاد حساب دارایی ناموفق بود.")

/-- An instrument of the wizard, by its kind. -/
def registerSetupInstrument (instrument : SetupInstrument) : Sql RegisteredInstrument :=
  match instrument.kind with
  | .wallex => registerWallexAsset rules env ids userId (trimText instrument.symbol)
  | kind => registerInstrument rules env ids userId kind (trimText instrument.symbol) instrument.name

end Register

/-! ## The chart -/

section Chart
variable (rules : SetupRules) (env : Env) (ids : SetupIds) (userId : Uuid)

def Db.accountCoded (db : Db) (userId : Uuid) (code : String) : Option Account :=
  db.accounts.find? fun a => a.userId = some userId ∧ a.code = code

/-- A row the user has not got yet. A duplicate that appears meanwhile is no error. -/
def fillChartRow (assetMap : String → Option Uuid) (row : ChartRow) : Sql Unit := do
  let code := toString row.code
  let existing ← Tx.read (·.accountCoded userId code)
  match existing with
  | some _ => pure ()
  | none =>
    let created ← insertAccountOnConflictDoNothing
      { id := ids.account code, createdAt := env.now, userId := some userId, code
        name := row.name, type := row.type, assetId := row.unit.bind assetMap }
    match created with
    | some _ => pure ()
    | none => do
      let now ← Tx.read (·.accountCoded userId code)
      Tx.require (now.isSome = true) (.constraintViolation "accounts")

/-- The accounts of the chart, new and old. -/
def Db.chartAccounts (db : Db) (userId : Uuid) (rows : List ChartRow) : List Account :=
  db.accounts.filter fun a => a.userId = some userId ∧ a.code ∈ rows.map fun r => toString r.code

/-- `acctMap`. -/
def accountAt (accounts : List Account) (code : Nat) : Option Uuid :=
  (accounts.reverse.find? (·.code = toString code)).map (·.id)

/-- The banks of the list have the accounts they were declared with. -/
def checkListedBanks (assetMap : String → Option Uuid) (plan : SetupPlan) (accounts : List Account) :
    Except AppError Unit :=
  let declared (b : SetupBankAccount × Nat) : Bool :=
    (accounts.find? fun a => a.code = toString (1010 + b.2)).any fun a =>
      a.name = b.1.name &&
        a.assetId = assetMap (moneyUnit assetMap (bankUnitOf rules plan.input (some b.1.bankName)))
  if plan.listed.zipIdx.all declared then .ok ()
  else .error (.failure "حساب بانکی ثبت‌شده با فهرست معرفی‌شده مطابقت ندارد.")

def openChart (assetMap : String → Option Uuid) (plan : SetupPlan) : Sql (List Account) := do
  let rows := chartRows rules assetMap plan
  Tx.each rows (fillChartRow env ids userId assetMap)
  let accounts ← Tx.read (·.chartAccounts userId rows)
  Tx.ofExcept (checkListedBanks rules assetMap plan accounts)
  Tx.require ((accountAt accounts 3010).isSome = true ∧
      (plan.input.noBank = true ∨ (accountAt accounts 1010).isSome = true))
    (.failure "ایجاد نمودار حساب‌های اولیه کامل نشد.")
  pure accounts

end Chart

/-! ## The opening balances -/

/-- What an amount in the account's own unit is worth. -/
def bookUsdFromAccountNative (accountId : Uuid) (qty rate : Decimal) : Sql (Uuid × Decimal) := do
  let asset ← Tx.read fun db =>
    ((db.findAccount accountId).bind (·.assetId)).bind db.findAsset
  match asset.filter (·.symbol ≠ "") with
  | none => .fail (.failure "حساب انتخاب‌شده واحد بومی (assetId) ندارد.")
  | some asset =>
    if asset.symbol = "IRT" then do
      Tx.require (0 < rate) .rateInvalid
      pure (asset.id, qty.div rate)
    else pure (asset.id, qty)

/-- A balance of a money account. -/
def moneyLine (accountId : Option Uuid) (amount : Option Decimal) (rate : Decimal) (memo : String) :
    Sql (Option OpeningLine) := do
  let qty ← Tx.ofExcept (amountOf amount)
  if qty ≤ 0 then pure none
  else match accountId with
    | none => .fail (.failure "حساب انتخاب‌شده واحد بومی (assetId) ندارد.")
    | some accountId => do
      let (assetId, baseValue) ← bookUsdFromAccountNative accountId qty rate
      pure (some ⟨{ accountId, assetId, quantity := qty, baseValue, memo := some memo }, none⟩)

/-- A holding at its purchase price, with the lot it opens. -/
def holdingLine (accountId assetId : Uuid) (qty price rate : Decimal) (openedAt : Option OpenedAt)
    (memo : String) : OpeningLine :=
  { posting :=
      { accountId, assetId, quantity := qty, baseValue := qty.mul price, memo := some memo }
    lot := some
      { accountId, assetId, quantity := qty, costBase := qty.mul price, openedAt
        purchaseFxRate := some rate } }

/-- The rates of the days of purchase, and the rate of the setup. -/
structure SetupRates where
  dated : List (OpenedAt × Decimal)
  setup : Decimal

def SetupRates.on (rates : SetupRates) (date : Option OpenedAt) : Decimal :=
  match date with
  | none => rates.setup
  | some date => (rates.dated.lookup date).getD 0

section Lines
variable (rules : SetupRules) (env : Env) (ids : SetupIds) (userId : Uuid)
  (assetMap : String → Option Uuid) (accounts : List Account) (rates : SetupRates)

def extraBankLine (bank : SetupBankAccount × Nat) : Sql (Option OpeningLine) :=
  moneyLine (accountAt accounts (1011 + bank.2)) (some bank.1.balance) rates.setup
    ("موجودی اولیه " ++ bank.1.name)

def placeLine (pick : TomanPick) : Sql (Option OpeningLine) :=
  match accountAt accounts pick.code with
  | none => pure none
  | some accountId => moneyLine (some accountId) pick.balance rates.setup
      ("موجودی اولیه " ++ holdingAccountName rules "تومان" pick.walletName)

def cryptoLine (pick : CryptoPick) : Sql (Option OpeningLine) := do
  let qty ← Tx.ofExcept (amountOf pick.holding.quantity)
  match accountAt accounts pick.code, assetMap pick.coin.symbol with
  | some accountId, some assetId =>
    if qty ≤ 0 then pure none
    else do
      let rate := rates.on pick.holding.purchaseDate
      let unitPrice ← Tx.ofExcept (amountOf pick.holding.unitPrice)
      let price ← Tx.ofExcept (priceToBookUsd unitPrice pick.holding.priceCurrency rate)
      pure (some (holdingLine accountId assetId qty price rate pick.holding.purchaseDate
        ("موجودی اولیه " ++ pick.coin.displayName)))
  | _, _ => pure none

def goldLine (input : SetupInput) (goldPriceUsd : Decimal) : Sql (Option OpeningLine) := do
  let qty ← Tx.ofExcept (amountOf input.goldOpeningQty)
  if qty ≤ 0 then pure none
  else match accountAt accounts 1300, assetMap "GOLD18" with
    | some accountId, some assetId =>
      pure (some (holdingLine accountId assetId qty goldPriceUsd (rates.on input.goldPurchaseDate)
        input.goldPurchaseDate "موجودی اولیه طلای ۱۸ عیار"))
    | _, _ => .fail (.constraintViolation "postings")

/-- Registered first; without an account or a quantity there is no line. -/
def instrumentLine (instrument : SetupInstrument) : Sql (Option OpeningLine) :=
  if trimText instrument.symbol = "" then pure none
  else do
    let registered ← registerSetupInstrument rules env ids userId instrument
    match registered.accountId with
    | none => pure none
    | some accountId => do
      let qty ← Tx.ofExcept (amountOf instrument.quantity)
      if qty ≤ 0 then pure none
      else do
        let rate := if instrument.kind = .wallex then rates.on instrument.purchaseDate
          else rates.setup
        let unitPrice ← Tx.ofExcept (amountOf instrument.unitPrice)
        let price ← Tx.ofExcept (priceToBookUsd unitPrice instrument.priceCurrency rate)
        pure (some (holdingLine accountId registered.assetId qty price rate
          instrument.purchaseDate ("موجودی اولیه " ++ registered.name)))

/-- The price of gold in dollars, worked out whether there is gold or not. -/
def goldPrice (input : SetupInput) : Except AppError Decimal := do
  let unitPrice ← amountOf input.goldUnitPrice
  priceToBookUsd unitPrice input.goldPriceCurrency (rates.on input.goldPurchaseDate)

def openingLines (plan : SetupPlan) : Sql (List OpeningLine) := do
  let goldPriceUsd ← Tx.ofExcept (goldPrice rates plan.input)
  let bank ← moneyLine (accountAt accounts 1010) plan.input.bankOpeningBalance rates.setup
    "موجودی اولیه بانک"
  let extra ← gather (additionalBanks plan).zipIdx (extraBankLine accounts rates)
  let cash ← moneyLine (accountAt accounts 1020) plan.input.cashOpeningBalance rates.setup
    "موجودی اولیه نقد"
  let places ← gather plan.places (placeLine rules accounts rates)
  let crypto ← gather plan.crypto (cryptoLine assetMap accounts rates)
  let gold ← goldLine assetMap accounts rates plan.input goldPriceUsd
  let instruments ← gather plan.input.instruments (instrumentLine rules env ids userId rates)
  pure (bank.toList ++ extra ++ cash.toList ++ places ++ crypto ++ gold.toList ++ instruments)

/-- Against the opening equity, in dollars. -/
def equityPosting (accountId assetId : Uuid) (lines : List OpeningLine) : DraftPosting :=
  { accountId, assetId
    quantity := -(lines.map (·.posting.baseValue)).sum
    baseValue := -(lines.map (·.posting.baseValue)).sum
    memo := some "موازنه سرمایه افتتاحیه" }

def openingEntry (lines : List OpeningLine) (equity : DraftPosting) : PostEntryInput :=
  { entryDate := env.today, type := .opening
    description := "افتتاحیه — ثبت موجودی اولیه حساب‌ها"
    userId := some userId, postings := lines.map (·.posting) ++ [equity]
    openLots := some (lines.filterMap (·.lot)) }

/-- The rate is frozen on the entry, once. -/
def freezeSetupRate (entryId : Uuid) (lines : List OpeningLine) : Sql Unit :=
  let total := (lines.map (·.posting.baseValue)).sum
  Tx.write (fun _ => [.fxSnapshot entryId]) fun db =>
    if ∃ f ∈ db.entryFxSnapshots, f.entryId = entryId then []
    else [.insertFxSnapshot
      { entryId, fxRate := rates.setup
        amounts := some ⟨(total.mul rates.setup).toFixed 0, total, env.today⟩ }]

def postOpening (lines : List OpeningLine) : Sql Unit :=
  match accountAt accounts 3010 with
  | none => .fail (.constraintViolation "postings")
  | some equityId => do
    let equity ← Tx.read (·.findAccount equityId)
    match (equity.bind (·.assetId)).or (assetMap "USD") with
    | none => .fail (.constraintViolation "postings")
    | some assetId => do
      let opening ← postEntry env (openingEntry env userId lines (equityPosting equityId assetId lines))
      Tx.when (0 < rates.setup) (freezeSetupRate env rates opening.id lines)

end Lines

/-! ## The setup -/

section Setup
variable (rules : SetupRules) (env : Env) (ids : SetupIds) (userId : Uuid)

/-- `getSetupState`: the row of the user that is completed counts first. -/
def Db.setupCompleted (db : Db) (userId : Uuid) : Prop :=
  ∃ s ∈ db.userSetupState, s.userId = userId ∧ s.completed = true

instance (db : Db) (userId : Uuid) : Decidable (db.setupCompleted userId) :=
  inferInstanceAs (Decidable (∃ s ∈ db.userSetupState, s.userId = userId ∧ s.completed = true))

/-- The days whose rates are looked up. -/
def SetupInput.purchaseDates (input : SetupInput) : List OpenedAt :=
  (input.cryptoHoldings.filterMap (·.purchaseDate) ++
    (input.instruments.filter (·.kind = .wallex)).filterMap (·.purchaseDate) ++
    input.goldPurchaseDate.toList).dedup

def datedRate (input : SetupInput) (date : OpenedAt) : Sql (Option (OpenedAt × Decimal)) :=
  match date with
  | .malformed => .fail (.failure "تاریخ خرید معتبر و غیرآینده الزامی است.")
  | .day d =>
    match (confirmedRateOf input.fxRate).filter fun _ => d = env.today with
    | some rate => pure (some (.day d, rate))
    | none => do
      let resolved ← resolveAutomaticPurchaseRate rules.history env d (some userId)
      pure (some (.day d, resolved.rate))

/-- One rate for the whole setup: the confirmed one, else the user's latest. -/
def resolveSetupRate (input : SetupInput) : Sql Decimal := do
  let latest ← getLatestUsdIrtRateForUser (some userId)
  match confirmedRateOf input.fxRate with
  | some rate => pure rate
  | none => do
    Tx.require (¬ latest.isPlaceholder) .rateMissing
    pure ((confirmedRateOf (some latest.rate)).getD 0)

/-- The checks and look-ups before the transaction. -/
def prepareSetup (input : SetupInput) :
    Sql (SetupInput × List SetupBankAccount × List (OpenedAt × Decimal)) := do
  let (input, listed) ← Tx.ofExcept (resolveBanks rules input)
  let completed ← Tx.read fun db => decide (db.setupCompleted userId)
  Tx.require (completed = false) (.failure "راه‌اندازی اولیه قبلاً انجام شده است.")
  let dated ← gather input.purchaseDates (datedRate rules env userId input)
  pure (input, listed, dated)

/-- The transaction. `workflow` says that more steps follow. -/
def runSetup (workflow : Bool) (input : SetupInput) (listed : List SetupBankAccount)
    (dated : List (OpenedAt × Decimal)) : Sql Unit := do
  Tx.each (requiredAssets rules) (insertRequiredAsset rules ids)
  Tx.each ["USDT", "BTC", "ETH"] reviveSymbol
  let assetMap ← Tx.read (·.assetMap)
  let found ← Tx.lock (fun _ => [.user userId]) fun db => decide (userId ∈ db.users)
  Tx.require (found = true) (.failure "کاربر راه‌اندازی یافت نشد.")
  let setup ← resolveSetupRate userId input
  let rates : SetupRates := ⟨dated, setup⟩
  let plan ← Tx.ofExcept (setupPlan rules assetMap input listed)
  let accounts ← openChart rules env ids userId assetMap plan
  let lines ← openingLines rules env ids userId assetMap accounts rates plan
  Tx.when (lines ≠ []) (postOpening env userId assetMap accounts rates lines)
  Tx.writeExpecting (fun _ => [])
    (fun a db => a = .setupIncomplete → ¬ db.setupCompleted userId)
    (fun _ => [.insertSetupState ⟨userId, !workflow, 9, env.now⟩])

def completeSetup (workflow : Bool) (input : SetupInput) : Sql Unit := do
  let (input, listed, dated) ← prepareSetup rules env userId input
  runSetup rules env ids userId workflow input listed dated

end Setup

end Pwos
