import Pwos.Ledger.RegistryDisposal
import Pwos.Planning.Insurance
import Pwos.Rwa.UsdRate

/-!
# Sales of the registries

`sellVehicle` of `features/rwa/vehicle/service.ts` and `sellRealEstateAsset` of
`features/rwa/realEstate/service.ts`. What comes before the transaction of a sale only reads.
-/

namespace Pwos

/-! ## What both sales share -/

/-- The accounts a caller with this identity sees. -/
def Account.InScope (userId : Option Uuid) (a : Account) : Prop :=
  userId = none ∨ a.userId = userId ∨ a.userId = none

instance (userId : Option Uuid) (a : Account) : Decidable (a.InScope userId) :=
  inferInstanceAs (Decidable (_ ∨ _ ∨ _))

/-- Where the proceeds go: an asset account in scope, with its unit. -/
structure PayoutAccount where
  id : Uuid
  assetId : Uuid
  deriving DecidableEq, Repr

def resolvePayoutAccount (accountId : Uuid) (userId : Option Uuid) : Sql (Option PayoutAccount) :=
  Tx.read fun db =>
    ((db.accounts.find? fun a => a.id = accountId ∧ a.InScope userId ∧ !a.deleted).filter
      (·.type = .asset)).bind fun a => a.assetId.map fun assetId => ⟨a.id, assetId⟩

/-- Dollars in the units of an account. -/
def cashUnits (usd unitPriceUsd : Decimal) : Decimal :=
  if 0 < unitPriceUsd then usd.div unitPriceUsd else usd

def RwaKind.label : RwaKind → String
  | .property => "ملک"
  | .vehicle => "خودرو"

def FA_DIGITS : List Char := ['۰', '۱', '۲', '۳', '۴', '۵', '۶', '۷', '۸', '۹']

def toFaDigits (digits : List Char) : List Char :=
  digits.map fun d => if d.isDigit then FA_DIGITS.getD (d.toNat - '0'.toNat) d else d

def buildRwaLabel (kind : RwaKind) (userSeq : Option Nat) : String :=
  match userSeq with
  | none => kind.label
  | some 0 => kind.label
  | some n => kind.label ++ " " ++ String.ofList (toFaDigits (Nat.toDigits 10 n))

/-! ## Vehicles -/

structure SellVehicleInput where
  vehicleId : Uuid
  saleDate : Option IsoDate
  salePriceToman : Decimal
  saleUsdRate : Option Decimal := none
  saleAccountId : Option Uuid := none
  userId : Option Uuid := none

def vehicleSaleKey (vehicleId : Uuid) : String :=
  "vehicle-sale:" ++ String.ofList (Nat.toDigits 10 vehicleId)

/-- `text.replace(/\s+/g, " ").trim()`. -/
def collapseBlanks (text : String) : String :=
  " ".intercalate (((text.toList.splitOnP Char.isWhitespace).filter (· ≠ [])).map String.ofList)

def VehicleAsset.saleDescription (v : VehicleAsset) : String :=
  collapseBlanks ("فروش خودرو " ++ v.brand ++ " " ++ v.model ++ " " ++
    String.ofList (Nat.toDigits 10 v.year))

/-- The caller's vehicle. Without an identity every vehicle is. -/
def ownVehicle (input : SellVehicleInput) : Sql VehicleAsset := do
  let row ← Tx.read (·.findVehicle input.vehicleId)
  let row ← Tx.ofExcept (orComplain row "خودرو یافت نشد.")
  Tx.require (input.userId = none ∨ row.userId = input.userId)
    (.failure "دسترسی غیرمجاز: این خودرو متعلق به شما نیست.")
  pure row

section SellVehicle
variable (history : IsoDate → Option DatedRate) (env : Env) (input : SellVehicleInput)

/-- The rate the caller gives, whatever it is, else that of the day. -/
def vehicleSaleRate (saleDate : IsoDate) : Sql Decimal :=
  match input.saleUsdRate with
  | some rate => pure rate
  | none => do
    let resolved ← resolveUsdRateForDateToFreeze history env saleDate input.userId
    pure resolved.rate

def SellVehicleInput.columns (saleDate : IsoDate) (rate : Decimal) : SaleColumns :=
  let price := input.salePriceToman.toFixed 0
  ⟨saleDate, price, rate, tomanToUsd price rate⟩

def vehiclePayout : Sql (Option PayoutAccount) :=
  match input.saleAccountId with
  | some a => resolvePayoutAccount a input.userId
  | none => pure none

/-- The update asks for the id alone. -/
def updateSold (vehicleId : Uuid) (columns : SaleColumns) : Sql Unit :=
  Tx.writeExpecting (fun _ => [.vehicle vehicleId])
    (fun a db => a = .vehicleUnsold →
      ∀ v ∈ db.vehicleAssets, v.id = vehicleId → v.status = .active)
    (fun _ => [.sellVehicle vehicleId columns])

def SellVehicleInput.disposal (row : VehicleAsset) (columns : SaleColumns) (cash : PayoutAccount)
    (unitPriceUsd : Decimal) : RegistryDisposalCmd :=
  { entryDate := columns.saleDate, description := row.saleDescription, assetId := row.assetId
    cashAccountId := cash.id, cashAssetId := cash.assetId
    cashQuantity := cashUnits columns.saleValueUsd unitPriceUsd
    proceedsBase := columns.saleValueUsd, irtAmount := some columns.salePriceToman
    fxRate := some columns.saleUsdRate, userId := input.userId
    idempotencyKey := some (vehicleSaleKey input.vehicleId)
    memo := some "فروش خودرو (بهای ثبت‌شده: صفر)" }

/-- With an account to receive the proceeds, the sale is booked too. -/
def bookVehicleSale (row : VehicleAsset) (columns : SaleColumns) (cash : Option PayoutAccount) :
    Sql (Option Uuid) :=
  match input.saleAccountId with
  | none => pure none
  | some _ => do
    let cash ← Tx.ofExcept
      (orComplain cash "حساب دریافت وجه فروش نامعتبر یا متعلق به این کاربر نیست.")
    let unitPriceUsd ← nativeUnitPriceUsd cash.assetId input.userId
    let disposal ← recordRegistryDisposal env (input.disposal row columns cash unitPriceUsd)
    pure (some disposal.entry.id)

def sellVehicle : Sql (Option Uuid) := do
  let row ← ownVehicle input
  let saleDate ← Tx.ofExcept (orComplain input.saleDate "تاریخ فروش الزامی است.")
  Tx.require (0 < input.salePriceToman) (.failure "قیمت فروش (تومان) الزامی است.")
  let rate ← vehicleSaleRate history env input saleDate
  let cash ← vehiclePayout input
  updateSold input.vehicleId (input.columns saleDate rate)
  bookVehicleSale env input row (input.columns saleDate rate) cash

end SellVehicle

/-! ## Properties -/

def REAL_ESTATE_ACCOUNT_CODE : String := "1600"
def REAL_ESTATE_EQUITY_CODE : String := "3015"

/-- The account of the shared chart with this code. -/
def Db.chartAccount (db : Db) (code : String) : Option Account :=
  db.accounts.find? fun a => a.code = code ∧ a.userId = none

def ensureChartAccount (account : Account) : Sql (Option Account) := do
  match ← Tx.read (·.chartAccount account.code) with
  | some a => pure (some a)
  | none =>
    match ← insertAccountOnConflictDoNothing account with
    | some a => pure (some a)
    | none => Tx.read (·.chartAccount account.code)

structure RealEstateAccounts where
  assetAccountId : Uuid
  openingEquityAccountId : Uuid

def ensureRealEstateLedgerAccounts (env : Env) : Sql RealEstateAccounts := do
  let asset ← ensureChartAccount
    { id := env.accountIds 0, createdAt := env.now, userId := none
      code := REAL_ESTATE_ACCOUNT_CODE, name := "املاک و مستغلات", type := .asset, assetId := none }
  let equity ← ensureChartAccount
    { id := env.accountIds 1, createdAt := env.now, userId := none
      code := REAL_ESTATE_EQUITY_CODE, name := "سرمایه افتتاحیه تملک‌های تاریخی (املاک)"
      type := .equity, assetId := none }
  Tx.ofExcept (match asset, equity with
    | some a, some e => .ok ⟨a.id, e.id⟩
    | _, _ => .error (.failure "ثبت ملک در حساب‌ها ناموفق بود."))

def Db.usdAsset (db : Db) : Option Asset := db.assets.find? (·.symbol = "USD")

/-- `INSERT … ON CONFLICT DO NOTHING`. The index on symbols is one of the active assets. -/
def insertUsdAsset (env : Env) : Sql Unit :=
  Tx.write (fun _ => [.asset env.assetId]) fun db =>
    if ∃ a ∈ db.assets, a.id = env.assetId ∨ a.symbol = "USD" ∧ a.deleted = false then []
    else [.insertAsset { id := env.assetId, symbol := "USD", classCode := "RWA" }]

def ensureUsdAssetId (env : Env) : Sql Uuid := do
  match ← Tx.read Db.usdAsset with
  | some a => pure a.id
  | none =>
    insertUsdAsset env
    let a ← Tx.read Db.usdAsset
    Tx.ofExcept (match a with
      | some a => .ok a.id
      | none => .error (.failure "دارایی پایه (USD) یافت نشد."))

structure SellRealEstateInput where
  propertyId : Uuid
  saleDate : Option IsoDate
  saleDatePersian : Option String := none
  salePriceToman : Decimal
  saleFxRate : Option Decimal := none
  saleAccountId : Uuid
  userId : Option Uuid := none

def realEstateSaleKey (propertyId : Uuid) : String :=
  "real-estate-sale:" ++ String.ofList (Nat.toDigits 10 propertyId)

/-- The caller's property with the symbol of its asset. -/
def ownPropertyAsset (input : SellRealEstateInput) : Sql (RealEstateProperty × String) := do
  let row ← Tx.read fun db =>
    (db.realEstateProperties.find? fun p =>
      p.id = input.propertyId ∧ (input.userId = none ∨ p.userId = input.userId)).bind fun p =>
        (db.findAsset p.assetId).map fun a => (p, a.symbol)
  Tx.ofExcept (orComplain row "ملک یافت نشد یا متعلق به شما نیست.")

structure SoldRealEstate where
  assetId : Uuid
  symbol : String
  label : String
  ledgerEntryId : Uuid
  saleValueUsd : Decimal
  realizedToman : Decimal
  realizedUsd : Decimal

section SellRealEstate
variable (history : IsoDate → Option DatedRate) (formatMoney : Decimal → String) (env : Env)
  (input : SellRealEstateInput)

def propertySaleRate (saleDate : IsoDate) : Sql UsdRateResolution :=
  match input.saleFxRate.filter (0 < ·) with
  | some rate => pure ⟨rate, saleDate, .manual, true⟩
  | none => resolveUsdRateForDateToFreeze history env saleDate input.userId

/-- One sale, as it was priced. -/
structure PropertySale where
  prop : RealEstateProperty
  symbol : String
  saleDate : IsoDate
  salePrice : Decimal
  carrying : Decimal
  fx : UsdRateResolution
  cash : PayoutAccount

namespace PropertySale
variable (sale : PropertySale)

def valueUsd : Decimal := tomanToUsd (sale.salePrice.toFixed 0) sale.fx.rate

def realizedUsd : Decimal := sale.valueUsd - sale.carrying

/-- The property leaves as the one unit it came as. -/
def assetLine (accountId : Uuid) : DraftPosting :=
  { accountId, assetId := sale.prop.assetId, quantity := -.ofInt 1, baseValue := -sale.carrying
    memo := some ("خروج ملک به بهای ثبت‌شده — قیمت خرید: " ++
      formatMoney (sale.prop.purchasePriceToman.getD 0)) }

def cashLine (unitPriceUsd : Decimal) : DraftPosting :=
  { accountId := sale.cash.id, assetId := sale.cash.assetId
    quantity := cashUnits sale.valueUsd unitPriceUsd, baseValue := sale.valueUsd
    memo := some "واریز وجه فروش ملک" }

def resultLine (accountId assetId : Uuid) (unitPriceUsd : Decimal) : DraftPosting :=
  let unitsPerUsd := if 0 < unitPriceUsd then (Decimal.ofInt 1).div unitPriceUsd else .ofInt 1
  let quantity := (-sale.realizedUsd).mul unitsPerUsd
  { accountId, assetId, quantity := if quantity = 0 then -sale.realizedUsd else quantity
    baseValue := -sale.realizedUsd, memo := some "سود/زیان تحقق‌یافته از فروش ملک" }

def snapshot (entryId : Uuid) : EntryFxSnapshot :=
  { entryId, fxRate := sale.fx.rate
    amounts := some ⟨sale.salePrice.toFixed 0, sale.valueUsd, sale.fx.effectiveDate⟩ }

end PropertySale

/-- The result goes to 4100, in the unit of that account. -/
def propertyResultLines (sale : PropertySale) (usdAssetId : Uuid) : Sql (List DraftPosting) :=
  if sale.realizedUsd = 0 then pure []
  else do
    let account ← ensureRealizedPnlAccount env input.userId
    let account ← Tx.ofExcept (orComplain account "حساب سود سرمایه‌ای (۴۱۰۰) در دسترس نیست.")
    let assetId := account.assetId.getD usdAssetId
    let unitPriceUsd ← nativeUnitPriceUsd assetId input.userId
    pure [sale.resultLine account.id assetId unitPriceUsd]

def PropertySale.entry (sale : PropertySale) (lines : List DraftPosting) : PostEntryInput :=
  { entryDate := sale.saleDate, type := .sell
    description := "فروش " ++ buildRwaLabel .property sale.prop.userSeq ++
      (match input.saleDatePersian.filter (· ≠ "") with
        | some text => " — " ++ text
        | none => "")
    source := some .manual, reference := some sale.symbol, postings := lines
    userId := input.userId, idempotencyKey := some (realEstateSaleKey sale.prop.id) }

/-- The property, its asset and its prices go. -/
def removeProperty (prop : RealEstateProperty) : Sql Unit := do
  Tx.write (fun _ => [.property prop.id]) (fun _ => [.deleteProperty prop.id])
  Tx.write (fun _ => [.asset prop.assetId]) (fun _ => [.archiveAsset prop.assetId])
  Tx.write (fun _ => []) (fun _ => [.deletePrices prop.assetId])

/-- The transaction of the sale. -/
def bookPropertySale (sale : PropertySale) : Sql Uuid := do
  let accounts ← ensureRealEstateLedgerAccounts env
  let usdAssetId ← ensureUsdAssetId env
  let unitPriceUsd ← nativeUnitPriceUsd sale.cash.assetId input.userId
  let result ← propertyResultLines env input sale usdAssetId
  let posted ← postEntry env (sale.entry input
    (sale.assetLine formatMoney accounts.assetAccountId :: sale.cashLine unitPriceUsd :: result))
  freezeRate (sale.snapshot posted.id)
  removeProperty sale.prop
  pure posted.id

def priceProperty : Sql PropertySale := do
  let (prop, symbol) ← ownPropertyAsset input
  let saleDate ← Tx.ofExcept (orComplain input.saleDate "تاریخ فروش الزامی است.")
  Tx.require (0 < input.salePriceToman)
    (.failure "قیمت فروش (تومان) الزامی است و باید بزرگ‌تر از صفر باشد.")
  Tx.require (0 < prop.purchaseValueUsd.getD 0)
    (.failure "این ملک در سوابق مالی ثبت اولیه ندارد و فروش آن ممکن نیست.")
  let fx ← propertySaleRate history env input saleDate
  Tx.require (0 < fx.rate) (.failure "نرخ دلار تاریخ فروش در دسترس نیست.")
  let cash ← resolvePayoutAccount input.saleAccountId input.userId
  let cash ← Tx.ofExcept
    (orComplain cash "حساب دریافت وجه فروش نامعتبر یا متعلق به این کاربر نیست.")
  pure ⟨prop, symbol, saleDate, input.salePriceToman, prop.purchaseValueUsd.getD 0, fx, cash⟩

def sellRealEstateAsset : Sql SoldRealEstate := do
  let sale ← priceProperty history env input
  let entryId ← bookPropertySale formatMoney env input sale
  pure
    { assetId := sale.prop.assetId, symbol := sale.symbol
      label := buildRwaLabel .property sale.prop.userSeq, ledgerEntryId := entryId
      saleValueUsd := sale.valueUsd
      realizedToman := (sale.salePrice - sale.prop.purchasePriceToman.getD 0).toFixed 0
      realizedUsd := sale.realizedUsd }

end SellRealEstate

end Pwos
