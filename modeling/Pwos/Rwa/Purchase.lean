import Pwos.Rwa.Sale
import Pwos.Rwa.Valuation

/-!
# Purchases of the registries

`createUserVehicle` of `features/rwa/vehicle/service.ts` up to its commit, and
`createRealEstateAsset` of `features/rwa/realEstate/service.ts`. The catalogs, the plausibility
check of the prices and the kinds of bank accounts are parameters.
-/

namespace Pwos

/-! ## What both registrations share -/

/-- The rate of a day of purchase: today that of the user, else one at most 16 days old. -/
def currentPurchaseRate (env : Env) (date : IsoDate) (userId : Option Uuid) :
    Sql (Option UsdRateResolution) :=
  if date = env.today ∧ userId.isSome then do
    let snap ← getLatestUsdIrtRateForUser userId
    pure (if snap.source = .userSettings ∧ 0 < snap.rate then
      some ⟨snap.rate, date, .current, false⟩ else none)
  else pure none

def resolveAutomaticPurchaseRate (history : IsoDate → Option DatedRate) (env : Env)
    (date : IsoDate) (userId : Option Uuid) : Sql UsdRateResolution := do
  Tx.require (isIsoDate date = true ∧ date ≤ env.today)
    (.failure "تاریخ خرید معتبر و غیرآینده الزامی است.")
  match ← currentPurchaseRate env date userId with
  | some current => pure current
  | none =>
    let result ← resolveUsdRateForDateToFreeze history env date userId
    let gap := dayNumber date - dayNumber result.effectiveDate
    Tx.require (¬ ((date < env.today ∧ result.source = .current) ∨ gap < 0 ∨ 16 < gap))
      (.failure "نرخ معتبر دلار تاریخ خرید در تاریخچه موجود نیست؛ خرید با نرخ امروز ثبت نمی‌شود.")
    pure result

/-- The first number from `n` on that is free, among `fuel` of them. -/
def firstFree (taken : Nat → Bool) : Nat → Nat → Nat
  | 0, n => n
  | fuel + 1, n => if taken n then firstFree taken fuel (n + 1) else n

def buildRwaSymbol (sequence : Nat) : String :=
  String.ofList ((Nat.toDigits 10 sequence).leftpad 3 '0')

/-- The numeric symbols of the live assets. -/
def Db.occupiedSymbols (db : Db) : List String :=
  (db.assets.filter fun a => a.symbol.toList ≠ [] ∧ a.symbol.toList.all Char.isDigit ∧
    !a.deleted).map (·.symbol)

/-- Read under the lock of the class. -/
def nextRwaSymbol : Sql String := do
  Tx.lock (fun _ => [.rwaClass]) fun _ => ()
  let occupied ← Tx.read (·.occupiedSymbols)
  pure (buildRwaSymbol (firstFree (fun n => buildRwaSymbol n ∈ occupied) occupied.length 1))

def Db.userSeqs (db : Db) (userId : Option Uuid) : RwaKind → List Nat
  | .property => (db.realEstateProperties.filter (·.userId = userId)).filterMap (·.userSeq)
  | .vehicle => (db.vehicleAssets.filter (·.userId = userId)).filterMap (·.userSeq)

/-- Read under the user's advisory lock. -/
def nextUserRwaSeq (kind : RwaKind) (userId : Option Uuid) : Sql Nat := do
  Tx.lock (fun _ => [.rwaSeq kind userId]) fun _ => ()
  let taken ← Tx.read (·.userSeqs userId kind)
  pure (firstFree (fun n => n ∈ taken) taken.length 1)

/-- The asset of a registration. The index on symbols is one of the live assets. -/
def insertRwaAsset (env : Env) (symbol : String) : Sql Unit :=
  Tx.insert (fun _ => [.asset env.rwaAssetId])
    (fun db => ∀ a ∈ db.assets, a.id ≠ env.rwaAssetId ∧ ¬ (a.symbol = symbol ∧ a.deleted = false))
    (fun _ => [.insertAsset { id := env.rwaAssetId, symbol, classCode := "RWA" }])
    (.constraintViolation "assets")

structure TomanBankAccount where
  id : Uuid
  assetId : Uuid
  symbol : String
  deriving DecidableEq, Repr

/-- An asset account of the caller, with its unit. Without an identity every account is. -/
def Db.payingAccount (db : Db) (accountId : Uuid) (userId : Option Uuid) :
    Option (Account × Option Asset × Uuid) :=
  (db.accounts.find? fun a => a.id = accountId ∧ !a.deleted).bind fun a =>
    a.assetId.bind fun assetId =>
      if a.type = .asset ∧ (userId = none ∨ a.userId = userId) then
        some (a, db.findAsset assetId, assetId) else none

def requireTomanBankAccount (isTomanBankAccount : Account → Option Asset → Bool)
    (accountId : Uuid) (userId : Option Uuid) : Sql TomanBankAccount := do
  let row ← Tx.read (·.payingAccount accountId userId)
  let (a, asset, assetId) ← Tx.ofExcept (orComplain row "حساب بانکی انتخاب‌شده معتبر نیست.")
  Tx.require (isTomanBankAccount a asset = true)
    (.failure "پرداخت فقط از حساب بانکی تومانی انجام می‌شود.")
  pure ⟨a.id, assetId, upper ((asset.map (·.symbol)).getD "IRT")⟩

/-- An amount in Toman in the unit of a Toman account. -/
def tomanToNative (toman : Decimal) (symbol : String) : Decimal :=
  if symbol = "IRR" then toman.mul (.ofInt 10) else toman

/-! ## Vehicles -/

structure CatalogModel where
  id : Uuid
  brandName : String
  modelName : String

structure InitialValuation where
  valueToman : Decimal
  snapshotDate : Option IsoDate := none
  usdRate : Option Decimal := none

structure CreateUserVehicleInput where
  catalogId : Option Uuid
  manufacturingYear : Nat
  ownershipDate : Option IsoDate
  purchasePriceToman : Decimal
  mileage : Option Nat := none
  initialValuation : Option InitialValuation := none
  currentValueToman : Option Decimal := none
  currentUsdRate : Option Decimal := none
  paymentAccountId : Option Uuid := none
  userId : Option Uuid := none

/-- What the check of the prices of a vehicle reads. -/
structure VehiclePrices where
  model : CatalogModel
  manufacturingYear : Nat
  ownershipDate : IsoDate
  valuationDate : IsoDate
  mileage : Option Nat
  purchaseToman : Decimal
  purchaseRate : Decimal
  currentToman : Decimal
  currentRate : Option Decimal

/-- A city, a neighborhood of a city, or a type of property. -/
structure MasterRow where
  id : Uuid
  cityId : Uuid := 0
  isActive : Bool := true

/-- What the check of the prices of a property reads. -/
structure PropertyPrices where
  city : MasterRow
  neighborhood : MasterRow
  propertyType : MasterRow
  sizeSqm : Decimal
  userId : Option Uuid
  purchaseToman : Decimal
  purchaseRate : Decimal
  currentToman : Decimal
  currentRate : Decimal

/-- What a registration looks up outside the ledger. A check answers with the text it refuses
with. -/
structure RegistryRules where
  history : IsoDate → Option DatedRate
  formatMoney : Decimal → String
  isTomanBankAccount : Account → Option Asset → Bool
  catalogModel : Uuid → Option CatalogModel
  blockedVehicle : VehiclePrices → Option String
  city : Uuid → Option MasterRow
  neighborhood : Uuid → Option MasterRow
  propertyType : Uuid → Option MasterRow
  blockedProperty : PropertyPrices → Option String

/-- A vehicle whose terms were accepted. -/
structure VehicleTerms where
  model : CatalogModel
  year : Nat
  ownershipDate : IsoDate
  priceToman : Decimal
  purchaseUsdRate : Decimal
  purchaseValueUsd : Decimal

def VehicleTerms.name (t : VehicleTerms) : String :=
  t.model.brandName ++ " " ++ t.model.modelName ++ " (" ++
    String.ofList (Nat.toDigits 10 t.year) ++ ")"

structure CreatedVehicle where
  id : Uuid
  assetId : Uuid
  symbol : String
  userSeq : Nat

def vehiclePurchaseKey (vehicleId : Uuid) : String :=
  "vehicle-purchase:" ++ String.ofList (Nat.toDigits 10 vehicleId)

section CreateVehicle
variable (rules : RegistryRules) (env : Env) (input : CreateUserVehicleInput)

/-- The rate of the current value: the one given, else, for a value, that of its day. -/
def currentVehicleRate (currentToman : Decimal) (valuationDate : IsoDate) : Sql (Option Decimal) :=
  let given := (input.initialValuation.bind (·.usdRate)).or input.currentUsdRate
  if 0 < currentToman ∧ ¬ 0 < given.getD 0 then do
    let resolved ← resolveUsdRateForDateToFreeze rules.history env valuationDate input.userId
    pure (some resolved.rate)
  else pure given

def vehicleTerms : Sql VehicleTerms := do
  let catalogId ← Tx.ofExcept
    (orComplain input.catalogId "خودرو باید از فهرست (کاتالوگ) انتخاب شود.")
  let model ← Tx.ofExcept
    (orComplain (rules.catalogModel catalogId) "خودروی انتخاب‌شده در کاتالوگ یافت نشد.")
  Tx.require (0 < input.manufacturingYear) (.failure "سال ساخت خودرو الزامی است.")
  let ownershipDate ← Tx.ofExcept (orComplain input.ownershipDate "تاریخ تملک الزامی است.")
  Tx.require (0 < input.purchasePriceToman)
    (.failure "قیمت خرید (تومان) الزامی است و باید بزرگ‌تر از صفر باشد.")
  let resolved ← resolveAutomaticPurchaseRate rules.history env ownershipDate input.userId
  let priceToman := input.purchasePriceToman.toFixed 0
  let currentToman :=
    ((input.initialValuation.map (·.valueToman)).or input.currentValueToman).getD 0
  let valuationDate := (input.initialValuation.bind (·.snapshotDate)).getD env.today
  let currentRate ← currentVehicleRate rules env input currentToman valuationDate
  Tx.ofExcept (match rules.blockedVehicle
      { model, manufacturingYear := input.manufacturingYear, ownershipDate, valuationDate
        mileage := input.mileage, purchaseToman := priceToman, purchaseRate := resolved.rate
        currentToman, currentRate } with
    | some text => .error (.failure text)
    | none => .ok ())
  pure
    { model, year := input.manufacturingYear, ownershipDate, priceToman
      purchaseUsdRate := resolved.rate
      purchaseValueUsd := tomanToUsd priceToman resolved.rate }

def VehicleTerms.row (t : VehicleTerms) (userSeq : Nat) : VehicleAsset :=
  { id := env.vehicleId, userId := input.userId, assetId := env.rwaAssetId
    brand := t.model.brandName, model := t.model.modelName, year := t.year
    purchasePriceToman := some t.priceToman, purchaseUsdRate := some t.purchaseUsdRate
    purchaseValueUsd := some t.purchaseValueUsd, userSeq := some userSeq }

/-- The primary key, and the unique indexes on the asset and on the user's numbers. -/
def insertVehicleRow (v : VehicleAsset) : Sql Unit :=
  Tx.insert (fun _ => [.vehicle v.id])
    (fun db => ∀ w ∈ db.vehicleAssets, w.id ≠ v.id ∧ w.assetId ≠ v.assetId ∧
      ¬ (w.userId.isSome = true ∧ w.userId = v.userId ∧ w.userSeq.isSome = true ∧
        w.userSeq = v.userSeq))
    (fun _ => [.insertVehicle v]) (.constraintViolation "vehicle_assets")

/-- An account that exists already is used as it is. -/
def ensureVehicleAccount (symbol label : String) : Sql Account := do
  let code := "VEH-" ++ symbol
  match ← insertAccountOnConflictDoNothing
      { id := env.accountId, createdAt := env.now, userId := input.userId, code, name := label
        type := .asset, assetId := some env.rwaAssetId } with
  | some a => pure a
  | none => do
    let found ← Tx.read fun db => db.accounts.find? fun a =>
      a.code = code ∧ a.userId = input.userId
    Tx.ofExcept (orComplain found "ثبت خودرو در حساب‌ها ناموفق بود.")

/-- One unit, at its purchase value, against the price. -/
def VehicleTerms.entry (t : VehicleTerms) (label : String) (vehicleAccountId : Uuid)
    (bank : TomanBankAccount) : PostEntryInput :=
  { entryDate := t.ownershipDate, type := .buy
    description := "خرید " ++ label ++ " — " ++ t.name, userId := input.userId
    idempotencyKey := some (vehiclePurchaseKey env.vehicleId), preventOverdraft := true
    postings := [
      { accountId := vehicleAccountId, assetId := env.rwaAssetId, quantity := .ofInt 1
        baseValue := t.purchaseValueUsd },
      { accountId := bank.id, assetId := bank.assetId
        quantity := -tomanToNative t.priceToman bank.symbol, baseValue := -t.purchaseValueUsd
        memo := some "پرداخت خرید خودرو" }] }

def VehicleTerms.snapshot (t : VehicleTerms) (entryId : Uuid) : EntryFxSnapshot :=
  { entryId, fxRate := t.purchaseUsdRate
    amounts := some ⟨t.priceToman, t.purchaseValueUsd, t.ownershipDate⟩ }

/-- Paid now from a bank account, the vehicle is carried in the ledger. -/
def payVehicle (t : VehicleTerms) (symbol : String) (userSeq : Nat) : Sql Unit :=
  match input.paymentAccountId with
  | none => pure ()
  | some accountId => do
    let bank ← requireTomanBankAccount rules.isTomanBankAccount accountId input.userId
    let label := buildRwaLabel .vehicle (some userSeq)
    let account ← ensureVehicleAccount env input symbol label
    let entry ← postEntry env (t.entry env input label account.id bank)
    insertFxSnapshot (t.snapshot entry.id)

/-- The transaction. -/
def registerVehicle (t : VehicleTerms) : Sql CreatedVehicle := do
  let symbol ← nextRwaSymbol
  let userSeq ← nextUserRwaSeq .vehicle input.userId
  insertRwaAsset env symbol
  insertVehicleRow (t.row env input userSeq)
  payVehicle rules env input t symbol userSeq
  pure { id := env.vehicleId, assetId := env.rwaAssetId, symbol, userSeq }

def createUserVehicle : Sql CreatedVehicle := do
  let t ← vehicleTerms rules env input
  registerVehicle rules env input t

end CreateVehicle

/-! ## Properties -/

structure CreateRealEstateAssetInput where
  cityId : Option Uuid
  neighborhoodId : Option Uuid
  propertyTypeId : Option Uuid
  acquisitionDate : Option IsoDate
  acquisitionDatePersian : Option String := none
  valuationDate : Option IsoDate
  valuationDatePersian : Option String := none
  purchasePriceToman : Decimal
  currentValueToman : Decimal
  valuationFxRate : Option Decimal := none
  sizeSqm : Decimal
  paymentAccountId : Option Uuid := none
  userId : Option Uuid := none

/-- A property whose terms were accepted. -/
structure PropertyTerms where
  city : MasterRow
  neighborhood : MasterRow
  propertyType : MasterRow
  acquisitionDate : IsoDate
  valuationDate : IsoDate
  priceToman : Decimal
  currentToman : Decimal
  purchaseFx : UsdRateResolution
  valuationFx : UsdRateResolution

namespace PropertyTerms
variable (t : PropertyTerms)

def purchaseValueUsd : Decimal := tomanToUsd t.priceToman t.purchaseFx.rate

def currentValueUsd : Decimal := tomanToUsd t.currentToman t.valuationFx.rate

end PropertyTerms

structure CreatedProperty where
  id : Uuid
  assetId : Uuid
  symbol : String
  userSeq : Nat
  label : String
  ledgerEntryId : Uuid

def realEstateAcquisitionKey (assetId : Uuid) : String :=
  "real-estate-acquisition:" ++ String.ofList (Nat.toDigits 10 assetId)

section CreateProperty
variable (rules : RegistryRules) (env : Env) (input : CreateRealEstateAssetInput)

/-- The place and the type, from the master data. -/
def propertyPlace : Except AppError (MasterRow × MasterRow × MasterRow) := do
  let (cityId, hoodId, typeId) ← orComplain
    (input.cityId.bind fun c => input.neighborhoodId.bind fun n =>
      input.propertyTypeId.map fun t => (c, n, t))
    "شهر، منطقه/محله و نوع ملک باید از فهرست انتخاب شوند."
  let city ← orComplain ((rules.city cityId).filter (·.isActive)) "شهر انتخاب‌شده معتبر نیست."
  let hood ← orComplain ((rules.neighborhood hoodId).filter (·.cityId = city.id))
    "محله انتخاب‌شده متعلق به این شهر نیست."
  let hood ← orComplain ((some hood).filter (·.isActive)) "محله انتخاب‌شده غیرفعال است."
  let ptype ← orComplain ((rules.propertyType typeId).filter (·.isActive))
    "نوع ملک انتخاب‌شده معتبر نیست."
  pure (city, hood, ptype)

/-- A rate that is given counts as exact. -/
def initialValuationRate (valuationDate : IsoDate) : Sql UsdRateResolution :=
  match input.valuationFxRate.filter (0 < ·) with
  | some rate => pure ⟨rate, valuationDate, .manual, true⟩
  | none => resolveUsdRateForDateToFreeze rules.history env valuationDate input.userId

def propertyTerms : Sql PropertyTerms := do
  let (city, neighborhood, propertyType) ← Tx.ofExcept (propertyPlace rules input)
  let acquisitionDate ← Tx.ofExcept
    (orComplain input.acquisitionDate "تاریخ تملک (شمسی) الزامی است و باید معتبر باشد.")
  let valuationDate ← Tx.ofExcept
    (orComplain input.valuationDate "تاریخ ارزش‌گذاری (شمسی) الزامی است و باید معتبر باشد.")
  Tx.require (0 < input.purchasePriceToman)
    (.failure "قیمت خرید (تومان) الزامی است و باید بزرگ‌تر از صفر باشد.")
  Tx.require (0 < input.currentValueToman)
    (.failure "ارزش فعلی (تومان) الزامی است و باید بزرگ‌تر از صفر باشد.")
  Tx.require (0 < input.sizeSqm) (.failure "متراژ ملک الزامی است و باید بزرگ‌تر از صفر باشد.")
  let purchaseFx ← resolveAutomaticPurchaseRate rules.history env acquisitionDate input.userId
  Tx.require (0 < purchaseFx.rate) (.failure "نرخ دلار تاریخ تملک در دسترس نیست.")
  let valuationFx ← initialValuationRate rules env input valuationDate
  Tx.require (0 < valuationFx.rate) (.failure "نرخ دلار تاریخ ارزش‌گذاری در دسترس نیست.")
  let priceToman := input.purchasePriceToman.toFixed 0
  let currentToman := input.currentValueToman.toFixed 0
  Tx.ofExcept (match rules.blockedProperty
      { city, neighborhood, propertyType, sizeSqm := input.sizeSqm, userId := input.userId
        purchaseToman := priceToman, purchaseRate := purchaseFx.rate
        currentToman, currentRate := valuationFx.rate } with
    | some text => .error (.failure text)
    | none => .ok ())
  pure { city, neighborhood, propertyType, acquisitionDate, valuationDate, priceToman
         currentToman, purchaseFx, valuationFx }

def payingBank : Sql (Option TomanBankAccount) :=
  match input.paymentAccountId with
  | none => pure none
  | some accountId => do
    let bank ← requireTomanBankAccount rules.isTomanBankAccount accountId input.userId
    pure (some bank)

def PropertyTerms.row (t : PropertyTerms) (userSeq : Nat) : RealEstateProperty :=
  { id := env.propertyId, userId := input.userId, assetId := env.rwaAssetId
    cityId := some t.city.id, neighborhoodId := some t.neighborhood.id
    propertyTypeId := some t.propertyType.id, sizeSqm := some input.sizeSqm
    purchasePriceToman := some t.priceToman, purchaseFxRate := some t.purchaseFx.rate
    purchaseValueUsd := some t.purchaseValueUsd, currentValueToman := some t.currentToman
    valuationFxRate := some t.valuationFx.rate, valuationFxRateSource := some t.valuationFx.source
    valuationFxRateDate := some t.valuationFx.effectiveDate
    currentValueUsd := some t.currentValueUsd, valuationDate := some t.valuationDate
    valuationDatePersian := input.valuationDatePersian, userSeq := some userSeq }

/-- The primary key, and the unique indexes on the asset and on the user's numbers. -/
def insertPropertyRow (p : RealEstateProperty) : Sql Unit :=
  Tx.insert (fun _ => [.property p.id])
    (fun db => ∀ q ∈ db.realEstateProperties, q.id ≠ p.id ∧ q.assetId ≠ p.assetId ∧
      ¬ (q.userId.isSome = true ∧ q.userId = p.userId ∧ q.userSeq.isSome = true ∧
        q.userSeq = p.userSeq))
    (fun _ => [.insertProperty p]) (.constraintViolation "real_estate_properties")

/-- The first point of the history of the property. -/
def PropertyTerms.valuation (t : PropertyTerms) : RealEstateValuationSnapshot :=
  { propertyId := env.propertyId, assetId := env.rwaAssetId, userId := input.userId
    snapshotDate := t.valuationDate, snapshotDatePersian := input.valuationDatePersian
    currentValueToman := t.currentToman, usdRate := t.valuationFx.rate
    usdRateSource := t.valuationFx.source, usdRateDate := t.valuationFx.effectiveDate
    currentValueUsd := t.currentValueUsd, note := some "ارزش‌گذاری اولیه (هنگام ثبت ملک)" }

def PropertyTerms.assetLine (t : PropertyTerms) (accountId : Uuid) : DraftPosting :=
  { accountId, assetId := env.rwaAssetId, quantity := .ofInt 1, baseValue := t.purchaseValueUsd
    memo := some ("تملک ملک — قیمت خرید: " ++ rules.formatMoney t.priceToman) }

/-- Paid now the price leaves the bank, else the property opens the books. -/
def PropertyTerms.counterLine (t : PropertyTerms) (accounts : RealEstateAccounts)
    (usdAssetId : Uuid) : Option TomanBankAccount → DraftPosting
  | some bank =>
    { accountId := bank.id, assetId := bank.assetId
      quantity := -tomanToNative (t.priceToman.toFixed 0) bank.symbol
      baseValue := -t.purchaseValueUsd, memo := some "پرداخت خرید ملک از حساب بانکی" }
  | none =>
    { accountId := accounts.openingEquityAccountId, assetId := usdAssetId
      quantity := -t.purchaseValueUsd, baseValue := -t.purchaseValueUsd
      memo := some "افتتاحیه تملک تاریخی (Opening Balance)" }

def PropertyTerms.entry (t : PropertyTerms) (label symbol : String) (accounts : RealEstateAccounts)
    (usdAssetId : Uuid) (payment : Option TomanBankAccount) : PostEntryInput :=
  { entryDate := t.acquisitionDate, type := if payment.isSome then .buy else .opening
    description := (if payment.isSome then "خرید" else "تملک تاریخی") ++ " — " ++ label ++
      (match input.acquisitionDatePersian.filter (· ≠ "") with
        | some text => " — " ++ text
        | none => "") ++ " | قیمت خرید: " ++ rules.formatMoney t.priceToman
    source := some .manual, reference := some symbol, userId := input.userId
    idempotencyKey := some (realEstateAcquisitionKey env.rwaAssetId)
    preventOverdraft := payment.isSome
    postings := [t.assetLine rules env accounts.assetAccountId,
      t.counterLine accounts usdAssetId payment] }

/-- The acquisition in the ledger, with the Toman of the price frozen beside it. -/
def postRealEstateOpeningEntry (t : PropertyTerms) (label symbol : String)
    (payment : Option TomanBankAccount) : Sql Uuid := do
  let accounts ← ensureRealEstateLedgerAccounts env
  let usdAssetId ← ensureUsdAssetId env
  let result ← postEntry env (t.entry rules env input label symbol accounts usdAssetId payment)
  freezeRate
    { entryId := result.id, fxRate := t.purchaseFx.rate
      amounts := some ⟨t.priceToman.toFixed 0, t.purchaseValueUsd, t.purchaseFx.effectiveDate⟩ }
  pure result.id

/-- The transaction. -/
def registerProperty (t : PropertyTerms) : Sql CreatedProperty := do
  let payment ← payingBank rules input
  let symbol ← nextRwaSymbol
  let userSeq ← nextUserRwaSeq .property input.userId
  let label := buildRwaLabel .property (some userSeq)
  insertRwaAsset env symbol
  insertPropertyRow (t.row env input userSeq)
  insertValuationSnapshot (t.valuation env input)
  let ledgerEntryId ← postRealEstateOpeningEntry rules env input t label symbol payment
  Tx.write (fun _ => [.property env.propertyId])
    (fun _ => [.setPropertyEntry env.propertyId ledgerEntryId])
  recordCurrentPrice env.rwaAssetId t.currentValueUsd t.valuationDate
  pure { id := env.propertyId, assetId := env.rwaAssetId, symbol, userSeq, label, ledgerEntryId }

def createRealEstateAsset : Sql CreatedProperty := do
  let t ← propertyTerms rules env input
  registerProperty rules env input t

end CreateProperty

end Pwos
