import Pwos.Planning.Cheques
import Pwos.Rwa.UsdRate

/-!
# What the setup wizard is given

The input of `completeSetup` (`features/setup/service.ts`) and what is worked out of it before
anything is written: the banks, the coins, the places that hold Toman, the chart of accounts.
Amounts are the numbers their texts stand for, blank ones are `none`. The catalogues of coins,
places and banks are parameters.
-/

namespace Pwos

/-! ## The input -/

inductive SetupPriceCurrency where
  | usd | usdt | irt
  deriving DecidableEq, Repr

structure SetupBankAccount where
  name : String
  bankName : String
  balance : Decimal
  deriving DecidableEq, Repr

structure TomanPlace where
  walletName : String
  balance : Option Decimal := none
  deriving DecidableEq, Repr

structure CryptoHolding where
  symbol : String
  quantity : Option Decimal := none
  unitPrice : Option Decimal := none
  priceCurrency : Option SetupPriceCurrency := none
  purchaseDate : Option OpenedAt := none
  walletName : String := ""
  deriving DecidableEq, Repr

inductive InstrumentKind where
  | fund | stock | wallex
  deriving DecidableEq, Repr

structure SetupInstrument where
  kind : InstrumentKind
  symbol : String
  name : Option String := none
  quantity : Option Decimal := none
  unitPrice : Option Decimal := none
  priceCurrency : Option SetupPriceCurrency := none
  purchaseDate : Option OpenedAt := none
  deriving DecidableEq, Repr

structure SetupInput where
  /-- `bankPresence === "no"`. -/
  noBank : Bool := false
  fxRate : Option Decimal := none
  bankAccountName : Option String := none
  bankName : Option String := none
  bankAccounts : Option (List SetupBankAccount) := none
  cashWalletName : Option String := none
  bankAssetSymbol : Option String := none
  cashAssetSymbol : Option String := none
  bankOpeningBalance : Option Decimal := none
  cashOpeningBalance : Option Decimal := none
  tomanPlaces : List TomanPlace := []
  cryptoHoldings : List CryptoHolding := []
  /-- The legacy fields of a single coin. -/
  cryptoSymbol : Option String := none
  cryptoOpeningQty : Option Decimal := none
  cryptoUnitPrice : Option Decimal := none
  cryptoPriceCurrency : Option SetupPriceCurrency := none
  goldPurchaseDate : Option OpenedAt := none
  goldHoldingPlace : Option String := none
  goldOpeningQty : Option Decimal := none
  goldUnitPrice : Option Decimal := none
  goldPriceCurrency : Option SetupPriceCurrency := none
  instruments : List SetupInstrument := []

structure SupportedCoin where
  symbol : String
  displayName : String
  classCode : String
  deriving DecidableEq, Repr

/-- The catalogues and the text rules the setup looks things up in. -/
structure SetupRules where
  coins : List SupportedCoin
  /-- Another asset carries the CoinGecko id of the coin. -/
  coingeckoTaken : String → Bool
  canonicalWalletName : String → String
  walletKeyOf : String → String
  /-- An Iranian exchange or a brokerage. -/
  holdsToman : String → Bool
  isForeignSetupBank : String → Bool
  normalizeBankText : String → String
  /-- The patterns of a row of the list of banks. -/
  validBank : SetupBankAccount → Bool
  instrumentClass : InstrumentKind → String
  /-- The class of an asset of the Wallex catalogue; `none` where it cannot be identified. -/
  wallexClass : String → Option String
  /-- The name an asset is registered under, from its symbol and the name typed. -/
  nameOf : String → Option String → String
  /-- The first twelve hexadecimal digits of an id. -/
  idDigits : Uuid → String
  history : IsoDate → Option DatedRate

/-! ## Amounts and rates -/

/-- A typed amount, or zero when blank. -/
def amountOf (value : Option Decimal) : Except AppError Decimal :=
  if value.getD 0 < 0 then .error (.failure "مبالغ راه‌اندازی نمی‌توانند منفی باشند.")
  else .ok (value.getD 0)

/-- The confirmed rate when it is inside the sanity band. -/
def confirmedRateOf (value : Option Decimal) : Option Decimal :=
  value.filter fun rate => .ofInt 1000 ≤ rate ∧ rate ≤ .ofInt 10000000

/-- The opening price in dollars. -/
def priceToBookUsd (price : Decimal) (currency : Option SetupPriceCurrency) (rate : Decimal) :
    Except AppError Decimal :=
  if currency.getD .usd ≠ .irt then .ok price
  else if rate ≤ 0 then .error .rateInvalid
  else .ok (price.div rate)

def SETUP_MONEY_SYMBOLS : List String := ["IRT", "USD", "USDT"]

def resolveMoneyDenomination (explicit : Option String) : String :=
  let candidate := upper (match explicit.filter (· ≠ "") with
    | some text => text
    | none => "USD")
  if candidate ∈ SETUP_MONEY_SYMBOLS then candidate else "USD"

/-! ## The banks -/

section Input
variable (rules : SetupRules)

def validateSetupBankAccounts (rows : List SetupBankAccount) :
    Except AppError (List SetupBankAccount) :=
  if rows.length < 1 ∨ 10 < rows.length ∨ rows.any (fun r => !rules.validBank r) then
    .error (.failure "bankAccounts")
  else if rows.any fun r => r.balance.toFixed 0 ≠ r.balance && !rules.isForeignSetupBank r.bankName then
    .error (.failure "موجودی حساب تومانی باید عدد صحیح باشد.")
  else if ¬ (rows.map (·.name)).Nodup then
    .error (.failure
      "نام حساب‌های بانکی باید متفاوت باشد؛ برای هر حساب نام مشخصی بنویسید.")
  else .ok rows

/-- The input with the first bank of the list in its fields, and the list. -/
def resolveBanks (input : SetupInput) : Except AppError (SetupInput × List SetupBankAccount) :=
  if input.noBank then
    if input.bankAccounts.getD [] ≠ [] ∨ 0 < input.bankOpeningBalance.getD 0 then
      .error (.failure "پاسخ ندارم با حساب‌های بانکی واردشده یکسان نیست.")
    else .ok (input, [])
  else match input.bankAccounts with
    | none => .ok (input, [])
    | some rows => do
      let listed ← validateSetupBankAccounts rules rows
      match listed with
      | [] => .error (.failure "bankAccounts")
      | primary :: _ =>
        if input.bankAccountName.any fun name => rules.normalizeBankText name ≠ primary.name then
          .error (.failure "حساب اصلی با فهرست حساب‌ها یکسان نیست.")
        else if input.bankAssetSymbol.any fun s => s ≠ "" && s ≠ "IRT" then
          .error (.failure "حساب‌های بانکی این فهرست باید تومانی باشند.")
        else
          let resolved := { input with
            bankAccountName := some primary.name, bankName := some primary.bankName
            bankOpeningBalance := some primary.balance, bankAssetSymbol := some "IRT" }
          pure (resolved, listed)

/-- A foreign account holds dollars, the others what the wizard was told. -/
def bankUnitOf (input : SetupInput) (bankName : Option String) : String :=
  if bankName.any fun name => name ≠ "" && rules.isForeignSetupBank name then "USD"
  else resolveMoneyDenomination input.bankAssetSymbol

/-! ## Coins and places -/

def CRYPTO_CODE_BASE : Nat := 1200
def MAX_CRYPTO_WALLETS : Nat := 100

/-- `getSupportedCryptoBySymbol`. -/
def SetupRules.coinOf (symbol : String) : Option SupportedCoin :=
  rules.coins.find? (·.symbol = upper (trimText symbol))

/-- `holdingKeyOf`: the coin and the place. -/
def SetupRules.holdingKeyOf (symbol walletName : String) : String × String :=
  (symbol, rules.walletKeyOf (rules.canonicalWalletName walletName))

structure CryptoPick where
  coin : SupportedCoin
  code : Nat
  walletName : String
  holding : CryptoHolding
  deriving DecidableEq, Repr

/-- The loop over the holdings: `seen` are the keys with their codes, `count` the picks so far. -/
def cryptoPicksFrom (assetMap : String → Option Uuid) :
    List CryptoHolding → List ((String × String) × Nat) → Nat → Except AppError (List CryptoPick)
  | [], _, _ => .ok []
  | h :: hs, seen, count =>
    match (rules.coinOf h.symbol).filter fun c => (assetMap c.symbol).isSome with
    | none => cryptoPicksFrom assetMap hs seen count
    | some coin =>
      let walletName := rules.canonicalWalletName h.walletName
      let key := rules.holdingKeyOf coin.symbol walletName
      let existing := seen.lookup key
      if existing.isSome ∧ h.purchaseDate = none then
        .error (.failure (coin.displayName ++
          (if walletName = "" then " بدون محل نگهداری" else " در «" ++ walletName ++ "»") ++
          " دو بار وارد شده است؛ مقدارها را در یک ردیف جمع کنید."))
      else if MAX_CRYPTO_WALLETS ≤ count then
        .error (.failure "تعداد خریدهای رمزارز بیش از سقف ۱۰۰ ردیف است.")
      else do
        let code := existing.getD (CRYPTO_CODE_BASE + seen.length)
        let rest ← cryptoPicksFrom assetMap hs
          (if existing.isSome then seen else seen ++ [(key, code)]) (count + 1)
        pure (⟨coin, code, walletName, h⟩ :: rest)

def SetupInput.legacyCrypto (input : SetupInput) : List CryptoHolding :=
  ((input.cryptoSymbol.filter (· ≠ "")).map fun symbol =>
    { symbol, quantity := input.cryptoOpeningQty, unitPrice := input.cryptoUnitPrice
      priceCurrency := input.cryptoPriceCurrency : CryptoHolding }).toList

def SetupInput.holdings (input : SetupInput) : List CryptoHolding :=
  input.cryptoHoldings ++ input.legacyCrypto

def cryptoPicks (assetMap : String → Option Uuid) (input : SetupInput) :
    Except AppError (List CryptoPick) :=
  cryptoPicksFrom rules assetMap input.holdings [] 0

structure TomanPick where
  code : Nat
  walletName : String
  balance : Option Decimal
  deriving DecidableEq, Repr

/-- The loop over the places: a blank one is skipped, and one that was seen before. -/
def tomanPlacePicksFrom : List TomanPlace → List String → Except AppError (List TomanPick)
  | [], _ => .ok []
  | p :: ps, seen =>
    let walletName := rules.canonicalWalletName p.walletName
    if walletName = "" then tomanPlacePicksFrom ps seen
    else if !rules.holdsToman walletName then
      .error (.failure ("«" ++ walletName ++
        "» حساب تومانی ندارد؛ تومان فقط در صرافی داخلی یا کارگزاری نگهداری می‌شود."))
    else if rules.walletKeyOf walletName ∈ seen then tomanPlacePicksFrom ps seen
    else if 50 ≤ seen.length then .ok []
    else do
      let rest ← tomanPlacePicksFrom ps (seen ++ [rules.walletKeyOf walletName])
      pure (⟨1500 + seen.length, walletName, p.balance⟩ :: rest)

def tomanPlacePicks (input : SetupInput) : Except AppError (List TomanPick) :=
  tomanPlacePicksFrom rules input.tomanPlaces []

/-! ## The chart of accounts -/

/-- A row of the chart. Its code is the number its text stands for. -/
structure ChartRow where
  code : Nat
  name : String
  type : AccountType
  /-- The symbol of its asset; headings have none. -/
  unit : Option String := none
  deriving DecidableEq, Repr

def holdingAccountName (coinName walletName : String) : String :=
  let place := rules.canonicalWalletName walletName
  if place = "" then coinName else coinName ++ " - " ++ place

def orName (name : Option String) (default : String) : String :=
  match (name.map trimText).filter (· ≠ "") with
  | some text => text
  | none => default

def wantsCashWallet (input : SetupInput) : Bool :=
  (input.cashWalletName.map trimText).any (· ≠ "") || 0 < input.cashOpeningBalance.getD 0

/-- Everything the chart depends on. -/
structure SetupPlan where
  input : SetupInput
  listed : List SetupBankAccount
  crypto : List CryptoPick
  places : List TomanPick

def setupPlan (assetMap : String → Option Uuid) (input : SetupInput)
    (listed : List SetupBankAccount) : Except AppError SetupPlan := do
  let crypto ← cryptoPicks rules assetMap input
  let places ← tomanPlacePicks rules input
  pure ⟨input, listed, crypto, places⟩

def additionalBanks (plan : SetupPlan) : List SetupBankAccount := plan.listed.drop 1

/-- The symbol of a money account, the book currency where it has no asset. -/
def moneyUnit (assetMap : String → Option Uuid) (unit : String) : String :=
  if (assetMap unit).isSome then unit else "USD"

def PERSONAL_HOLDING : String := "نگهداری شخصی"

def goldAccountName (input : SetupInput) : String :=
  match input.goldHoldingPlace.filter fun place => place ≠ "" && place ≠ PERSONAL_HOLDING with
  | some place => "طلای آب‌شده - " ++ place
  | none => "طلای ۱۸ عیار"

def chartRows (assetMap : String → Option Uuid) (plan : SetupPlan) : List ChartRow :=
  let input := plan.input
  [⟨1000, "دارایی‌ها", .asset, none⟩] ++
  (if input.noBank then [] else
    [⟨1010, orName input.bankAccountName "حساب بانکی اصلی", .asset,
      some (moneyUnit assetMap (bankUnitOf rules input input.bankName))⟩]) ++
  (additionalBanks plan).mapIdx (fun i bank => ⟨1011 + i, bank.name, .asset,
    some (moneyUnit assetMap (bankUnitOf rules input (some bank.bankName)))⟩) ++
  (if wantsCashWallet input then
    [⟨1020, orName input.cashWalletName "پول نقد", .asset,
      some (moneyUnit assetMap (resolveMoneyDenomination input.cashAssetSymbol))⟩] else []) ++
  plan.crypto.map (fun pick => ⟨pick.code,
    holdingAccountName rules pick.coin.displayName pick.walletName, .asset,
    some pick.coin.symbol⟩) ++
  plan.places.map (fun pick => ⟨pick.code, holdingAccountName rules "تومان" pick.walletName, .asset,
    some "IRT"⟩) ++
  [⟨1300, goldAccountName input, .asset, some "GOLD18"⟩,
    ⟨2000, "بدهی‌ها", .liability, none⟩,
    ⟨2010, "وام / بدهی عمومی", .liability, some "USD"⟩,
    ⟨3000, "سرمایه", .equity, none⟩,
    ⟨3010, "سرمایه افتتاحیه", .equity, some "USD"⟩,
    ⟨3200, "ذخیره استهلاک و تعمیرات آتی", .equity, some "USD"⟩,
    ⟨4000, "درآمدها", .income, none⟩,
    ⟨4010, "حقوق و درآمد", .income, some "USD"⟩,
    ⟨4100, "سود سرمایه‌ای تحقق‌یافته", .income, some "USD"⟩,
    ⟨4900, "درآمد متفرقه", .income, some "USD"⟩,
    ⟨5000, "هزینه‌ها", .expense, none⟩,
    ⟨5010, "خوراک و خانه", .expense, some "USD"⟩,
    ⟨5020, "مسکن و اجاره", .expense, some "USD"⟩,
    ⟨5030, "حمل‌ونقل", .expense, some "USD"⟩,
    ⟨5040, "کارمزد و بانک", .expense, some "USD"⟩,
    ⟨5050, "سفر و رویداد", .expense, some "USD"⟩,
    ⟨5900, "هزینه متفرقه", .expense, some "USD"⟩,
    ⟨5960, "پرداخت اقساط", .expense, some "USD"⟩]

/-- The assets every setup makes sure of, with their classes. -/
def requiredAssets : List (String × String) :=
  [("IRT", "cash"), ("USD", "cash"), ("USDT", "stable"), ("BTC", "crypto"), ("ETH", "crypto")] ++
    (rules.coins.filter (·.symbol ∉ ["BTC", "ETH", "USDT"])).map (fun c => (c.symbol, c.classCode)) ++
    [("GOLD18", "gold")]

end Input

end Pwos
