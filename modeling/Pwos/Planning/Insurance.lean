import Pwos.Accounts.SystemAccounts
import Pwos.Planning.CreateDebt
import Pwos.Planning.Reminders

/-!
# Insurance policies

`createPolicy`, `renewPolicy`, `cancelPolicy` and `deletePolicy` of
`features/insurance/service.ts`. A policy is paid in cash, by a premium that waits and is
rescheduled, or through a debt. Which accounts are Toman bank accounts is a parameter; wallets
are left out.
-/

namespace Pwos

/-- What a kind of policy insures. -/
inductive Insured where
  | vehicle | property | nothing
  deriving DecidableEq, Repr

def INSURANCE_KINDS : List (String × Insured) :=
  [("third_party", .vehicle), ("car_body", .vehicle), ("fire", .property), ("life", .nothing),
    ("health", .nothing), ("travel", .nothing), ("liability", .property), ("other", .nothing)]

inductive PaymentMode where
  | cash | installments | debt
  deriving DecidableEq, Repr

def PaymentMode.parse : String → Option PaymentMode
  | "cash" => some .cash
  | "installments" => some .installments
  | "debt" => some .debt
  | _ => none

def PremiumFrequency.parse : String → Option PremiumFrequency
  | "once" => some .once
  | "monthly" => some .monthly
  | "quarterly" => some .quarterly
  | "annual" => some .annual
  | _ => none

def PremiumFrequency.text : PremiumFrequency → String
  | .once => "once"
  | .monthly => "monthly"
  | .quarterly => "quarterly"
  | .annual => "annual"

structure PolicyInput where
  kind : String
  title : String
  insurer : Option String := none
  policyNumber : Option String := none
  /-- `none` for a text that has not the form of a day. -/
  startDate : Option IsoDate
  /-- A text that is no day reads as 0. -/
  endDate : Option IsoDate := none
  /-- `none` for a text that is no number; a blank one is 0. -/
  premiumToman : Option Decimal
  premiumFrequency : String
  payAccountId : Option Uuid := none
  paymentMode : Option String := none
  debtId : Option Uuid := none
  downPaymentPercent : Decimal := 0
  installmentCount : Option Int := none
  intervalMonths : Nat := 1
  firstDueDate : Option IsoDate := none
  usdIrtRate : Option Decimal := none
  /-- `some none` for a text that is no number. -/
  coverageToman : Option (Option Decimal) := none
  insuredPropertyId : Option Uuid := none
  insuredVehicleId : Option Uuid := none
  withSavings : Bool := false
  note : Option String := none
  renewedFromId : Option Uuid := none

/-- The text without the blanks around it, if there is something left; not too long. -/
def clean (text : Option String) (max : Nat) : Except AppError (Option String) :=
  let trimmed := String.ofList
    (((text.getD "").toList.dropWhile Char.isWhitespace).rdropWhile Char.isWhitespace)
  if max < trimmedLength trimmed then .error (.failure "یکی از متن‌ها بیش از حد طولانی است.")
  else .ok (if trimmed = "" then none else some trimmed)

/-- Down payment of a policy bought on installments, rounded to the Toman. -/
def downPaymentToman (total percent : Decimal) : Except AppError Decimal :=
  if percent < 0 ∨ .ofInt 100 ≤ percent then
    .error (.failure "پیش‌پرداخت باید کمتر از ۱۰۰ درصد باشد.")
  else .ok (((total.mul percent).div (.ofInt 100)).toFixed 0)

/-- What `createPolicy` works out of the input before it opens its transaction. -/
structure PolicyTerms where
  kind : String
  insured : Insured
  frequency : PremiumFrequency
  title : String
  startDate : IsoDate
  endDate : Option IsoDate
  premium : Decimal
  coverage : Option Decimal
  mode : PaymentMode
  withSavings : Bool
  down : Decimal
  payAccountId : Option Uuid

/-- The value, or the complaint that there is none. -/
def orComplain {α : Type} (value : Option α) (text : String) : Except AppError α :=
  match value with
  | some a => .ok a
  | none => .error (.failure text)

def PolicyInput.terms (input : PolicyInput) : Except AppError PolicyTerms := do
  let (kind, insured) ← orComplain (INSURANCE_KINDS.find? (·.1 = input.kind))
    "نوع بیمه را انتخاب کنید."
  let frequency ← orComplain (PremiumFrequency.parse input.premiumFrequency)
    "دوره‌ی پرداخت حق بیمه را انتخاب کنید."
  let title ← orComplain (← clean (some input.title) 120) "نام بیمه‌نامه را وارد کنید."
  let startDate ← orComplain input.startDate "تاریخ شروع را وارد کنید."
  let endDate ← orComplain (if input.endDate.any (· ≤ startDate) then none else some input.endDate)
    "تاریخ پایان باید بعد از شروع باشد."
  let premium ← orComplain input.premiumToman "مبلغ‌ها را به عدد وارد کنید."
  let coverage ← orComplain
    (if input.coverageToman = some none then none else some input.coverageToman.join)
    "مبلغ‌ها را به عدد وارد کنید."
  let premium ← orComplain (if 0 < premium then some premium else none) "مبلغ حق بیمه را وارد کنید."
  let mode ← orComplain (PaymentMode.parse (input.paymentMode.getD "cash"))
    "نحوه‌ی پرداخت را انتخاب کنید."
  let down ← if mode = .installments then
      downPaymentToman (premium.toFixed 0) input.downPaymentPercent
    else pure 0
  pure
    { kind, insured, frequency, title, startDate, endDate, premium
      coverage := coverage.filter (0 < ·), mode
      withSavings := kind = "life" ∧ mode = .cash ∧ input.withSavings
      down, payAccountId := if mode = .cash ∨ 0 < down then input.payAccountId else none }

/-! ## The parts of a registration -/

/-- A Toman bank account of the user. -/
def tomanBankAccount (isTomanBankAccount : Account → Option Asset → Bool) (userId : Uuid)
    (accountId : Option Uuid) : Sql Unit := do
  let found ← Tx.read fun db => (accountId.bind db.findAccount).map fun a =>
    (a, a.assetId.bind db.findAsset)
  Tx.require (found.any fun (a, asset) => a.userId = some userId ∧ a.type = .asset ∧
      a.deleted = false ∧ isTomanBankAccount a asset)
    (.failure "حق بیمه را از یکی از حساب‌های بانکی تومانیِ خودتان انتخاب کنید.")

/-- An active policy that is paid through the debt. -/
def Db.PaysFor (db : Db) (debtId : Uuid) : Prop :=
  ∃ q ∈ db.insurancePolicies, q.debtId = some debtId ∧ q.status = .active

instance (db : Db) (debtId : Uuid) : Decidable (db.PaysFor debtId) :=
  inferInstanceAs (Decidable (∃ q ∈ db.insurancePolicies, _))

/-- A debt the user registered before. -/
def linkDebt (userId : Uuid) (debtId : Option Uuid) : Sql Uuid := do
  let debtId ← Tx.ofExcept (orComplain debtId "بدهیِ این بیمه‌نامه را انتخاب کنید.")
  let found ← Tx.read fun db => db.debts.find? fun d => d.id = debtId ∧ d.userId = some userId
  match found.filter fun d => d.deleted = false ∧ d.status = .active ∧ d.direction = "payable" with
  | none => .fail (.failure "بدهی انتخاب‌شده پیدا نشد یا تسویه شده است.")
  | some d => do
    let taken ← Tx.read fun db => decide (db.PaysFor d.id)
    Tx.require (taken = false) (.failure "این بدهی از قبل به بیمه‌نامه‌ی دیگری وصل است.")
    pure d.id

section Create
variable (cal : JalaliCalendar) (isTomanBankAccount : Account → Option Asset → Bool) (env : Env)
  (userId : Uuid) (input : PolicyInput) (terms : PolicyTerms)

/-- A debt for the part that is not paid up front. -/
def installmentDebt : Sql Uuid := do
  let count ← Tx.ofExcept (orComplain (input.installmentCount.filter fun n => 1 ≤ n ∧ n ≤ 60)
    "تعداد اقساط را بین ۱ تا ۶۰ انتخاب کنید.")
  let rate ← Tx.ofExcept (orComplain input.usdIrtRate
    "نرخ تبدیل دلار به تومان برای ثبت بدهی موجود نیست.")
  let insurer ← Tx.ofExcept (clean input.insurer 80)
  let months := if input.intervalMonths = 0 then 1 else input.intervalMonths
  createDebtRecord env
    { userId := some userId, title := "بیمه «" ++ terms.title ++ "»"
      creditor := insurer.getD "شرکت بیمه"
      principalIrt := (terms.premium - terms.down).toFixed 0, startDate := some terms.startDate
      direction := some "payable", installmentCount := some count, intervalMonths := some months
      firstDueDate := input.firstDueDate.getD (addJalaliMonths cal terms.startDate months
        (jalaliDayOf cal terms.startDate)) } rate

def policyDebt : Sql (Option Uuid) :=
  match terms.mode with
  | .cash => pure none
  | .debt => do pure (some (← linkDebt userId input.debtId))
  | .installments => do pure (some (← installmentDebt cal env userId input terms))

/-- The insured property, then the insured vehicle: those of the user's that the kind is about. -/
def insuredItems : Sql (Option Uuid × Option Uuid) := do
  let propertyId := input.insuredPropertyId.filter fun _ => terms.insured = .property
  let owned ← Tx.read fun db => decide (∀ i ∈ propertyId,
    ∃ p ∈ db.realEstateProperties, p.id = i ∧ p.userId = userId)
  Tx.require (owned = true) (.failure "ملک انتخاب‌شده متعلق به شما نیست.")
  let vehicleId := input.insuredVehicleId.filter fun _ => terms.insured = .vehicle
  let owned ← Tx.read fun db => decide (∀ i ∈ vehicleId,
    ∃ v ∈ db.vehicleAssets, v.id = i ∧ v.userId = userId)
  Tx.require (owned = true) (.failure "خودروی انتخاب‌شده متعلق به شما نیست.")
  pure (propertyId, vehicleId)

/-- `nextAssetCode`: the numeric codes of the user's and the shared asset accounts, and ten
more than the highest. -/
def nextAssetCode (db : Db) : String :=
  let codes := (db.accounts.filter fun a => a.type = .asset ∧ a.deleted = false ∧
    (a.userId = none ∨ a.userId = some userId)).map fun a =>
      if a.code ≠ "" ∧ a.code.toList.all Char.isDigit then
        a.code.toList.foldl (fun n c => 10 * n + (c.toNat - '0'.toNat)) 0
      else 0
  toString (codes.foldl max 1600 + 10)

/-- Try to take the next code, `attempts` times at most. -/
def insertAssetAccount (name : String) (assetId : Uuid) : Nat → Sql Account
  | 0 => .fail (.failure "ایجاد کد یکتای حساب ناموفق بود؛ دوباره تلاش کنید.")
  | attempts + 1 => do
    let code ← Tx.read (nextAssetCode userId)
    match ← insertAccountOnConflictDoNothing
      { id := env.accountId, createdAt := env.now, userId := some userId, code, name
        type := .asset, assetId := some assetId } with
    | some account => pure account
    | none => insertAssetAccount name assetId attempts

/-- The account of a life policy's cash value, opened at zero. -/
def savingsAccount (irt : Option Asset) : Sql (Option Uuid) :=
  if terms.withSavings then do
    let irt ← Tx.ofExcept (orComplain irt "ارز تومان تعریف نشده است.")
    let account ← insertAssetAccount env userId ("اندوخته بیمه عمر «" ++ terms.title ++ "»")
      irt.id 8
    pure (some account.id)
  else pure none

/-- The keys of a new policy. -/
def Db.PolicyFits (row : InsurancePolicy) (db : Db) : Prop :=
  (∀ q ∈ db.insurancePolicies, q.id ≠ row.id) ∧
    (∀ i ∈ row.renewedFromId, ∃ q ∈ db.insurancePolicies, q.id = i) ∧
    ∀ i ∈ row.debtId, ∃ d ∈ db.debts, d.id = i

instance (row : InsurancePolicy) : DecidablePred (Db.PolicyFits row) :=
  fun _ => inferInstanceAs (Decidable (_ ∧ _ ∧ _))

def insertPolicyRow (row : InsurancePolicy) : Sql Unit :=
  Tx.insert (fun _ => [.policy row.id]) (Db.PolicyFits row) (fun _ => [.insertPolicy row])
    (.constraintViolation "insurance_policies")

/-- The first premium: none where a debt carries the payments, the down payment where there is
one, else the premium of the schedule. -/
def firstPremium (savingsAccountId : Option Uuid) (irt : Option Asset) : Sql Unit :=
  let frequency := if terms.mode = .cash then terms.frequency else .once
  let first :=
    if terms.mode = .debt ∨ terms.mode = .installments ∧ ¬ 0 < terms.down then none
    else nextPremiumDate cal terms.startDate frequency env.today terms.endDate
  match first, terms.payAccountId with
  | some date, some payAccountId => insertPlanRow (premiumPlanRow env
      { userId, policyId := env.policyId, title := terms.title, date
        premiumToman := if terms.mode = .cash then terms.premium.toFixed 0 else terms.down
        frequency, payAccountId, savingsAccountId, irtAssetId := irt.map (·.id) } none)
  | _, _ => pure ()

/-- The row of the new policy. -/
def PolicyTerms.row (debtId propertyId vehicleId savingsAccountId : Option Uuid)
    (insurer policyNumber note : Option String) : InsurancePolicy :=
  { id := env.policyId, userId, kind := terms.kind, title := terms.title, insurer, policyNumber
    startDate := terms.startDate, endDate := terms.endDate
    premiumToman := terms.premium.toFixed 0
    premiumFrequency := if terms.mode = .cash then terms.frequency else .once
    payAccountId := terms.payAccountId, debtId
    coverageToman := terms.coverage.map (·.toFixed 0), insuredPropertyId := propertyId
    insuredVehicleId := vehicleId, savingsAccountId, renewedFromId := input.renewedFromId, note }

/-- Register a policy. -/
def createPolicy : Sql Uuid := do
  let terms ← Tx.ofExcept input.terms
  Tx.when (terms.mode = .cash ∨ 0 < terms.down)
    (tomanBankAccount isTomanBankAccount userId terms.payAccountId)
  let debtId ← policyDebt cal env userId input terms
  let (propertyId, vehicleId) ← insuredItems userId input terms
  let irt ← Tx.read irtAsset
  let savingsAccountId ← savingsAccount env userId terms irt
  let insurer ← Tx.ofExcept (clean input.insurer 80)
  let policyNumber ← Tx.ofExcept (clean input.policyNumber 60)
  let note ← Tx.ofExcept (clean input.note 500)
  insertPolicyRow (terms.row env userId input debtId propertyId vehicleId savingsAccountId insurer
    policyNumber note)
  firstPremium cal env userId terms savingsAccountId irt
  pure env.policyId

end Create

/-! ## Closing a policy -/

/-- The pending premiums of a policy: those found are cancelled once their rows are free, if
they still are what was looked for. -/
def cancelPendingPremiums (userId policyId : Uuid) : Sql Unit := do
  let found ← Tx.read fun db =>
    (db.plannedTransactions.filter fun p => p.IsPremium policyId userId).map (·.id)
  Tx.write (fun _ => found.map .plan) fun db => [.cancelPlans
    ((db.plannedTransactions.filter fun p => p.id ∈ found ∧ p.IsPremium policyId userId).map (·.id))]

/-- The pending premiums of a policy go to its savings account. -/
def setPremiumAccount (policyId accountId : Uuid) : Sql Unit := do
  let found ← Tx.read fun db => (db.plannedTransactions.filter fun p =>
    p.insurancePolicyId = some policyId ∧ p.status = .pending).map (·.id)
  Tx.write (fun _ => found.map .plan) fun db => [.setPlansAccount
    ((db.plannedTransactions.filter fun p => p.id ∈ found ∧ p.insurancePolicyId = some policyId ∧
      p.status = .pending).map (·.id)) accountId]

structure RenewInput where
  startDate : Option IsoDate := none
  endDate : Option IsoDate
  premiumToman : Option Decimal
  coverageToman : Option (Option Decimal) := none
  payAccountId : Option Uuid := none

/-- The policy that continues `old`. -/
def RenewInput.policyInput (input : RenewInput) (env : Env) (old : InsurancePolicy) : PolicyInput :=
  { kind := old.kind, title := old.title, insurer := old.insurer
    startDate := some ((input.startDate.or old.endDate).getD env.today), endDate := input.endDate
    premiumToman := input.premiumToman, premiumFrequency := old.premiumFrequency.text
    payAccountId := input.payAccountId.or old.payAccountId
    coverageToman := input.coverageToman.or (old.coverageToman.map some)
    insuredPropertyId := old.insuredPropertyId, insuredVehicleId := old.insuredVehicleId
    note := old.note, renewedFromId := some old.id }

/-- What `renewPolicy` reads first. The new term is then a `createPolicy` of its own, committed
before `finishRenewal` begins. -/
def termToRenew (userId id : Uuid) : Sql InsurancePolicy := do
  match (← Tx.read fun db => db.insurancePolicies.find? fun q => q.id = id ∧ q.userId = userId).filter
      (·.status = .active) with
  | none => .fail (.failure "بیمه‌نامه‌ی فعال پیدا نشد.")
  | some old => pure old

/-- The second transaction of `renewPolicy`. -/
def finishRenewal (userId : Uuid) (old : InsurancePolicy) (newId : Uuid) : Sql Unit := do
  match old.savingsAccountId with
  | none => pure ()
  | some accountId => do
    Tx.write (fun _ => [.policy newId]) (fun _ => [.setPolicySavings newId accountId])
    setPremiumAccount newId accountId
  Tx.write (fun _ => [.policy old.id]) (fun _ => [.setPolicyStatus old.id userId .renewed])
  cancelPendingPremiums userId old.id

/-- The policy is the user's and active. -/
def Db.OwnsActivePolicy (userId id : Uuid) (db : Db) : Prop :=
  ∃ q ∈ db.insurancePolicies, q.id = id ∧ q.userId = userId ∧ q.status = .active

instance (userId id : Uuid) : DecidablePred (Db.OwnsActivePolicy userId id) :=
  fun db => inferInstanceAs (Decidable (∃ q ∈ db.insurancePolicies, _))

def cancelPolicy (userId id : Uuid) : Sql Unit := do
  .stmt (fun _ => [.policy id]) (fun _ _ => True)
    (fun db => if db.OwnsActivePolicy userId id then [.setPolicyStatus id userId .cancelled] else [])
    (fun db => if db.OwnsActivePolicy userId id then .done ()
      else .fail (.failure "بیمه‌نامه پیدا نشد یا قبلاً بسته شده است."))
  cancelPendingPremiums userId id

/-- The rows a deletion touches: the policy, and those that refer to it. -/
def Db.rowsOfPolicy (id : Uuid) (db : Db) : List Row :=
  Row.policy id ::
    (db.insurancePolicies.filter (·.renewedFromId = some id)).map (Row.policy ·.id) ++
    (db.plannedTransactions.filter (·.insurancePolicyId = some id)).map (Row.plan ·.id)

def deletePolicy (userId id : Uuid) : Sql Unit := do
  cancelPendingPremiums userId id
  Tx.write (fun db => (db.insurancePolicies.filter fun q => q.renewedFromId = some id ∧
    q.userId = userId).map (.policy ·.id)) (fun _ => [.detachRenewals id userId])
  Tx.insert (Db.rowsOfPolicy id)
    (fun db => ∃ q ∈ db.insurancePolicies, q.id = id ∧ q.userId = userId)
    (fun _ => [.deletePolicy id userId]) (.failure "بیمه‌نامه پیدا نشد.")

end Pwos
