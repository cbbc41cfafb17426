import Pwos.Actions.CreateTransaction

/-!
# POST on the transactions API

`app/api/transactions/route.ts`. The second way to record a transaction, apart from the form:
the client names two accounts and an amount, and may name the asset. Who sends the request is
known before; the status codes of the answers are left out.
-/

namespace Pwos

/-- An amount as the body gives it. -/
inductive AmountField where
  /-- Not there, empty, or the number zero. -/
  | missing
  | blank
  | notFinite
  | number (d : Decimal)
  deriving DecidableEq, Repr

def AmountField.orElse : AmountField → AmountField → AmountField
  | .missing, other => other
  | field, _ => field

/-- The body with what the headers say of it. -/
structure ApiRequest where
  trusted : Bool := true
  user : Option Uuid
  type : String
  entryDate : Option IsoDate
  description : String
  primaryAccountId : Option Uuid
  counterAccountId : Option Uuid
  amount : AmountField := .missing
  quantity : AmountField := .missing
  assetId : Option Uuid := none
  fromQuantity : Option Decimal := none
  toQuantity : Option Decimal := none
  irtAmount : Option Decimal := none
  bookValue : Option Decimal := none
  /-- The first one of the two headers and the body that is not empty. -/
  idempotencyKey : Option String := none

/-- A request that is complete, with a positive amount. -/
structure ApiPost where
  userId : Uuid
  type : String
  entryDate : IsoDate
  description : String
  primaryAccountId : Uuid
  counterAccountId : Uuid
  value : Decimal
  assetId : Option Uuid
  fromQuantity : Option Decimal
  toQuantity : Option Decimal
  irtAmount : Option Decimal
  bookValue : Option Decimal
  idempotencyKey : Option String

def validateAmount (field : AmountField) (label : String) : Except AppError Decimal :=
  match field with
  | .missing => .error (.failure (label ++ " الزامی است."))
  | .blank => .error (.failure (label ++ " الزامی است."))
  | .notFinite => .error (.failure (label ++ " نامعتبر است (NaN یا Infinity مجاز نیست)."))
  | .number d =>
    if d ≤ 0 then .error (.failure (label ++ " باید بزرگ‌تر از صفر باشد.")) else .ok d

/-- The checks before the database is asked. -/
def ApiRequest.validate (req : ApiRequest) : Except AppError ApiPost :=
  if req.trusted = false then .error (.failure "درخواست نامعتبر است.")
  else match req.user with
  | none => .error (.failure "نیاز به ورود (401)")
  | some userId =>
  match req.entryDate, req.primaryAccountId, req.counterAccountId with
  | some entryDate, some primaryAccountId, some counterAccountId =>
    if req.type = "" ∨ req.description = "" ∨ req.amount.orElse req.quantity = .missing then
      .error (.failure "اطلاعات تراکنش ناقص است.")
    else (validateAmount (req.amount.orElse req.quantity) "مبلغ تراکنش").map fun value =>
      { userId, type := req.type, entryDate, description := req.description, primaryAccountId
        counterAccountId, value, assetId := req.assetId, fromQuantity := req.fromQuantity
        toQuantity := req.toQuantity, irtAmount := req.irtAmount, bookValue := req.bookValue
        idempotencyKey := req.idempotencyKey }
  | _, _, _ => .error (.failure "اطلاعات تراکنش ناقص است.")

namespace ApiPost
variable (env : Env) (post : ApiPost)

/-- What the client named, else the unit of the paying account. -/
def asset : Sql Uuid :=
  match post.assetId with
  | some a => pure a
  | none => accountAsset post.primaryAccountId

/-- The amount is the quantity, and also the book value. -/
def flowCmd (assetId : Uuid) : FlowCmd :=
  { entryDate := post.entryDate, description := post.description
    cashAccountId := post.primaryAccountId, categoryAccountId := post.counterAccountId, assetId
    quantity := post.value, baseValue := post.value
    userId := some post.userId, idempotencyKey := post.idempotencyKey }

/-- A transfer at a unit price of one. -/
def transferCmd (assetId : Uuid) : TransferCmd :=
  { entryDate := post.entryDate, description := post.description
    fromAccountId := post.primaryAccountId, toAccountId := post.counterAccountId, assetId
    quantity := post.value, unitPrice := some (.ofInt 1)
    userId := some post.userId, idempotencyKey := post.idempotencyKey }

def fxCmd (assetId destAssetId : Uuid) (rate : Decimal) (legs : FxLegs) : FxCmd :=
  { entryDate := post.entryDate, description := post.description
    fromAccountId := post.primaryAccountId, toAccountId := post.counterAccountId
    fromAssetId := assetId, toAssetId := destAssetId, fromQuantity := legs.fromQuantity
    toQuantity := legs.toQuantity, bookValue := legs.bookValue, rateIrtPerUsd := some rate
    userId := some post.userId, idempotencyKey := post.idempotencyKey }

/-- The quantities are the client's; the amount of the request plays no part. -/
def legsInput (fromSymbol toSymbol : String) (rate : Decimal) : FxLegsInput :=
  { fromSymbol, toSymbol, rateIrtPerUsd := rate, fromQuantity := post.fromQuantity
    toQuantity := post.toQuantity, irtAmount := post.irtAmount
    claimedBookValue := post.bookValue }

def convert (assetId destAssetId : Uuid) : Sql PostResult := do
  let snap ← getLatestUsdIrtRateForUser (some post.userId)
  Tx.require (¬ snap.isPlaceholder) .rateMissing
  let fromSymbol ← Tx.read (·.symbolOf assetId)
  let toSymbol ← Tx.read (·.symbolOf destAssetId)
  let legs ← Tx.ofExcept (resolveFxBookLegs (post.legsInput fromSymbol toSymbol snap.rate))
  recordFx env (post.fxCmd assetId destAssetId snap.rate legs)

def transfer (assetId : Uuid) : Sql PostResult := do
  let destAssetId ← accountAsset post.counterAccountId
  if destAssetId ≠ assetId then post.convert env assetId destAssetId
  else recordTransfer env (post.transferCmd assetId)

def book : Sql PostResult := do
  validateAccountOwnership post.userId post.primaryAccountId
  validateAccountOwnership post.userId post.counterAccountId
  let assetId ← post.asset
  if post.type = "income" then recordIncome env (post.flowCmd assetId)
  else if post.type = "expense" then recordExpense env (post.flowCmd assetId)
  else if post.type = "transfer" then post.transfer env assetId
  else .fail (.failure "نوع تراکنش در این وب‌سرویس پشتیبانی نمی‌شود.")

end ApiPost

def postTransaction (env : Env) (req : ApiRequest) : Sql PostResult := do
  let post ← Tx.ofExcept req.validate
  post.book env

end Pwos
