import Pwos.Db.Schema

/-!
# The native unit price

`features/fx/unitPrice.ts` and the rate lookup of `lib/fx.ts`: what one unit of an asset
is worth in dollars. These functions only read.
-/

namespace Pwos

/-- `text.toUpperCase()`. -/
def upper (text : String) : String := String.ofList (text.toList.map Char.toUpper)

def Db.unitOf (db : Db) (assetId : Uuid) : String :=
  upper (((db.findAsset assetId).map (·.symbol)).getD "")

/-- The first row in the order `order by day desc`. -/
def latestBy {α : Type} (day : α → IsoDate) (rows : List α) : Option α :=
  (rows.insertionSort fun a b => day b ≤ day a).head?

def FALLBACK_DISPLAY_RATE : Decimal := .ofInt 190000

inductive RateSource where
  | userSettings | exchangeRates | settings | fallback
  /-- What a row of `exchange_rates` says of itself. -/
  | named (text : String)
  deriving DecidableEq, Repr

structure FxSnapshot where
  rate : Decimal
  source : RateSource
  deriving DecidableEq, Repr

/-- Priority: the user's rate, the global exchange rate, the legacy setting, the
display fallback. -/
def getLatestUsdIrtRateForUser (userId : Option Uuid) : Sql FxSnapshot := do
  let urow ← Tx.read fun db =>
    userId.bind fun u => db.userFxSettings.find? (·.userId = u)
  match urow with
  | some row => pure ⟨row.currentRate, .userSettings⟩
  | none =>
    let row ← Tx.read fun db => latestBy (·.effectiveDate)
      (db.exchangeRates.filter fun r => r.baseCurrency = "USD" ∧ r.quoteCurrency = "IRT")
    match row with
    | some row => pure ⟨row.rate, row.source.elim .exchangeRates .named⟩
    | none =>
      let s ← Tx.read fun db => db.settings.find? (·.key = "irt_rate")
      match s.filter (·.value ≠ "") with
      | some s => pure ⟨.parse s.value.toList, .settings⟩
      | none => pure ⟨FALLBACK_DISPLAY_RATE, .fallback⟩

/-- The display placeholder rather than a real rate. -/
def FxSnapshot.isPlaceholder (snap : FxSnapshot) : Prop :=
  snap.source ∈ [RateSource.fallback, .named "fallback", .named "default"] ∨ snap.rate ≤ 0

instance (snap : FxSnapshot) : Decidable snap.isPlaceholder := inferInstanceAs (Decidable (_ ∨ _))

/-- The guard of every write that freezes a rate. -/
def assertRealUsdIrtRate (snap : FxSnapshot) : Sql FxSnapshot := do
  Tx.require (¬ snap.isPlaceholder) .rateMissing
  pure snap

/-- The rate for a write. `refresh` stands for the market, which is asked once if the user
has only the placeholder; whatever goes wrong with it is ignored. -/
def getWritableUsdIrtRateForUser (refresh : Sql Unit) (userId : Option Uuid) :
    Sql FxSnapshot := do
  let snap ← getLatestUsdIrtRateForUser userId
  if snap.isPlaceholder ∧ userId.isSome then
    let _ ← refresh.attempt
    let again ← getLatestUsdIrtRateForUser userId
    assertRealUsdIrtRate again
  else assertRealUsdIrtRate snap

/-- Freeze the rate of an entry, once. -/
def insertFxSnapshot (f : EntryFxSnapshot) : Sql Unit :=
  Tx.insert (fun _ => [.fxSnapshot f.entryId])
    (fun db => ∀ g ∈ db.entryFxSnapshots, g.entryId ≠ f.entryId)
    (fun _ => [.insertFxSnapshot f]) (.constraintViolation "entry_fx_snapshots")

def FACE_VALUE_SYMBOLS : List String := ["USD", "USDT", "USDC", "USDS", "USDE", "USDG"]

/-- The dollar value of one native unit. For IRT it is `1 / rate`, truncated. -/
def nativeUnitPriceUsd (assetId : Uuid) (userId : Option Uuid) : Sql Decimal := do
  let asset ← Tx.read (·.findAsset assetId)
  let symbol := upper ((asset.map (·.symbol)).getD "")
  if symbol = "IRT" then
    let fx ← getLatestUsdIrtRateForUser userId
    Tx.require (0 < fx.rate) .rateInvalid
    pure ((Decimal.ofInt 1).div fx.rate)
  else if symbol ∈ FACE_VALUE_SYMBOLS then
    pure (.ofInt 1)
  else
    let price ← Tx.read fun db => latestBy (·.asOf) (db.prices.filter (·.assetId = assetId))
    pure ((price.map (·.priceBase)).getD (.ofInt 1))

theorem readOnly_getLatestUsdIrtRateForUser (userId : Option Uuid) :
    (getLatestUsdIrtRateForUser userId).ReadOnly := by
  unfold getLatestUsdIrtRateForUser
  refine (Tx.readOnly_read _).bind fun urow => ?_
  split
  · exact Tx.readOnly_done _
  refine (Tx.readOnly_read _).bind fun row => ?_
  split
  · exact Tx.readOnly_done _
  refine (Tx.readOnly_read _).bind fun s => ?_
  split <;> exact Tx.readOnly_done _

theorem readOnly_getWritableUsdIrtRateForUser (userId : Option Uuid) :
    (getWritableUsdIrtRateForUser (pure ()) userId).ReadOnly := by
  unfold getWritableUsdIrtRateForUser
  have hreal : ∀ fx, (assertRealUsdIrtRate fx).ReadOnly := fun fx =>
    (Tx.readOnly_require _ _).bind fun _ => Tx.readOnly_done _
  refine (readOnly_getLatestUsdIrtRateForUser _).bind fun snap => ?_
  split
  · refine (Tx.ReadOnly.attempt (Tx.readOnly_done ())).bind fun _ => ?_
    exact (readOnly_getLatestUsdIrtRateForUser _).bind fun again => hreal _
  · exact hreal _

theorem readOnly_nativeUnitPriceUsd (assetId : Uuid) (userId : Option Uuid) :
    (nativeUnitPriceUsd assetId userId).ReadOnly := by
  unfold nativeUnitPriceUsd
  refine (Tx.readOnly_read _).bind fun asset => ?_
  simp only
  split
  · exact (readOnly_getLatestUsdIrtRateForUser _).bind fun fx =>
      (Tx.readOnly_require _ _).bind fun _ => Tx.readOnly_done _
  split
  · exact Tx.readOnly_done _
  · exact (Tx.readOnly_read _).bind fun _ => Tx.readOnly_done _

end Pwos
