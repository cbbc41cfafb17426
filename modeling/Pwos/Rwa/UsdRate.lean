import Pwos.Fx.UnitPrice

/-!
# Dated dollar rates

`features/rwa/vehicle/fx.ts`: the rate a registry freezes beside an amount, and the only
conversion it uses. The price history that comes with the program is a parameter.
-/

namespace Pwos

structure DatedRate where
  rate : Decimal
  effectiveDate : IsoDate
  deriving DecidableEq, Repr

structure UsdRateResolution where
  rate : Decimal
  /-- The day of the rate that was used. -/
  effectiveDate : IsoDate
  source : RateOrigin
  /-- Was there a rate for the very day? -/
  isExact : Bool
  deriving DecidableEq, Repr

/-- A rate of the dollar in Toman. -/
def ExchangeRate.IsUsdIrt (r : ExchangeRate) : Prop :=
  r.baseCurrency = "USD" ∧ r.quoteCurrency = "IRT"

instance : DecidablePred ExchangeRate.IsUsdIrt := fun _ => inferInstanceAs (Decidable (_ ∧ _))

section Resolve
variable (history : IsoDate → Option DatedRate) (env : Env)

/-- The recorded rate of the day; else the bundled history, for past days, or the last rate
recorded before, whichever is closer; else the user's current rate. -/
def resolveUsdRateForDate (date : IsoDate) (userId : Option Uuid) : Sql UsdRateResolution := do
  let exact ← Tx.read fun db =>
    db.exchangeRates.find? fun r => r.IsUsdIrt ∧ r.effectiveDate = date
  match exact.filter (0 < ·.rate) with
  | some row => pure ⟨row.rate, row.effectiveDate, .exact, true⟩
  | none =>
    let row ← Tx.read fun db => latestBy (·.effectiveDate)
      (db.exchangeRates.filter fun r => r.IsUsdIrt ∧ r.effectiveDate ≤ date)
    let before := row.filter (0 < ·.rate)
    let closer := (if date < env.today then history date else none).filter fun past =>
      ∀ b ∈ before, b.effectiveDate ≤ past.effectiveDate
    match closer, before with
    | some past, _ =>
      pure ⟨past.rate, past.effectiveDate, .historical, past.effectiveDate = date⟩
    | none, some row => pure ⟨row.rate, row.effectiveDate, .nearest, false⟩
    | none, none =>
      let snap ← getLatestUsdIrtRateForUser userId
      let source := if snap.source ∈ [.fallback, .named "fallback"] then .fallback else .current
      pure ⟨snap.rate, date, source, false⟩

/-- For a write, the placeholder is refused. -/
def resolveUsdRateForDateToFreeze (date : IsoDate) (userId : Option Uuid) :
    Sql UsdRateResolution := do
  let resolved ← resolveUsdRateForDate history env date userId
  Tx.require (resolved.source ≠ .fallback)
    (.failure "نرخ معتبر دلار این تاریخ در دسترس نیست؛ ثبت تا تکمیل تاریخچه انجام نمی‌شود.")
  pure resolved

theorem readOnly_resolveUsdRateForDate (date : IsoDate) (userId : Option Uuid) :
    (resolveUsdRateForDate history env date userId).ReadOnly := by
  refine (Tx.readOnly_read _).bind fun exact => ?_
  split
  · exact Tx.readOnly_done _
  refine (Tx.readOnly_read _).bind fun row => ?_
  simp only
  split
  · exact Tx.readOnly_done _
  · exact Tx.readOnly_done _
  · exact (readOnly_getLatestUsdIrtRateForUser userId).bind fun _ => Tx.readOnly_done _

theorem readOnly_resolveUsdRateForDateToFreeze (date : IsoDate) (userId : Option Uuid) :
    (resolveUsdRateForDateToFreeze history env date userId).ReadOnly :=
  (readOnly_resolveUsdRateForDate history env date userId).bind fun _ =>
    (Tx.readOnly_require _ _).bind fun _ => Tx.readOnly_done _

end Resolve

/-- The value in dollars, to the cent. -/
def tomanToUsd (valueToman usdRate : Decimal) : Decimal :=
  if usdRate ≤ 0 then 0 else (valueToman.div usdRate).toFixed 2

end Pwos
