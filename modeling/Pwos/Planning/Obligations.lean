import Pwos.Db.Schema

/-!
# Obligations

`features/planning/obligations.ts` and the payment calculation of `installmentFx.ts`:
which way a settlement moves cash, what is still owed on an installment, and the state a
settlement leaves it in. Pure functions.
-/

namespace Pwos

inductive ObligationDirection where
  | payable | receivable
  deriving DecidableEq, Repr

/-- Anything unrecognised reads as `payable`. -/
def resolveDirection (value : Option String) : ObligationDirection :=
  if value = some "receivable" then .receivable else .payable

def isReceivable (value : Option String) : Bool := resolveDirection value = .receivable

/-- The sign a settlement applies to the user's cash. -/
def settlementSign (direction : Option String) : Int := if isReceivable direction then 1 else -1

theorem settlementSign_eq (direction : Option String) :
    settlementSign direction = 1 ∨ settlementSign direction = -1 := by
  unfold settlementSign
  split <;> simp

/-! ## Partial payments -/

structure PartialPaymentRow where
  status : InstallmentStatus
  amountToman : Option Decimal
  paidToman : Option Decimal

def paidSoFarToman (row : PartialPaymentRow) : Decimal :=
  let paid := row.paidToman.getD 0
  if paid < 0 then 0 else paid

/-- Toman still owed on one installment. -/
def remainingToman (row : PartialPaymentRow) : Decimal :=
  if row.status = .paid then 0
  else
    match row.amountToman with
    | none => 0
    | some contractual =>
      let left := contractual - paidSoFarToman row
      if left < 0 then 0 else left

structure PartialPayment where
  status : InstallmentStatus
  paidToman : Decimal
  remainingToman : Decimal
  deriving DecidableEq, Repr

/-- The state one installment lands in after settling `payToman` against it. -/
def applyPartialPayment (row : PartialPaymentRow) (payToman : Decimal) :
    Except AppError PartialPayment :=
  if row.status = .paid then .error .settlementClosed
  else if payToman ≤ 0 then .error .settlementNotPositive
  else
    let left := remainingToman row
    if left ≤ 0 then .error .nothingOutstanding
    else if left < payToman then .error .settlementExceeds
    else
      let total := paidSoFarToman row + payToman
      let stillOwed := left - payToman
      .ok { status := if stillOwed = 0 then .paid else .partlyPaid
            paidToman := total.toFixed 0, remainingToman := stillOwed.toFixed 0 }

theorem applyPartialPayment_pos {row : PartialPaymentRow} {payToman : Decimal}
    {next : PartialPayment} (h : applyPartialPayment row payToman = .ok next) : 0 < payToman := by
  unfold applyPartialPayment at h
  split at h
  · cases h
  split at h
  · cases h
  · exact not_le.mp ‹_›

/-! ## The payment calculation -/

structure InstallmentPayment where
  paidToman : Decimal
  paidFxRate : Decimal
  paidUsd : Decimal
  deriving DecidableEq, Repr

/-- What a payment freezes: its Toman, the rate, and Toman ÷ rate. -/
def calculateInstallmentPayment (amountToman fxRate : Decimal) :
    Except AppError InstallmentPayment :=
  if fxRate ≤ 0 then .error .paymentRateMissing
  else .ok { paidToman := amountToman.toFixed 0, paidFxRate := fxRate
             paidUsd := amountToman.div fxRate }

theorem calculateInstallmentPayment_ok {amountToman fxRate : Decimal} {s : InstallmentPayment}
    (h : calculateInstallmentPayment amountToman fxRate = .ok s) :
    0 < fxRate ∧ s = ⟨amountToman.toFixed 0, fxRate, amountToman.div fxRate⟩ := by
  unfold calculateInstallmentPayment at h
  split at h
  · cases h
  · rename_i hpos
    cases h
    exact ⟨not_le.mp hpos, rfl⟩

end Pwos
