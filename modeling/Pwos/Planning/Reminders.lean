import Pwos.Db.Schema
import Pwos.Domain.Jalali

/-!
# Reminders

A recurring income and an insurance premium are pending plans: closing one schedules the
next. `closeIncomeOccurrence` of `features/income/service.ts` and `closePremiumOccurrence` of
`features/insurance/service.ts`. Both read the plan as pending, then overwrite it by its id.
-/

namespace Pwos

/-- The chain of reminders a plan belongs to, by its first. -/
def PlannedTransaction.chainOf (p : PlannedTransaction) : Uuid := p.chain.getD p.id

/-- A plan that waits. -/
def PlannedTransaction.Open (p : PlannedTransaction) : Prop :=
  p.status = .pending ∧ p.deleted = false

instance : DecidablePred PlannedTransaction.Open := fun _ => inferInstanceAs (Decidable (_ ∧ _))

/-- The id of a new plan is not taken, and its policy and its deposit are there. -/
def Db.PlanFits (row : PlannedTransaction) (db : Db) : Prop :=
  (∀ p ∈ db.plannedTransactions, p.id ≠ row.id) ∧
    (∀ i ∈ row.insurancePolicyId, ∃ q ∈ db.insurancePolicies, q.id = i) ∧
    ∀ i ∈ row.depositId, ∃ d ∈ db.deposits, d.id = i

instance (row : PlannedTransaction) : DecidablePred (Db.PlanFits row) :=
  fun _ => inferInstanceAs (Decidable (_ ∧ _ ∧ _))

def insertPlanRow (row : PlannedTransaction) : Sql Unit :=
  Tx.insert (fun _ => [.plan row.id]) (Db.PlanFits row) (fun _ => [.insertPlan row])
    (.constraintViolation "planned_transactions")

/-- `.set({ status, executedEntryId }).where(eq(id, plan.id))`. -/
def closePlanRow (plan : PlannedTransaction) (status : PlanStatus) (entryId : Option Uuid) :
    Sql Unit :=
  Tx.writeExpecting (fun _ => [.plan plan.id])
    (fun a db => a = .planAsRead → plan ∈ db.plannedTransactions)
    (fun _ => [.closePlan plan.id status entryId, .noteClosing plan.id])

/-! ## Income -/

structure NewIncomePlan where
  userId : Uuid
  title : String
  fromDate : IsoDate
  dayOfMonth : Nat
  categoryId : Uuid
  accountId : Uuid
  assetId : Option Uuid
  amountNative : Decimal
  amountBase : Decimal
  depositId : Option Uuid := none
  /-- `until`: the last day of an occurrence. -/
  lastDate : Option IsoDate := none
  /-- `at`: the day of this occurrence. -/
  onDate : Option IsoDate := none

structure CloseIncome where
  planId : Uuid
  userId : Uuid
  entryId : Option Uuid
  amountNative : Option Decimal := none
  amountBase : Option Decimal := none

section Income
variable (cal : JalaliCalendar) (env : Env)

/-- The day of the occurrence, unless it is past the last one. -/
def NewIncomePlan.plannedDate (plan : NewIncomePlan) : Option IsoDate :=
  let date := plan.onDate.getD (nextMonthlyDate cal plan.fromDate (clampDayOfMonth plan.dayOfMonth))
  if plan.lastDate.any (· < date) then none else some date

def NewIncomePlan.row (plan : NewIncomePlan) (chain : Option Uuid) (plannedDate : IsoDate) :
    PlannedTransaction :=
  { id := env.planId, userId := some plan.userId, title := plan.title, plannedDate
    direction := .inflow, amountBase := plan.amountBase, toAccountId := some plan.accountId
    assetId := plan.assetId, recurrence := .monthly, status := .pending
    categoryId := some plan.categoryId, amountNative := some plan.amountNative
    dayOfMonth := some (clampDayOfMonth plan.dayOfMonth), depositId := plan.depositId, chain }

/-- Schedule the next occurrence, or none. -/
def scheduleNextIncome (plan : NewIncomePlan) (chain : Option Uuid) : Sql (Option Uuid) :=
  match plan.plannedDate cal with
  | none => pure none
  | some date => do
    insertPlanRow (plan.row env chain date)
    pure (some env.planId)

/-- The deposit the income is the interest of: whether it still pays, and until when. -/
def depositUntil (plan : PlannedTransaction) : Sql (Option (Option IsoDate)) :=
  match plan.depositId with
  | none => pure (some none)
  | some i => Tx.read fun db => ((db.deposits.find? (·.id = i)).filter (·.status = .active)).map
      (·.maturityDate)

def closeIncomeOccurrence (input : CloseIncome) : Sql Unit := do
  let found ← Tx.read fun db => db.plannedTransactions.find? fun p =>
    p.id = input.planId ∧ p.userId = some input.userId ∧ p.status = .pending ∧ p.deleted = false
  match found with
  | none => .fail (.failure "یادآوری درآمد یافت نشد یا قبلاً ثبت شده است.")
  | some plan => do
    closePlanRow plan (if input.entryId.isSome then .executed else .cancelled) input.entryId
    match plan.categoryId, plan.toAccountId with
    | some categoryId, some accountId => do
      match ← depositUntil plan with
      | none => pure ()
      | some lastDate => do
        let _ ← scheduleNextIncome cal env
          { userId := input.userId, title := plan.title, fromDate := plan.plannedDate
            dayOfMonth := plan.dayOfMonth.getD (jalaliDayOf cal plan.plannedDate)
            categoryId, accountId, assetId := plan.assetId
            amountNative := input.amountNative.getD (plan.amountNative.getD 0)
            amountBase := input.amountBase.getD plan.amountBase
            depositId := plan.depositId, lastDate } (some plan.chainOf)
        pure ()
    | _, _ => pure ()

end Income

/-! ## Premiums -/

def PremiumFrequency.periodMonths : PremiumFrequency → Nat
  | .once => 0
  | .monthly => 1
  | .quarterly => 3
  | .annual => 12

section Premiums
variable (cal : JalaliCalendar) (env : Env)

/-- Step from the start of the policy while the days are `past`; a hundred years at most. -/
def premiumSteps (start : IsoDate) (period : Nat) (past : IsoDate → Bool) :
    Nat → Nat → IsoDate → IsoDate
  | 0, _, next => next
  | n + 1, k, next =>
    if past next then
      premiumSteps start period past n (k + 1)
        (addJalaliMonths cal start (k * period) (cal.toJalali start).d)
    else next

/-- The first premium on or after `today`. -/
def nextPremiumDate (start : IsoDate) (frequency : PremiumFrequency) (today : IsoDate)
    (endDate : Option IsoDate) : Option IsoDate :=
  if frequency = .once then if today ≤ start then some start else none
  else
    let next := premiumSteps cal start frequency.periodMonths (· < today) 1199 1 start
    if endDate.any (· ≤ next) then none else some next

/-- The premium after `fromDate`, or none past the end of the term. -/
def followingPremiumDate (start : IsoDate) (frequency : PremiumFrequency) (fromDate : IsoDate)
    (endDate : Option IsoDate) : Option IsoDate :=
  if frequency = .once then none
  else
    let next := premiumSteps cal start frequency.periodMonths (· ≤ fromDate) 1199 1 start
    if endDate.any (· ≤ next) then none else some next

structure PremiumRow where
  userId : Uuid
  policyId : Uuid
  title : String
  date : IsoDate
  premiumToman : Decimal
  frequency : PremiumFrequency
  payAccountId : Uuid
  savingsAccountId : Option Uuid
  irtAssetId : Option Uuid

def premiumPlanRow (input : PremiumRow) (chain : Option Uuid) : PlannedTransaction :=
  { id := env.planId, userId := some input.userId, title := "حق بیمه «" ++ input.title ++ "»"
    plannedDate := input.date, direction := .outflow
    amountBase := input.premiumToman.toFixed 0, amountNative := some (input.premiumToman.toFixed 0)
    fromAccountId := some input.payAccountId, toAccountId := input.savingsAccountId
    assetId := input.irtAssetId
    recurrence := match input.frequency with
      | .once => .none
      | .annual => .yearly
      | _ => .monthly
    status := .pending, insurancePolicyId := some input.policyId, chain }

structure ClosePremium where
  planId : Uuid
  userId : Uuid
  entryId : Uuid

/-- The pending premium of the user, with its policy. The category its expense belongs in is
left out: closing does not read it. -/
def getPremiumPlan (planId userId : Uuid) (db : Db) : Option (PlannedTransaction × InsurancePolicy) :=
  (db.plannedTransactions.find? fun p => p.id = planId ∧ p.userId = some userId ∧
      p.status = .pending ∧ p.deleted = false).bind fun plan =>
    (db.insurancePolicies.find? fun q => plan.insurancePolicyId = some q.id ∧ q.userId = userId).map
      (plan, ·)

/-- The Toman, where it is defined. -/
def irtAsset (db : Db) : Option Asset := db.assets.find? fun a => a.symbol = "IRT" ∧ !a.deleted

def closePremiumOccurrence (input : ClosePremium) : Sql Unit := do
  match ← Tx.read (getPremiumPlan input.planId input.userId) with
  | none => .fail (.failure "یادآور حق بیمه پیدا نشد یا قبلاً پرداخت شده است.")
  | some (plan, held) => do
    closePlanRow plan .executed (some input.entryId)
    match (← Tx.read (·.findPolicy held.id)).filter (·.status = .active) with
    | none => pure ()
    | some policy => do
      match policy.payAccountId, followingPremiumDate cal policy.startDate policy.premiumFrequency
          plan.plannedDate policy.endDate with
      | some payAccountId, some next => do
        let irt ← Tx.read irtAsset
        insertPlanRow (premiumPlanRow env
          { userId := input.userId, policyId := policy.id, title := policy.title, date := next
            premiumToman := policy.premiumToman, frequency := policy.premiumFrequency
            payAccountId, savingsAccountId := policy.savingsAccountId
            irtAssetId := irt.map (·.id) } (some plan.chainOf))
      | _, _ => pure ()

end Premiums

end Pwos
