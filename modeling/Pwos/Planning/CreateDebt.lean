import Pwos.Domain.Calendar
import Pwos.Planning.Obligations

/-!
# Creating an obligation

`createDebtRecord` of `features/planning/createDebt.ts` with the schedule functions of
`features/planning/obligations.ts`: validate, split the principal over the due dates,
insert the debt and its installments.
-/

namespace Pwos

/-! ## The schedule -/

inductive ScheduleInput where
  | once (dueDate : IsoDate)
  | recurring (count : Int) (intervalMonths : Nat) (firstDueDate : IsoDate)
  | custom (dueDates : List IsoDate)
  deriving DecidableEq, Repr

def MAX_INSTALLMENTS : Int := 360
def RECURRING_INTERVALS : List Nat := [1, 2, 3, 4, 5, 6]

def generateDueDates : ScheduleInput → List IsoDate
  | .once dueDate => [dueDate]
  | .custom dueDates => dueDates.insertionSort (· ≤ ·)
  | .recurring count intervalMonths firstDueDate =>
    (List.range count.toNat).map fun i => addMonthsClamped firstDueDate (i * intervalMonths)

/-- `isIsoDate` of obligations.ts: its round trip through `Date.UTC` refuses the years below
100, which that function reads as years of the twentieth century. -/
def isIsoDueDate (d : IsoDate) : Bool := isIsoDate d && 100 ≤ IsoDate.year d

/-- The first complaint about a list of dates. -/
def customDateError (startDate : IsoDate) : List IsoDate → Option String
  | [] => none
  | d :: ds =>
    if ¬ isIsoDueDate d then some "تاریخ سررسید هر قسط را کامل انتخاب کنید."
    else if d < startDate then some "سررسید هیچ قسطی نمی‌تواند قبل از تاریخ شروع باشد."
    else customDateError startDate ds

def validateSchedule (startDate : IsoDate) : ScheduleInput → Option String
  | .once dueDate =>
    if ¬ isIsoDueDate dueDate then some "تاریخ سررسید را انتخاب کنید."
    else if dueDate < startDate then some "سررسید نمی‌تواند قبل از تاریخ شروع باشد."
    else none
  | .custom dates =>
    if dates = [] then some "برای زمان‌بندی سفارشی، تاریخ هر قسط را وارد کنید."
    else if MAX_INSTALLMENTS < dates.length then
      some ("تعداد اقساط نمی‌تواند بیشتر از " ++ toString MAX_INSTALLMENTS ++ " باشد.")
    else
      match customDateError startDate dates with
      | some e => some e
      | none =>
        if ¬ dates.Nodup then some "دو قسط نمی‌توانند سررسید یکسان داشته باشند." else none
  | .recurring count intervalMonths firstDueDate =>
    if count < 1 ∨ MAX_INSTALLMENTS < count then
      some ("تعداد اقساط باید بین ۱ تا " ++ toString MAX_INSTALLMENTS ++ " باشد.")
    else if intervalMonths ∉ RECURRING_INTERVALS then some "فاصله اقساط را انتخاب کنید."
    else if ¬ isIsoDueDate firstDueDate then some "تاریخ اولین سررسید را انتخاب کنید."
    else if firstDueDate < startDate then some "اولین سررسید نمی‌تواند قبل از تاریخ شروع باشد."
    else none

/-! ## The amounts -/

/-- Every row gets the floor, the earliest rows one Toman of the remainder each. -/
def splitPrincipal (principalToman : Decimal) (count : Nat) : Except AppError (List Decimal) :=
  if count < 1 then .error (.failure "تعداد اقساط باید حداقل یک باشد.")
  else if principalToman ≤ 0 then .error (.failure "اصل مبلغ باید بزرگ‌تر از صفر باشد.")
  else
    let total := (principalToman.toFixed 0).raw.tdiv ONE
    let base := total.tdiv count
    let remainder := total.tmod count
    .ok ((List.range count).map fun i : Nat => .ofInt (base + if (i : Int) < remainder then 1 else 0))

/-- An explicit figure is honoured as entered; without one the principal is split. -/
def resolveScheduleAmounts (principalToman : Decimal) (count : Nat)
    (installmentToman : Option Decimal) : Except AppError (List Decimal) :=
  if count < 1 then .ok []
  else
    match installmentToman.filter (0 < ·) with
    | some each => .ok (List.replicate count (each.toFixed 0))
    | none => splitPrincipal principalToman count

/-! ## The record -/

structure CreateDebtInput where
  userId : Option Uuid
  title : String
  creditor : String
  principalIrt : Decimal
  interestRate : Decimal := 0
  /-- `none` for a text that has not the form of a day. -/
  startDate : Option IsoDate
  direction : Option String := none
  installmentCount : Option Int := none
  intervalMonths : Option Nat := none
  /-- A text that is no day reads as 0. -/
  firstDueDate : IsoDate := 0
  /-- Without the blank ones. -/
  customDueDates : List IsoDate := []
  installmentIrt : Option Decimal := none

/-- Custom dates win over a count. -/
def resolveScheduleInput (input : CreateDebtInput) : Option ScheduleInput :=
  if input.customDueDates ≠ [] then some (.custom input.customDueDates)
  else
    let count := input.installmentCount.getD 0
    if count ≤ 0 then none
    else some (.recurring count (input.intervalMonths.getD 1) input.firstDueDate)

/-- `text.trim().length`, in UTF-16 units. -/
def trimmedLength (text : String) : Nat :=
  (((text.toList.dropWhile Char.isWhitespace).rdropWhile Char.isWhitespace).map
    fun c => if c.toNat < 0x10000 then 1 else 2).sum

def validateDebtInput (input : CreateDebtInput) : Option String :=
  let direction := resolveDirection input.direction
  let noun := if direction = .payable then "بدهی" else "طلب"
  if trimmedLength input.title < 2 then some ("عنوان " ++ noun ++ " را وارد کنید.")
  else if trimmedLength input.creditor < 2 then
    some (if direction = .payable then "نام بستانکار را وارد کنید." else "نام بدهکار را وارد کنید.")
  else if input.principalIrt ≤ 0 then some ("اصل " ++ noun ++ " باید بزرگ‌تر از صفر باشد.")
  else if input.interestRate < 0 ∨ .ofInt 100 < input.interestRate then
    some "نرخ سود باید بین صفر تا ۱۰۰ درصد باشد."
  else
    match input.startDate with
    | none => some "تاریخ شروع را انتخاب کنید."
    | some startDate =>
      if ¬ ∀ m ∈ input.intervalMonths, m ∈ RECURRING_INTERVALS then
        some "فاصله اقساط را انتخاب کنید."
      else if input.installmentCount.getD 0 < 0 ∨ MAX_INSTALLMENTS < input.installmentCount.getD 0 then
        some ("تعداد اقساط باید بین صفر تا " ++ toString MAX_INSTALLMENTS ++ " باشد.")
      else
        match resolveScheduleInput input with
        | none => none
        | some schedule =>
          match validateSchedule startDate schedule with
          | some e => some e
          | none =>
            if ∃ t ∈ input.installmentIrt, t ≤ 0 then some "مبلغ هر قسط باید بزرگ‌تر از صفر باشد."
            else none

/-- Nothing to complain about. -/
def refuseInvalid (complaint : Option String) : Except AppError Unit :=
  match complaint with
  | some text => .error (.failure text)
  | none => .ok ()

namespace CreateDebtInput
variable (input : CreateDebtInput)

def dueDates : List IsoDate := ((resolveScheduleInput input).map generateDueDates).getD []

def debtRow (env : Env) (rate : Decimal) : Debt :=
  { id := env.debtId, userId := input.userId, title := input.title
    direction := if resolveDirection input.direction = .receivable then "receivable" else "payable"
    creditor := input.creditor, principalToman := some input.principalIrt
    principalBase := input.principalIrt.div rate, startDate := input.startDate.getD 0 }

def installmentRows (env : Env) (rate : Decimal) (amounts : List Decimal) : List Installment :=
  (input.dueDates.zip amounts).mapIdx fun i x =>
    { id := env.installmentIds i, debtId := env.debtId, seq := i + 1, dueDate := x.1
      amountBase := x.2.div rate, amountToman := some x.2 }

end CreateDebtInput

/-- The primary key and the owner of a debt. -/
def Db.DebtInsertable (db : Db) (d : Debt) : Prop :=
  (∀ e ∈ db.debts, e.id ≠ d.id) ∧ ∀ u ∈ d.userId, u ∈ db.users

instance (db : Db) (d : Debt) : Decidable (db.DebtInsertable d) :=
  inferInstanceAs (Decidable (_ ∧ ∀ u ∈ d.userId, u ∈ db.users))

def Db.InstallmentsInsertable (db : Db) (rows : List Installment) : Prop :=
  (rows.map (·.id)).Nodup ∧ ∀ r ∈ rows, ∀ i ∈ db.installments, i.id ≠ r.id

instance (db : Db) (rows : List Installment) : Decidable (db.InstallmentsInsertable rows) :=
  inferInstanceAs (Decidable (_ ∧ ∀ r ∈ rows, ∀ i ∈ db.installments, i.id ≠ r.id))

def createDebtRecord (env : Env) (input : CreateDebtInput) (usdIrtRate : Decimal) : Sql Uuid := do
  Tx.ofExcept (refuseInvalid (validateDebtInput input))
  Tx.require (0 < usdIrtRate)
    (.failure "نرخ تبدیل دلار به تومان برای ثبت این مورد موجود نیست.")
  let amounts ← Tx.ofExcept (resolveScheduleAmounts (input.principalIrt.toFixed 0)
    input.dueDates.length input.installmentIrt)
  let debt := input.debtRow env usdIrtRate
  Tx.insert (fun _ => [.debt debt.id]) (·.DebtInsertable debt) (fun _ => [.insertDebt debt])
    (.constraintViolation "debts")
  let rows := input.installmentRows env usdIrtRate amounts
  Tx.when (input.dueDates ≠ []) do
    Tx.insert (fun _ => rows.map fun r => .installment r.id) (·.InstallmentsInsertable rows)
      (fun _ => [.insertInstallments rows]) (.constraintViolation "installments")
  pure debt.id

end Pwos
