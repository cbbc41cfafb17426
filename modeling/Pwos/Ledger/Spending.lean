import Pwos.Accounts.SystemAccounts
import Pwos.Domain.Months
import Pwos.Rwa.OrphanFilter

/-!
# Income and spending

Four queries of `features/ledger/queries.ts` add up the legs on income and expense accounts:
by month, by day, between two days and over the whole ledger. Each of them states anew what
it leaves out.
-/

namespace Pwos

/-! ## What the reports read -/

/-- `expense_categories.nature`. -/
inductive CategoryNature where
  | cash | nonCash
  deriving DecidableEq, Repr

structure ExpenseCategory where
  id : Uuid
  nature : CategoryNature
  deriving DecidableEq, Repr

/-- A leg, joined with its account. -/
structure FlowLeg where
  account : Account
  assetId : Uuid
  baseValue : Decimal
  deriving DecidableEq, Repr

/-- The result of a sale, or the fee of a trade. -/
def isInvestmentResultLeg (acct : Account) (entryType : EntryType) : Bool :=
  acct.code = REALIZED_PNL_CODE ∨
    acct.code = FEE_EXPENSE_CODE ∧ (entryType = .buy ∨ entryType = .sell ∨ entryType = .fx)

/-- Who asks, and whether someone else is there. Nobody may ask then without a name. -/
structure Reader where
  user : Option Uuid
  hasMultipleUsers : Bool := false

def Reader.refused (r : Reader) : Bool := r.user = none && r.hasMultipleUsers

section Queries
variable (db : Db) (categories : List ExpenseCategory)

/-- `coalesce(ec.nature, 'cash') = 'cash'`. -/
def isCash (e : JournalEntry) : Bool :=
  ((e.categoryId.bind fun c => categories.find? (·.id = c)).map (·.nature)).getD .cash = .cash

def isRepayment (e : JournalEntry) : Bool := e.type = .debtRepayment

/-- The legs of an entry that are not the result of an investment. -/
def Db.flowLegs (e : JournalEntry) : List FlowLeg :=
  ((db.postingsOf e.id).filterMap fun p => (db.findAccount p.accountId).map fun account =>
    { account, assetId := p.assetId, baseValue := p.baseValue }).filter
      fun l => !isInvestmentResultLeg l.account e.type

/-- The posted entries of the user; without a user those of everybody. -/
def Db.reported (r : Reader) : List JournalEntry :=
  db.journalEntries.filter fun e => e.status = .posted ∧ (r.user = none ∨ e.userId = r.user)

/-! ## By month and by day -/

/-- A row of `per_entry`. -/
structure EntryFlow where
  day : IsoDate
  inflow : Decimal
  outflow : Decimal
  deriving DecidableEq, Repr

def entryInflow (legs : List FlowLeg) : Decimal :=
  (legs.map fun l => if l.account.type = .income then -l.baseValue else 0).sum

def entryOutflow (e : JournalEntry) (legs : List FlowLeg) : Decimal :=
  (legs.map fun l =>
    if l.account.type = .expense ∧ !isRepayment e ∧ isCash categories e
    then l.baseValue else 0).sum

def Db.entryFlow (e : JournalEntry) : Option EntryFlow :=
  match db.flowLegs e with
  | [] => none
  | legs => some
    { day := e.entryDate, inflow := entryInflow legs, outflow := entryOutflow categories e legs }

def Db.perEntry (r : Reader) : List EntryFlow :=
  (db.reported r).filterMap (db.entryFlow categories)

structure CashflowMonth where
  month : IsoDate
  inflow : Decimal
  outflow : Decimal
  inflowEntries : Nat
  outflowEntries : Nat
  deriving DecidableEq, Repr

def cashflowMonth (b : JalaliMonth) (flows : List EntryFlow) : CashflowMonth :=
  { month := b.start
    inflow := (flows.map (·.inflow)).sum
    outflow := (flows.map (·.outflow)).sum
    inflowEntries := (flows.filter (0 < ·.inflow)).length
    outflowEntries := (flows.filter (0 < ·.outflow)).length }

/-- A month without a leg has no row. -/
def getCashflow (cal : JalaliCalendar) (today : IsoDate) (months : Nat) (r : Reader) :
    List CashflowMonth :=
  if r.refused then []
  else (recentJalaliMonths cal months today).filterMap fun b =>
    match (db.perEntry categories r).filter fun f => b.contains f.day with
    | [] => none
    | flows => some (cashflowMonth b flows)

structure DayOutflow where
  date : IsoDate
  outflow : Decimal
  deriving DecidableEq, Repr

/-- The days of `[start, stop)` on which an entry spent something. -/
def getDailyOutflow (start stop : IsoDate) (r : Reader) : List DayOutflow :=
  if r.refused then []
  else
    let flows := (db.perEntry categories r).filter fun f =>
      (start ≤ f.day && f.day < stop) && 0 < f.outflow
    ((flows.map (·.day)).dedup.insertionSort (· ≤ ·)).map fun date =>
      { date, outflow := ((flows.filter (·.day = date)).map (·.outflow)).sum }

/-! ## Between two days -/

/-- Both days are in. -/
def getNetSavingsBetween (start last : IsoDate) (r : Reader) : Decimal :=
  if r.refused then 0
  else (((db.reported r).filter fun e => !isRepayment e && isCash categories e &&
      (start ≤ e.entryDate && e.entryDate ≤ last)).map fun e =>
    ((db.flowLegs e).map fun l =>
      if l.account.type = .income then -l.baseValue
      else if l.account.type = .expense then -l.baseValue else 0).sum).sum

/-! ## Over the whole ledger -/

structure ExpenseIncomeTotals where
  expense : Decimal := 0
  income : Decimal := 0
  repayments : Decimal := 0
  repaymentEntries : Nat := 0
  repaymentsToman : Decimal := 0
  repaymentsTomanEntries : Nat := 0
  deriving DecidableEq, Repr

/-- The entries of the user, and those of nobody. -/
def Db.totalled (r : Reader) : List JournalEntry :=
  db.journalEntries.filter fun e => e.status = .posted ∧ ¬ db.entryReferencesInactiveRwa e.id ∧
    (r.user = none ∨ e.userId = r.user ∨ e.userId = none)

/-- The legs of live accounts and assets that are on income or expense. -/
def Db.totalLegs (e : JournalEntry) : List FlowLeg :=
  (db.flowLegs e).filter fun l => l.account.deleted = false ∧
    (l.account.type = .expense ∨ l.account.type = .income) ∧
    ¬ ∃ a ∈ db.assets, a.id = l.assetId ∧ a.deleted = true

/-- What the legs on accounts of a type say in base value. -/
def legSum (side : AccountType) (legs : List FlowLeg) : Decimal :=
  ((legs.filter (·.account.type = side)).map (·.baseValue)).sum

/-- The Toman frozen with the installments that the repayments settled. -/
def Db.frozenToman (repaid : List JournalEntry) : List Decimal :=
  repaid.flatMap fun e =>
    (db.installments.filter (·.paidEntryId = some e.id)).filterMap (·.paidToman)

/-- A repayment counts as one row for every installment that names it. -/
def Db.repayRows (repaid : List JournalEntry) : List JournalEntry :=
  repaid.flatMap fun e =>
    List.replicate (max 1 (db.installments.filter (·.paidEntryId = some e.id)).length) e

def getExpenseIncomeTotals (r : Reader) : ExpenseIncomeTotals :=
  if r.refused then {}
  else
    let flow := (db.totalled r).filter (!isRepayment ·)
    let repaid := (db.totalled r).filter fun e =>
      isRepayment e ∧ (db.totalLegs e).any (·.account.type = .expense)
    let toman := db.frozenToman repaid
    { expense := (flow.map fun e => legSum .expense (db.totalLegs e)).sum
      income := (flow.map fun e => -legSum .income (db.totalLegs e)).sum
      repayments := ((db.repayRows repaid).map fun e => legSum .expense (db.totalLegs e)).sum
      repaymentEntries := (db.repayRows repaid).length
      repaymentsToman := toman.sum
      repaymentsTomanEntries := toman.length }

end Queries

end Pwos
