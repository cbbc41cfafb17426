import Pwos.Domain.Recurrence
import Pwos.Domain.Rounding
import Pwos.Lib.Grouping
import Pwos.Search.SearchText

/-!
# The monthly report

`humanizeEntry` of `lib/tx.ts` and `buildMonthlyReport` of `features/ledger/monthlyReport.ts`: one
pass over the transactions of a Jalali month feeds four totals, the days, and the groups with
their leaves. Every figure is a whole Toman before it is added, so all of them agree.
-/

namespace Pwos

namespace Monthly

open Decimal

structure LedgerLine where
  symbol : String
  quantity : Decimal
  baseValue : Decimal
  deriving DecidableEq, Repr

structure TxRow where
  id : Uuid
  entryDate : IsoDate
  type : EntryType
  categoryName : Option Text := none
  categoryParentName : Option Text := none
  categoryNonCash : Bool := false
  fxIrtAmount : Option Decimal := none
  realEstatePurchaseToman : Option Decimal := none
  lines : List LedgerLine
  deriving DecidableEq, Repr

structure HumanTx where
  amountExact : Decimal
  nativeIrt : Option Decimal
  sign : Int
  deriving DecidableEq, Repr

/-! ## One entry -/

def legToman (l : LedgerLine) : Decimal :=
  if l.symbol = "IRR" then l.quantity.abs.div (.ofInt 10) else l.quantity.abs

/-- The Toman total of a side that has only Toman legs. -/
def sideToman (legs : List LedgerLine) : Option Decimal :=
  if legs ≠ [] ∧ ∀ l ∈ legs, l.symbol = "IRT" ∨ l.symbol = "IRR" then
    some (legs.map legToman).sum
  else none

def signOf : EntryType → Int
  | .income | .sell => 1
  | .expense | .buy | .installment | .debt | .debtRepayment => -1
  | _ => 0

def humanizeEntry (e : TxRow) : HumanTx :=
  let positives := e.lines.filter fun l => 0 < l.baseValue
  let negatives := e.lines.filter fun l => l.baseValue < 0
  let amountDec := (positives.map (·.baseValue)).sum
  -- frozen Toman: a side that has only Toman legs, then a purchase price, then a snapshot
  let frozenToman := e.realEstatePurchaseToman.or e.fxIrtAmount
  let nativeSideToman := (sideToman positives).or (sideToman negatives)
  { amountExact :=
      if 0 < amountDec then amountDec else ((e.lines.head?.map LedgerLine.baseValue).getD 0).abs
    nativeIrt := (Option.or (nativeSideToman.filter fun a => 0 < a)
      (frozenToman.filter fun a => 0 < a)).map (toFixed 0)
    sign := signOf e.type }

/-! ## The report -/

structure ReportMonth where
  y : Int
  m : Nat
  deriving DecidableEq, Repr

structure ReportRow where
  id : Uuid
  entryDate : IsoDate
  day : Nat
  type : EntryType
  category : Option Text
  sign : Int
  toman : Option Decimal
  approx : Bool
  nonCash : Bool
  deriving DecidableEq, Repr

structure LeafShare where
  name : Text
  toman : Decimal
  count : Nat
  deriving DecidableEq, Repr

structure CategoryShare where
  name : Text
  toman : Decimal
  share : ℚ
  count : Nat
  leaves : List LeafShare
  deriving DecidableEq, Repr

structure MonthlyReport where
  rows : List ReportRow
  income : Decimal
  expense : Decimal
  nonCash : Decimal
  debtPaid : Decimal
  net : Decimal
  savingsRate : Option ℚ
  expenseCount : Nat
  incomeCount : Nat
  approxCount : Nat
  missingCount : Nat
  expenseByGroup : List CategoryShare
  incomeByCategory : List CategoryShare
  dailyExpense : List Decimal
  topExpenses : List ReportRow
  deriving DecidableEq, Repr

/-- A Toman figure, and whether today's rate made it. -/
structure TomanFigure where
  toman : Option Decimal
  approx : Bool
  deriving DecidableEq, Repr

def tomanOf (h : HumanTx) (rate : Option Decimal) : TomanFigure :=
  match h.nativeIrt, rate.filter (0 < ·) with
  | some toman, _ => ⟨some toman, false⟩
  | none, some rate => ⟨some ((h.amountExact.mul rate).toFixed 0), true⟩
  | none, none => ⟨none, false⟩

/-! ### Shares -/

structure Part where
  group : Text
  leaf : Text
  toman : Decimal
  deriving DecidableEq, Repr

structure LeafTotal where
  toman : Decimal := 0
  count : Nat := 0

structure GroupTotal where
  toman : Decimal := 0
  count : Nat := 0
  leaves : OrderedMap Text LeafTotal := .empty

def LeafTotal.add (l : LeafTotal) (e : Part) : LeafTotal := ⟨l.toman + e.toman, l.count + 1⟩

def GroupTotal.add (g : GroupTotal) (e : Part) : GroupTotal where
  toman := g.toman + e.toman
  count := g.count + 1
  leaves := groupOne (·.leaf) {} LeafTotal.add g.leaves e

def shareOf (total toman : Decimal) : ℚ :=
  if 0 < total then ((toman.div total).toFixed 4).toNumber else 0

def leafShares (leaves : OrderedMap Text LeafTotal) : List LeafShare :=
  (leaves.entries.map fun e => ⟨e.1, e.2.toman.toFixed 0, e.2.count⟩).mergeSort
    fun a b => b.toman ≤ a.toman

def shares (entries : List Part) : List CategoryShare :=
  let total := (entries.map (·.toman)).sum
  ((groupInto (·.group) {} GroupTotal.add entries).entries.map fun e =>
    { name := e.1, toman := e.2.toman.toFixed 0, share := shareOf total e.2.toman
      count := e.2.count, leaves := leafShares e.2.leaves }).mergeSort
    fun a b => b.toman ≤ a.toman

/-! ### The pass -/

structure ReportTotals where
  income : Decimal := 0
  expense : Decimal := 0
  nonCash : Decimal := 0
  debtPaid : Decimal := 0
  approxCount : Nat := 0
  missingCount : Nat := 0
  expenseCount : Nat := 0
  incomeCount : Nat := 0
  daily : List Decimal
  expenseParts : List Part := []
  incomeParts : List Part := []
  rows : List ReportRow := []

/-- `name?.trim() || null`. -/
def trimmed (name : Option Text) : Option Text := (name.map trim).filter (· ≠ [])

def withoutCategory : Text := "بدون دسته".toList

def TxRow.nonCashRow (tx : TxRow) : Bool := tx.type = .expense && tx.categoryNonCash

def TxRow.leaf (tx : TxRow) : Text := (trimmed tx.categoryName).getD withoutCategory

def TxRow.group (tx : TxRow) : Text := (trimmed tx.categoryParentName).getD withoutCategory

def TxRow.category (tx : TxRow) : Option Text :=
  (trimmed tx.categoryName).map fun leaf =>
    match tx.categoryParentName.filter (· ≠ []) with
    | some parent => parent ++ " › ".toList ++ leaf
    | none => leaf

section Pass
variable (cal : JalaliCalendar) (days : Nat) (rate : Option Decimal)

def TxRow.day (tx : TxRow) : Nat := (cal.toJalali tx.entryDate).d

def TxRow.figure (tx : TxRow) : TomanFigure := tomanOf (humanizeEntry tx) rate

def reportRow (tx : TxRow) : ReportRow where
  id := tx.id
  entryDate := tx.entryDate
  day := tx.day cal
  type := tx.type
  category := tx.category
  sign := (humanizeEntry tx).sign
  toman := (tx.figure rate).toman.map (·.toFixed 0)
  approx := (tx.figure rate).approx
  nonCash := tx.nonCashRow

/-- Where a transaction with a Toman figure counts. -/
def ReportTotals.count (t : ReportTotals) (tx : TxRow) (toman : Decimal) : ReportTotals :=
  if tx.type = .income then
    { t with
      income := t.income + toman
      incomeCount := t.incomeCount + 1
      incomeParts := t.incomeParts ++ [⟨tx.leaf, tx.leaf, toman⟩] }
  else if tx.type = .expense ∧ tx.nonCashRow then { t with nonCash := t.nonCash + toman }
  else if tx.type = .expense then
    { t with
      expense := t.expense + toman
      expenseCount := t.expenseCount + 1
      daily :=
        if 1 ≤ tx.day cal ∧ tx.day cal ≤ days then t.daily.modify (tx.day cal - 1) (· + toman)
        else t.daily
      expenseParts := t.expenseParts ++ [⟨tx.group, tx.leaf, toman⟩] }
  else if tx.type = .debtRepayment ∨ tx.type = .installment then
    { t with debtPaid := t.debtPaid + toman }
  else t

def ReportTotals.next (t : ReportTotals) (tx : TxRow) : ReportTotals :=
  let t :=
    { t with
      approxCount := t.approxCount + if (tx.figure rate).approx then 1 else 0
      missingCount := t.missingCount + if (tx.figure rate).toman = none then 1 else 0
      rows := t.rows ++ [reportRow cal rate tx] }
  match (tx.figure rate).toman with
  | none => t
  | some toman => t.count cal days tx toman

def reportTotals (txs : List TxRow) : ReportTotals :=
  txs.foldl (ReportTotals.next cal days rate) { daily := List.replicate days 0 }

end Pass

def TOP_EXPENSES : Nat := 5

def topExpenses (rows : List ReportRow) : List ReportRow :=
  ((rows.filter fun r => r.type = .expense && !r.nonCash && r.toman.isSome).mergeSort
    fun a b => b.toman.getD 0 ≤ a.toman.getD 0).take TOP_EXPENSES

def buildMonthlyReport (cal : JalaliCalendar) (txs : List TxRow) (month : ReportMonth)
    (rate : Option Decimal) : MonthlyReport :=
  let t := reportTotals cal (cal.jalaliMonthLength month.y month.m) rate txs
  let net := t.income - t.expense
  { rows := t.rows
    income := t.income.toFixed 0
    expense := t.expense.toFixed 0
    nonCash := t.nonCash.toFixed 0
    debtPaid := t.debtPaid.toFixed 0
    net := net.toFixed 0
    savingsRate := if 0 < t.income then some ((net.div t.income).toFixed 4).toNumber else none
    expenseCount := t.expenseCount
    incomeCount := t.incomeCount
    approxCount := t.approxCount
    missingCount := t.missingCount
    expenseByGroup := shares t.expenseParts
    incomeByCategory := shares t.incomeParts
    dailyExpense := t.daily.map (·.toFixed 0)
    topExpenses := topExpenses t.rows }

/-! ## Where a transaction counts -/

inductive Total where
  | income | expense | nonCash | debtPaid
  deriving DecidableEq, Repr

/-- By its type alone, a transaction counts in one total or in none. -/
def TxRow.place (tx : TxRow) : Option Total :=
  if tx.type = .income then some .income
  else if tx.type = .expense then some (if tx.nonCashRow then .nonCash else .expense)
  else if tx.type = .debtRepayment ∨ tx.type = .installment then some .debtPaid
  else none

def ReportTotals.total (t : ReportTotals) : Total → Decimal
  | .income => t.income
  | .expense => t.expense
  | .nonCash => t.nonCash
  | .debtPaid => t.debtPaid

def MonthlyReport.total (r : MonthlyReport) : Total → Decimal
  | .income => r.income
  | .expense => r.expense
  | .nonCash => r.nonCash
  | .debtPaid => r.debtPaid

section Counts
variable (cal : JalaliCalendar) (days : Nat) (rate : Option Decimal)

/-- The figure of a transaction that counts in a total. -/
def TxRow.counted (b : Total) (tx : TxRow) : Option Decimal :=
  if tx.place = some b then (tx.figure rate).toman else none

/-- The part it has there. Income is grouped by its own category. -/
def countedPart (b : Total) (tx : TxRow) : List Part :=
  ((tx.counted rate b).map fun toman =>
    ⟨if b = .income then tx.leaf else tx.group, tx.leaf, toman⟩).toList

/-- What the days make of one transaction. -/
def dailyStep (daily : List Decimal) (tx : TxRow) : List Decimal :=
  if 1 ≤ tx.day cal ∧ tx.day cal ≤ days then
    daily.modify (tx.day cal - 1) (· + (tx.counted rate .expense).getD 0)
  else daily

variable {cal days rate} {t : ReportTotals} {tx : TxRow}

theorem modify_self (l : List Decimal) (i : Nat) : (l.modify i fun x => x) = l :=
  List.modify_id i l

/-- What one turn of the loop adds to each figure. -/
theorem next_total (b : Total) : (t.next cal days rate tx).total b =
    t.total b + (tx.counted rate b).getD 0 := by
  unfold ReportTotals.next TxRow.counted
  cases (tx.figure rate).toman with
  | none => cases b <;> simp [ReportTotals.total]
  | some toman =>
    unfold ReportTotals.count TxRow.place
    dsimp only
    split_ifs <;> cases b <;> simp_all [ReportTotals.total]

/-- The parts are what the totals are made of, in order. -/
theorem next_parts :
    (t.next cal days rate tx).expenseParts = t.expenseParts ++ countedPart rate .expense tx ∧
      (t.next cal days rate tx).incomeParts = t.incomeParts ++ countedPart rate .income tx := by
  unfold ReportTotals.next countedPart TxRow.counted
  cases (tx.figure rate).toman with
  | none => simp
  | some toman =>
    unfold ReportTotals.count TxRow.place
    dsimp only
    split_ifs <;> simp_all

theorem next_counts :
    (t.next cal days rate tx).expenseCount =
        t.expenseCount + (countedPart rate .expense tx).length ∧
      (t.next cal days rate tx).incomeCount =
        t.incomeCount + (countedPart rate .income tx).length := by
  unfold ReportTotals.next countedPart TxRow.counted
  cases (tx.figure rate).toman with
  | none => simp
  | some toman =>
    unfold ReportTotals.count TxRow.place
    dsimp only
    split_ifs <;> simp_all

theorem next_daily :
    (t.next cal days rate tx).daily = dailyStep cal days rate t.daily tx := by
  unfold ReportTotals.next dailyStep TxRow.counted
  cases (tx.figure rate).toman with
  | none => simp [modify_self]
  | some toman =>
    unfold ReportTotals.count TxRow.place
    dsimp only
    split_ifs <;> simp_all [modify_self]

/-- Counting a transaction leaves what is kept of every row. -/
theorem count_spares (toman : Decimal) : (t.count cal days tx toman).rows = t.rows ∧
    (t.count cal days tx toman).approxCount = t.approxCount ∧
    (t.count cal days tx toman).missingCount = t.missingCount := by
  unfold ReportTotals.count
  split_ifs <;> simp

theorem next_kept : (t.next cal days rate tx).rows = t.rows ++ [reportRow cal rate tx] ∧
    (t.next cal days rate tx).approxCount =
      t.approxCount + (if (tx.figure rate).approx then 1 else 0) ∧
    (t.next cal days rate tx).missingCount =
      t.missingCount + if (tx.figure rate).toman = none then 1 else 0 := by
  unfold ReportTotals.next
  cases hfigure : (tx.figure rate).toman with
  | none => exact ⟨rfl, rfl, rfl⟩
  | some toman => exact count_spares toman

/-! ## The whole pass -/

variable {txs txs' : List TxRow}

theorem reportTotals_total (b : Total) : (reportTotals cal days rate txs).total b =
    (txs.map fun tx => (tx.counted rate b).getD 0).sum := by
  have h : ∀ (t : ReportTotals) (tx : TxRow), (t.next cal days rate tx).total b =
      t.total b + (tx.counted rate b).getD 0 := fun _ _ => next_total b
  refine (foldl_figure (f := (ReportTotals.total · b)) h _ txs).trans ?_
  cases b <;> exact zero_add _

theorem reportTotals_parts : (reportTotals cal days rate txs).expenseParts =
      txs.flatMap (countedPart rate .expense) ∧
    (reportTotals cal days rate txs).incomeParts = txs.flatMap (countedPart rate .income) := by
  have h : ∀ (t : ReportTotals) (tx : TxRow), (t.next cal days rate tx).expenseParts =
      t.expenseParts ++ countedPart rate .expense tx := fun _ _ => next_parts.1
  have h' : ∀ (t : ReportTotals) (tx : TxRow), (t.next cal days rate tx).incomeParts =
      t.incomeParts ++ countedPart rate .income tx := fun _ _ => next_parts.2
  exact ⟨foldl_appended (f := ReportTotals.expenseParts) h _ txs,
    foldl_appended (f := ReportTotals.incomeParts) h' _ txs⟩

theorem reportTotals_counts : (reportTotals cal days rate txs).expenseCount =
      (txs.map fun tx => (countedPart rate .expense tx).length).sum ∧
    (reportTotals cal days rate txs).incomeCount =
      (txs.map fun tx => (countedPart rate .income tx).length).sum := by
  have h : ∀ (t : ReportTotals) (tx : TxRow), (t.next cal days rate tx).expenseCount =
      t.expenseCount + (countedPart rate .expense tx).length := fun _ _ => next_counts.1
  have h' : ∀ (t : ReportTotals) (tx : TxRow), (t.next cal days rate tx).incomeCount =
      t.incomeCount + (countedPart rate .income tx).length := fun _ _ => next_counts.2
  exact ⟨(foldl_figure (f := ReportTotals.expenseCount) h _ txs).trans (zero_add _),
    (foldl_figure (f := ReportTotals.incomeCount) h' _ txs).trans (zero_add _)⟩

theorem reportTotals_kept : (reportTotals cal days rate txs).approxCount =
      (txs.map fun tx => if (tx.figure rate).approx then 1 else 0).sum ∧
    (reportTotals cal days rate txs).missingCount =
      (txs.map fun tx => if (tx.figure rate).toman = none then 1 else 0).sum := by
  have h : ∀ (t : ReportTotals) (tx : TxRow), (t.next cal days rate tx).approxCount =
      t.approxCount + if (tx.figure rate).approx then 1 else 0 := fun _ _ => next_kept.2.1
  have h' : ∀ (t : ReportTotals) (tx : TxRow), (t.next cal days rate tx).missingCount =
      t.missingCount + if (tx.figure rate).toman = none then 1 else 0 := fun _ _ => next_kept.2.2
  exact ⟨(foldl_figure (f := ReportTotals.approxCount) h _ txs).trans (zero_add _),
    (foldl_figure (f := ReportTotals.missingCount) h' _ txs).trans (zero_add _)⟩

theorem reportTotals_daily : (reportTotals cal days rate txs).daily =
    txs.foldl (dailyStep cal days rate) (List.replicate days 0) := by
  unfold reportTotals
  generalize hs : ({ daily := List.replicate days 0 } : ReportTotals) = s
  have hdaily : s.daily = List.replicate days 0 := by rw [← hs]
  rw [← hdaily]
  clear hs hdaily
  induction txs generalizing s with
  | nil => rfl
  | cons tx txs ih => rw [List.foldl_cons, ih, next_daily, List.foldl_cons]

end Counts

/-! ## The groups -/

section Groups
variable {parts parts' l l' : List Part}

theorem foldl_leafTotal (l : List Part) : (l.foldl LeafTotal.add {}).toman =
      (l.map Part.toman).sum ∧ (l.foldl LeafTotal.add {}).count = l.length := by
  induction l using List.reverseRecOn with
  | nil => exact ⟨rfl, rfl⟩
  | append_singleton l e ih => simp [LeafTotal.add, ih.1, ih.2]

/-- A group holds the sum, the number and the leaves of its parts. -/
theorem foldl_groupTotal (l : List Part) : l.foldl GroupTotal.add {} =
    ⟨(l.map Part.toman).sum, l.length, groupInto (·.leaf) {} LeafTotal.add l⟩ := by
  induction l using List.reverseRecOn with
  | nil => rfl
  | append_singleton l e ih =>
    rw [List.foldl_concat, ih, groupInto, groupInto, List.foldl_concat]
    simp [GroupTotal.add]

theorem whole_sum_toman (h : ∀ p ∈ l, p.toman.Whole) : (l.map Part.toman).sum.Whole :=
  .sum (List.forall_mem_map.mpr h)

theorem sum_leafShares (h : ∀ p ∈ l, p.toman.Whole) :
    ((leafShares (groupInto (·.leaf) {} LeafTotal.add l)).map (·.toman)).sum =
      (l.map Part.toman).sum := by
  unfold leafShares
  have htoman : ((groupInto (·.leaf) {} LeafTotal.add l).entries.map fun e => e.2.toman).sum =
      (l.map Part.toman).sum :=
    sum_groupInto (f := LeafTotal.toman) rfl (fun _ _ => rfl) l
  rw [((List.mergeSort_perm _ _).map _).sum_eq, List.map_map, ← htoman]
  refine congrArg List.sum (List.map_congr_left fun e he => ?_)
  have hleaf : e.2.toman.Whole := by
    rw [eq_groupOf he, groupOf, (foldl_leafTotal _).1]
    exact whole_sum_toman fun p hp => h p (List.mem_of_mem_filter hp)
  exact hleaf.toFixed_eq

/-- The groups, their leaves and their counts are those of the parts. -/
theorem shares_sums (h : ∀ p ∈ parts, p.toman.Whole) :
    ((shares parts).map (·.toman)).sum = (parts.map Part.toman).sum ∧
      ((shares parts).flatMap fun s => s.leaves.map (·.toman)).sum =
        (parts.map Part.toman).sum ∧
      ((shares parts).map (·.count)).sum = parts.length := by
  have hgroup : ∀ e ∈ (groupInto (·.group) {} GroupTotal.add parts).entries, ∃ l : List Part,
      (∀ p ∈ l, p.toman.Whole) ∧
        e.2 = ⟨(l.map Part.toman).sum, l.length, groupInto (·.leaf) {} LeafTotal.add l⟩ := by
    intro e he
    refine ⟨parts.filter fun p => p.group = e.1, fun p hp => h p (List.mem_of_mem_filter hp), ?_⟩
    rw [eq_groupOf he, groupOf, foldl_groupTotal]
  have htoman : ((groupInto (·.group) {} GroupTotal.add parts).entries.map
      fun e => e.2.toman).sum = (parts.map Part.toman).sum :=
    sum_groupInto (f := GroupTotal.toman) rfl (fun _ _ => rfl) parts
  have hcount : ((groupInto (·.group) {} GroupTotal.add parts).entries.map
      fun e => e.2.count).sum = (parts.map fun _ => 1).sum :=
    sum_groupInto (f := GroupTotal.count) rfl (fun _ _ => rfl) parts
  unfold shares
  dsimp only
  refine ⟨?_, ?_, ?_⟩
  · rw [((List.mergeSort_perm _ _).map _).sum_eq, List.map_map, ← htoman]
    refine congrArg List.sum (List.map_congr_left fun e he => ?_)
    obtain ⟨l, hl, heq⟩ := hgroup e he
    simp only [Function.comp_apply, heq]
    exact (whole_sum_toman hl).toFixed_eq
  · rw [((List.mergeSort_perm _ _).flatMap_right _).sum_eq, List.flatMap_map, sum_flatMap, ← htoman]
    refine congrArg List.sum (List.map_congr_left fun e he => ?_)
    obtain ⟨l, hl, heq⟩ := hgroup e he
    simp only [heq]
    exact sum_leafShares hl
  · rw [((List.mergeSort_perm _ _).map _).sum_eq, List.map_map]
    refine hcount.trans ?_
    simp

/-- What a group says, whatever the order of its leaves. -/
def CategoryShare.figures (s : CategoryShare) : Text × Decimal × ℚ × Nat × Multiset LeafShare :=
  (s.name, s.toman, s.share, s.count, s.leaves)

theorem leafShares_perm (h : l.Perm l') :
    (leafShares (groupInto (·.leaf) {} LeafTotal.add l)).Perm
      (leafShares (groupInto (·.leaf) {} LeafTotal.add l')) := by
  have hread : ∀ a b : List Part, a.Perm b →
      (a.foldl LeafTotal.add {}).toman = (b.foldl LeafTotal.add {}).toman ∧
        (a.foldl LeafTotal.add {}).count = (b.foldl LeafTotal.add {}).count := by
    intro a b hab
    rw [(foldl_leafTotal a).1, (foldl_leafTotal a).2, (foldl_leafTotal b).1, (foldl_leafTotal b).2]
    exact ⟨(hab.map _).sum_eq, hab.length_eq⟩
  have hpairs := groupInto_perm_of_perm Part.leaf {} LeafTotal.add
    (g := fun t => (t.toman, t.count)) h fun a b hab => Prod.ext (hread a b hab).1 (hread a b hab).2
  have hleaves := hpairs.map fun e : Text × Decimal × Nat =>
    (⟨e.1, e.2.1.toFixed 0, e.2.2⟩ : LeafShare)
  rw [List.map_map, List.map_map] at hleaves
  exact (List.mergeSort_perm _ _).trans (hleaves.trans (List.mergeSort_perm _ _).symm)

/-- The groups do not depend on the order of the parts. -/
theorem shares_perm (h : parts.Perm parts') :
    ((shares parts).map CategoryShare.figures).Perm
      ((shares parts').map CategoryShare.figures) := by
  have htotal : (parts.map Part.toman).sum = (parts'.map Part.toman).sum := (h.map _).sum_eq
  let read (t : GroupTotal) : Decimal × ℚ × Nat × Multiset LeafShare :=
    (t.toman.toFixed 0, shareOf (parts.map Part.toman).sum t.toman, t.count, leafShares t.leaves)
  have hread : ∀ a b : List Part, a.Perm b →
      read (a.foldl GroupTotal.add {}) = read (b.foldl GroupTotal.add {}) := by
    intro a b hab
    have hleaves := Multiset.coe_eq_coe.mpr (leafShares_perm hab)
    simp only [read, foldl_groupTotal, (hab.map _).sum_eq, hab.length_eq, hleaves]
  have hgroups := groupInto_perm_of_perm Part.group {} GroupTotal.add h hread
  unfold shares
  dsimp only
  rw [← htotal]
  refine ((List.mergeSort_perm _ _).map _).trans (List.Perm.trans ?_
    ((List.mergeSort_perm _ _).map _).symm)
  rw [List.map_map, List.map_map]
  exact hgroups

end Groups

/-! ## What the report says -/

section Report
variable {cal : JalaliCalendar} {days : Nat} {rate : Option Decimal} {tx : TxRow}
  {txs txs' : List TxRow} {month : ReportMonth}

theorem tomanOf_whole {h : HumanTx} {a : Decimal} (hnative : ∀ b, h.nativeIrt = some b → b.Whole)
    (ha : (tomanOf h rate).toman = some a) : a.Whole := by
  unfold tomanOf at ha
  split at ha
  · cases ha
    exact hnative _ ‹_›
  · cases ha
    exact Whole.toFixed _
  · cases ha

theorem nativeIrt_whole (e : TxRow) {b : Decimal} (h : (humanizeEntry e).nativeIrt = some b) :
    b.Whole := by
  obtain ⟨a, -, rfl⟩ := Option.map_eq_some_iff.mp h
  exact Whole.toFixed a

/-- Every figure is a whole Toman before it is added. -/
theorem counted_whole (b : Total) (tx : TxRow) : ((tx.counted rate b).getD 0).Whole := by
  cases h : tx.counted rate b with
  | none => exact Whole.zero
  | some a =>
    unfold TxRow.counted at h
    split at h
    · exact tomanOf_whole (fun _ => nativeIrt_whole tx) h
    · cases h

theorem total_whole (b : Total) : ((reportTotals cal days rate txs).total b).Whole := by
  rw [reportTotals_total]
  exact .sum (List.forall_mem_map.mpr fun tx _ => counted_whole b tx)

theorem sum_countedPart (b : Total) (tx : TxRow) :
    ((countedPart rate b tx).map Part.toman).sum = (tx.counted rate b).getD 0 := by
  unfold countedPart
  cases tx.counted rate b <;> simp

theorem countedPart_whole {b : Total} {p : Part} (h : p ∈ txs.flatMap (countedPart rate b)) :
    p.toman.Whole := by
  obtain ⟨tx, -, hp⟩ := List.mem_flatMap.mp h
  have hwhole : ((tx.counted rate b).getD 0).Whole := counted_whole b tx
  unfold countedPart at hp
  cases hcounted : tx.counted rate b with
  | none => simp [hcounted] at hp
  | some a =>
    rw [hcounted] at hp hwhole
    obtain rfl : p = ⟨if b = .income then tx.leaf else tx.group, tx.leaf, a⟩ := by simpa using hp
    exact hwhole

theorem sum_countedParts (b : Total) :
    ((txs.flatMap (countedPart rate b)).map Part.toman).sum =
      (txs.map fun tx => (tx.counted rate b).getD 0).sum := by
  rw [List.map_flatMap, sum_flatMap]
  exact congrArg List.sum (List.map_congr_left fun tx _ => sum_countedPart b tx)

/-- Days of whole amounts, as many as the month has. -/
structure DailyKept (days : Nat) (daily : List Decimal) : Prop where
  length : daily.length = days
  whole : ∀ a ∈ daily, a.Whole

theorem DailyKept.next {daily : List Decimal} (h : DailyKept days daily)
    (hday : 1 ≤ tx.day cal ∧ tx.day cal ≤ days) :
    DailyKept days (dailyStep cal days rate daily tx) ∧
      (dailyStep cal days rate daily tx).sum =
        daily.sum + (tx.counted rate .expense).getD 0 := by
  unfold dailyStep
  rw [if_pos hday]
  refine ⟨⟨by rw [List.length_modify, h.length], fun a ha => ?_⟩, sum_modify ?_ _⟩
  · obtain ⟨i, hi⟩ := List.getElem?_of_mem ha
    rw [List.getElem?_modify] at hi
    cases hold : daily[i]? with
    | none => simp [hold] at hi
    | some d =>
      have hd : d.Whole := h.whole d (List.mem_of_getElem? hold)
      rw [hold, Option.map_eq_map, Option.map_some, Option.some.injEq] at hi
      split at hi
      · rw [← hi]
        exact hd.add (counted_whole .expense tx)
      · rwa [← hi]
  · have hlen := h.length
    omega

theorem DailyKept.run {daily : List Decimal} (h : DailyKept days daily)
    (hdays : ∀ tx ∈ txs, 1 ≤ tx.day cal ∧ tx.day cal ≤ days) :
    DailyKept days (txs.foldl (dailyStep cal days rate) daily) ∧
      (txs.foldl (dailyStep cal days rate) daily).sum =
        daily.sum + (txs.map fun tx => (tx.counted rate .expense).getD 0).sum := by
  induction txs generalizing daily with
  | nil => exact ⟨h, by simp⟩
  | cons tx txs ih =>
    obtain ⟨hkept, hsum⟩ : DailyKept days (dailyStep cal days rate daily tx) ∧ _ :=
      h.next (hdays tx List.mem_cons_self)
    obtain ⟨hrun, htotal⟩ := ih hkept fun tx htx => hdays tx (List.mem_cons_of_mem _ htx)
    refine ⟨hrun, ?_⟩
    rw [List.foldl_cons, htotal, hsum, List.map_cons, List.sum_cons, add_assoc]

theorem dailyStep_comm (daily : List Decimal) (a b : TxRow) :
    dailyStep cal days rate (dailyStep cal days rate daily a) b =
      dailyStep cal days rate (dailyStep cal days rate daily b) a := by
  unfold dailyStep
  split_ifs
  · exact modify_add_comm _ _ _ _ _
  all_goals rfl

theorem reportTotals_daily_perm (h : txs.Perm txs') :
    (reportTotals cal days rate txs).daily = (reportTotals cal days rate txs').daily := by
  have hcomm : RightCommutative (dailyStep cal days rate) := ⟨dailyStep_comm⟩
  rw [reportTotals_daily, reportTotals_daily]
  exact h.foldl_eq _

/-- The calendar puts the transaction on a day of the month. -/
structure ReportMonth.Dated (cal : JalaliCalendar) (month : ReportMonth) (tx : TxRow) : Prop where
  year : (cal.toJalali tx.entryDate).y = month.y
  month : (cal.toJalali tx.entryDate).m = month.m
  day : cal.HasDay (cal.toJalali tx.entryDate)

/-- The figures that show one amount agree. -/
structure MonthlyReport.Agrees (r : MonthlyReport) : Prop where
  daily : r.dailyExpense.sum = r.expense
  groups : (r.expenseByGroup.map (·.toman)).sum = r.expense
  leaves : (r.expenseByGroup.flatMap fun s => s.leaves.map (·.toman)).sum = r.expense
  categories : (r.incomeByCategory.map (·.toman)).sum = r.income
  net : r.net = r.income - r.expense
  expenseCount : (r.expenseByGroup.map (·.count)).sum = r.expenseCount
  incomeCount : (r.incomeByCategory.map (·.count)).sum = r.incomeCount

/-- Two reports that differ in the order of what they list. -/
structure MonthlyReport.SameFigures (r r' : MonthlyReport) : Prop where
  total : ∀ b, r.total b = r'.total b
  net : r.net = r'.net
  savingsRate : r.savingsRate = r'.savingsRate
  expenseCount : r.expenseCount = r'.expenseCount
  incomeCount : r.incomeCount = r'.incomeCount
  approxCount : r.approxCount = r'.approxCount
  missingCount : r.missingCount = r'.missingCount
  dailyExpense : r.dailyExpense = r'.dailyExpense
  expenseByGroup : (r.expenseByGroup.map (·.figures)).Perm (r'.expenseByGroup.map (·.figures))
  incomeByCategory :
    (r.incomeByCategory.map (·.figures)).Perm (r'.incomeByCategory.map (·.figures))

/-- What the report prints is what the pass has added up. -/
theorem buildMonthlyReport_total (b : Total) :
    (buildMonthlyReport cal txs month rate).total b =
      (txs.map fun tx => (tx.counted rate b).getD 0).sum := by
  have hprinted : ∀ days, ((reportTotals cal days rate txs).total b).toFixed 0 =
      (txs.map fun tx => (tx.counted rate b).getD 0).sum := fun days =>
    (total_whole b).toFixed_eq.trans (reportTotals_total b)
  cases b <;> exact hprinted _

theorem buildMonthlyReport_shares (b : Total) {groups : List CategoryShare}
    (hgroups : groups = shares (txs.flatMap (countedPart rate b))) :
    (groups.map (·.toman)).sum = (buildMonthlyReport cal txs month rate).total b ∧
      (groups.flatMap fun s => s.leaves.map (·.toman)).sum =
        (buildMonthlyReport cal txs month rate).total b ∧
      (groups.map (·.count)).sum = (txs.map fun tx => (countedPart rate b tx).length).sum := by
  obtain ⟨htoman, hleaves, hcount⟩ :
      ((shares (txs.flatMap (countedPart rate b))).map (·.toman)).sum = _ ∧ _ :=
    shares_sums fun p => countedPart_whole
  rw [hgroups, htoman, hleaves, hcount, sum_countedParts, buildMonthlyReport_total,
    List.length_flatMap]
  exact ⟨rfl, rfl, rfl⟩

theorem buildMonthlyReport_daily (h : ∀ tx ∈ txs, month.Dated cal tx) :
    (buildMonthlyReport cal txs month rate).dailyExpense.sum =
      (buildMonthlyReport cal txs month rate).total .expense := by
  have hdays : ∀ tx ∈ txs, 1 ≤ tx.day cal ∧
      tx.day cal ≤ cal.jalaliMonthLength month.y month.m := by
    intro tx htx
    obtain ⟨hyear, hmonth, -, -, hpos, hle⟩ := h tx htx
    rw [hyear, hmonth] at hle
    exact ⟨hpos, hle⟩
  generalize hlength : cal.jalaliMonthLength month.y month.m = days at hdays
  have hstart : DailyKept days (List.replicate days 0) :=
    ⟨List.length_replicate, fun a ha => List.eq_of_mem_replicate ha ▸ Whole.zero⟩
  obtain ⟨hkept, hsum⟩ : DailyKept days (txs.foldl (dailyStep cal days rate) _) ∧ _ :=
    hstart.run hdays
  have hprinted : (buildMonthlyReport cal txs month rate).dailyExpense =
      (reportTotals cal days rate txs).daily := by
    have hwhole : ∀ a ∈ (reportTotals cal days rate txs).daily, a.toFixed 0 = a := by
      intro a ha
      rw [reportTotals_daily] at ha
      exact (hkept.whole a ha).toFixed_eq
    rw [buildMonthlyReport, hlength]
    exact (List.map_congr_left hwhole).trans (List.map_id _)
  rw [hprinted, reportTotals_daily, hsum, buildMonthlyReport_total]
  simp

theorem buildMonthlyReport_groups :
    (buildMonthlyReport cal txs month rate).expenseByGroup =
      shares (txs.flatMap (countedPart rate .expense)) ∧
    (buildMonthlyReport cal txs month rate).incomeByCategory =
      shares (txs.flatMap (countedPart rate .income)) := by
  have hparts : ∀ days, (reportTotals cal days rate txs).expenseParts = _ ∧
    (reportTotals cal days rate txs).incomeParts = _ := fun _ => reportTotals_parts
  exact ⟨congrArg shares (hparts _).1, congrArg shares (hparts _).2⟩

theorem buildMonthlyReport_counts :
    (buildMonthlyReport cal txs month rate).expenseCount =
      (txs.map fun tx => (countedPart rate .expense tx).length).sum ∧
    (buildMonthlyReport cal txs month rate).incomeCount =
      (txs.map fun tx => (countedPart rate .income tx).length).sum := by
  have hcounts : ∀ days, (reportTotals cal days rate txs).expenseCount = _ ∧
    (reportTotals cal days rate txs).incomeCount = _ := fun _ => reportTotals_counts
  exact hcounts _

theorem buildMonthlyReport_net : (buildMonthlyReport cal txs month rate).net =
    (buildMonthlyReport cal txs month rate).income -
      (buildMonthlyReport cal txs month rate).expense := by
  have hincome : ∀ days, (reportTotals cal days rate txs).income.Whole :=
    fun _ => total_whole .income
  have hexpense : ∀ days, (reportTotals cal days rate txs).expense.Whole :=
    fun _ => total_whole .expense
  unfold buildMonthlyReport
  dsimp only
  rw [(hincome _).toFixed_eq, (hexpense _).toFixed_eq, ((hincome _).sub (hexpense _)).toFixed_eq]

theorem buildMonthlyReport_agrees (h : ∀ tx ∈ txs, month.Dated cal tx) :
    (buildMonthlyReport cal txs month rate).Agrees := by
  obtain ⟨hgroups, hcategories⟩ : (buildMonthlyReport cal txs month rate).expenseByGroup = _ ∧ _ :=
    buildMonthlyReport_groups
  obtain ⟨hexpenses, hincomes⟩ : (buildMonthlyReport cal txs month rate).expenseCount = _ ∧ _ :=
    buildMonthlyReport_counts
  obtain ⟨htoman, hleaves, hcount⟩ :
      _ = (buildMonthlyReport cal txs month rate).total .expense ∧ _ :=
    buildMonthlyReport_shares .expense hgroups
  obtain ⟨htoman', -, hcount'⟩ :
      _ = (buildMonthlyReport cal txs month rate).total .income ∧ _ :=
    buildMonthlyReport_shares .income hcategories
  exact ⟨buildMonthlyReport_daily h, htoman, hleaves, htoman', buildMonthlyReport_net,
    hcount.trans hexpenses.symm, hcount'.trans hincomes.symm⟩

theorem buildMonthlyReport_perm (h : txs.Perm txs') :
    (buildMonthlyReport cal txs month rate).SameFigures
      (buildMonthlyReport cal txs' month rate) := by
  have htotal : ∀ b, (buildMonthlyReport cal txs month rate).total b =
      (buildMonthlyReport cal txs' month rate).total b := by
    intro b
    rw [buildMonthlyReport_total, buildMonthlyReport_total, (h.map _).sum_eq]
  have hpass : ∀ days b, (reportTotals cal days rate txs).total b =
      (reportTotals cal days rate txs').total b := by
    intro days b
    rw [reportTotals_total, reportTotals_total, (h.map _).sum_eq]
  have hkept : ∀ (days) (l : List TxRow), (reportTotals cal days rate l).approxCount = _ ∧
    (reportTotals cal days rate l).missingCount = _ := fun _ _ => reportTotals_kept
  refine ⟨htotal, ?_, ?_, ?_, ?_, ?_, ?_, ?_, ?_, ?_⟩
  · rw [buildMonthlyReport_net, buildMonthlyReport_net]
    exact congrArg₂ (· - ·) (htotal .income) (htotal .expense)
  · have hincome : ∀ days, (reportTotals cal days rate txs).income =
        (reportTotals cal days rate txs').income := (hpass · .income)
    have hexpense : ∀ days, (reportTotals cal days rate txs).expense =
        (reportTotals cal days rate txs').expense := (hpass · .expense)
    unfold buildMonthlyReport
    dsimp only
    rw [hincome, hexpense]
  · rw [buildMonthlyReport_counts.1, buildMonthlyReport_counts.1, (h.map _).sum_eq]
  · rw [buildMonthlyReport_counts.2, buildMonthlyReport_counts.2, (h.map _).sum_eq]
  · unfold buildMonthlyReport
    dsimp only
    rw [(hkept _ txs).1, (hkept _ txs').1, (h.map _).sum_eq]
  · unfold buildMonthlyReport
    dsimp only
    rw [(hkept _ txs).2, (hkept _ txs').2, (h.map _).sum_eq]
  · unfold buildMonthlyReport
    dsimp only
    rw [reportTotals_daily_perm h]
  · rw [buildMonthlyReport_groups.1, buildMonthlyReport_groups.1]
    exact shares_perm (h.flatMap_right _)
  · rw [buildMonthlyReport_groups.2, buildMonthlyReport_groups.2]
    exact shares_perm (h.flatMap_right _)

/-- A total is the sum of the figures of the transactions that have their place in it. -/
theorem sum_counted (b : Total) : (txs.map fun tx => (tx.counted rate b).getD 0).sum =
    ((txs.filter fun tx => tx.place = some b).map fun tx =>
      (tx.figure rate).toman.getD 0).sum := by
  rw [sum_filter_eq_ite]
  refine congrArg List.sum (List.map_congr_left fun tx _ => ?_)
  unfold TxRow.counted
  by_cases hplace : tx.place = some b <;> simp [hplace]

/-- All figures of the report agree, every transaction counts in its one place or in none, and the
order of the transactions does not matter. -/
theorem monthlyReport_conserves_money (h : ∀ tx ∈ txs, month.Dated cal tx) :
    (buildMonthlyReport cal txs month rate).Agrees ∧
      (∀ b, (buildMonthlyReport cal txs month rate).total b =
        ((txs.filter fun tx => tx.place = some b).map fun tx =>
          (tx.figure rate).toman.getD 0).sum) ∧
      ∀ txs', txs.Perm txs' → (buildMonthlyReport cal txs month rate).SameFigures
        (buildMonthlyReport cal txs' month rate) :=
  ⟨buildMonthlyReport_agrees h, fun b => (buildMonthlyReport_total b).trans (sum_counted b),
    fun _ => buildMonthlyReport_perm⟩

def demoLines (symbol : String) (amount : Int) : List LedgerLine :=
  [⟨symbol, .ofInt amount, .ofInt amount⟩, ⟨symbol, .ofInt (-amount), .ofInt (-amount)⟩]

/-- An income, an expense in Toman without a category, one in dollars, and an instalment. -/
def demoMonth : List TxRow :=
  [{ id := 1, entryDate := 20251025, type := .income, lines := demoLines "IRT" 500 },
    { id := 2, entryDate := 20251026, type := .expense, lines := demoLines "IRT" 30 },
    { id := 3, entryDate := 20251121, type := .expense, categoryName := some "نان".toList
      lines := demoLines "USD" 2 },
    { id := 4, entryDate := 20251027, type := .installment, lines := demoLines "IRT" 70 }]

theorem demoMonth_report_conserves_money :
    (buildMonthlyReport recentYears demoMonth ⟨1404, 8⟩ (some (.ofInt 100))).Agrees ∧
      (∀ b, (buildMonthlyReport recentYears demoMonth ⟨1404, 8⟩ (some (.ofInt 100))).total b =
        ((demoMonth.filter fun tx => tx.place = some b).map fun tx =>
          (tx.figure (some (.ofInt 100))).toman.getD 0).sum) ∧
      ∀ txs', demoMonth.Perm txs' →
        (buildMonthlyReport recentYears demoMonth ⟨1404, 8⟩ (some (.ofInt 100))).SameFigures
          (buildMonthlyReport recentYears txs' ⟨1404, 8⟩ (some (.ofInt 100))) := by
  refine monthlyReport_conserves_money fun tx htx => ?_
  simp only [demoMonth, List.mem_cons, List.not_mem_nil, or_false] at htx
  rcases htx with rfl | rfl | rfl | rfl
  all_goals
    refine ⟨by decide, by decide, ?_⟩
    unfold JalaliCalendar.HasDay
    decide

end Report

end Monthly

end Pwos
