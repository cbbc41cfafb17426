import Pwos.Ledger.Spending

/-!
# What the reports on spending agree on

Each query comes down to a sum over entries of what their legs on income and on expense say.
The days of whole months are counted alike everywhere; what the reports leave out is not.
-/

namespace Pwos

section Entries
variable {db : Db} {categories : List ExpenseCategory} {r : Reader}

/-! ## Entry by entry -/

theorem entryInflow_eq (legs : List FlowLeg) : entryInflow legs = -legSum .income legs := by
  induction legs with
  | nil => rfl
  | cons l legs ih =>
    by_cases h : l.account.type = .income <;>
      simp_all [entryInflow, legSum, add_comm]

theorem entryOutflow_eq (e : JournalEntry) (legs : List FlowLeg) :
    entryOutflow categories e legs =
      if !isRepayment e && isCash categories e then legSum .expense legs else 0 := by
  by_cases hcash : !isRepayment e && isCash categories e
  · rw [if_pos hcash, legSum, sum_filter_eq_ite, entryOutflow]
    grind
  · rw [if_neg hcash]
    apply List.sum_eq_zero
    grind

/-- Savings count an entry's income less its expense. -/
theorem savings_eq (legs : List FlowLeg) :
    (legs.map fun l => if l.account.type = .income then -l.baseValue
      else if l.account.type = .expense then -l.baseValue else 0).sum =
      entryInflow legs - legSum .expense legs := by
  rw [entryInflow_eq]
  induction legs with
  | nil => rfl
  | cons l legs ih =>
    rw [List.map_cons, List.sum_cons, ih]
    simp only [legSum, sum_filter_cons, decide_eq_true_eq]
    by_cases hi : l.account.type = .income
    · simp only [hi, if_true, reduceCtorEq, if_false]
      abel
    · by_cases he : l.account.type = .expense
      · simp only [he, reduceCtorEq, if_false, if_true]
        abel
      · simp only [hi, he, if_false]
        abel

theorem entryFlow_none {e : JournalEntry} (h : db.entryFlow categories e = none) :
    db.flowLegs e = [] := by
  unfold Db.entryFlow at h
  split at h <;> grind

theorem entryFlow_some {e : JournalEntry} {f : EntryFlow}
    (h : db.entryFlow categories e = some f) :
    f = { day := e.entryDate, inflow := entryInflow (db.flowLegs e)
          outflow := entryOutflow categories e (db.flowLegs e) } := by
  unfold Db.entryFlow at h
  split at h <;> grind

/-- The sum over the rows of some days, as a sum over the entries of these days. -/
theorem sum_perEntry (p : EntryFlow → Bool) (q : JournalEntry → Bool) {g : EntryFlow → Decimal}
    {k : JournalEntry → Decimal}
    (hsome : ∀ e f, db.entryFlow categories e = some f → p f = q e ∧ g f = k e)
    (hnone : ∀ e, db.flowLegs e = [] → k e = 0) :
    (((db.perEntry categories r).filter p).map g).sum =
      (((db.reported r).filter q).map k).sum := by
  unfold Db.perEntry
  induction db.reported r with
  | nil => rfl
  | cons e es ih =>
    rw [sum_filter_cons, ← ih]
    cases hf : db.entryFlow categories e with
    | none => simp [hf, hnone e (entryFlow_none hf)]
    | some f =>
      obtain ⟨hp, hg⟩ := hsome e f hf
      rw [List.filterMap_cons_some hf, sum_filter_cons, hp, hg]

/-! ## Report by report -/

variable {cal : JalaliCalendar} {today : IsoDate} {months : Nat}

/-- The entry is of one of the days `[start, stop)`. -/
def within (start stop : IsoDate) (e : JournalEntry) : Bool :=
  start ≤ e.entryDate && e.entryDate < stop

theorem sum_inflow (p : IsoDate → Bool) :
    (((db.perEntry categories r).filter (p ·.day)).map (·.inflow)).sum =
      (((db.reported r).filter (p ·.entryDate)).map fun e => entryInflow (db.flowLegs e)).sum := by
  apply sum_perEntry
  · intro e f hf
    rw [entryFlow_some hf]
    exact ⟨rfl, rfl⟩
  · intro e he
    rw [he]
    rfl

theorem sum_outflow (p : IsoDate → Bool) :
    (((db.perEntry categories r).filter (p ·.day)).map (·.outflow)).sum =
      (((db.reported r).filter (p ·.entryDate)).map fun e =>
        entryOutflow categories e (db.flowLegs e)).sum := by
  apply sum_perEntry
  · intro e f hf
    rw [entryFlow_some hf]
    exact ⟨rfl, rfl⟩
  · intro e he
    rw [he]
    rfl

/-- A column of the cash flow over the months that satisfy `p`. -/
theorem sum_cashflow (hr : r.refused = false) (p : IsoDate → Bool)
    {column : CashflowMonth → Decimal} {g : EntryFlow → Decimal}
    (hcolumn : ∀ b flows, column (cashflowMonth b flows) = (flows.map g).sum) :
    (((getCashflow db categories cal today months r).filter (p ·.month)).map column).sum =
      (((recentJalaliMonths cal months today).filter (p ·.start)).map fun b =>
        (((db.perEntry categories r).filter fun f => b.contains f.day).map g).sum).sum := by
  unfold getCashflow
  rw [hr, if_neg Bool.false_ne_true]
  refine sum_by_month p ?_ ?_ _
  · intro b hrows
    simp only [hrows]
  · intro b f flows hrows
    exact ⟨cashflowMonth b (f :: flows), by simp only [hrows], rfl, hcolumn b (f :: flows)⟩

/-- Over whole months it is the sum over their days. -/
theorem sum_cashflow_range (hr : r.refused = false)
    (hrise : Rising (recentJalaliMonths cal months today)) {first last : JalaliMonth}
    (hfirst : first ∈ recentJalaliMonths cal months today)
    (hlast : last ∈ recentJalaliMonths cal months today)
    {column : CashflowMonth → Decimal} {g : EntryFlow → Decimal}
    (hcolumn : ∀ b flows, column (cashflowMonth b flows) = (flows.map g).sum) :
    (((getCashflow db categories cal today months r).filter fun m =>
        first.start ≤ m.month && m.month < last.stop).map column).sum =
      (((db.perEntry categories r).filter fun f =>
        first.start ≤ f.day && f.day < last.stop).map g).sum := by
  obtain ⟨s, t, hspans⟩ := recentJalaliMonths_spans cal months today
  rw [sum_cashflow hr (fun d => first.start ≤ d && d < last.stop) hcolumn]
  exact hspans.sum_range hrise hfirst hlast (·.day) g _

/-- The days add up to what the entries that spent something spent. -/
theorem sum_daily (hr : r.refused = false) (start stop : IsoDate) :
    ((getDailyOutflow db categories start stop r).map (·.outflow)).sum =
      (((db.perEntry categories r).filter fun f =>
        (start ≤ f.day && f.day < stop) && 0 < f.outflow).map (·.outflow)).sum := by
  unfold getDailyOutflow
  rw [hr, if_neg Bool.false_ne_true]
  generalize (db.perEntry categories r).filter _ = flows
  have hnodup : ((flows.map (·.day)).dedup.insertionSort (· ≤ ·)).Nodup :=
    (List.perm_insertionSort _ _).nodup_iff.mpr (List.nodup_dedup _)
  have hall : flows.filter (fun f =>
      decide (f.day ∈ (flows.map (·.day)).dedup.insertionSort (· ≤ ·))) = flows := by
    apply List.filter_eq_self.mpr
    intro f hf
    have hmem : f.day ∈ flows.map (·.day) := List.mem_map_of_mem hf
    simpa only [decide_eq_true_eq, List.mem_insertionSort, List.mem_dedup] using hmem
  have hgroup := sum_group hnodup (·.day) (·.outflow) flows
  rw [hall] at hgroup
  rw [hgroup, List.map_map]
  rfl

/-- While nothing is taken back, the days add up to the months. -/
theorem sum_daily_of_nonneg (hr : r.refused = false) {start stop : IsoDate}
    (hspent : ∀ e ∈ db.reported r, within start stop e →
      0 ≤ entryOutflow categories e (db.flowLegs e)) :
    ((getDailyOutflow db categories start stop r).map (·.outflow)).sum =
      (((db.perEntry categories r).filter fun f =>
        start ≤ f.day && f.day < stop).map (·.outflow)).sum := by
  rw [sum_daily hr, sum_filter_split (fun f : EntryFlow => start ≤ f.day && f.day < stop)
    (0 < ·.outflow)]
  have hzero : (((db.perEntry categories r).filter fun f =>
      (start ≤ f.day && f.day < stop) && !decide (0 < f.outflow)).map (·.outflow)).sum = 0 := by
    apply List.sum_eq_zero
    intro x hx
    obtain ⟨f, hf, rfl⟩ := List.mem_map.mp hx
    obtain ⟨hmem, hin⟩ := List.mem_filter.mp hf
    obtain ⟨e, he, hflow⟩ := List.mem_filterMap.mp hmem
    rw [entryFlow_some hflow] at hin ⊢
    simp only [Bool.and_eq_true, Bool.not_eq_true', decide_eq_false_iff_not] at hin
    have hday : within start stop e := by
      unfold within
      grind
    exact le_antisymm (not_lt.mp hin.2) (hspent e he hday)
  rw [hzero, add_zero]

/-- The savings leave the entry out. -/
def notSaved (categories : List ExpenseCategory) (e : JournalEntry) : Bool :=
  isRepayment e || !isCash categories e

theorem flow_eq (e : JournalEntry) :
    entryInflow (db.flowLegs e) - entryOutflow categories e (db.flowLegs e) =
      (if notSaved categories e then 0
        else entryInflow (db.flowLegs e) - legSum .expense (db.flowLegs e)) +
      if notSaved categories e then entryInflow (db.flowLegs e) else 0 := by
  rw [entryOutflow_eq]
  unfold notSaved
  by_cases hrepaid : isRepayment e <;> by_cases hcash : isCash categories e <;>
    simp [hrepaid, hcash]

/-- What came in less what went out is what was saved, and what came in with the entries that
the savings leave out. -/
theorem sum_flow (hr : r.refused = false) {start stop : IsoDate}
    (hdays : ∀ e ∈ db.journalEntries,
      e.entryDate ≤ IsoDate.dayBefore stop ↔ e.entryDate < stop) :
    (((db.reported r).filter (within start stop)).map fun e =>
        entryInflow (db.flowLegs e) - entryOutflow categories e (db.flowLegs e)).sum =
      getNetSavingsBetween db categories start (IsoDate.dayBefore stop) r +
      (((db.reported r).filter fun e => within start stop e && notSaved categories e).map
        fun e => entryInflow (db.flowLegs e)).sum := by
  have hnet : getNetSavingsBetween db categories start (IsoDate.dayBefore stop) r =
      (((db.reported r).filter fun e => within start stop e && !notSaved categories e).map
        fun e => entryInflow (db.flowLegs e) - legSum .expense (db.flowLegs e)).sum := by
    unfold getNetSavingsBetween
    rw [hr, if_neg Bool.false_ne_true]
    simp only [savings_eq]
    congr 2
    apply List.filter_congr
    intro e he
    have hday := hdays e (List.mem_filter.mp he).1
    unfold within notSaved
    grind
  rw [hnet]
  simp only [sum_filter_eq_ite, ← List.sum_map_add]
  congr 1
  apply List.map_congr_left
  intro e _
  have hflow := @flow_eq db categories e
  by_cases hin : within start stop e <;> by_cases hout : notSaved categories e <;>
    simp_all

/-! ## The whole ledger -/

/-- No account and no asset was deleted or lost its registry row. -/
structure Db.AllLive (db : Db) : Prop where
  accounts : ∀ a ∈ db.accounts, a.deleted = false
  assets : ∀ a ∈ db.assets, ¬ db.isInactiveOrOrphanedRwaAsset a

theorem Db.AllLive.legSum_total (h : db.AllLive) {side : AccountType}
    (hside : side = .expense ∨ side = .income) (e : JournalEntry) :
    legSum side (db.totalLegs e) = legSum side (db.flowLegs e) := by
  unfold legSum Db.totalLegs
  rw [List.filter_filter]
  congr 2
  apply List.filter_congr
  intro l hl
  obtain ⟨p, -, hp⟩ := List.mem_filterMap.mp (List.mem_filter.mp hl).1
  obtain ⟨a, ha, rfl⟩ := Option.map_eq_some_iff.mp hp
  have hlive := h.accounts a (List.mem_of_find?_eq_some ha)
  have hgone : ¬ ∃ b ∈ db.assets, b.id = p.assetId ∧ b.deleted = true :=
    fun ⟨b, hb, _, hdel⟩ => h.assets b hb (.inl hdel)
  simp only [hlive, hgone, not_false_eq_true, true_and, and_true]
  grind

theorem Db.AllLive.totalled_eq (h : db.AllLive)
    (howned : ∀ e ∈ db.journalEntries, e.status = .posted → e.userId ≠ none) :
    db.totalled r = db.reported r := by
  unfold Db.totalled Db.reported
  apply List.filter_congr
  intro e he
  have hshown := not_entryReferencesInactiveRwa h.assets e.id
  have hnamed := howned e he
  grind

/-- A column of the cash flow, when every entry falls into one of its months. -/
theorem sum_cashflow_all (hr : r.refused = false)
    (hrise : Rising (recentJalaliMonths cal months today))
    (hin : ∀ e ∈ db.reported r, ∃ b ∈ recentJalaliMonths cal months today, b.contains e.entryDate)
    {column : CashflowMonth → Decimal} {g : EntryFlow → Decimal}
    (hcolumn : ∀ b flows, column (cashflowMonth b flows) = (flows.map g).sum) :
    ((getCashflow db categories cal today months r).map column).sum =
      ((db.perEntry categories r).map g).sum := by
  obtain ⟨s, t, hspans⟩ := recentJalaliMonths_spans cal months today
  have hdays : ∀ f ∈ db.perEntry categories r,
      ∃ b ∈ recentJalaliMonths cal months today, b.contains f.day := by
    intro f hf
    obtain ⟨e, he, hflow⟩ := List.mem_filterMap.mp hf
    rw [entryFlow_some hflow]
    exact hin e he
  have hsum := @sum_cashflow db categories r cal today months hr (fun _ => true) column g hcolumn
  rw [List.filter_true, List.filter_true, hspans.sum_all hrise (·.day) g hdays] at hsum
  exact hsum

theorem sum_perEntry_all : ((db.perEntry categories r).map (·.inflow)).sum =
      ((db.reported r).map fun e => entryInflow (db.flowLegs e)).sum ∧
    ((db.perEntry categories r).map (·.outflow)).sum =
      ((db.reported r).map fun e => entryOutflow categories e (db.flowLegs e)).sum := by
  have hin := @sum_inflow db categories r fun _ => true
  have hout := @sum_outflow db categories r fun _ => true
  simp only [List.filter_true] at hin hout
  exact ⟨hin, hout⟩

theorem Db.AllLive.totals (h : db.AllLive) (hr : r.refused = false)
    (howned : ∀ e ∈ db.journalEntries, e.status = .posted → e.userId ≠ none) :
    (getExpenseIncomeTotals db r).expense =
      ((db.reported r).map fun e => entryOutflow categories e (db.flowLegs e)).sum +
        (((db.reported r).filter fun e => !isRepayment e && !isCash categories e).map
          fun e => legSum .expense (db.flowLegs e)).sum ∧
    (getExpenseIncomeTotals db r).income + (((db.reported r).filter isRepayment).map
        fun e => entryInflow (db.flowLegs e)).sum =
      ((db.reported r).map fun e => entryInflow (db.flowLegs e)).sum := by
  unfold getExpenseIncomeTotals
  rw [hr, if_neg Bool.false_ne_true]
  simp only [h.totalled_eq howned, h.legSum_total (.inl rfl), h.legSum_total (.inr rfl),
    sum_filter_eq_ite, ← List.sum_map_add, entryOutflow_eq, entryInflow_eq]
  constructor <;> congr 1 <;> apply List.map_congr_left <;> intro e _
  · by_cases hrepaid : isRepayment e <;> by_cases hcash : isCash categories e <;>
      simp [hrepaid, hcash]
  · by_cases hrepaid : isRepayment e <;> simp [hrepaid]

end Entries

/-! ## The reports of one user -/

theorem first_isIsoDate {d : IsoDate} (h : isIsoDate d) : 101 ≤ d := by
  obtain ⟨hm, -, hd, -⟩ := (isIsoDate_iff d).mp h
  unfold IsoDate.month at hm
  unfold IsoDate.day at hd
  have hle : ∀ k : Nat, 0 < k / 100 % 100 → 0 < k % 100 → 101 ≤ k := by omega
  exact hle d hm hd

theorem Rising.dayBefore_iff {bs : List JalaliMonth} (h : Rising bs) {b : JalaliMonth}
    (hb : b ∈ bs) {d : IsoDate} (hd : isIsoDate d) :
    d ≤ IsoDate.dayBefore b.stop ↔ d < b.stop := by
  obtain ⟨hlt, hstart, hstop⟩ := h b hb
  exact le_dayBefore_iff hd hstop (Nat.lt_of_le_of_lt (first_isIsoDate hstart) hlt)

/-- What the reports on the entries of one user agree on, where nothing is taken back and no
repayment brings in money. An expense without cash is an expense of the totals, and no outflow;
the savings leave out every entry under a category without cash. -/
theorem spending_reports {db : Db} {categories : List ExpenseCategory} {r : Reader} {u : Uuid}
    {cal : JalaliCalendar} {today : IsoDate} {months : Nat} (hr : r.user = some u)
    (hrise : Rising (recentJalaliMonths cal months today))
    (hdates : ∀ e ∈ db.journalEntries, isIsoDate e.entryDate)
    (howned : ∀ e ∈ db.journalEntries, e.status = .posted → e.userId = some u)
    (hlive : db.AllLive) :
    (∀ first ∈ recentJalaliMonths cal months today,
      ∀ last ∈ recentJalaliMonths cal months today,
      let rows := (getCashflow db categories cal today months r).filter fun m =>
        first.start ≤ m.month && m.month < last.stop
      let entries := (db.reported r).filter (within first.start last.stop)
      ((∀ e ∈ entries, 0 ≤ entryOutflow categories e (db.flowLegs e)) →
        ((getDailyOutflow db categories first.start last.stop r).map (·.outflow)).sum =
          (rows.map (·.outflow)).sum) ∧
      ((∀ e ∈ entries, isRepayment e → entryInflow (db.flowLegs e) = 0) →
        (rows.map (·.inflow)).sum - (rows.map (·.outflow)).sum =
          getNetSavingsBetween db categories first.start (IsoDate.dayBefore last.stop) r +
            ((entries.filter (!isCash categories ·)).map fun e =>
              entryInflow (db.flowLegs e)).sum)) ∧
    ((∀ e ∈ db.journalEntries, e.status = .posted →
        ∃ b ∈ recentJalaliMonths cal months today, b.contains e.entryDate) →
      let rows := getCashflow db categories cal today months r
      (getExpenseIncomeTotals db r).expense = (rows.map (·.outflow)).sum +
        (((db.reported r).filter fun e => !isRepayment e && !isCash categories e).map
          fun e => legSum .expense (db.flowLegs e)).sum ∧
      ((∀ e ∈ db.reported r, isRepayment e → entryInflow (db.flowLegs e) = 0) →
        (getExpenseIncomeTotals db r).income = (rows.map (·.inflow)).sum)) := by
  have hopen : r.refused = false := by
    unfold Reader.refused
    rw [hr]
    rfl
  constructor
  · intro first hfirst last hlast
    dsimp only
    have hinflow := @sum_cashflow_range db categories r cal today months hopen hrise first last
      hfirst hlast (·.inflow) (·.inflow) fun _ _ => rfl
    have houtflow := @sum_cashflow_range db categories r cal today months hopen hrise first last
      hfirst hlast (·.outflow) (·.outflow) fun _ _ => rfl
    constructor
    · intro hspent
      rw [houtflow]
      apply sum_daily_of_nonneg hopen
      intro e he hday
      exact hspent e (List.mem_filter.mpr ⟨he, hday⟩)
    · intro hrepaid
      have hdays : ∀ e ∈ db.journalEntries,
          e.entryDate ≤ IsoDate.dayBefore last.stop ↔ e.entryDate < last.stop :=
        fun e he => hrise.dayBefore_iff hlast (hdates e he)
      have hflow := @sum_flow db categories r hopen first.start last.stop hdays
      rw [sum_map_sub] at hflow
      rw [hinflow, houtflow, sum_inflow (fun d => first.start ≤ d && d < last.stop),
        sum_outflow (fun d => first.start ≤ d && d < last.stop)]
      refine hflow.trans (congrArg _ ?_)
      rw [List.filter_filter, sum_filter_eq_ite, sum_filter_eq_ite]
      congr 1
      apply List.map_congr_left
      intro e he
      have hzero : within first.start last.stop e → isRepayment e →
          entryInflow (db.flowLegs e) = 0 :=
        fun hday => hrepaid e (List.mem_filter.mpr ⟨he, hday⟩)
      unfold notSaved
      grind
  · intro hin
    dsimp only
    have hnamed : ∀ e ∈ db.journalEntries, e.status = .posted → e.userId ≠ none := by
      intro e he hposted
      rw [howned e he hposted]
      exact Option.some_ne_none u
    obtain ⟨hinflow, houtflow⟩ := @sum_perEntry_all db categories r
    obtain ⟨hexpense, hincome⟩ := @Db.AllLive.totals db categories r hlive hopen hnamed
    have hreported : ∀ e ∈ db.reported r,
        ∃ b ∈ recentJalaliMonths cal months today, b.contains e.entryDate := by
      intro e he
      obtain ⟨hmem, hposted⟩ := List.mem_filter.mp he
      exact hin e hmem (of_decide_eq_true hposted).1
    rw [sum_cashflow_all hopen hrise hreported fun _ _ => rfl,
      sum_cashflow_all hopen hrise hreported fun _ _ => rfl, hinflow, houtflow]
    refine ⟨hexpense, fun hrepaid => ?_⟩
    rw [← hincome]
    symm
    apply add_eq_left.mpr
    apply List.sum_eq_zero
    intro x hx
    obtain ⟨e, he, rfl⟩ := List.mem_map.mp hx
    obtain ⟨hmem, hkind⟩ := List.mem_filter.mp he
    exact hrepaid e hmem hkind

/-- A depreciation of 50 dollars, under a category without cash, and a salary of 80. -/
def demoSpending : Db where
  users := [1]
  assets := [{ id := 10, symbol := "USD", classCode := "CASH" }]
  accounts :=
    [{ id := 100, createdAt := 0, userId := some 1, code := "1010", name := "Bank"
       type := .asset, assetId := some 10 },
     { id := 101, createdAt := 0, userId := some 1, code := RESERVE_ACCOUNT_CODE
       name := RESERVE_ACCOUNT_NAME, type := .equity, assetId := some 10 },
     { id := 102, createdAt := 0, userId := some 1, code := "5010", name := "Car"
       type := .expense, assetId := some 10 },
     { id := 103, createdAt := 0, userId := some 1, code := INCOME_ACCOUNT_CODE
       name := INCOME_ACCOUNT_NAME, type := .income, assetId := some 10 }]
  journalEntries :=
    [{ id := 1, userId := some 1, entryDate := 20261024, type := .expense, description := ""
       status := .posted, categoryId := some 7 },
     { id := 2, userId := some 1, entryDate := 20261025, type := .income, description := ""
       status := .posted }]
  postings :=
    [{ entryId := 1, accountId := 102, assetId := 10, quantity := .ofInt 50
       baseValue := .ofInt 50, memo := none },
     { entryId := 1, accountId := 101, assetId := 10, quantity := -.ofInt 50
       baseValue := -.ofInt 50, memo := none },
     { entryId := 2, accountId := 100, assetId := 10, quantity := .ofInt 80
       baseValue := .ofInt 80, memo := none },
     { entryId := 2, accountId := 103, assetId := 10, quantity := -.ofInt 80
       baseValue := -.ofInt 80, memo := none }]

def depreciation : List ExpenseCategory := [{ id := 7, nature := .nonCash }]

theorem demoSpending_live : demoSpending.AllLive where
  accounts := by decide
  assets := by decide

theorem reports_of_demoSpending :
    ((getDailyOutflow demoSpending depreciation 20261023 20261122 ⟨some 1, false⟩).map
        (·.outflow)).sum =
      (((getCashflow demoSpending depreciation ordinaryYears 20261025 6 ⟨some 1, false⟩).filter
        fun m => 20261023 ≤ m.month && m.month < 20261122).map (·.outflow)).sum ∧
    (getExpenseIncomeTotals demoSpending ⟨some 1, false⟩).income =
      ((getCashflow demoSpending depreciation ordinaryYears 20261025 6 ⟨some 1, false⟩).map
        (·.inflow)).sum := by
  obtain ⟨hrange, htotal⟩ := @spending_reports demoSpending depreciation ⟨some 1, false⟩ 1
    ordinaryYears 20261025 6 rfl (by decide) (by decide) (by decide) demoSpending_live
  exact ⟨(hrange ⟨20261023, 20261122⟩ (by decide) ⟨20261023, 20261122⟩ (by decide)).1
    (by decide), (htotal (by decide)).2 (by decide)⟩

/-- All accounts and assets are live and both entries are of the last month: the totals count
the depreciation, the cash flow does not. -/
theorem spending_reports_differ :
    (getCashflow demoSpending depreciation ordinaryYears 20261025 6 ⟨some 1, false⟩).map
        (fun m => (m.month, m.inflow, m.outflow)) = [(20261023, .ofInt 80, 0)] ∧
    getExpenseIncomeTotals demoSpending ⟨some 1, false⟩ =
      { expense := .ofInt 50, income := .ofInt 80 } := by
  decide

end Pwos
