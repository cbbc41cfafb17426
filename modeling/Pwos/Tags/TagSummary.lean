import Pwos.Ledger.SpendingReports
import Pwos.Tags.AssetTags

/-!
# The totals of a tag

`getTagSummary` of `features/tags/service.ts` says that it mirrors the cash flow. It adds up the
dollars of income and expense legs as `getCashflow` does, under other filters, and the whole Toman
frozen with an entry where `getCashflow` takes the share of these legs (`getCashflowToman`, its
Toman columns). How far the two are apart is said entry by entry (`tag_totals_mirror_iff`).
-/

namespace Pwos

structure EntryTag where
  entryId : Uuid
  tag : Text
  deriving DecidableEq, Repr

/-- The Toman and the dollars frozen with an entry. -/
def Db.frozenOf (db : Db) (entryId : Uuid) : Option FrozenAmounts :=
  (db.entryFxSnapshots.find? (·.entryId = entryId)).bind (·.amounts)

section Queries
variable (db : Db)

/-! ## The tag -/

/-- A row of `per_entry`. -/
structure TaggedFlow where
  expUsd : Decimal
  incUsd : Decimal
  irt : Option Decimal
  deriving DecidableEq, Repr

def Db.taggedFlow (e : JournalEntry) : TaggedFlow :=
  { expUsd := legSum .expense (db.flowLegs e), incUsd := -legSum .income (db.flowLegs e)
    irt := (db.frozenOf e.id).map (·.irtAmount) }

structure TagSummary where
  tag : Text
  entries : Nat
  expenseUsd : Decimal
  expenseToman : Decimal
  expenseEntries : Nat
  expenseEntriesWithSnap : Nat
  incomeUsd : Decimal
  incomeToman : Decimal
  incomeEntries : Nat
  incomeEntriesWithSnap : Nat
  firstDate : Option IsoDate
  lastDate : Option IsoDate
  deriving DecidableEq, Repr

def Db.tagged (tags : List EntryTag) (tag : Text) (r : Reader) : List JournalEntry :=
  (db.reported r).filter fun e => ⟨e.id, tag⟩ ∈ tags

def getTagSummary (u : Unicode) (tags : List EntryTag) (rawTag : Text) (r : Reader) :
    Option TagSummary :=
  (normalizeTag u rawTag).bind fun tag =>
    if r.refused then none
    else
      let tagged := db.tagged tags tag r
      let perEntry := (tagged.filter (!isRepayment ·)).map db.taggedFlow
      let expenses := perEntry.filter (·.expUsd ≠ 0)
      let incomes := perEntry.filter (·.incUsd ≠ 0)
      some
        { tag, entries := tagged.length
          expenseUsd := (perEntry.map (·.expUsd)).sum
          expenseToman := (expenses.filterMap (·.irt)).sum
          expenseEntries := expenses.length
          expenseEntriesWithSnap := (expenses.filter (·.irt.isSome)).length
          incomeUsd := (perEntry.map (·.incUsd)).sum
          incomeToman := (incomes.filterMap (·.irt)).sum
          incomeEntries := incomes.length
          incomeEntriesWithSnap := (incomes.filter (·.irt.isSome)).length
          firstDate := (tagged.map (·.entryDate)).min?
          lastDate := (tagged.map (·.entryDate)).max? }

/-! ## The months -/

/-- The quotient, rounded to the nearest whole number, a half away from zero. -/
def roundedDiv (n d : Int) : Int :=
  n.sign * d.sign * ((2 * n.natAbs + d.natAbs) / (2 * d.natAbs) : Nat)

/-- `round(irt * usd / snap_usd)`: the quotient has 36 decimals. -/
def tomanShare (f : FrozenAmounts) (usd : Decimal) : Decimal :=
  .ofInt (roundedDiv (roundedDiv (f.irtAmount.raw * usd.raw * 10 ^ 18) f.usdAmount.raw) (10 ^ 36))

/-- The frozen Toman of a flow out of an entry, where one is attributed. -/
def Db.attributed (e : JournalEntry) (usd : Decimal) : Decimal :=
  if 0 < usd then
    (((db.frozenOf e.id).filter (0 < ·.usdAmount)).map (tomanShare · usd)).getD 0
  else 0

structure AttributedFlow where
  day : IsoDate
  inflow : Decimal
  outflow : Decimal
  deriving DecidableEq, Repr

variable (categories : List ExpenseCategory)

def Db.attributedFlow (e : JournalEntry) : Option AttributedFlow :=
  (db.entryFlow categories e).map fun f =>
    { day := f.day, inflow := db.attributed e f.inflow, outflow := db.attributed e f.outflow }

structure CashflowTomanMonth where
  month : IsoDate
  inflowToman : Decimal
  outflowToman : Decimal
  deriving DecidableEq, Repr

/-- The Toman columns of `getCashflow`. -/
def getCashflowToman (cal : JalaliCalendar) (today : IsoDate) (months : Nat) (r : Reader) :
    List CashflowTomanMonth :=
  if r.refused then []
  else
    let flows := (db.reported r).filterMap (db.attributedFlow categories)
    (recentJalaliMonths cal months today).filterMap fun b =>
      match flows.filter fun f => b.contains f.day with
      | [] => none
      | flows => some
        { month := b.start, inflowToman := (flows.map (·.inflow)).sum
          outflowToman := (flows.map (·.outflow)).sum }

end Queries

/-! ## How far they are apart -/

section Mirror
variable (db : Db) (categories : List ExpenseCategory)

/-- All of the frozen Toman of an entry. -/
def Db.irtOf (e : JournalEntry) : Decimal := ((db.frozenOf e.id).map (·.irtAmount)).getD 0

/-- The expense of an entry without cash. -/
def Db.nonCashExpense (e : JournalEntry) : Decimal :=
  if !isRepayment e && !isCash categories e then legSum .expense (db.flowLegs e) else 0

/-- The income legs of a repayment. -/
def Db.repaymentIncome (e : JournalEntry) : Decimal :=
  if isRepayment e then -legSum .income (db.flowLegs e) else 0

/-- The frozen Toman of an entry with an expense that is not the share of the expense: what other
legs have of it, or all of it where the expense is without cash or taken back. -/
def Db.tomanBesideExpense (e : JournalEntry) : Decimal :=
  let usd := legSum .expense (db.flowLegs e)
  if isRepayment e ∨ usd = 0 then 0
  else if isCash categories e then db.irtOf e - db.attributed e usd
  else db.irtOf e

/-- The same for an income; that of a repayment has no Toman with the tag. -/
def Db.tomanBesideIncome (e : JournalEntry) : Decimal :=
  let usd := -legSum .income (db.flowLegs e)
  if usd = 0 then 0
  else if isRepayment e then -db.attributed e usd
  else db.irtOf e - db.attributed e usd

variable {db categories} {r : Reader} {u : Unicode} {tags : List EntryTag} {tag rawTag : Text}

theorem attributed_zero (e : JournalEntry) : db.attributed e 0 = 0 := if_neg (lt_irrefl 0)

/-- What the tag counts of the Toman of an entry. -/
theorem sum_tagged (es : List JournalEntry) (usd : TaggedFlow → Decimal) :
    ((((es.filter (!isRepayment ·)).map db.taggedFlow).filter (usd · ≠ 0)).filterMap (·.irt)).sum =
      (es.map fun e => if isRepayment e ∨ usd (db.taggedFlow e) = 0 then 0
        else db.irtOf e).sum := by
  induction es with
  | nil => rfl
  | cons e es ih =>
    rw [List.map_cons, List.sum_cons, ← ih]
    by_cases hrepaid : isRepayment e
    · simp [hrepaid]
    · by_cases husd : usd (db.taggedFlow e) = 0
      · simp [hrepaid, husd]
      · have hirt : db.irtOf e = (db.taggedFlow e).irt.getD 0 := rfl
        rw [List.filter_cons_of_pos (by simpa using hrepaid), List.map_cons,
          List.filter_cons_of_pos (by simpa using husd), if_neg (by simp [hrepaid, husd]), hirt]
        cases hrow : (db.taggedFlow e).irt with
        | none =>
          rw [List.filterMap_cons_none hrow]
          exact (zero_add _).symm
        | some irt =>
          rw [List.filterMap_cons_some hrow, List.sum_cons]
          rfl

/-! ## Both sides, entry by entry -/

variable {cal : JalaliCalendar} {today : IsoDate} {months : Nat}

/-- A Toman column of the months, when every entry falls into one of them. -/
theorem sum_cashflowToman (hr : r.refused = false)
    (hrise : Rising (recentJalaliMonths cal months today))
    (hin : ∀ e ∈ db.reported r, ∃ b ∈ recentJalaliMonths cal months today, b.contains e.entryDate)
    {column : CashflowTomanMonth → Decimal} {g : AttributedFlow → Decimal}
    (hcolumn : ∀ b (flows : List AttributedFlow),
      column ⟨b, (flows.map (·.inflow)).sum, (flows.map (·.outflow)).sum⟩ = (flows.map g).sum) :
    ((getCashflowToman db categories cal today months r).map column).sum =
      (((db.reported r).filterMap (db.attributedFlow categories)).map g).sum := by
  obtain ⟨s, t, hspans⟩ := recentJalaliMonths_spans cal months today
  set flows := (db.reported r).filterMap (db.attributedFlow categories) with hflows
  have hdays : ∀ f ∈ flows, ∃ b ∈ recentJalaliMonths cal months today, b.contains f.day := by
    intro f hf
    obtain ⟨e, he, hflow⟩ := List.mem_filterMap.mp hf
    obtain ⟨g, hg, rfl⟩ := Option.map_eq_some_iff.mp hflow
    rw [entryFlow_some hg]
    exact hin e he
  rw [← hspans.sum_all hrise (·.day) g hdays]
  unfold getCashflowToman
  rw [hr, if_neg Bool.false_ne_true, ← hflows]
  have hsum := @sum_by_month _ _ _ _ flows (·.day) g (fun b =>
    match flows.filter fun f => b.contains f.day with
    | [] => none
    | flows => some
      { month := b.start, inflowToman := (flows.map (·.inflow)).sum
        outflowToman := (flows.map (·.outflow)).sum }) (·.month) column (fun _ => true)
    (fun b hrows => by simp only [hrows])
    (fun b f fs hrows => ⟨_, by simp only [hrows], rfl, hcolumn b.start (f :: fs)⟩)
    (recentJalaliMonths cal months today)
  rw [List.filter_true, List.filter_true] at hsum
  exact hsum

/-- A column of the months, entry by entry. -/
theorem sum_attributed {g : AttributedFlow → Decimal} {usd : EntryFlow → Decimal}
    {k : JournalEntry → List FlowLeg → Decimal}
    (hg : ∀ e f, g ⟨f.day, db.attributed e f.inflow, db.attributed e f.outflow⟩ =
      db.attributed e (usd f))
    (hsome : ∀ e f, db.entryFlow categories e = some f → usd f = k e (db.flowLegs e))
    (hnil : ∀ e, k e [] = 0) (es : List JournalEntry) :
    ((es.filterMap (db.attributedFlow categories)).map g).sum =
      (es.map fun e => db.attributed e (k e (db.flowLegs e))).sum := by
  induction es with
  | nil => rfl
  | cons e es ih =>
    rw [List.map_cons, List.sum_cons, ← ih]
    cases hf : db.entryFlow categories e with
    | none =>
      have hnone : db.attributedFlow categories e = none := by
        rw [Db.attributedFlow, hf]
        rfl
      rw [List.filterMap_cons_none hnone, entryFlow_none hf, hnil, attributed_zero, zero_add]
    | some f =>
      have hsome' : db.attributedFlow categories e =
          some ⟨f.day, db.attributed e f.inflow, db.attributed e f.outflow⟩ := by
        rw [Db.attributedFlow, hf]
        rfl
      rw [List.filterMap_cons_some hsome', List.map_cons, List.sum_cons, hg, hsome e f hf]

/-! ## The mirror -/

/-- The totals of a tag are those of the months, the Toman up to `n`. -/
structure TagMirrors (s : TagSummary) (rows : List CashflowMonth)
    (toman : List CashflowTomanMonth) (n : Nat) : Prop where
  expenseUsd : s.expenseUsd = (rows.map (·.outflow)).sum
  incomeUsd : s.incomeUsd = (rows.map (·.inflow)).sum
  expenseToman : (s.expenseToman - (toman.map (·.outflowToman)).sum).abs ≤ .ofInt n
  incomeToman : (s.incomeToman - (toman.map (·.inflowToman)).sum).abs ≤ .ofInt n

variable (db categories) in
/-- What the two count differently of the entries cancels out. -/
structure Db.Mirrored (es : List JournalEntry) : Prop where
  nonCash : (es.map (db.nonCashExpense categories)).sum = 0
  repaid : (es.map db.repaymentIncome).sum = 0
  expense : ((es.map (db.tomanBesideExpense categories)).sum).abs ≤ .ofInt es.length
  income : ((es.map db.tomanBesideIncome).sum).abs ≤ .ofInt es.length

theorem entryOutflow_nil (e : JournalEntry) : entryOutflow categories e [] = 0 := rfl

theorem expenseUsd_eq (es : List JournalEntry) :
    (((es.filter (!isRepayment ·)).map db.taggedFlow).map (·.expUsd)).sum =
      (es.map fun e => entryOutflow categories e (db.flowLegs e)).sum +
        (es.map (db.nonCashExpense categories)).sum := by
  rw [List.map_map, sum_filter_eq_ite, ← List.sum_map_add]
  congr 1
  apply List.map_congr_left
  intro e _
  rw [entryOutflow_eq]
  by_cases hrepaid : isRepayment e <;> by_cases hcash : isCash categories e <;>
    simp [hrepaid, hcash, Db.nonCashExpense, Db.taggedFlow]

theorem incomeUsd_eq (es : List JournalEntry) :
    (es.map fun e => entryInflow (db.flowLegs e)).sum =
      (((es.filter (!isRepayment ·)).map db.taggedFlow).map (·.incUsd)).sum +
        (es.map db.repaymentIncome).sum := by
  rw [List.map_map, sum_filter_eq_ite, ← List.sum_map_add]
  congr 1
  apply List.map_congr_left
  intro e _
  rw [entryInflow_eq]
  by_cases hrepaid : isRepayment e <;> simp [hrepaid, Db.repaymentIncome, Db.taggedFlow]

theorem expenseToman_eq (es : List JournalEntry) :
    ((((es.filter (!isRepayment ·)).map db.taggedFlow).filter (·.expUsd ≠ 0)).filterMap
        (·.irt)).sum - (es.map fun e =>
          db.attributed e (entryOutflow categories e (db.flowLegs e))).sum =
      (es.map (db.tomanBesideExpense categories)).sum := by
  rw [sum_tagged es (·.expUsd), ← sum_map_sub]
  congr 1
  apply List.map_congr_left
  intro e _
  rw [entryOutflow_eq]
  unfold Db.tomanBesideExpense Db.taggedFlow
  have hzero := @attributed_zero db e
  by_cases hrepaid : isRepayment e
  · simp [hrepaid, hzero]
  · by_cases husd : legSum .expense (db.flowLegs e) = 0
    · simp [hrepaid, husd, hzero]
    · by_cases hcash : isCash categories e <;> simp [hrepaid, husd, hcash, hzero]

theorem incomeToman_eq (es : List JournalEntry) :
    ((((es.filter (!isRepayment ·)).map db.taggedFlow).filter (·.incUsd ≠ 0)).filterMap
        (·.irt)).sum - (es.map fun e => db.attributed e (entryInflow (db.flowLegs e))).sum =
      (es.map db.tomanBesideIncome).sum := by
  rw [sum_tagged es (·.incUsd), ← sum_map_sub]
  congr 1
  apply List.map_congr_left
  intro e _
  rw [entryInflow_eq]
  unfold Db.tomanBesideIncome Db.taggedFlow
  have hzero := @attributed_zero db e
  by_cases husd : -legSum .income (db.flowLegs e) = 0
  · simp [husd, hzero]
  · by_cases hrepaid : isRepayment e <;> simp [husd, hrepaid]

/-- Where every entry of a user carries the tag and falls into one of the months. -/
theorem tag_totals_mirror_iff {uid : Uuid} (hr : r.user = some uid)
    (hrise : Rising (recentJalaliMonths cal months today))
    (hin : ∀ e ∈ db.reported r, ∃ b ∈ recentJalaliMonths cal months today, b.contains e.entryDate)
    (htag : normalizeTag u rawTag = some tag)
    (htagged : ∀ e ∈ db.reported r, ⟨e.id, tag⟩ ∈ tags) :
    ∃ s, getTagSummary db u tags rawTag r = some s ∧
      (TagMirrors s (getCashflow db categories cal today months r)
          (getCashflowToman db categories cal today months r) (db.reported r).length ↔
        db.Mirrored categories (db.reported r)) := by
  have hopen : r.refused = false := by
    unfold Reader.refused
    rw [hr]
    rfl
  have hall : db.tagged tags tag r = db.reported r := by
    apply List.filter_eq_self.mpr
    intro e he
    exact decide_eq_true (htagged e he)
  refine ⟨_, by rw [getTagSummary, htag, Option.bind_some, hopen, if_neg Bool.false_ne_true], ?_⟩
  obtain ⟨hinflow, houtflow⟩ := @sum_perEntry_all db categories r
  have hinToman := @sum_cashflowToman db categories r cal today months hopen hrise hin
    (·.inflowToman) (·.inflow) fun _ _ => rfl
  have houtToman := @sum_cashflowToman db categories r cal today months hopen hrise hin
    (·.outflowToman) (·.outflow) fun _ _ => rfl
  rw [@sum_attributed db categories (·.inflow) (·.inflow) (fun _ legs => entryInflow legs)
    (fun _ _ => rfl) (fun e f hf => by rw [entryFlow_some hf]) fun _ => rfl] at hinToman
  rw [@sum_attributed db categories (·.outflow) (·.outflow) (entryOutflow categories)
    (fun _ _ => rfl) (fun e f hf => by rw [entryFlow_some hf]) entryOutflow_nil] at houtToman
  rw [hall]
  constructor
  · rintro ⟨hexpense, hincome, hexpenseToman, hincomeToman⟩
    dsimp only at hexpense hincome hexpenseToman hincomeToman
    rw [sum_cashflow_all hopen hrise hin fun _ _ => rfl, houtflow, expenseUsd_eq] at hexpense
    rw [sum_cashflow_all hopen hrise hin fun _ _ => rfl, hinflow, incomeUsd_eq] at hincome
    rw [houtToman, expenseToman_eq] at hexpenseToman
    rw [hinToman, incomeToman_eq] at hincomeToman
    exact ⟨add_eq_left.mp hexpense, left_eq_add.mp hincome, hexpenseToman, hincomeToman⟩
  · rintro ⟨hnonCash, hrepaid, hexpense, hincome⟩
    constructor <;> dsimp only
    · rw [sum_cashflow_all hopen hrise hin fun _ _ => rfl, houtflow, expenseUsd_eq, hnonCash,
        add_zero]
    · rw [sum_cashflow_all hopen hrise hin fun _ _ => rfl, hinflow, incomeUsd_eq, hrepaid,
        add_zero]
    · rw [houtToman, expenseToman_eq]
      exact hexpense
    · rw [hinToman, incomeToman_eq]
      exact hincome

/-! ## Plain entries -/

variable (db categories) in
/-- Only legs on expense, or only legs on income, are worth what was frozen of the entry. -/
structure Db.Plain (e : JournalEntry) (f : FrozenAmounts) : Prop where
  frozen : db.frozenOf e.id = some f
  pos : 0 < f.usdAmount
  expense : legSum .expense (db.flowLegs e) = 0 ∨
    legSum .expense (db.flowLegs e) = f.usdAmount ∧ isCash categories e
  income : -legSum .income (db.flowLegs e) = 0 ∨
    -legSum .income (db.flowLegs e) = f.usdAmount ∧ isRepayment e = false

theorem roundedDiv_near {n d : Int} (hd : 0 < d) : |2 * (roundedDiv n d * d - n)| ≤ d := by
  obtain ⟨d, rfl⟩ := Int.eq_ofNat_of_zero_le hd.le
  set q := (2 * n.natAbs + d) / (2 * d) with hq
  have hlo : 2 * (d * q) ≤ 2 * n.natAbs + d := by
    rw [← mul_assoc]
    exact Nat.mul_div_le _ _
  have hhi : 2 * n.natAbs + d < 2 * (d * q) + 2 * d := by
    have hlt := Nat.lt_mul_div_succ (2 * n.natAbs + d) (show 0 < 2 * d by omega)
    rw [← hq, mul_add, mul_assoc] at hlt
    omega
  have hround : roundedDiv n d * d = n.sign * (d * q : Nat) := by
    unfold roundedDiv
    rw [Int.sign_eq_one_of_pos hd, Int.natAbs_natCast, ← hq]
    push_cast
    ring
  rw [hround, abs_le]
  rcases lt_trichotomy n 0 with hn | rfl | hn
  · rw [Int.sign_eq_neg_one_of_neg hn]
    omega
  · rw [Int.sign_zero]
    omega
  · rw [Int.sign_eq_one_of_pos hn]
    omega

theorem roundedDiv_mul {n d : Int} (hd : 0 < d) : roundedDiv (n * d) d = n := by
  have hnear := @roundedDiv_near (n * d) d hd
  rw [← sub_mul, ← mul_assoc, abs_mul, abs_of_pos hd] at hnear
  have hone : |2 * (roundedDiv (n * d) d - n)| ≤ 1 :=
    le_of_mul_le_mul_right (by rwa [one_mul]) hd
  rw [abs_le] at hone
  omega

/-- Where all of it is attributed it is rounded to whole Toman. -/
theorem tomanShare_whole {f : FrozenAmounts} (hpos : 0 < f.usdAmount) :
    (f.irtAmount - tomanShare f f.usdAmount).abs ≤ .ofInt 1 := by
  have hexact : roundedDiv (f.irtAmount.raw * f.usdAmount.raw * 10 ^ 18) f.usdAmount.raw =
      f.irtAmount.raw * 10 ^ 18 := by
    rw [mul_right_comm]
    exact roundedDiv_mul hpos
  have hnear := @roundedDiv_near (f.irtAmount.raw * 10 ^ 18) (10 ^ 36) (by norm_num)
  unfold tomanShare
  rw [hexact, Decimal.le_iff, Decimal.raw_abs, Decimal.raw_sub, Decimal.raw_ofInt,
    Decimal.raw_ofInt, one_mul]
  unfold ONE
  rw [abs_le] at hnear ⊢
  omega

theorem abs_sum_le {α : Type} {es : List α} {g : α → Decimal}
    (h : ∀ e ∈ es, (g e).abs ≤ .ofInt 1) : ((es.map g).sum).abs ≤ .ofInt es.length := by
  simp only [Decimal.abs_le_iff] at h ⊢
  induction es with
  | nil => simp
  | cons e es ih =>
    obtain ⟨hlo, hhi⟩ := h e List.mem_cons_self
    obtain ⟨hmin, hmax⟩ := ih fun x hx => h x (List.mem_cons_of_mem e hx)
    have hlength : Decimal.ofInt (e :: es).length = .ofInt 1 + .ofInt es.length := by
      rw [Decimal.ofInt_add, List.length_cons, Nat.cast_succ, add_comm]
    rw [List.map_cons, List.sum_cons, hlength, neg_add]
    exact ⟨add_le_add hlo hmin, add_le_add hhi hmax⟩

theorem Db.Plain.beside {e : JournalEntry} {f : FrozenAmounts} (h : db.Plain categories e f) :
    (db.tomanBesideExpense categories e).abs ≤ .ofInt 1 ∧
      (db.tomanBesideIncome e).abs ≤ .ofInt 1 := by
  have hirt : db.irtOf e = f.irtAmount := by
    rw [Db.irtOf, h.frozen]
    rfl
  have hwhole : db.attributed e f.usdAmount = tomanShare f f.usdAmount := by
    rw [Db.attributed, if_pos h.pos, h.frozen, Option.filter_some, if_pos (decide_eq_true h.pos)]
    rfl
  have hnone : (0 : Decimal).abs ≤ .ofInt 1 := by decide
  have hshare := tomanShare_whole h.pos
  constructor
  · unfold Db.tomanBesideExpense
    rcases h.expense with hzero | ⟨hall, hcash⟩
    · simpa [hzero] using hnone
    · by_cases hrepaid : isRepayment e ∨ f.usdAmount = 0
      · simpa [hall, hrepaid] using hnone
      · simpa [hall, hrepaid, hcash, hirt, hwhole] using hshare
  · unfold Db.tomanBesideIncome
    rcases h.income with hzero | ⟨hall, hpaid⟩
    · simpa [hzero] using hnone
    · by_cases husd : f.usdAmount = 0
      · simpa [hall, husd] using hnone
      · simpa [hall, husd, hpaid, hirt, hwhole] using hshare

/-- Entries all of whose frozen amount is expense or income have the same totals. -/
theorem Db.Plain.mirrored {es : List JournalEntry}
    (h : ∀ e ∈ es, ∃ f, db.Plain categories e f) : db.Mirrored categories es where
  nonCash := by
    apply List.sum_eq_zero
    intro x hx
    obtain ⟨e, he, rfl⟩ := List.mem_map.mp hx
    obtain ⟨f, hf⟩ := h e he
    rcases hf.expense with hzero | ⟨-, hcash⟩
    · simp [Db.nonCashExpense, hzero]
    · simp [Db.nonCashExpense, hcash]
  repaid := by
    apply List.sum_eq_zero
    intro x hx
    obtain ⟨e, he, rfl⟩ := List.mem_map.mp hx
    obtain ⟨f, hf⟩ := h e he
    rcases hf.income with hzero | ⟨-, hpaid⟩
    · simp [Db.repaymentIncome, neg_eq_zero.mp hzero]
    · simp [Db.repaymentIncome, hpaid]
  expense := abs_sum_le fun e he => (h e he).elim fun _ hf => hf.beside.1
  income := abs_sum_le fun e he => (h e he).elim fun _ hf => hf.beside.2

end Mirror

/-- One dollar is spent, and `kept` dollars go to another account with it. -/
def demoTrip (kept : Int) : Db where
  users := [1]
  assets := [{ id := 10, symbol := "USD", classCode := "CASH" }]
  accounts :=
    [{ id := 100, createdAt := 0, userId := some 1, code := "1010", name := "Bank"
       type := .asset, assetId := some 10 },
     { id := 101, createdAt := 0, userId := some 1, code := "1020", name := "Wallet"
       type := .asset, assetId := some 10 },
     { id := 102, createdAt := 0, userId := some 1, code := "5040", name := "Fees"
       type := .expense, assetId := some 10 }]
  journalEntries :=
    [{ id := 1, userId := some 1, entryDate := 20261024, type := .transfer, description := ""
       status := .posted }]
  postings :=
    [{ entryId := 1, accountId := 100, assetId := 10, quantity := -.ofInt (kept + 1)
       baseValue := -.ofInt (kept + 1), memo := none },
     { entryId := 1, accountId := 101, assetId := 10, quantity := .ofInt kept
       baseValue := .ofInt kept, memo := none },
     { entryId := 1, accountId := 102, assetId := 10, quantity := .ofInt 1
       baseValue := .ofInt 1, memo := none }]
  entryFxSnapshots :=
    [{ entryId := 1, fxRate := .ofInt 100000
       amounts := some ⟨.ofInt (100000 * (kept + 1)), .ofInt (kept + 1), 20261024⟩ }]

def tripTag : Text := ['t', 'r', 'i', 'p']

theorem tag_totals_of_trip : ∃ s,
    getTagSummary (demoTrip 0) ascii [⟨1, tripTag⟩] tripTag ⟨some 1, false⟩ = some s ∧
      TagMirrors s (getCashflow (demoTrip 0) [] ordinaryYears 20261025 6 ⟨some 1, false⟩)
        (getCashflowToman (demoTrip 0) [] ordinaryYears 20261025 6 ⟨some 1, false⟩) 1 := by
  have hplain : ∀ e ∈ (demoTrip 0).reported ⟨some 1, false⟩, ∃ f, (demoTrip 0).Plain [] e f := by
    intro e he
    obtain rfl : e = { id := 1, userId := some 1, entryDate := 20261024, type := .transfer
                       description := "", status := .posted } := by
      simpa [Db.reported, demoTrip] using (List.mem_filter.mp he).1
    exact ⟨⟨.ofInt 100000, .ofInt 1, 20261024⟩, by decide, by decide, by decide, by decide⟩
  obtain ⟨s, hs, hiff⟩ := @tag_totals_mirror_iff (demoTrip 0) [] ⟨some 1, false⟩ ascii
    [⟨1, tripTag⟩] tripTag tripTag ordinaryYears 20261025 6 1 rfl (by decide) (by decide)
    (by decide) (by decide)
  exact ⟨s, hs, hiff.mpr (Db.Plain.mirrored hplain)⟩

/-- Of a transfer of 250 dollars only its fee is spent; the tag counts the Toman of all of it. -/
theorem tag_totals_of_transfer : ∃ s,
    getTagSummary (demoTrip 250) ascii [⟨1, tripTag⟩] tripTag ⟨some 1, false⟩ = some s ∧
      s.expenseToman = .ofInt 25100000 ∧
      (getCashflowToman (demoTrip 250) [] ordinaryYears 20261025 6 ⟨some 1, false⟩).map
        (·.outflowToman) = [.ofInt 100000] ∧
      ¬ TagMirrors s (getCashflow (demoTrip 250) [] ordinaryYears 20261025 6 ⟨some 1, false⟩)
        (getCashflowToman (demoTrip 250) [] ordinaryYears 20261025 6 ⟨some 1, false⟩) 1 := by
  have htag : (getTagSummary (demoTrip 250) ascii [⟨1, tripTag⟩] tripTag ⟨some 1, false⟩).map
      (·.expenseToman) = some (.ofInt 25100000) := by decide
  have hmonths : (getCashflowToman (demoTrip 250) [] ordinaryYears 20261025 6
      ⟨some 1, false⟩).map (·.outflowToman) = [.ofInt 100000] := by decide
  obtain ⟨s, hs, htoman⟩ := Option.map_eq_some_iff.mp htag
  refine ⟨s, hs, htoman, hmonths, fun hmirrors => ?_⟩
  have hnear := hmirrors.expenseToman
  rw [htoman, hmonths] at hnear
  exact absurd hnear (by decide)

end Pwos
