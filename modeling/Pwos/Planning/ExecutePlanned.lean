import Pwos.Planning.Payments
import Pwos.Domain.Calendar
import Pwos.Lib.Process

/-!
# Executing a plan

`executePlanned` and `listPlanned` of `features/planning/service.ts`. The status of the plan is
read, its entry is posted, the plan is marked and its next occurrence is inserted: four steps
that commit one after the other.

A plan's amount is in Toman. It is posted as if it were dollars, so the entry has the plan's
figures at a rate of one Toman a dollar only (`executePlanned_figures`).
-/

namespace Pwos

/-- The sign of what the plan does to its cash account. -/
def PlanDirection.sign : PlanDirection → Int
  | .outflow => -1
  | .inflow => 1

/-- The account a plan without a counter account is posted against. -/
def PlanDirection.counterCode : PlanDirection → String
  | .outflow => "5900"
  | .inflow => "4900"

def PlanDirection.entryType : PlanDirection → EntryType
  | .outflow => .expense
  | .inflow => .income

namespace PlannedTransaction
variable (plan : PlannedTransaction)

def cashId : Option Uuid :=
  match plan.direction with
  | .outflow => plan.fromAccountId
  | .inflow => plan.toAccountId

/-- The counter account the plan names. -/
def namedCounter : Option Uuid :=
  match plan.direction with
  | .outflow => plan.toAccountId
  | .inflow => plan.fromAccountId

/-- The entry, from the units of the amount on both accounts. -/
def entryInput (cashId counterId : Uuid) (cash counter : Uuid × Decimal) : PostEntryInput :=
  let sign := plan.direction.sign
  { entryDate := plan.plannedDate
    type := plan.direction.entryType
    description := "اجرای برنامه: " ++ plan.title
    source := some .plan
    userId := plan.userId
    postings := [
      { accountId := cashId, assetId := cash.1
        quantity := sign • cash.2, baseValue := sign • plan.amountBase },
      { accountId := counterId, assetId := counter.1
        quantity := -sign • counter.2, baseValue := -sign • plan.amountBase }] }

def recurrenceMonths : Nat := if plan.recurrence = .monthly then 1 else 12

/-- The next occurrence. What an income or a premium also carries is not copied. -/
def successor (id : Uuid) : PlannedTransaction :=
  { id
    userId := plan.userId
    title := plan.title
    plannedDate := addMonthsIso plan.plannedDate plan.recurrenceMonths
    direction := plan.direction
    amountBase := plan.amountBase
    fromAccountId := plan.fromAccountId
    toAccountId := plan.toAccountId
    assetId := plan.assetId
    recurrence := plan.recurrence
    goalId := plan.goalId
    eventId := plan.eventId
    note := plan.note
    chain := some (plan.chain.getD plan.id) }

end PlannedTransaction

/-! ## The steps -/

def readPlan (id : Uuid) : Sql PlannedTransaction := do
  match ← Tx.read (·.findPlan id) with
  | none => .fail (.failure "برنامه یافت نشد")
  | some plan => pure plan

/-- `select().from(accounts).where(eq(accounts.code, code)).limit(1)`, of every tenant. -/
def Db.anyAccountCoded (code : String) (db : Db) : Option Account :=
  db.accounts.find? (·.code = code)

/-- What is read before the entry is posted. -/
def PlannedTransaction.prepare (plan : PlannedTransaction) : Sql PostEntryInput := do
  match plan.cashId with
  | none => .fail (.failure "حساب نقدی برنامه مشخص نیست")
  | some cashId =>
    let counter ← Tx.read (·.anyAccountCoded plan.direction.counterCode)
    match plan.namedCounter <|> counter.map (·.id) with
    | none => .fail (.failure "حساب طرف مقابل یافت نشد")
    | some counterId =>
      let cashUnits ← unitsFor cashId plan.amountBase plan.userId
      let counterUnits ← unitsFor counterId plan.amountBase plan.userId
      pure (plan.entryInput cashId counterId cashUnits counterUnits)

/-- Mark the plan and insert the next one. -/
def PlannedTransaction.finish (plan : PlannedTransaction) (env : Env) (entryId : Uuid) : Sql Unit := do
  Tx.write (fun _ => [.plan plan.id]) (fun _ => [.executePlan plan.id entryId])
  Tx.when (plan.recurrence ≠ .none) <|
    Tx.insert (fun _ => [.plan env.planId]) (fun db => ∀ p ∈ db.plannedTransactions, p.id ≠ env.planId)
      (fun _ => [.insertPlan (plan.successor env.planId)])
      (.constraintViolation "planned_transactions")

inductive PlanOutcome where
  | already (entryId : Option Uuid)
  | posted (entry : PostResult)
  deriving DecidableEq, Repr

abbrev PlanProcess (α : Type) := Process Db Write Row Assumption α

/-- Go on unless the step before failed. -/
def unlessFailed {α β : Type} (next : α → PlanProcess (Except AppError β)) :
    Except AppError α → PlanProcess (Except AppError β)
  | .ok a => next a
  | .error e => .done (.error e)

def executePlanned (env : Env) (id : Uuid) : PlanProcess (Except AppError PlanOutcome) :=
  (Process.statements (readPlan id)).bind <| unlessFailed fun plan =>
    if plan.status = .executed then .done (.ok (.already plan.executedEntryId))
    else
      (Process.statements plan.prepare).bind <| unlessFailed fun input =>
        (Process.transaction (postEntry env input)).bind <| unlessFailed fun entry =>
          (Process.statements (plan.finish env entry.id)).bind <| unlessFailed fun _ =>
            .done (.ok (.posted entry))

/-! ## What is listed -/

structure ListedPlan where
  amountToman : Decimal
  amountUsd : Decimal
  deriving DecidableEq

/-- A row of `listPlanned` at a rate. -/
def PlannedTransaction.listed (plan : PlannedTransaction) (rate : Decimal) : ListedPlan where
  amountToman := plan.amountBase.toFixed 0
  amountUsd := if 0 < rate then plan.amountBase.div rate else 0

/-! ## What is posted -/

section Posted
variable {env : Env} {id : Uuid} {db db' : Db} {plan : PlannedTransaction} {r : PostResult}

theorem readPlan_ok (h : (readPlan id).run db = .ok (plan, db')) :
    db.findPlan id = some plan ∧ db' = db := by
  unfold readPlan at h
  rw [Tx.run_read_bind] at h
  cases hfound : db.findPlan id with
  | none => rw [hfound] at h; cases h
  | some found =>
    rw [hfound] at h
    cases h
    exact ⟨rfl, rfl⟩

/-- The units of the two lines. -/
structure PlannedTransaction.Prepared (plan : PlannedTransaction) (db : Db)
    (input : PostEntryInput) : Prop where
  lines : ∃ cashId counterId cash counter, plan.cashId = some cashId ∧
    (unitsFor cashId plan.amountBase plan.userId).run db = .ok (cash, db) ∧
    (unitsFor counterId plan.amountBase plan.userId).run db = .ok (counter, db) ∧
    input = plan.entryInput cashId counterId cash counter

theorem PlannedTransaction.prepare_ok {input : PostEntryInput}
    (h : plan.prepare.run db = .ok (input, db')) : plan.Prepared db input ∧ db' = db := by
  unfold prepare at h
  split at h
  · cases h
  rename_i cashId hcash
  rw [Tx.run_read_bind] at h
  split at h
  · cases h
  rename_i counterId hcounter
  obtain ⟨cash, mid, h₁, k₁⟩ := Tx.run_bind_ok.mp h
  obtain ⟨counter, last, h₂, k₂⟩ := Tx.run_bind_ok.mp k₁
  obtain rfl := (readOnly_unitsFor _ _ _).run_state h₁
  obtain rfl := (readOnly_unitsFor _ _ _).run_state h₂
  cases k₂
  exact ⟨⟨cashId, counterId, cash, counter, hcash, h₁, h₂, rfl⟩, rfl⟩

theorem PlannedTransaction.finish_postings {entryId : Uuid}
    (h : (plan.finish env entryId).run db = .ok ((), db')) : db'.postings = db.postings := by
  unfold finish at h
  rw [Tx.run_write_bind] at h
  unfold Tx.when at h
  split at h
  · unfold Tx.insert at h
    rw [Tx.run_stmt] at h
    split at h
    · rw [Tx.run_done] at h
      cases h
      rfl
    · cases h
  · cases h
    rfl

/-- What a call that posts has read, and the lines it adds. -/
theorem executePlanned_posted
    (h : (executePlanned env id).run [] db = (.ok (.posted r), db')) :
    ∃ plan input, db.findPlan id = some plan ∧ plan.Prepared db input ∧
      Balanced input.postings ∧
      db'.postings = db.postings ++ input.postings.map (DraftPosting.row env.entryId) := by
  unfold executePlanned at h
  obtain ⟨plan, _, hread, h₁⟩ | ⟨e, _, -, h₁⟩ := Process.run_statements_bind h
  swap
  · cases h₁
  obtain ⟨hplan, rfl⟩ := readPlan_ok hread
  simp only [unlessFailed] at h₁
  split at h₁
  · cases h₁
  obtain ⟨input, _, hprepare, h₂⟩ | ⟨e, _, -, h₂⟩ := Process.run_statements_bind h₁
  swap
  · cases h₂
  obtain ⟨hprepared, rfl⟩ := plan.prepare_ok hprepare
  obtain ⟨entry, mid, hpost, h₃⟩ | ⟨e, -, h₃⟩ := Process.run_transaction_bind h₂
  swap
  · cases h₃
  obtain ⟨u, last, hfinish, h₄⟩ | ⟨e, _, -, h₄⟩ := Process.run_statements_bind h₃
  swap
  · cases h₄
  cases h₄
  obtain ⟨cashId, counterId, cash, counter, -, -, -, rfl⟩ := hprepared.lines
  obtain ⟨⟨_, k, _, -, hkey, -⟩, -⟩ | ⟨-, userId, hchecks, -, rfl⟩ :=
    postEntry_plain_ok rfl rfl hpost
  · cases hkey
  · refine ⟨plan, _, hplan, hprepared, hchecks.balanced, ?_⟩
    rw [plan.finish_postings hfinish]
    rfl

/-! ## Toman as dollars -/

/-- Dividing by `b` changes nothing only where `b` is at most one. -/
theorem Decimal.le_one_of_div_eq {a b : Decimal} (ha : a ≠ 0) (hb : 0 < b) (h : a.div b = a) :
    b ≤ .ofInt 1 := by
  have hb' : 0 < b.raw := hb
  have hone : 0 < ONE := Decimal.one_pos
  have hquot : (a.raw * ONE).tdiv b.raw = a.raw := by
    have hraw := congrArg Decimal.raw h
    rwa [Decimal.div, if_neg hb'.ne'] at hraw
  have hnat : a.raw.natAbs * ONE.natAbs / b.raw.natAbs = a.raw.natAbs := by
    have habs := congrArg Int.natAbs hquot
    rwa [Int.natAbs_tdiv, Int.natAbs_mul] at habs
  have hpos : 0 < a.raw.natAbs := Int.natAbs_pos.mpr fun hz => ha (Decimal.ext hz)
  have hmul : a.raw.natAbs * b.raw.natAbs ≤ a.raw.natAbs * ONE.natAbs := by
    have hle := Nat.div_mul_le_self (a.raw.natAbs * ONE.natAbs) b.raw.natAbs
    rwa [hnat] at hle
  have hle := Nat.le_of_mul_le_mul_left hmul hpos
  rw [Decimal.le_iff, Decimal.raw_ofInt, one_mul]
  omega

/-- A rate that leaves the amount alone, and whose reciprocal does, is one. -/
theorem Decimal.eq_one_of_div_eq {a rate : Decimal} (ha : a ≠ 0) (hrate : 0 < rate)
    (hbase : a.div rate = a)
    (hunits : a.div (if (Decimal.ofInt 1).div rate = 0 then .ofInt 1 else (Decimal.ofInt 1).div rate) = a) :
    rate = .ofInt 1 := by
  have hle : rate.raw ≤ ONE := by
    simpa [Decimal.le_iff] using le_one_of_div_eq ha hrate hbase
  have hpos : 0 < rate.raw := hrate
  have hunit : ((Decimal.ofInt 1).div rate).raw = ONE * ONE / rate.raw := by
    rw [Decimal.div, if_neg hpos.ne', Decimal.raw_ofInt, one_mul,
      Int.tdiv_eq_ediv_of_nonneg (by decide)]
  have hge : ONE ≤ ((Decimal.ofInt 1).div rate).raw := by
    rw [hunit]
    apply Int.le_ediv_of_mul_le hpos
    exact mul_le_mul_of_nonneg_left hle (by decide)
  have hne : (Decimal.ofInt 1).div rate ≠ 0 := fun hz => by
    rw [hz] at hge
    exact absurd hge (by decide)
  rw [if_neg hne] at hunits
  have hupos : 0 < (Decimal.ofInt 1).div rate := lt_of_lt_of_le Decimal.one_pos hge
  have hunitle : ((Decimal.ofInt 1).div rate).raw ≤ ONE := by
    simpa [Decimal.le_iff] using le_one_of_div_eq ha hupos hunits
  rw [hunit] at hunitle
  have hlt : ONE * ONE < (ONE + 1) * rate.raw := by
    have := Int.lt_ediv_add_one_mul_self (ONE * ONE) hpos
    nlinarith
  ext
  rw [Decimal.raw_ofInt, one_mul]
  simp only [ONE] at *
  omega

theorem Decimal.neg_div (a b : Decimal) : (-a).div b = -a.div b := by
  unfold Decimal.div
  split
  · rfl
  · ext
    simp [Int.neg_tdiv]

@[simp] theorem Decimal.zero_div (b : Decimal) : (0 : Decimal).div b = 0 := by
  unfold Decimal.div
  split
  · rfl
  · ext
    simp

/-- A quotient does not change sign. -/
theorem Decimal.div_ne_neg {a b : Decimal} (ha : a ≠ 0) (hb : 0 < b) : a.div b ≠ -a := by
  have hcase : ∀ x : Decimal, 0 < x → x.div b ≠ -x := by
    intro x hx h
    have hnonneg : 0 ≤ x.div b := Decimal.div_nonneg hx.le hb.le
    rw [h] at hnonneg
    exact absurd (neg_nonneg.mp hnonneg) (not_le.mpr hx)
  rcases lt_or_gt_of_ne ha with hneg | hpos
  · intro h
    apply hcase (-a) (neg_pos.mpr hneg)
    rw [neg_div, h]
  · exact hcase a hpos

/-- The price of a Toman. -/
theorem nativeUnitPriceUsd_toman {asset : Uuid} {userId : Option Uuid} {fx : FxSnapshot}
    {price : Decimal} (hunit : db.unitOf asset = "IRT")
    (hrate : (getLatestUsdIrtRateForUser userId).answer db = .ok fx)
    (h : (nativeUnitPriceUsd asset userId).answer db = .ok price) :
    0 < fx.rate ∧ price = (Decimal.ofInt 1).div fx.rate := by
  have hrun := (readOnly_nativeUnitPriceUsd _ _).run_ok.mpr ⟨h, rfl⟩
  unfold nativeUnitPriceUsd at hrun
  rw [Tx.run_read_bind] at hrun
  have hsymbol : upper (((db.findAsset asset).map (·.symbol)).getD "") = "IRT" := hunit
  simp only [hsymbol, if_true] at hrun
  rw [Tx.run_bind_of_ok ((readOnly_getLatestUsdIrtRateForUser _).run_ok.mpr ⟨hrate, rfl⟩),
    Tx.run_require_bind] at hrun
  split at hrun
  · cases hrun
    exact ⟨‹_›, rfl⟩
  · cases hrun

/-- One of the lines books the plan on its cash account: its Toman, at the dollars listed. -/
def PlannedTransaction.FiguresIn (plan : PlannedTransaction) (rate : Decimal) (cashId : Uuid)
    (lines : List Posting) : Prop :=
  ∃ p ∈ lines, p.accountId = cashId ∧ p.quantity = plan.direction.sign • plan.amountBase ∧
    p.baseValue = plan.direction.sign • (plan.listed rate).amountUsd

instance (plan : PlannedTransaction) (rate : Decimal) (cashId : Uuid) (lines : List Posting) :
    Decidable (plan.FiguresIn rate cashId lines) := inferInstanceAs (Decidable (∃ p ∈ lines, _))

theorem PlanDirection.sign_smul_inj (d : PlanDirection) {a b : Decimal} :
    d.sign • a = d.sign • b ↔ a = b := by
  cases d <;> simp [sign]

/-- The entry of a plan on a Toman account has the plan's figures exactly at a rate of one. -/
theorem executePlanned_figures {cashId asset : Uuid} {fx : FxSnapshot}
    (hplan : db.findPlan id = some plan) (hcash : plan.cashId = some cashId)
    (hasset : (db.findAccount cashId).bind (·.assetId) = some asset)
    (htoman : db.unitOf asset = "IRT")
    (hrate : (getLatestUsdIrtRateForUser plan.userId).answer db = .ok fx)
    (h : (executePlanned env id).run [] db = (.ok (.posted r), db')) :
    plan.FiguresIn fx.rate cashId (db'.postings.drop db.postings.length) ↔ fx.rate = .ofInt 1 := by
  obtain ⟨plan', input, hplan', hprepared, hbalanced, hlines⟩ := executePlanned_posted h
  obtain rfl : plan = plan' := Option.some.inj (hplan.symm.trans hplan')
  obtain ⟨cash', counterId, cash, counter, hcash', hunits, -, rfl⟩ := hprepared.lines
  obtain rfl : cashId = cash' := Option.some.inj (hcash.symm.trans hcash')
  obtain ⟨-, hasset', price, hprice, hquantity⟩ := unitsFor_ok hunits
  have hsame : cash.1 = asset := Option.some.inj (hasset'.symm.trans hasset)
  rw [hsame] at hprice
  obtain ⟨hpos, rfl⟩ := nativeUnitPriceUsd_toman htoman hrate hprice
  set unit := if (Decimal.ofInt 1).div fx.rate = 0 then Decimal.ofInt 1
    else (Decimal.ofInt 1).div fx.rate with hunit
  have hne : plan.amountBase ≠ 0 := by
    intro hzero
    apply hbalanced.nonzero _ (List.mem_cons_self)
    simp [hquantity, hzero]
  have hlisted : (plan.listed fx.rate).amountUsd = plan.amountBase.div fx.rate := if_pos hpos
  rw [hlines, List.drop_left, PlannedTransaction.FiguresIn, hlisted]
  constructor
  · rintro ⟨p, hp, -, hq, hbase⟩
    simp only [PlannedTransaction.entryInput, List.map_cons, List.map_nil, List.mem_cons,
      List.not_mem_nil, or_false] at hp
    rcases hp with rfl | rfl
    · simp only [DraftPosting.row, PlanDirection.sign_smul_inj] at hq hbase
      exact Decimal.eq_one_of_div_eq hne hpos hbase.symm (hquantity.symm.trans hq)
    · -- the counter line has the opposite sign
      simp only [DraftPosting.row, neg_smul, ← smul_neg, PlanDirection.sign_smul_inj] at hbase
      exact absurd hbase.symm (Decimal.div_ne_neg hne hpos)
  · intro hone
    refine ⟨_, List.mem_cons_self, rfl, ?_, ?_⟩
    · have hunit_one : unit = .ofInt 1 := by
        rw [hunit, hone, Decimal.div_ofInt_one, if_neg (by decide)]
      simp only [DraftPosting.row]
      rw [hquantity, hunit_one, Decimal.div_ofInt_one]
    · simp only [DraftPosting.row]
      rw [hone, Decimal.div_ofInt_one]

end Posted

section Demo

/-- A Toman bank account, a dollar bucket for expenses, and a plan to pay 45 million Toman. -/
def demoPlanned (rate : Int) : Db :=
  { users := [1]
    assets := [⟨1, "USD", "fiat", false⟩, ⟨2, "IRT", "fiat", false⟩]
    accounts := [⟨11, 0, some 1, "1010", "Bank", .asset, some 2, false⟩,
      ⟨12, 0, some 1, "5900", "Other expenses", .expense, some 1, false⟩]
    userFxSettings := [⟨1, .ofInt rate⟩]
    plannedTransactions := [{ id := 7, userId := some 1, title := "rent", plannedDate := 20260301
                              direction := .outflow, amountBase := .ofInt 45000000
                              fromAccountId := some 11 }] }

/-- The state and the answer after the plan of `demoPlanned` is executed. -/
def demoExecuted (rate : Int) : Except AppError PlanOutcome × Db :=
  (executePlanned { entryId := 70 } 7).run [] (demoPlanned rate)

/-- At 100000 Toman a dollar the plan is posted as 45 million dollars, which are 4.5 million
million Toman. -/
theorem demoPlanned_inflated :
    (demoExecuted 100000).1 = .ok (.posted ⟨70, false⟩) ∧
      (demoExecuted 100000).2.postings.map (fun p => (p.accountId, p.quantity, p.baseValue)) =
        [(11, .ofInt (-4500000000000), .ofInt (-45000000)), (12, .ofInt 45000000, .ofInt 45000000)] ∧
      ∀ plan ∈ (demoPlanned 100000).plannedTransactions,
        ¬ plan.FiguresIn (.ofInt 100000) 11 (demoExecuted 100000).2.postings := by
  decide

theorem demoPlanned_figures : (demoPlanned 1).plannedTransactions.length = 1 ∧
    ∀ plan ∈ (demoPlanned 1).plannedTransactions, plan.FiguresIn (.ofInt 1) 11
      ((demoExecuted 1).2.postings.drop (demoPlanned 1).postings.length) := by
  refine ⟨rfl, fun plan hmem => ?_⟩
  obtain rfl := List.mem_singleton.mp hmem
  have hunit : (demoPlanned 1).unitOf 2 = "IRT" := by decide
  have hrate : (getLatestUsdIrtRateForUser (some 1)).answer (demoPlanned 1) =
      .ok ⟨.ofInt 1, .userSettings⟩ := by decide
  have hrun : (executePlanned { entryId := 70 } 7).run [] (demoPlanned 1) =
      (.ok (.posted ⟨70, false⟩), (demoExecuted 1).2) :=
    Prod.ext (by decide) rfl
  exact (executePlanned_figures rfl rfl rfl hunit hrate hrun).mpr rfl

end Demo

end Pwos
