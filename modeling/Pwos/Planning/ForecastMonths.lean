import Pwos.Planning.Forecast

/-!
# What the projection counts

`projectCashflow` lays its months out from today and those of a plain monthly payment from the
payment's own date, the same number of both. What it counts of a plan in each month, and the
figures of a month.
-/

namespace Pwos

/-! ## What is counted and what is due -/

section Counted
variable (cal : JalaliCalendar)

/-- The months are 1 to 12, and the first day of a month is in it: for the month of an ISO day
and the later ones. -/
structure JalaliCalendar.KeepsMonths : Prop where
  month : ∀ d, isIsoDate d → 0 < (cal.toJalali d).m ∧ (cal.toJalali d).m ≤ 12
  first : ∀ d, isIsoDate d → ∀ y m, ¬ (JalaliDate.mk y m 1).monthBefore (cal.toJalali d) →
    0 < m → m ≤ 12 → jalaliMonthBucketKey cal (cal.jalaliToIso y m 1) = (y, m)

/-- The amounts that fall in a month. -/
def inMonth (key : MonthKey) (flows : List CashFlow) : List (PlanDirection × Decimal) :=
  (flows.filter fun c => key = jalaliMonthBucketKey cal c.date).map fun c => (c.direction, c.toman)

/-- What the projection counts of a plan in the month `k`. -/
def PlannedTransaction.countedIn (months : Nat) (today : IsoDate) (p : PlannedTransaction)
    (k : Nat) : List (PlanDirection × Decimal) :=
  inMonth cal (monthAt cal today k).1 (plannedFlows cal months p)

/-- A plain monthly payment, by the condition of the source. -/
def PlannedTransaction.plainMonthly (p : PlannedTransaction) : Prop :=
  p.direction = .outflow ∧ p.recurrence = .monthly ∧ p.categoryId = none ∧
    p.insurancePolicyId = none ∧ p.depositId = none

instance : DecidablePred PlannedTransaction.plainMonthly := fun p =>
  inferInstanceAs (Decidable (p.direction = .outflow ∧ p.recurrence = .monthly ∧
    p.categoryId = none ∧ p.insurancePolicyId = none ∧ p.depositId = none))

instance (a b : JalaliDate) : Decidable (a.monthBefore b) :=
  inferInstanceAs (Decidable (a.y < b.y ∨ a.y = b.y ∧ a.m < b.m))

/-- What is due of a plan in the month `k`: of a plain monthly payment its amount once in every
month from that of its date on, of any other plan its amount once in the month of its date. -/
def PlannedTransaction.dueIn (today : IsoDate) (p : PlannedTransaction) (k : Nat) :
    List (PlanDirection × Decimal) :=
  let key := (monthAt cal today k).1
  if p.status ≠ .pending then []
  else if p.plainMonthly then
    if (JalaliDate.mk key.1 key.2 1).monthBefore (cal.toJalali p.plannedDate) then []
    else [(.outflow, p.amountBase)]
  else if key = jalaliMonthBucketKey cal p.plannedDate then [(p.direction, p.amountBase)] else []

/-- The items that are no plans. -/
def ProjectionInput.oneOffs (u : Uuid) (input : ProjectionInput) : List CashFlow :=
  (input.due.filter (·.projected u)).flatMap (·.flows input.rate) ++ input.others

/-- What is due of such an item: its amount once in the month of its date. -/
def CashFlow.dueIn (today : IsoDate) (c : CashFlow) (k : Nat) : List (PlanDirection × Decimal) :=
  if (monthAt cal today k).1 = jalaliMonthBucketKey cal c.date then [(c.direction, c.toman)] else []

/-- All that is counted in the month `k`. -/
def ProjectionInput.countedIn (months : Nat) (u : Uuid) (today : IsoDate) (input : ProjectionInput)
    (k : Nat) : List (PlanDirection × Decimal) :=
  input.planned.flatMap (fun p => p.countedIn cal months today k) ++
    (input.oneOffs u).flatMap (fun c => c.dueIn cal today k)

end Counted

def Scenario.inflowOf (scenario : Scenario) (counted : List (PlanDirection × Decimal)) : Decimal :=
  (counted.map fun c => match c.1 with
    | .inflow => c.2.mul scenario.factorIn
    | .outflow => 0).sum

def Scenario.outflowOf (scenario : Scenario) (counted : List (PlanDirection × Decimal)) : Decimal :=
  (counted.map fun c => match c.1 with
    | .inflow => 0
    | .outflow => c.2.mul scenario.factorOut).sum

/-! ## Months by their number -/

section Months
variable {cal : JalaliCalendar} {today : IsoDate}

theorem monthAt_spec (hm : 0 < (cal.toJalali today).m) (k : Nat) :
    0 < (monthAt cal today k).1.2 ∧ (monthAt cal today k).1.2 ≤ 12 ∧
      12 * (monthAt cal today k).1.1 + (monthAt cal today k).1.2 =
        12 * (cal.toJalali today).y + (cal.toJalali today).m + k := by
  unfold monthAt
  dsimp only
  omega

theorem monthAt_injective (hm : 0 < (cal.toJalali today).m) :
    Function.Injective fun k => (monthAt cal today k).1 := by
  intro j k hjk
  obtain ⟨-, -, hj⟩ := monthAt_spec hm j
  obtain ⟨-, -, hk⟩ := monthAt_spec hm k
  dsimp only at hjk
  rw [hjk] at hj
  omega

/-- The numbers that a window of the naturals hits at a given distance. -/
theorem filter_range_add_eq (a b : Int) (n : Nat) :
    ((List.range n).filter fun j => a = b + (j : Nat)) =
      if b ≤ a ∧ a < b + n then [(a - b).toNat] else [] := by
  induction n with
  | zero =>
    rw [if_neg (by omega)]
    rfl
  | succ n ih =>
    rw [List.range_succ, List.filter_append, ih]
    by_cases hn : a = b + n
    · have hhit : ([n].filter fun j => a = b + (j : Nat)) = [n] :=
        List.filter_cons_of_pos (by simpa using hn)
      rw [hhit, if_neg (by omega), if_pos (by omega), List.nil_append]
      congr 1
      omega
    · have hmiss : ([n].filter fun j => a = b + (j : Nat)) = [] :=
        List.filter_cons_of_neg (by simpa using hn)
      rw [hmiss, List.append_nil]
      grind

variable {p : PlannedTransaction}

/-- What a plain monthly payment is counted for: once in each month of its own window. -/
theorem countedIn_plainMonthly (hcal : cal.KeepsMonths) (htoday : isIsoDate today)
    (hdate : isIsoDate p.plannedDate) (hstatus : p.status = .pending) (hplain : p.plainMonthly)
    (months k : Nat) :
    let since := 12 * (cal.toJalali p.plannedDate).y + (cal.toJalali p.plannedDate).m
    let month := 12 * (cal.toJalali today).y + (cal.toJalali today).m + k
    p.countedIn cal months today k =
      if since ≤ month ∧ month < since + months then [(.outflow, p.amountBase)] else [] := by
  have hm := hcal.month p.plannedDate hdate
  have hflows : plannedFlows cal months p = (List.range months).map fun j =>
      ⟨(monthAt cal p.plannedDate j).2, p.amountBase, .outflow⟩ := by
    have hstarts : jalaliMonthStarts cal months p.plannedDate =
        (List.range months).map (monthAt cal p.plannedDate) := monthStarts_eq months _ _ hm
    have hplain : p.direction = .outflow ∧ p.recurrence = .monthly ∧ p.categoryId = none ∧
      p.insurancePolicyId = none ∧ p.depositId = none := hplain
    unfold plannedFlows
    rw [if_neg (not_not.mpr hstatus), if_pos hplain, hstarts, List.map_map]
    rfl
  -- the key of the `j`-th occurrence is that of its month
  have hkey (j : Nat) : ((monthAt cal today k).1 =
      jalaliMonthBucketKey cal (monthAt cal p.plannedDate j).2) ↔
      12 * (cal.toJalali today).y + (cal.toJalali today).m + k =
        12 * (cal.toJalali p.plannedDate).y + (cal.toJalali p.plannedDate).m + (j : Nat) := by
    obtain ⟨hpos, hle, hsum⟩ := monthAt_spec hm.1 j
    obtain ⟨hpos', hle', hsum'⟩ := monthAt_spec (hcal.month today htoday).1 k
    have hafter : ¬ (JalaliDate.mk (monthAt cal p.plannedDate j).1.1
        (monthAt cal p.plannedDate j).1.2 1).monthBefore (cal.toJalali p.plannedDate) := by
      unfold JalaliDate.monthBefore
      dsimp only
      omega
    have hfirst : jalaliMonthBucketKey cal (monthAt cal p.plannedDate j).2 =
        (monthAt cal p.plannedDate j).1 := hcal.first _ hdate _ _ hafter hpos hle
    rw [hfirst, Prod.ext_iff]
    omega
  dsimp only
  unfold PlannedTransaction.countedIn inMonth
  rw [hflows, List.filter_map, List.map_map]
  have hfilter : ((List.range months).filter ((fun c : CashFlow =>
      decide ((monthAt cal today k).1 = jalaliMonthBucketKey cal c.date)) ∘ fun j =>
        ⟨(monthAt cal p.plannedDate j).2, p.amountBase, .outflow⟩)) =
      (List.range months).filter fun j =>
        12 * (cal.toJalali today).y + (cal.toJalali today).m + k =
          12 * (cal.toJalali p.plannedDate).y + (cal.toJalali p.plannedDate).m + (j : Nat) := by
    apply List.filter_congr
    intro j _
    exact decide_eq_decide.mpr (hkey j)
  rw [hfilter, filter_range_add_eq]
  split <;> rfl

/-- Any other plan is counted where it is due. -/
theorem countedIn_other (h : ¬ (p.status = .pending ∧ p.plainMonthly)) (months k : Nat) :
    p.countedIn cal months today k = p.dueIn cal today k := by
  have hplain : p.status = .pending → ¬ (p.direction = .outflow ∧ p.recurrence = .monthly ∧
    p.categoryId = none ∧ p.insurancePolicyId = none ∧ p.depositId = none) :=
      fun hstatus hplain => h ⟨hstatus, hplain⟩
  unfold PlannedTransaction.countedIn PlannedTransaction.dueIn plannedFlows inMonth
  by_cases hstatus : p.status = .pending
  · have hnot : ¬ p.plainMonthly := hplain hstatus
    dsimp only
    rw [if_neg (not_not.mpr hstatus), if_neg (not_not.mpr hstatus), if_neg (hplain hstatus),
      if_neg hnot]
    by_cases hkey : (monthAt cal today k).1 = jalaliMonthBucketKey cal p.plannedDate
    · rw [if_pos hkey, List.filter_cons_of_pos (by simpa using hkey)]
      rfl
    · rw [if_neg hkey, List.filter_cons_of_neg (by simpa using hkey)]
      rfl
  · dsimp only
    rw [if_pos hstatus, if_pos hstatus]
    rfl

/-- A plain monthly payment is counted where it is due exactly when it does not begin in a month
before the current one. -/
theorem countedIn_plainMonthly_iff (hcal : cal.KeepsMonths) (htoday : isIsoDate today)
    (hdate : isIsoDate p.plannedDate) (hstatus : p.status = .pending) (hplain : p.plainMonthly)
    (months : Nat) : (∀ k < months, p.countedIn cal months today k = p.dueIn cal today k) ↔
      months = 0 ∨ ¬ (cal.toJalali p.plannedDate).monthBefore (cal.toJalali today) := by
  have hm := hcal.month today htoday
  have hm' := hcal.month p.plannedDate hdate
  have hcounted := countedIn_plainMonthly hcal htoday hdate hstatus hplain months
  have hdue (k : Nat) : p.dueIn cal today k =
      if 12 * (cal.toJalali p.plannedDate).y + (cal.toJalali p.plannedDate).m ≤
        12 * (cal.toJalali today).y + (cal.toJalali today).m + k
      then [(.outflow, p.amountBase)] else [] := by
    obtain ⟨hpos, hle, hsum⟩ := monthAt_spec hm.1 k
    have hlater : (JalaliDate.mk (monthAt cal today k).1.1 (monthAt cal today k).1.2 1).monthBefore
        (cal.toJalali p.plannedDate) ↔
          ¬ 12 * (cal.toJalali p.plannedDate).y + (cal.toJalali p.plannedDate).m ≤
            12 * (cal.toJalali today).y + (cal.toJalali today).m + k := by
      unfold JalaliDate.monthBefore
      dsimp only
      omega
    unfold PlannedTransaction.dueIn
    dsimp only
    rw [if_neg (not_not.mpr hstatus), if_pos hplain]
    grind
  have hbefore : (cal.toJalali p.plannedDate).monthBefore (cal.toJalali today) ↔
      12 * (cal.toJalali p.plannedDate).y + (cal.toJalali p.plannedDate).m <
        12 * (cal.toJalali today).y + (cal.toJalali today).m := by
    unfold JalaliDate.monthBefore
    omega
  rw [hbefore]
  dsimp only at hcounted
  constructor
  · intro hall
    refine months.eq_zero_or_pos.imp_right fun hpos hlate => ?_
    -- the last month of the horizon lies beyond the window
    have hlast := hall (months - 1) (by omega)
    rw [hcounted, hdue, if_neg (by omega), if_pos (by omega)] at hlast
    exact absurd hlast.symm (List.cons_ne_nil _ _)
  · rintro (rfl | hnot) k hk
    · omega
    · rw [hcounted, hdue]
      grind

end Months

/-! ## The figures of a month -/

/-- What the point of the month `k` shows of what is counted in the months. -/
structure ProjectionPoint.Shows (scenario : Scenario) (starting : Decimal)
    (counted : Nat → List (PlanDirection × Decimal)) (k : Nat) (p : ProjectionPoint) : Prop where
  inflow : p.inflow = (scenario.inflowOf (counted k)).toFixed 0
  outflow : p.outflow = (scenario.outflowOf (counted k)).toFixed 0
  net : p.net = (scenario.inflowOf (counted k) - scenario.outflowOf (counted k)).toFixed 0
  cumulative : p.cumulative = (starting + ((List.range (k + 1)).map fun j =>
    scenario.inflowOf (counted j) - scenario.outflowOf (counted j)).sum).toFixed 0

section Figures
variable {cal : JalaliCalendar} {today : IsoDate} {scenario : Scenario}

theorem inMonth_append (key : MonthKey) (xs ys : List CashFlow) :
    inMonth cal key (xs ++ ys) = inMonth cal key xs ++ inMonth cal key ys := by
  unfold inMonth
  rw [List.filter_append, List.map_append]

theorem inMonth_flatMap {α : Type} (key : MonthKey) (f : α → List CashFlow) (xs : List α) :
    inMonth cal key (xs.flatMap f) = xs.flatMap fun x => inMonth cal key (f x) := by
  induction xs with
  | nil => rfl
  | cons x xs ih => rw [List.flatMap_cons, inMonth_append, ih, List.flatMap_cons]

/-- An item that is no plan is counted once, in the month of its date. -/
theorem inMonth_eq (flows : List CashFlow) (k : Nat) :
    inMonth cal (monthAt cal today k).1 flows = flows.flatMap fun c => c.dueIn cal today k := by
  induction flows with
  | nil => rfl
  | cons c flows ih =>
    have hcons : c :: flows = [c] ++ flows := rfl
    rw [hcons, inMonth_append, ih, List.flatMap_append, List.flatMap_singleton]
    congr 1
    unfold inMonth CashFlow.dueIn
    by_cases hkey : (monthAt cal today k).1 = jalaliMonthBucketKey cal c.date
    · rw [if_pos hkey, List.filter_cons_of_pos (by simpa using hkey)]
      rfl
    · rw [if_neg hkey, List.filter_cons_of_neg (by simpa using hkey)]
      rfl

/-- An installment makes at most one of them, on its due date. -/
theorem flows_due (r : DueRow) (rate : Decimal) :
    r.flows rate = [] ∨ ∃ toman direction, r.flows rate = [⟨r.inst.dueDate, toman, direction⟩] := by
  have hone (left : Decimal) (direction : PlanDirection) :
      (if left ≤ 0 then [] else [CashFlow.mk r.inst.dueDate left direction]) = [] ∨
        ∃ toman direction', (if left ≤ 0 then [] else [CashFlow.mk r.inst.dueDate left direction]) =
          [⟨r.inst.dueDate, toman, direction'⟩] := by
    split
    · exact .inl rfl
    · exact .inr ⟨left, direction, rfl⟩
  exact hone _ _

theorem push_inflow (c : CashFlow) (b : ProjectionBucket) :
    (b.push scenario c).inflow = b.inflow + match c.direction with
      | .inflow => c.toman.mul scenario.factorIn
      | .outflow => 0 := by
  unfold ProjectionBucket.push
  cases c.direction <;> simp

/-- What the items make of the empty bucket of a month. -/
theorem filled_bucket (flows : List CashFlow) (b : ProjectionBucket) (hin : b.inflow = 0)
    (hout : b.outflow = 0) :
    fillBucket (·.key) (fun c => jalaliMonthBucketKey cal c.date)
        (ProjectionBucket.push scenario) flows b =
      { b with
        inflow := scenario.inflowOf (inMonth cal b.key flows)
        outflow := scenario.outflowOf (inMonth cal b.key flows) } := by
  have hkeep (c : CashFlow) (b : ProjectionBucket) := push_keeps scenario c b
  have hinflow : (fillBucket (·.key) (fun c => jalaliMonthBucketKey cal c.date)
      (ProjectionBucket.push scenario) flows b).inflow = b.inflow +
        ((flows.filter fun c => b.key = jalaliMonthBucketKey cal c.date).map fun c =>
          match c.direction with
          | .inflow => c.toman.mul scenario.factorIn
          | .outflow => 0).sum :=
    figure_fillBucket (f := fun b : ProjectionBucket => b.inflow) (fun c b => (hkeep c b).1)
      (fun c b => push_inflow c b) flows b
  have houtflow : (fillBucket (·.key) (fun c => jalaliMonthBucketKey cal c.date)
      (ProjectionBucket.push scenario) flows b).outflow = b.outflow +
        ((flows.filter fun c => b.key = jalaliMonthBucketKey cal c.date).map fun c =>
          match c.direction with
          | .inflow => 0
          | .outflow => c.toman.mul scenario.factorOut).sum :=
    figure_fillBucket (f := fun b : ProjectionBucket => b.outflow) (fun c b => (hkeep c b).1)
      (fun c b => (hkeep c b).2.2) flows b
  have hbucket : ∀ a b : ProjectionBucket, a.key = b.key → a.iso = b.iso →
      a.inflow = b.inflow → a.outflow = b.outflow → a = b := by
    rintro ⟨⟩ ⟨⟩ rfl rfl rfl rfl
    rfl
  rw [hin, zero_add] at hinflow
  rw [hout, zero_add] at houtflow
  apply hbucket
  · exact fillBucket_keeps (fun c b => (hkeep c b).1) flows b
  · exact fillBucket_keeps (fun c b => (hkeep c b).2.1) flows b
  · rw [hinflow]
    unfold Scenario.inflowOf inMonth
    rw [List.map_map]
    rfl
  · rw [houtflow]
    unfold Scenario.outflowOf inMonth
    rw [List.map_map]
    rfl

/-- The points of buckets that hold what is counted. -/
theorem projectionPoints_shows (rate : Decimal) (iso : Nat → IsoDate) (key : Nat → MonthKey)
    (counted : Nat → List (PlanDirection × Decimal)) (before : Decimal) (n : Nat) {k : Nat}
    (hk : k < n) : ∃ p, (projectionPoints rate before ((List.range n).map fun k =>
        { key := key k
          iso := iso k
          inflow := scenario.inflowOf (counted k)
          outflow := scenario.outflowOf (counted k) }))[k]? = some p ∧
      p.month = iso k ∧ p.Shows scenario before counted k := by
  induction n generalizing before k iso key counted with
  | zero => omega
  | succ n ih =>
    rw [List.range_succ_eq_map, List.map_cons, List.map_map]
    unfold projectionPoints
    cases k with
    | zero =>
      refine ⟨_, rfl, rfl, rfl, rfl, rfl, ?_⟩
      simp
    | succ k =>
      obtain ⟨p, hp, hmonth, hshows⟩ := ih (fun k => iso (k + 1)) (fun k => key (k + 1))
        (fun k => counted (k + 1))
        (before + (scenario.inflowOf (counted 0) - scenario.outflowOf (counted 0)))
        (Nat.lt_of_succ_lt_succ hk)
      refine ⟨p, hp, hmonth, hshows.inflow, hshows.outflow, hshows.net, ?_⟩
      rw [hshows.cumulative, List.range_succ_eq_map (n := k + 1), List.map_cons, List.sum_cons,
        List.map_map, add_assoc]
      rfl

/-- Every month shows what is counted in it, and all that is no plain monthly payment is counted
once, in the month of its date. The plain monthly payments are counted in every month from that
of their date to the end exactly when none of them begins before the current month. -/
theorem projectCashflow_counts (hcal : cal.KeepsMonths) (htoday : isIsoDate today)
    (scenario : Scenario) (months : Nat) (u : Uuid) (input : ProjectionInput)
    (hdates : ∀ p ∈ input.planned, isIsoDate p.plannedDate) :
    let projection := projectCashflow cal months scenario u today input
    let starting := if input.freeCash < 0 then 0 else input.freeCash
    (projection.points.length = months ∧ ∀ k < months, ∃ point, projection.points[k]? = some point ∧
      point.month = (monthAt cal today k).2 ∧
      point.Shows scenario starting (input.countedIn cal months u today) k) ∧
    (Function.Injective fun k => (monthAt cal today k).1) ∧
    (∀ r : DueRow, (r.flows input.rate).length ≤ 1 ∧
      ∀ c ∈ r.flows input.rate, c.date = r.inst.dueDate) ∧
    ((∀ p ∈ input.planned, ∀ k < months,
        p.countedIn cal months today k = p.dueIn cal today k) ↔
      months = 0 ∨ ∀ p ∈ input.planned, p.status = .pending → p.plainMonthly →
        ¬ (cal.toJalali p.plannedDate).monthBefore (cal.toJalali today)) := by
  have hm := hcal.month today htoday
  refine ⟨?_, monthAt_injective hm.1, ?_, ?_⟩
  · have hcounted (k : Nat) : inMonth cal (monthAt cal today k).1
        (input.planned.flatMap (plannedFlows cal months) ++ input.oneOffs u) =
          input.countedIn cal months u today k := by
      rw [inMonth_append, inMonth_flatMap, inMonth_eq]
      rfl
    have hpoints : (projectCashflow cal months scenario u today input).points =
        projectionPoints input.rate (if input.freeCash < 0 then 0 else input.freeCash)
          ((List.range months).map fun k =>
            { key := (monthAt cal today k).1
              iso := (monthAt cal today k).2
              inflow := scenario.inflowOf (input.countedIn cal months u today k)
              outflow := scenario.outflowOf (input.countedIn cal months u today k) }) := by
      have hstarts : jalaliMonthStarts cal months today =
          (List.range months).map (monthAt cal today) := monthStarts_eq months _ _ hm
      unfold projectCashflow
      dsimp only
      rw [tally_eq_map, hstarts, List.map_map, List.map_map, List.append_assoc]
      congr 1
      refine List.map_congr_left fun k _ => ?_
      rw [← hcounted k]
      exact filled_bucket _ _ rfl rfl
    have hlength := congrArg List.length (projectionPoints_outflow input.rate
      (if input.freeCash < 0 then 0 else input.freeCash) ((List.range months).map fun k =>
        { key := (monthAt cal today k).1
          iso := (monthAt cal today k).2
          inflow := scenario.inflowOf (input.countedIn cal months u today k)
          outflow := scenario.outflowOf (input.countedIn cal months u today k) }))
    rw [List.length_map, List.length_map, List.length_map, List.length_range] at hlength
    rw [hpoints]
    exact ⟨hlength, fun k hk => projectionPoints_shows input.rate (fun k => (monthAt cal today k).2)
      (fun k => (monthAt cal today k).1) _ _ months hk⟩
  · intro r
    obtain hnone | ⟨toman, direction, hone⟩ := flows_due r input.rate
    · rw [hnone]
      exact ⟨Nat.zero_le _, fun _ hc => absurd hc List.not_mem_nil⟩
    · rw [hone]
      exact ⟨le_rfl, fun c hc => by rw [List.mem_singleton.mp hc]⟩
  · constructor
    · intro hall
      refine months.eq_zero_or_pos.imp_right fun hpos p hp hstatus hplain => ?_
      have hiff := countedIn_plainMonthly_iff hcal htoday (hdates p hp) hstatus hplain months
      exact (hiff.mp (hall p hp)).resolve_left hpos.ne'
    · intro hcond p hp
      by_cases hplain : p.status = .pending ∧ p.plainMonthly
      · apply (countedIn_plainMonthly_iff hcal htoday (hdates p hp) hplain.1 hplain.2 months).mpr
        exact hcond.imp_right fun hnone => hnone p hp hplain.1 hplain.2
      · exact fun k _ => countedIn_other hplain months k

end Figures

/-! ## A rent -/

section Examples

theorem monthFirst_lt {months : Int} (h : -7455 ≤ months) :
    monthFirst months < monthFirst (months + 1) := by
  have hall : ∀ i < 12, firstDays.getD i 0 < 10000 := by decide
  have hnext : ∀ i < 11, firstDays.getD i 0 < firstDays.getD (i + 1) 0 := by decide
  unfold monthFirst
  dsimp only
  by_cases hfirst : (months + 3) % 12 = 0
  · rw [if_pos hfirst, if_neg (by omega)]
    have hindex : ((months + 1 + 3) % 12).toNat - 1 = 0 := by omega
    rw [hindex]
    have hzero : firstDays.getD 0 0 = 121 := rfl
    omega
  · rw [if_neg hfirst]
    have hlow := hall (((months + 3) % 12).toNat - 1) (by omega)
    have hstep := hnext (((months + 3) % 12).toNat - 1)
    by_cases hlast : (months + 1 + 3) % 12 = 0
    · rw [if_pos hlast]
      have hindex : ((months + 3) % 12).toNat - 1 = 10 := by omega
      rw [hindex]
      have hten : firstDays.getD 10 0 = 1122 := rfl
      omega
    · rw [if_neg hlast]
      have hindex : ((months + 1 + 3) % 12).toNat - 1 = ((months + 3) % 12).toNat - 1 + 1 := by
        omega
      rw [hindex]
      generalize firstDays.getD (((months + 3) % 12).toNat - 1) 0 = first at *
      generalize firstDays.getD (((months + 3) % 12).toNat - 1 + 1) 0 = second at *
      omega

theorem ordinaryYears_keepsMonths : ordinaryYears.KeepsMonths where
  month := ordinaryYears_lawful.month
  first d hd y m hafter hpos hle := by
    have hleast : -7455 ≤ monthsUntil d := by
      unfold monthsUntil
      omega
    have hmonths : -7455 ≤ 12 * y + m - 1 := by
      simp only [ordinaryYears, JalaliDate.monthBefore] at hafter
      omega
    have hsame : daysAfter (monthFirst (12 * y + m - 1)) (1 - 1) = monthFirst (12 * y + m - 1) :=
      rfl
    have hge := (lt_monthFirst_iff (monthFirst (12 * y + m - 1)) hmonths).not.mp
      (Nat.lt_irrefl _)
    have hlater : -7455 ≤ 12 * y + m - 1 + 1 := by omega
    have hlt := (lt_monthFirst_iff (monthFirst (12 * y + m - 1)) hlater).mp
      (monthFirst_lt hmonths)
    have huntil : monthsUntil (monthFirst (12 * y + m - 1)) = 12 * y + m - 1 := by omega
    simp only [jalaliMonthBucketKey, ordinaryYears, hsame, huntil, Prod.mk.injEq]
    omega

/-- A rent of a million Toman. -/
def monthlyRent (plannedDate : IsoDate) : PlannedTransaction :=
  { id := 1, userId := some 1, title := "اجاره", plannedDate, direction := .outflow
    amountBase := .ofInt 1000000, recurrence := .monthly }

/-- From the current month on it is counted in each of three months. -/
theorem projectCashflow_counts_rent :
    (List.range 3).map ((monthlyRent 20260415).countedIn ordinaryYears 3 20260410) =
      (List.range 3).map ((monthlyRent 20260415).dueIn ordinaryYears 20260410) := by
  have hcounts := projectCashflow_counts ordinaryYears_keepsMonths
    (by decide : isIsoDate 20260410) .base 3 1
    { planned := [monthlyRent 20260415], due := [], rate := .ofInt 100000, freeCash := 0 }
    (fun p hp => by
      rw [List.mem_singleton.mp hp]
      decide)
  refine List.map_congr_left fun k hk => ?_
  refine hcounts.2.2.2.mpr (.inr fun p hp _ _ => ?_) _ (List.mem_singleton.mpr rfl) k
    (List.mem_range.mp hk)
  rw [List.mem_singleton.mp hp]
  decide

/-- Begun in Esfand and still pending in Farvardin, it is missing in the last of three months. -/
theorem projectCashflow_of_past_rent : ordinaryYears.KeepsMonths ∧
    isIsoDate 20260410 ∧ isIsoDate (monthlyRent 20260301).plannedDate ∧
    (projectCashflow ordinaryYears 3 .base 1 20260410
        { planned := [monthlyRent 20260301], due := [], rate := .ofInt 100000
          freeCash := 0 }).points.map (fun p => (p.month, p.outflow)) =
      [(20260321, .ofInt 1000000), (20260421, .ofInt 1000000), (20260522, 0)] ∧
    (monthlyRent 20260301).countedIn ordinaryYears 3 20260410 2 = [] ∧
    (monthlyRent 20260301).dueIn ordinaryYears 20260410 2 = [(.outflow, .ofInt 1000000)] :=
  ⟨ordinaryYears_keepsMonths, by decide⟩

end Examples

end Pwos
