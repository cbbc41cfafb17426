import Pwos.Planning.Obligations
import Pwos.Domain.Jalali
import Pwos.Lib.Tally

/-!
# The two forecasts

`projectCashflow` of `features/planning/service.ts` and the schedule of
`features/recurring/service.ts`: both spread what is still owed over the Jalali months, one
from the first day of each, the other with what is overdue on the current month.
-/

namespace Pwos

/-! ## Months -/

abbrev MonthKey := Int × Nat

section Months
variable (cal : JalaliCalendar)

/-- The calendar month of a due date. -/
def jalaliMonthBucketKey (iso : IsoDate) : MonthKey := ((cal.toJalali iso).y, (cal.toJalali iso).m)

/-- The loop of `jalaliMonthStarts`. -/
def monthStarts : Nat → Int → Nat → List (MonthKey × IsoDate)
  | 0, _, _ => []
  | n + 1, y, m =>
    ((y, m), cal.jalaliToIso y m 1) ::
      if 12 < m + 1 then monthStarts n (y + 1) 1 else monthStarts n y (m + 1)

/-- The first days of `months` Jalali months, from the month of `fromIso` on. -/
def jalaliMonthStarts (months : Nat) (fromIso : IsoDate) : List (MonthKey × IsoDate) :=
  monthStarts cal months (cal.toJalali fromIso).y (cal.toJalali fromIso).m

/-- The Jalali month `k` months after the one of `today`. -/
def monthAt (today : IsoDate) (k : Nat) : MonthKey × IsoDate :=
  let idx := (cal.toJalali today).m - 1 + k
  let y := (cal.toJalali today).y + (idx / 12 : Nat)
  let m := idx % 12 + 1
  ((y, m), cal.jalaliToIso y m 1)

end Months

/-! ## `projectCashflow` -/

inductive Scenario where
  | base | optimistic | pessimistic
  deriving DecidableEq, Repr

def Scenario.factorIn : Scenario → Decimal
  | .base => .ofInt 1
  | .optimistic => ⟨11 * 10 ^ 17⟩
  | .pessimistic => ⟨9 * 10 ^ 17⟩

def Scenario.factorOut : Scenario → Decimal
  | .base => .ofInt 1
  | .optimistic => ⟨95 * 10 ^ 16⟩
  | .pessimistic => ⟨115 * 10 ^ 16⟩

/-- An installment and its debt, as the queries join them. -/
structure DueRow where
  inst : Installment
  debt : Debt
  debtDeleted : Bool := false
  deriving DecidableEq, Repr

/-- An amount on a date. -/
structure CashFlow where
  date : IsoDate
  toman : Decimal
  direction : PlanDirection
  deriving DecidableEq, Repr

/-- What the projection reads: besides plans and installments what is left of the events and
the pending cheques, the rate, and the cash that is free. -/
structure ProjectionInput where
  planned : List PlannedTransaction := []
  due : List DueRow
  others : List CashFlow := []
  rate : Decimal
  freeCash : Decimal

structure ProjectionBucket where
  key : MonthKey
  iso : IsoDate
  inflow : Decimal := 0
  outflow : Decimal := 0
  deriving DecidableEq, Repr

structure ProjectionPoint where
  month : IsoDate
  inflow : Decimal
  outflow : Decimal
  net : Decimal
  cumulative : Decimal
  inflowUsd : Decimal
  outflowUsd : Decimal
  netUsd : Decimal
  cumulativeUsd : Decimal
  deficit : Bool
  deriving DecidableEq, Repr

structure Projection where
  startingLiquidityToman : Decimal
  points : List ProjectionPoint
  deriving DecidableEq, Repr

section Projection
variable (cal : JalaliCalendar)

/-- A plain monthly payment recurs in every month from its date. -/
def plannedFlows (months : Nat) (p : PlannedTransaction) : List CashFlow :=
  if p.status ≠ .pending then []
  else if p.direction = .outflow ∧ p.recurrence = .monthly ∧ p.categoryId = none ∧
      p.insurancePolicyId = none ∧ p.depositId = none then
    (jalaliMonthStarts cal months p.plannedDate).map fun s => ⟨s.2, p.amountBase, .outflow⟩
  else [⟨p.plannedDate, p.amountBase, p.direction⟩]

/-- The rows the projection selects. -/
def DueRow.projected (u : Uuid) (r : DueRow) : Bool :=
  r.inst.status ≠ .paid && !r.debtDeleted && r.debt.status ≠ .cancelled &&
    (r.debt.userId = some u || r.debt.userId = none)

/-- What is still owed, on its due date. -/
def DueRow.flows (rate : Decimal) (r : DueRow) : List CashFlow :=
  let contractual := match r.inst.amountToman with
    | some toman => toman
    | none => if 0 < rate then r.inst.amountBase.mul rate else 0
  let toman := remainingToman ⟨r.inst.status, some (contractual.toFixed 0), r.inst.paidToman⟩
  if toman ≤ 0 then []
  else [⟨r.inst.dueDate, toman, if isReceivable r.debt.direction then .inflow else .outflow⟩]

def ProjectionBucket.push (scenario : Scenario) (c : CashFlow) (b : ProjectionBucket) :
    ProjectionBucket :=
  match c.direction with
  | .inflow => { b with inflow := b.inflow + c.toman.mul scenario.factorIn }
  | .outflow => { b with outflow := b.outflow + c.toman.mul scenario.factorOut }

def projectionPoints (rate : Decimal) : Decimal → List ProjectionBucket → List ProjectionPoint
  | _, [] => []
  | before, b :: bs =>
    let net := b.inflow - b.outflow
    let cumulative := before + net
    let usd (a : Decimal) := if 0 < rate then a.div rate else 0
    { month := b.iso
      inflow := b.inflow.toFixed 0
      outflow := b.outflow.toFixed 0
      net := net.toFixed 0
      cumulative := cumulative.toFixed 0
      inflowUsd := usd b.inflow
      outflowUsd := usd b.outflow
      netUsd := usd net
      cumulativeUsd := usd cumulative
      deficit := cumulative < 0 } :: projectionPoints rate cumulative bs

/-- The projection for the user `u`. An amount outside the horizon has no bucket. -/
def projectCashflow (months : Nat) (scenario : Scenario) (u : Uuid) (today : IsoDate)
    (input : ProjectionInput) : Projection :=
  let buckets := (jalaliMonthStarts cal months today).map fun s =>
    ({ key := s.1, iso := s.2 } : ProjectionBucket)
  let flows := input.planned.flatMap (plannedFlows cal months) ++
    (input.due.filter (·.projected u)).flatMap (·.flows input.rate) ++ input.others
  let filled := tally (·.key) (fun c => jalaliMonthBucketKey cal c.date)
    (ProjectionBucket.push scenario) flows buckets
  let starting := if input.freeCash < 0 then 0 else input.freeCash
  { startingLiquidityToman := starting.toFixed 0
    points := projectionPoints input.rate starting filled }

end Projection

/-! ## The schedule -/

inductive CommitmentKind where
  | installment | premium | subscription
  deriving DecidableEq, Repr

/-- The key of a commitment: the debt, the policy or the detected group. -/
structure Occurrence where
  key : String
  kind : CommitmentKind
  title : String
  date : IsoDate
  toman : Decimal
  deriving DecidableEq, Repr

/-- A premium of a policy, pending or to come. -/
structure Premium where
  key : String
  title : String
  date : IsoDate
  toman : Decimal
  deriving DecidableEq, Repr

def Premium.occurrence (p : Premium) : Occurrence := ⟨p.key, .premium, p.title, p.date, p.toman⟩

structure Subscription where
  key : String
  title : String
  monthlyToman : Decimal
  lastDate : Option IsoDate
  deriving DecidableEq, Repr

structure CommitmentParts where
  installment : Decimal := 0
  premium : Decimal := 0
  subscription : Decimal := 0
  deriving DecidableEq, Repr

def CommitmentParts.add (p : CommitmentParts) (kind : CommitmentKind) (toman : Decimal) :
    CommitmentParts :=
  match kind with
  | .installment => { p with installment := p.installment + toman }
  | .premium => { p with premium := p.premium + toman }
  | .subscription => { p with subscription := p.subscription + toman }

structure CommitmentItem where
  key : String
  kind : CommitmentKind
  title : String
  toman : Decimal
  estimated : Bool
  deriving DecidableEq, Repr

structure ScheduleBucket where
  key : MonthKey
  start : IsoDate
  parts : CommitmentParts := {}
  items : List CommitmentItem := []
  overdue : Decimal := 0
  deriving DecidableEq, Repr

/-- `items.set`: the amounts of one commitment are added up. -/
def setItem (items : List CommitmentItem) (item : CommitmentItem) : List CommitmentItem :=
  if items.any (·.key = item.key) then
    items.map fun i => if i.key = item.key then { item with toman := i.toman + item.toman } else i
  else items ++ [item]

def ScheduleBucket.add (item : CommitmentItem) (b : ScheduleBucket) : ScheduleBucket :=
  { b with parts := b.parts.add item.kind item.toman, items := setItem b.items item }

structure MonthBucket where
  key : MonthKey
  start : IsoDate
  totalToman : Decimal
  parts : CommitmentParts
  items : List CommitmentItem
  overdueToman : Decimal
  deriving DecidableEq, Repr

def ScheduleBucket.bucket (b : ScheduleBucket) : MonthBucket :=
  { key := b.key
    start := b.start
    totalToman := (b.parts.installment + b.parts.premium + b.parts.subscription).toFixed 0
    parts := ⟨b.parts.installment.toFixed 0, b.parts.premium.toFixed 0,
      b.parts.subscription.toFixed 0⟩
    items := (b.items.map fun i => { i with toman := i.toman.toFixed 0 }).mergeSort
      fun i j => j.toman ≤ i.toman
    overdueToman := b.overdue.toFixed 0 }

section Schedule
variable (cal : JalaliCalendar)

def Occurrence.item (o : Occurrence) : CommitmentItem := ⟨o.key, o.kind, o.title, o.toman, false⟩

/-- The month an occurrence weighs on: what is overdue on the current one. -/
def Occurrence.month (today : IsoDate) (o : Occurrence) : MonthKey :=
  if o.date < (monthAt cal today 0).2 then (monthAt cal today 0).1
  else jalaliMonthBucketKey cal o.date

def Occurrence.addTo (today : IsoDate) (o : Occurrence) (b : ScheduleBucket) : ScheduleBucket :=
  let added := b.add o.item
  if o.date < (monthAt cal today 0).2 then { added with overdue := added.overdue + o.toman }
  else added

/-- A subscription is due every month, the current one excepted once it was charged. -/
def Subscription.addTo (today : IsoDate) (s : Subscription) (bs : List ScheduleBucket) :
    List ScheduleBucket :=
  let item : CommitmentItem := ⟨s.key, .subscription, s.title, s.monthlyToman, true⟩
  let paidThisMonth := s.lastDate.any fun d => (monthAt cal today 0).2 ≤ d
  bs.mapIdx fun i b => if paidThisMonth && i = 0 then b else b.add item

def buildSchedule (occurrences : List Occurrence) (subscriptions : List Subscription)
    (today : IsoDate) (horizon : Nat) : List MonthBucket :=
  let buckets := ((List.range horizon).map (monthAt cal today)).map fun s =>
    ({ key := s.1, start := s.2 } : ScheduleBucket)
  let filled := tally (·.key) (Occurrence.month cal today) (Occurrence.addTo cal today)
    (occurrences.filter fun o => 0 < o.toman) buckets
  (subscriptions.foldl (fun bs s => s.addTo cal today bs) filled).map (·.bucket)

end Schedule

/-- The rows `listRecurringPayments` selects. -/
def DueRow.recurring (userId : Uuid) (r : DueRow) : Bool :=
  r.debt.userId = some userId && !r.debtDeleted && r.debt.status = .active &&
    r.debt.direction ≠ "receivable" && r.inst.status ≠ .paid

def DueRow.occurrence (r : DueRow) : Occurrence :=
  { key := "d:" ++ toString r.debt.id
    kind := .installment
    title := r.debt.title
    date := r.inst.dueDate
    toman := r.inst.amountToman.getD 0 - r.inst.paidToman.getD 0 }

/-- Every outstanding installment of the user, in the order of the due dates. -/
def loanOccurrences (userId : Uuid) (rows : List DueRow) : List Occurrence :=
  (((rows.filter (·.recurring userId)).mergeSort fun r s => r.inst.dueDate ≤ s.inst.dueDate).map
    (·.occurrence)).filter fun o => 0 < o.toman

/-- The months of `listRecurringPayments`, of what it found besides: the premiums of the
policies and the payments it detected. -/
def listRecurringPayments (cal : JalaliCalendar) (userId : Uuid) (rows : List DueRow)
    (premiums : List Premium) (detected : List Subscription) (today : IsoDate) (horizon : Nat) :
    List MonthBucket :=
  buildSchedule cal (premiums.map (·.occurrence) ++ loanOccurrences userId rows) detected today
    horizon

/-! ## The months of both -/

section Months
variable {cal : JalaliCalendar} {today : IsoDate}

theorem monthStarts_eq (n : Nat) (y : Int) (m : Nat) (hm : 0 < m ∧ m ≤ 12) :
    monthStarts cal n y m = (List.range n).map fun k =>
      ((y + ((m - 1 + k) / 12 : Nat), (m - 1 + k) % 12 + 1),
        cal.jalaliToIso (y + ((m - 1 + k) / 12 : Nat)) ((m - 1 + k) % 12 + 1) 1) := by
  induction n generalizing y m with
  | zero => rfl
  | succ n ih =>
    have hdiv : (m - 1) / 12 = 0 := by omega
    have hmod : (m - 1) % 12 + 1 = m := by omega
    rw [List.range_succ_eq_map, List.map_cons, List.map_map]
    unfold monthStarts
    simp only [hdiv, hmod, Nat.cast_zero, add_zero, List.cons.injEq, true_and]
    split
    · rw [ih _ _ (by omega)]
      refine List.map_congr_left fun k _ => ?_
      have hyear : y + ((m - 1 + (k + 1)) / 12 : Nat) = y + 1 + ((1 - 1 + k) / 12 : Nat) := by omega
      have hrem : (m - 1 + (k + 1)) % 12 = (1 - 1 + k) % 12 := by omega
      simp only [Function.comp_apply, Nat.succ_eq_add_one, hyear, hrem]
    · rw [ih _ _ (by omega)]
      refine List.map_congr_left fun k _ => ?_
      have hidx : m - 1 + (k + 1) = m + 1 - 1 + k := by omega
      simp only [Function.comp_apply, Nat.succ_eq_add_one, hidx]

/-- Both forecasts lay out the same months. -/
theorem jalaliMonthStarts_eq (hcal : cal.Lawful) (htoday : isIsoDate today) (n : Nat) :
    jalaliMonthStarts cal n today = (List.range n).map (monthAt cal today) :=
  monthStarts_eq n _ _ (hcal.month today htoday)

theorem monthAt_zero (hcal : cal.Lawful) (htoday : isIsoDate today) :
    monthAt cal today 0 = (jalaliMonthBucketKey cal today,
      cal.jalaliToIso (cal.toJalali today).y (cal.toJalali today).m 1) := by
  have hm := hcal.month today htoday
  have hdiv : ((cal.toJalali today).m - 1) / 12 = 0 := by omega
  have hmod : ((cal.toJalali today).m - 1) % 12 + 1 = (cal.toJalali today).m := by omega
  unfold monthAt jalaliMonthBucketKey
  simp only [hdiv, hmod, Nat.cast_zero, add_zero]

/-- What is due before the current month is not due in it. -/
theorem ne_of_before (hcal : cal.Lawful) (htoday : isIsoDate today) {d : IsoDate}
    (hd : isIsoDate d) (h : d < (monthAt cal today 0).2) :
    jalaliMonthBucketKey cal d ≠ (monthAt cal today 0).1 := by
  rw [monthAt_zero hcal htoday] at h ⊢
  have hbefore := (hcal.monthStart d today hd htoday).mp h
  unfold JalaliDate.monthBefore at hbefore
  intro heq
  simp only [jalaliMonthBucketKey, Prod.mk.injEq] at heq
  omega

end Months

/-! ## The rows -/

/-- An installment the user owes, of a Toman contract. -/
structure DueRow.Payable (userId : Uuid) (r : DueRow) : Prop where
  direction : r.debt.direction ≠ "receivable"
  active : r.debt.status = .active
  kept : r.debtDeleted = false
  owner : r.debt.userId = some userId
  contract : ∃ c : Int, r.inst.amountToman = some (.ofInt c)
  paid : ∀ p ∈ r.inst.paidToman, 0 ≤ p ∧ p.Whole
  date : isIsoDate r.inst.dueDate

/-- Something is still owed on it. -/
def DueRow.Owed (r : DueRow) : Prop :=
  r.inst.status ≠ .paid ∧ r.inst.paidToman.getD 0 < r.inst.amountToman.getD 0

instance : DecidablePred DueRow.Owed := fun r =>
  inferInstanceAs (Decidable (r.inst.status ≠ .paid ∧
    r.inst.paidToman.getD 0 < r.inst.amountToman.getD 0))

def DueRow.left (r : DueRow) : Decimal :=
  remainingToman ⟨r.inst.status, r.inst.amountToman, r.inst.paidToman⟩

section Rows
variable {userId : Uuid} {r : DueRow}

theorem left_eq (h : r.Payable userId) :
    r.left = if r.Owed then r.inst.amountToman.getD 0 - r.inst.paidToman.getD 0 else 0 := by
  obtain ⟨c, hc⟩ := h.contract
  have hpaid : paidSoFarToman ⟨r.inst.status, r.inst.amountToman, r.inst.paidToman⟩ =
      r.inst.paidToman.getD 0 := by
    unfold paidSoFarToman
    refine if_neg (not_lt.mpr ?_)
    cases hp : r.inst.paidToman with
    | none => exact le_rfl
    | some p => exact (h.paid p hp).1
  unfold DueRow.left remainingToman DueRow.Owed
  rw [hpaid]
  simp only [hc, Option.getD_some, sub_neg]
  grind

theorem left_nonneg (h : r.Payable userId) : 0 ≤ r.left := by
  rw [left_eq h]
  split
  · rename_i howed
    exact (sub_pos.mpr howed.2).le
  · exact le_rfl

theorem left_eq_zero_iff (h : r.Payable userId) : r.left = 0 ↔ ¬ r.Owed := by
  rw [left_eq h]
  constructor
  · intro heq howed
    rw [if_pos howed] at heq
    exact howed.2.ne (sub_eq_zero.mp heq).symm
  · exact fun howed => if_neg howed

theorem left_whole (h : r.Payable userId) : r.left.Whole := by
  rw [left_eq h]
  obtain ⟨c, hc⟩ := h.contract
  split
  · rw [hc]
    refine Decimal.Whole.sub ⟨c, rfl⟩ ?_
    cases hp : r.inst.paidToman with
    | none => exact .zero
    | some p => exact (h.paid p hp).2
  · exact .zero

/-- What the projection makes of a row. -/
theorem projected_flows (h : r.Payable userId) (rate : Decimal) :
    (if r.projected userId then r.flows rate else []) =
      if r.Owed then [⟨r.inst.dueDate, r.left, .outflow⟩] else [] := by
  obtain ⟨c, hc⟩ := h.contract
  have hsel : r.projected userId = true ↔ r.inst.status ≠ .paid := by
    simp [DueRow.projected, h.active, h.kept, h.owner]
  have hdir : isReceivable (some r.debt.direction) = false := by
    simp [isReceivable, resolveDirection, h.direction]
  have hflows : r.flows rate = if r.left ≤ 0 then [] else [⟨r.inst.dueDate, r.left, .outflow⟩] := by
    unfold DueRow.flows DueRow.left
    simp only [hc, hdir, Decimal.toFixed_ofInt]
    rfl
  have hleft := left_eq_zero_iff h
  have hnonneg := left_nonneg h
  by_cases howed : r.Owed
  · have hpos : ¬ r.left ≤ 0 := fun hle => hleft.mp (le_antisymm hle hnonneg) howed
    rw [if_pos (hsel.mpr howed.1), hflows, if_neg hpos, if_pos howed]
  · have hzero : r.left ≤ 0 := (hleft.mpr howed).le
    rw [hflows, if_pos hzero, if_neg howed, ite_self]

/-- What the schedule makes of it. -/
theorem recurring_occurrence (h : r.Payable userId) :
    r.recurring userId = true ∧ 0 < r.occurrence.toman ↔ r.Owed := by
  have hsel : r.recurring userId = true ↔ r.inst.status ≠ .paid := by
    simp [DueRow.recurring, h.active, h.kept, h.owner, h.direction]
  rw [hsel, DueRow.Owed, DueRow.occurrence, sub_pos]

theorem occurrence_toman (h : r.Payable userId) (howed : r.Owed) : r.occurrence.toman = r.left := by
  rw [left_eq h, if_pos howed]
  rfl

end Rows

/-! ## What either puts in a month -/

section Sums
variable {cal : JalaliCalendar} {userId : Uuid} {today : IsoDate} {rows : List DueRow}

/-- What the projection puts in a month: what is left on the rows due in it. -/
theorem projected_sum (h : ∀ r ∈ rows, r.Payable userId) (rate : Decimal) (key : MonthKey) :
    ((((rows.filter (·.projected userId)).flatMap (·.flows rate)).filter fun c =>
        key = jalaliMonthBucketKey cal c.date).map fun c : CashFlow =>
          match c.direction with
          | .inflow => 0
          | .outflow => c.toman.mul Scenario.base.factorOut).sum =
      (rows.map fun r => if key = jalaliMonthBucketKey cal r.inst.dueDate then r.left else 0).sum := by
  induction rows with
  | nil => rfl
  | cons r rows ih =>
    have hr := h r (by simp)
    have hflows := projected_flows hr rate
    have hzero := left_eq_zero_iff hr
    rw [List.map_cons, List.sum_cons, ← ih fun s hs => h s (by simp [hs])]
    have hsplit : (((r :: rows).filter (·.projected userId)).flatMap (·.flows rate)) =
        (if r.projected userId then r.flows rate else []) ++
          (rows.filter (·.projected userId)).flatMap (·.flows rate) := by
      by_cases hp : r.projected userId <;> simp [hp]
    rw [hsplit, hflows, List.filter_append, List.map_append, List.sum_append]
    congr 1
    by_cases howed : r.Owed
    · have hone : r.left.mul Scenario.base.factorOut = r.left := by
        rw [Scenario.factorOut, Decimal.mul_ofInt, one_zsmul]
      by_cases hkey : key = jalaliMonthBucketKey cal r.inst.dueDate <;> simp [howed, hkey, hone]
    · simp [howed, hzero.mpr howed]

/-- What the schedule puts in a month of the rows: what is left on those due in it, and on
those due before the current one if that is the month. -/
theorem scheduled_sum (h : ∀ r ∈ rows, r.Payable userId) (key : MonthKey) :
    (((loanOccurrences userId rows).filter fun o => key = o.month cal today).map (·.toman)).sum =
      (rows.map fun r => if key = r.occurrence.month cal today then r.left else 0).sum := by
  have hperm : (loanOccurrences userId rows).Perm
      (((rows.filter (·.recurring userId)).map (·.occurrence)).filter fun o => 0 < o.toman) :=
    ((List.mergeSort_perm _ _).map _).filter _
  rw [((hperm.filter _).map _).sum_eq]
  clear hperm
  induction rows with
  | nil => rfl
  | cons r rows ih =>
    have hr := h r (by simp)
    have hsel := recurring_occurrence hr
    rw [List.map_cons, List.sum_cons, ← ih fun s hs => h s (by simp [hs])]
    by_cases howed : r.Owed
    · obtain ⟨hrec, hpos⟩ := hsel.mpr howed
      have htoman := occurrence_toman hr howed
      rw [htoman] at hpos
      by_cases hkey : key = r.occurrence.month cal today
      · simp [hrec, hpos, hkey, htoman, -List.filter_filter]
      · simp [hrec, hpos, hkey, htoman, -List.filter_filter]
    · rw [(left_eq_zero_iff hr).mpr howed, ite_self, zero_add]
      by_cases hrec : r.recurring userId
      · have hpos : ¬ 0 < r.occurrence.toman := fun hpos => howed (hsel.mp ⟨hrec, hpos⟩)
        simp [hrec, hpos]
      · simp [hrec]

/-- Sums of terms that are pairwise at most each other agree only term by term. -/
theorem eq_of_sum_le {α : Type} {f g : α → Decimal} {l : List α} (hle : ∀ x ∈ l, f x ≤ g x)
    (h : (l.map f).sum = (l.map g).sum) : ∀ x ∈ l, f x = g x := by
  induction l with
  | nil => simp
  | cons a l ih =>
    rw [List.map_cons, List.map_cons, List.sum_cons, List.sum_cons] at h
    have hhead := hle a (by simp)
    have hrest : (l.map f).sum ≤ (l.map g).sum :=
      List.sum_le_sum fun x hx => hle x (by simp [hx])
    obtain ⟨heq, hsum⟩ := (add_eq_add_iff_eq_and_eq hhead hrest).mp h
    intro x hx
    rcases List.mem_cons.mp hx with rfl | hx
    · exact heq
    · exact ih (fun x hx => hle x (by simp [hx])) hsum x hx

/-- Month by month the two agree exactly when nothing is owed from before the current one. -/
theorem sums_agree_iff (hcal : cal.Lawful) (htoday : isIsoDate today)
    (h : ∀ r ∈ rows, r.Payable userId) (n : Nat) :
    (∀ k < n,
      (rows.map fun r => if (monthAt cal today k).1 = jalaliMonthBucketKey cal r.inst.dueDate
        then r.left else 0).sum =
      (rows.map fun r => if (monthAt cal today k).1 = r.occurrence.month cal today
        then r.left else 0).sum) ↔
      n = 0 ∨ ∀ r ∈ rows, r.Owed → (monthAt cal today 0).2 ≤ r.inst.dueDate := by
  have hbefore : ∀ r ∈ rows, r.inst.dueDate < (monthAt cal today 0).2 →
      jalaliMonthBucketKey cal r.inst.dueDate ≠ (monthAt cal today 0).1 :=
    fun r hr hlt => ne_of_before hcal htoday (h r hr).date hlt
  constructor
  · intro hagree
    refine n.eq_zero_or_pos.imp_right fun hn r hr howed => ?_
    by_contra hlt
    have hle : ∀ r ∈ rows, (if (monthAt cal today 0).1 = jalaliMonthBucketKey cal r.inst.dueDate
        then r.left else 0) ≤
        if (monthAt cal today 0).1 = r.occurrence.month cal today then r.left else 0 := by
      intro s hs
      have hne := hbefore s hs
      have hnonneg := left_nonneg (h s hs)
      unfold Occurrence.month DueRow.occurrence
      dsimp only
      grind
    have heq := eq_of_sum_le hle (hagree 0 hn) r hr
    have hmonth : r.occurrence.month cal today = (monthAt cal today 0).1 :=
      if_pos (not_le.mp hlt)
    rw [if_neg (hbefore r hr (not_le.mp hlt)).symm, if_pos hmonth.symm] at heq
    exact (left_eq_zero_iff (h r hr)).mp heq.symm howed
  · rintro (rfl | hnone) k hk
    · omega
    · refine congrArg List.sum (List.map_congr_left fun r hr => ?_)
      by_cases howed : r.Owed
      · have hmonth : r.occurrence.month cal today = jalaliMonthBucketKey cal r.inst.dueDate :=
          if_neg (not_lt.mpr (hnone r hr howed))
        rw [hmonth]
      · rw [(left_eq_zero_iff (h r hr)).mpr howed, ite_self, ite_self]

end Sums

/-! ## The figures of the reports -/

theorem projectionPoints_outflow (rate : Decimal) (before : Decimal) (bs : List ProjectionBucket) :
    (projectionPoints rate before bs).map (fun p => (p.month, p.outflow)) =
      bs.map fun b => (b.iso, b.outflow.toFixed 0) := by
  induction bs generalizing before with
  | nil => rfl
  | cons b bs ih => simp only [projectionPoints, List.map_cons, ih]

theorem push_keeps (scenario : Scenario) (c : CashFlow) (b : ProjectionBucket) :
    (b.push scenario c).key = b.key ∧ (b.push scenario c).iso = b.iso ∧
      (b.push scenario c).outflow = b.outflow + match c.direction with
        | .inflow => 0
        | .outflow => c.toman.mul scenario.factorOut := by
  unfold ProjectionBucket.push
  cases c.direction <;> simp

theorem addTo_keeps (cal : JalaliCalendar) (today : IsoDate) (o : Occurrence)
    (b : ScheduleBucket) :
    (o.addTo cal today b).key = b.key ∧ (o.addTo cal today b).start = b.start ∧
      (o.addTo cal today b).parts.installment =
        b.parts.installment + if o.kind = .installment then o.toman else 0 := by
  have hparts : (b.parts.add o.kind o.toman).installment =
      b.parts.installment + if o.kind = .installment then o.toman else 0 := by
    unfold CommitmentParts.add
    cases o.kind <;> simp
  unfold Occurrence.addTo
  dsimp only
  split <;> exact ⟨rfl, rfl, hparts⟩

/-- Subscriptions leave the installments alone. -/
theorem subscriptions_keep (cal : JalaliCalendar) (today : IsoDate) (subs : List Subscription)
    (bs : List ScheduleBucket) :
    (subs.foldl (fun bs s => s.addTo cal today bs) bs).map
        (fun b => (b.start, b.parts.installment)) =
      bs.map fun b => (b.start, b.parts.installment) := by
  induction subs generalizing bs with
  | nil => rfl
  | cons s subs ih =>
    rw [List.foldl_cons, ih, Subscription.addTo]
    apply List.ext_getElem
    · simp
    · intro i _ _
      simp only [List.getElem_mapIdx, List.getElem_map]
      split <;> rfl

section Reports
variable {cal : JalaliCalendar} {userId : Uuid} {today : IsoDate} {rows : List DueRow}

theorem projection_outflow (hcal : cal.Lawful) (htoday : isIsoDate today)
    (h : ∀ r ∈ rows, r.Payable userId) (rate freeCash : Decimal) (n : Nat) :
    ((projectCashflow cal n .base userId today { due := rows, rate, freeCash }).points.map
        fun p => (p.month, p.outflow)) =
      (List.range n).map fun k => ((monthAt cal today k).2,
        (rows.map fun r => if (monthAt cal today k).1 = jalaliMonthBucketKey cal r.inst.dueDate
          then r.left else 0).sum) := by
  unfold projectCashflow
  dsimp only
  rw [projectionPoints_outflow, tally_eq_map, jalaliMonthStarts_eq hcal htoday, List.map_map,
    List.map_map, List.map_map]
  refine List.map_congr_left fun k _ => ?_
  simp only [Function.comp_apply, List.flatMap_nil, List.nil_append, List.append_nil]
  rw [fillBucket_keeps fun c b => (push_keeps .base c b).2.1,
    figure_fillBucket (fun c b => (push_keeps .base c b).1)
      (fun c b => (push_keeps .base c b).2.2), zero_add, projected_sum h]
  congr 1
  refine Decimal.Whole.toFixed_eq (.sum (List.forall_mem_map.mpr fun r hr => ?_))
  split
  · exact left_whole (h r hr)
  · exact .zero

theorem schedule_installment (h : ∀ r ∈ rows, r.Payable userId) (premiums : List Premium)
    (detected : List Subscription) (n : Nat) :
    ((listRecurringPayments cal userId rows premiums detected today n).map
        fun m => (m.start, m.parts.installment)) =
      (List.range n).map fun k => ((monthAt cal today k).2,
        (rows.map fun r => if (monthAt cal today k).1 = r.occurrence.month cal today
          then r.left else 0).sum) := by
  have hround : ∀ bs : List ScheduleBucket,
      (bs.map (·.bucket)).map (fun m => (m.start, m.parts.installment)) =
        (bs.map fun b => (b.start, b.parts.installment)).map fun x => (x.1, x.2.toFixed 0) := by
    intro bs
    rw [List.map_map, List.map_map]
    rfl
  have hpremiums : ∀ key, ((((premiums.map (·.occurrence)).filter fun o => 0 < o.toman).filter
      fun o => key = o.month cal today).map fun o : Occurrence =>
        if o.kind = .installment then o.toman else 0).sum = 0 := by
    intro key
    refine List.sum_eq_zero fun a ha => ?_
    obtain ⟨o, ho, rfl⟩ := List.mem_map.mp ha
    obtain ⟨p, -, rfl⟩ := List.mem_map.mp (List.mem_of_mem_filter (List.mem_of_mem_filter ho))
    rfl
  have hloans : ∀ key, ((((loanOccurrences userId rows).filter fun o => 0 < o.toman).filter
      fun o => key = o.month cal today).map fun o : Occurrence =>
        if o.kind = .installment then o.toman else 0).sum =
      (rows.map fun r => if key = r.occurrence.month cal today then r.left else 0).sum := by
    intro key
    have hpos : ((loanOccurrences userId rows).filter fun o => 0 < o.toman) =
        loanOccurrences userId rows := by
      unfold loanOccurrences
      rw [List.filter_filter]
      simp
    rw [hpos, ← scheduled_sum h]
    refine congrArg List.sum (List.map_congr_left fun o ho => if_pos ?_)
    obtain ⟨r, -, rfl⟩ := List.mem_map.mp (List.mem_of_mem_filter (List.mem_of_mem_filter ho))
    rfl
  unfold listRecurringPayments buildSchedule
  dsimp only
  rw [hround, subscriptions_keep, tally_eq_map, List.map_map, List.map_map, List.map_map,
    List.map_map]
  refine List.map_congr_left fun k _ => ?_
  simp only [Function.comp_apply]
  rw [fillBucket_keeps fun o b => (addTo_keeps cal today o b).2.1,
    figure_fillBucket (f := fun b : ScheduleBucket => b.parts.installment)
      (fun o b => (addTo_keeps cal today o b).1) (fun o b => (addTo_keeps cal today o b).2.2),
    zero_add, List.filter_append,
    List.filter_append, List.map_append, List.sum_append, hpremiums, hloans, zero_add]
  congr 1
  refine Decimal.Whole.toFixed_eq (.sum (List.forall_mem_map.mpr fun r hr => ?_))
  split
  · exact left_whole (h r hr)
  · exact .zero

/-- The two forecasts put the same installments in the same months exactly when nothing is
still owed from before the current month. -/
theorem forecasts_agree_iff (hcal : cal.Lawful) (htoday : isIsoDate today)
    (h : ∀ r ∈ rows, r.Payable userId) (rate freeCash : Decimal) (premiums : List Premium)
    (detected : List Subscription) (n : Nat) :
    (projectCashflow cal n .base userId today { due := rows, rate, freeCash }).points.map
        (fun p => (p.month, p.outflow)) =
      (listRecurringPayments cal userId rows premiums detected today n).map
        (fun m => (m.start, m.parts.installment)) ↔
      n = 0 ∨ ∀ r ∈ rows, r.Owed → (monthAt cal today 0).2 ≤ r.inst.dueDate := by
  rw [projection_outflow hcal htoday h, schedule_installment h, ← sums_agree_iff hcal htoday h n,
    List.map_inj_left]
  simp only [List.mem_range, Prod.mk.injEq, true_and]

end Reports

section Examples

/-- An installment of a million Toman, on which nothing was paid. -/
def millionDue (dueDate : IsoDate) : DueRow :=
  { inst := { id := 1, debtId := 1, seq := 1, amountBase := .ofInt 10
              amountToman := some (.ofInt 1000000), dueDate }
    debt := { id := 1, userId := some 1, title := "وام" } }

theorem millionDue_payable {dueDate : IsoDate} (h : isIsoDate dueDate) :
    (millionDue dueDate).Payable 1 :=
  ⟨by simp [millionDue], rfl, rfl, rfl, ⟨1000000, rfl⟩, by simp [millionDue], h⟩

/-- Due in Esfand, still owed in Farvardin: the schedule counts it, the projection does not. -/
theorem overdue_left_out :
    (projectCashflow ordinaryYears 12 .base 1 20260410
        { due := [millionDue 20260301], rate := .ofInt 100000, freeCash := 0 }).points.map
        (fun p => (p.month, p.outflow)) ≠
      (listRecurringPayments ordinaryYears 1 [millionDue 20260301] [] [] 20260410 12).map
        (fun m => (m.start, m.parts.installment)) := by
  have hrows : ∀ r ∈ [millionDue 20260301], r.Payable 1 := by
    intro r hr
    rw [List.mem_singleton.mp hr]
    exact millionDue_payable (by decide)
  rw [projection_outflow ordinaryYears_lawful (by decide) hrows, schedule_installment hrows]
  decide

theorem forecasts_agree_on_due :
    (projectCashflow ordinaryYears 12 .base 1 20260410
        { due := [millionDue 20260501], rate := .ofInt 100000, freeCash := 0 }).points.map
        (fun p => (p.month, p.outflow)) =
      (listRecurringPayments ordinaryYears 1 [millionDue 20260501] [] [] 20260410 12).map
        (fun m => (m.start, m.parts.installment)) := by
  refine (forecasts_agree_iff ordinaryYears_lawful (by decide) ?_ _ _ _ _ _).mpr (.inr ?_)
  · intro r hr
    rw [List.mem_singleton.mp hr]
    exact millionDue_payable (by decide)
  · intro r hr _
    rw [List.mem_singleton.mp hr]
    decide

end Examples

end Pwos
