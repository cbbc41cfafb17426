import Pwos.Domain.MonthBuckets
import Pwos.Lib.Sums
import Pwos.Planning.ForecastMonths

/-!
# The schedule conserves money

`buildSchedule` of `features/recurring/service.ts` with any commitments. Each month is filled by
the occurrences that weigh on it and by the subscriptions due in it, whatever the keys of the
items; the items of a month and its parts add up to the same total.
-/

namespace Pwos

/-! ## Months of occurrences and subscriptions -/

section Counted
variable (cal : JalaliCalendar) (today : IsoDate)

/-- The occurrence weighs on the month `k`: an overdue one on the current month. -/
def Occurrence.CountedIn (o : Occurrence) (k : Nat) : Prop :=
  if o.date < (monthAt cal today 0).2 then k = 0
  else jalaliMonthBucketKey cal o.date = (monthAt cal today k).1

instance (o : Occurrence) (k : Nat) : Decidable (o.CountedIn cal today k) :=
  inferInstanceAs (Decidable (if o.date < (monthAt cal today 0).2 then k = 0
    else jalaliMonthBucketKey cal o.date = (monthAt cal today k).1))

/-- Charged since the current month began. -/
def Subscription.charged (s : Subscription) : Bool :=
  s.lastDate.any fun d => (monthAt cal today 0).2 ≤ d

def Subscription.DueIn (s : Subscription) (k : Nat) : Prop :=
  ¬ (s.charged cal today = true ∧ k = 0)

instance (s : Subscription) (k : Nat) : Decidable (s.DueIn cal today k) :=
  inferInstanceAs (Decidable (¬ _))

/-- `buildSchedule` with its failure: without a month, what reads the start of the first one
throws. -/
def schedule (occurrences : List Occurrence) (subscriptions : List Subscription) (horizon : Nat) :
    Option (List MonthBucket) :=
  if horizon = 0 ∧ ((∃ o ∈ occurrences, 0 < o.toman) ∨ ∃ s ∈ subscriptions, s.lastDate.isSome) then
    none
  else some (buildSchedule cal occurrences subscriptions today horizon)

end Counted

def CommitmentParts.of (p : CommitmentParts) : CommitmentKind → Decimal
  | .installment => p.installment
  | .premium => p.premium
  | .subscription => p.subscription

def CommitmentParts.total (p : CommitmentParts) : Decimal :=
  p.installment + p.premium + p.subscription

theorem CommitmentParts.of_add (p : CommitmentParts) (kind j : CommitmentKind) (toman : Decimal) :
    (p.add kind toman).of j = p.of j + if kind = j then toman else 0 := by
  cases kind <;> cases j <;> simp [add, of]

theorem CommitmentParts.total_add (p : CommitmentParts) (kind : CommitmentKind) (toman : Decimal) :
    (p.add kind toman).total = p.total + toman := by
  cases kind <;> simp only [add, total] <;> abel

/-! ## One bucket -/

/-- The items have keys of their own, and add up to the parts. All amounts are whole. -/
structure ScheduleBucket.Balanced (b : ScheduleBucket) : Prop where
  nodup : (b.items.map (·.key)).Nodup
  sum : (b.items.map (·.toman)).sum = b.parts.total
  items : ∀ i ∈ b.items, i.toman.Whole
  parts : ∀ kind, (b.parts.of kind).Whole
  overdue : b.overdue.Whole

section Items
variable {items : List CommitmentItem} {item : CommitmentItem}

theorem map_key_setItem (hnodup : (items.map (·.key)).Nodup) :
    ((setItem items item).map (·.key)).Nodup := by
  unfold setItem
  split
  · have hkeys : (items.map fun i =>
        if i.key = item.key then { item with toman := i.toman + item.toman } else i).map (·.key) =
          items.map (·.key) := by
      rw [List.map_map]
      refine List.map_congr_left fun i _ => ?_
      dsimp only [Function.comp_apply]
      split
      · rename_i hkey
        exact hkey.symm
      · rfl
    rwa [hkeys]
  · rename_i hnew
    have hfresh : item.key ∉ items.map (·.key) := by simpa using hnew
    rw [List.map_append, List.nodup_append]
    refine ⟨hnodup, List.nodup_singleton _, ?_⟩
    rintro x hx y hy rfl
    rw [List.map_singleton, List.mem_singleton] at hy
    exact hfresh (hy ▸ hx)

/-- Setting an item adds its amount. -/
theorem sum_setItem (hnodup : (items.map (·.key)).Nodup) :
    ((setItem items item).map (·.toman)).sum = (items.map (·.toman)).sum + item.toman := by
  unfold setItem
  split
  · rename_i hold
    have hmem : item.key ∈ items.map (·.key) := by
      simpa using hold
    clear hold
    induction items with
    | nil => cases hmem
    | cons i items ih =>
      rw [List.map_cons, List.nodup_cons] at hnodup
      by_cases hkey : i.key = item.key
      · have hrest : (items.map fun i =>
            if i.key = item.key then { item with toman := i.toman + item.toman } else i) = items := by
          refine (List.map_congr_left fun j hj => if_neg fun hj' => hnodup.1 ?_).trans items.map_id'
          rw [hkey, ← hj']
          exact List.mem_map_of_mem hj
        rw [List.map_cons, if_pos hkey, hrest, List.map_cons, List.sum_cons, List.map_cons,
          List.sum_cons]
        exact add_right_comm _ _ _
      · have hmem' : item.key ∈ items.map (·.key) := by
          rw [List.map_cons, List.mem_cons] at hmem
          exact hmem.resolve_left (Ne.symm hkey)
        rw [List.map_cons, if_neg hkey, List.map_cons, List.sum_cons, ih hnodup.2 hmem',
          List.map_cons, List.sum_cons, add_assoc]
  · rw [List.map_append, List.sum_append, List.map_singleton, List.sum_singleton]

theorem whole_setItem (hitems : ∀ i ∈ items, i.toman.Whole) (hitem : item.toman.Whole) :
    ∀ i ∈ setItem items item, i.toman.Whole := by
  unfold setItem
  split
  · intro i hi
    obtain ⟨j, hj, rfl⟩ := List.mem_map.mp hi
    split
    · exact (hitems j hj).add hitem
    · exact hitems j hj
  · intro i hi
    rcases List.mem_append.mp hi with h | h
    · exact hitems i h
    · rw [List.mem_singleton.mp h]
      exact hitem

end Items

namespace ScheduleBucket
variable {b : ScheduleBucket} {item : CommitmentItem}

theorem Balanced.add (h : b.Balanced) (hitem : item.toman.Whole) : (b.add item).Balanced where
  nodup := map_key_setItem h.nodup
  sum := by
    rw [ScheduleBucket.add, sum_setItem h.nodup, h.sum, CommitmentParts.total_add]
  items := whole_setItem h.items hitem
  parts kind := by
    rw [ScheduleBucket.add, CommitmentParts.of_add]
    split
    · exact (h.parts kind).add hitem
    · exact (h.parts kind).add .zero
  overdue := h.overdue

/-- A balanced bucket is printed as it is. -/
theorem Balanced.bucket (h : b.Balanced) :
    b.bucket.totalToman = (b.bucket.items.map (·.toman)).sum ∧
      b.bucket.totalToman = b.bucket.parts.total ∧
      (∀ kind, b.bucket.parts.of kind = b.parts.of kind) ∧ b.bucket.overdueToman = b.overdue := by
  have hparts : ∀ kind, b.bucket.parts.of kind = b.parts.of kind := by
    intro kind
    have hwhole := (h.parts kind).toFixed_eq
    cases kind <;> exact hwhole
  have htotal : b.bucket.totalToman = b.parts.total :=
    (((h.parts .installment).add (h.parts .premium)).add (h.parts .subscription)).toFixed_eq
  have hsame : b.bucket.parts.total = b.parts.total := by
    have hi := hparts .installment
    have hp := hparts .premium
    have hs := hparts .subscription
    unfold CommitmentParts.of at hi hp hs
    simp only [CommitmentParts.total, hi, hp, hs]
  have hitems : (b.bucket.items.map (·.toman)).sum = (b.items.map (·.toman)).sum := by
    have hperm : b.bucket.items.Perm (b.items.map fun i => { i with toman := i.toman.toFixed 0 }) :=
      List.mergeSort_perm _ _
    rw [(hperm.map _).sum_eq, List.map_map]
    exact congrArg List.sum (List.map_congr_left fun i hi => (h.items i hi).toFixed_eq)
  refine ⟨?_, ?_, hparts, h.overdue.toFixed_eq⟩
  · rw [htotal, hitems, h.sum]
  · rw [htotal, hsame]

end ScheduleBucket

/-! ## One month -/

section Months
variable {cal : JalaliCalendar} {today : IsoDate} {occurrences : List Occurrence}
  {subscriptions : List Subscription} {horizon k : Nat}

/-- The bucket of the month `k` after the occurrences. -/
def filledBucket (cal : JalaliCalendar) (today : IsoDate) (occurrences : List Occurrence) (k : Nat) :
    ScheduleBucket :=
  fillBucket (·.key) (Occurrence.month cal today) (Occurrence.addTo cal today)
    (occurrences.filter fun o => 0 < o.toman)
    { key := (monthAt cal today k).1, start := (monthAt cal today k).2 }

/-- The bucket of the month `k` before it is printed. -/
def monthBucket (cal : JalaliCalendar) (today : IsoDate) (occurrences : List Occurrence)
    (subscriptions : List Subscription) (k : Nat) : ScheduleBucket :=
  subscriptions.foldl
    (fun b s => if s.DueIn cal today k then
      b.add ⟨s.key, .subscription, s.title, s.monthlyToman, true⟩ else b)
    (filledBucket cal today occurrences k)

/-- Each subscription passes over the buckets by their numbers. -/
theorem foldl_addTo (cal : JalaliCalendar) (today : IsoDate) (subscriptions : List Subscription)
    (f : Nat → ScheduleBucket) (n : Nat) :
    subscriptions.foldl (fun bs s => s.addTo cal today bs) ((List.range n).map f) =
      (List.range n).map fun k => subscriptions.foldl (fun b s => if s.DueIn cal today k then
        b.add ⟨s.key, .subscription, s.title, s.monthlyToman, true⟩ else b) (f k) := by
  induction subscriptions generalizing f with
  | nil => rfl
  | cons s subscriptions ih =>
    have hone : s.addTo cal today ((List.range n).map f) = (List.range n).map fun k =>
        if s.DueIn cal today k then
          (f k).add ⟨s.key, .subscription, s.title, s.monthlyToman, true⟩ else f k := by
      apply List.ext_getElem
      · simp [Subscription.addTo]
      · intro i _ _
        simp only [Subscription.addTo, List.getElem_mapIdx, List.getElem_map, List.getElem_range,
          Subscription.DueIn, Subscription.charged, Bool.and_eq_true, decide_eq_true_eq, ite_not]
    rw [List.foldl_cons, hone, ih]
    rfl

theorem buildSchedule_eq (cal : JalaliCalendar) (today : IsoDate) (occurrences : List Occurrence)
    (subscriptions : List Subscription) (horizon : Nat) :
    buildSchedule cal occurrences subscriptions today horizon = (List.range horizon).map fun k =>
      (monthBucket cal today occurrences subscriptions k).bucket := by
  unfold buildSchedule
  dsimp only
  rw [tally_eq_map, List.map_map, List.map_map, foldl_addTo, List.map_map]
  rfl

theorem ScheduleBucket.Balanced.addTo {b : ScheduleBucket} {o : Occurrence} (h : b.Balanced)
    (hwhole : o.toman.Whole) : (o.addTo cal today b).Balanced := by
  have hadd : (b.add o.item).Balanced := h.add hwhole
  unfold Occurrence.addTo
  dsimp only
  split
  · exact ⟨hadd.nodup, hadd.sum, hadd.items, hadd.parts, hadd.overdue.add hwhole⟩
  · exact hadd

theorem ScheduleBucket.balanced_empty (key : MonthKey) (start : IsoDate) :
    ScheduleBucket.Balanced { key, start } where
  nodup := List.nodup_nil
  sum := by simp [CommitmentParts.total]
  items i hi := by cases hi
  parts kind := by cases kind <;> exact Decimal.Whole.zero
  overdue := .zero

theorem balanced_fillBucket {b : ScheduleBucket} (h : b.Balanced)
    (hwhole : ∀ o ∈ occurrences, o.toman.Whole) :
    (fillBucket (·.key) (Occurrence.month cal today) (Occurrence.addTo cal today) occurrences
      b).Balanced := by
  unfold fillBucket
  induction occurrences generalizing b with
  | nil => exact h
  | cons o occurrences ih =>
    rw [List.foldl_cons]
    refine ih ?_ fun p hp => hwhole p (List.mem_cons_of_mem _ hp)
    split
    · exact h.addTo (hwhole o List.mem_cons_self)
    · exact h

theorem balanced_monthBucket (hocc : ∀ o ∈ occurrences, o.toman.Whole)
    (hsub : ∀ s ∈ subscriptions, s.monthlyToman.Whole) (k : Nat) :
    (monthBucket cal today occurrences subscriptions k).Balanced := by
  have hfill : (filledBucket cal today occurrences k).Balanced :=
    balanced_fillBucket (ScheduleBucket.balanced_empty _ _)
      fun o ho => hocc o (List.mem_of_mem_filter ho)
  unfold monthBucket
  generalize filledBucket cal today occurrences k = b at hfill
  induction subscriptions generalizing b with
  | nil => exact hfill
  | cons s subscriptions ih =>
    rw [List.foldl_cons]
    refine ih (fun t ht => hsub t (List.mem_cons_of_mem _ ht)) _ ?_
    split
    · exact hfill.add (hsub s List.mem_cons_self)
    · exact hfill

/-! ## What a month counts -/

theorem month_eq_iff (hcal : cal.Lawful) (htoday : isIsoDate today) (o : Occurrence) (k : Nat) :
    (monthAt cal today k).1 = o.month cal today ↔ o.CountedIn cal today k := by
  have hinj := monthAt_injective (hcal.month today htoday).1
  unfold Occurrence.month Occurrence.CountedIn
  split
  · exact ⟨fun h => hinj h, fun h => h ▸ rfl⟩
  · exact eq_comm

theorem addTo_figures (cal : JalaliCalendar) (today : IsoDate) (kind : CommitmentKind)
    (o : Occurrence) (b : ScheduleBucket) :
    (o.addTo cal today b).key = b.key ∧ (o.addTo cal today b).start = b.start ∧
      (o.addTo cal today b).parts.of kind =
        b.parts.of kind + (if o.kind = kind then o.toman else 0) ∧
      (o.addTo cal today b).overdue =
        b.overdue + if o.date < (monthAt cal today 0).2 then o.toman else 0 := by
  have hparts := CommitmentParts.of_add b.parts o.kind kind o.toman
  unfold Occurrence.addTo
  dsimp only
  split
  · exact ⟨rfl, rfl, hparts, rfl⟩
  · exact ⟨rfl, rfl, hparts, (add_zero _).symm⟩

/-- What the subscriptions leave alone, and what they add. -/
theorem foldl_subscriptions (cal : JalaliCalendar) (today : IsoDate)
    (subscriptions : List Subscription) (k : Nat) (kind : CommitmentKind) (b : ScheduleBucket) :
    let filled := subscriptions.foldl (fun b s => if s.DueIn cal today k then
      b.add ⟨s.key, .subscription, s.title, s.monthlyToman, true⟩ else b) b
    filled.start = b.start ∧ filled.overdue = b.overdue ∧ filled.parts.of kind = b.parts.of kind +
      (if kind = .subscription then
        ((subscriptions.filter fun s => s.DueIn cal today k).map (·.monthlyToman)).sum else 0) := by
  induction subscriptions generalizing b with
  | nil => simp
  | cons s subscriptions ih =>
    rw [List.foldl_cons]
    by_cases hdue : s.DueIn cal today k
    · obtain ⟨hstart, hoverdue, hparts⟩ := ih (b.add ⟨s.key, .subscription, s.title, s.monthlyToman,
        true⟩)
      have hadd := CommitmentParts.of_add b.parts .subscription kind s.monthlyToman
      rw [if_pos hdue]
      refine ⟨hstart, hoverdue, hparts.trans ?_⟩
      rw [List.filter_cons_of_pos (by simpa using hdue), List.map_cons, List.sum_cons]
      change (b.parts.add .subscription s.monthlyToman).of kind + _ = _
      rw [hadd, add_assoc]
      cases kind <;> simp
    · rw [if_neg hdue, List.filter_cons_of_neg (by simpa using hdue)]
      exact ih b

theorem monthBucket_figures (hcal : cal.Lawful) (htoday : isIsoDate today) (k : Nat)
    (kind : CommitmentKind) :
    let b := monthBucket cal today occurrences subscriptions k
    b.start = (monthAt cal today k).2 ∧
      b.parts.of kind =
        ((occurrences.filter fun o => 0 < o.toman ∧ o.kind = kind ∧ o.CountedIn cal today k).map
          (·.toman)).sum +
        (if kind = .subscription then
          ((subscriptions.filter fun s => s.DueIn cal today k).map (·.monthlyToman)).sum else 0) ∧
      b.overdue = ((occurrences.filter fun o => 0 < o.toman ∧ k = 0 ∧
        o.date < (monthAt cal today 0).2).map (·.toman)).sum := by
  obtain ⟨hstart, hoverdue, hparts⟩ := foldl_subscriptions cal today subscriptions k kind
    (filledBucket cal today occurrences k)
  have hpart : (filledBucket cal today occurrences k).parts.of kind =
      CommitmentParts.of {} kind + (((occurrences.filter fun o => 0 < o.toman).filter fun o =>
        (monthAt cal today k).1 = o.month cal today).map fun o =>
          if o.kind = kind then o.toman else 0).sum :=
    figure_fillBucket (f := fun b : ScheduleBucket => b.parts.of kind)
      (fun o b => (addTo_figures cal today kind o b).1)
      (fun o b => (addTo_figures cal today kind o b).2.2.1) _ _
  have hover : (filledBucket cal today occurrences k).overdue =
      0 + (((occurrences.filter fun o => 0 < o.toman).filter fun o =>
        (monthAt cal today k).1 = o.month cal today).map fun o =>
          if o.date < (monthAt cal today 0).2 then o.toman else 0).sum :=
    figure_fillBucket (f := fun b : ScheduleBucket => b.overdue)
      (fun o b => (addTo_figures cal today kind o b).1)
      (fun o b => (addTo_figures cal today kind o b).2.2.2) _ _
  have hzero : CommitmentParts.of {} kind = 0 := by cases kind <;> rfl
  refine ⟨hstart.trans (fillBucket_keeps (fun o b => (addTo_figures cal today kind o b).2.1) _ _),
    hparts.trans (congrArg (· + _) (hpart.trans ?_)), hoverdue.trans (hover.trans ?_)⟩
  · rw [hzero, zero_add, List.filter_filter, sum_filter_eq_ite, sum_filter_eq_ite]
    refine congrArg List.sum (List.map_congr_left fun o _ => ?_)
    have hmonth := month_eq_iff hcal htoday o k
    by_cases hkind : o.kind = kind <;> simp [hmonth, hkind, and_comm]
  · rw [zero_add, List.filter_filter, sum_filter_eq_ite, sum_filter_eq_ite]
    refine congrArg List.sum (List.map_congr_left fun o _ => ?_)
    have hmonth := month_eq_iff hcal htoday o k
    by_cases hlate : o.date < (monthAt cal today 0).2
    · have hcounted : o.CountedIn cal today k ↔ k = 0 := by rw [Occurrence.CountedIn, if_pos hlate]
      simp [hmonth, hcounted, hlate, and_comm]
    · simp [hlate]

/-- What is dated before the end of the last month weighs on exactly one of the months. -/
theorem existsUnique_countedIn (hcal : cal.Lawful) (htoday : isIsoDate today) (hpos : 0 < horizon)
    {o : Occurrence} (hdate : isIsoDate o.date)
    (hend : (cal.toJalali o.date).monthNumber < (cal.toJalali today).monthNumber + horizon) :
    ∃! k, k < horizon ∧ o.CountedIn cal today k := by
  unfold Occurrence.CountedIn
  by_cases hlate : o.date < (monthAt cal today 0).2
  · simp only [if_pos hlate]
    exact ⟨0, ⟨hpos, rfl⟩, fun k hk => hk.2⟩
  · simp only [if_neg hlate]
    have hafter : ¬ (cal.toJalali o.date).monthBefore (cal.toJalali today) := by
      rw [monthAt_zero hcal htoday] at hlate
      exact (hcal.monthStart _ _ hdate htoday).not.mp hlate
    have hmonth := hcal.month _ hdate
    have hnow := hcal.month _ htoday
    unfold JalaliDate.monthBefore at hafter
    unfold JalaliDate.monthNumber at hend
    have hkey (k : Nat) : jalaliMonthBucketKey cal o.date = (monthAt cal today k).1 ↔
        12 * (cal.toJalali o.date).y + (cal.toJalali o.date).m =
          12 * (cal.toJalali today).y + (cal.toJalali today).m + k := by
      obtain ⟨hlow, hhigh, hspec⟩ := monthAt_spec hnow.1 k
      rw [← hspec, Prod.ext_iff, jalaliMonthBucketKey]
      constructor
      · rintro ⟨hy, hm⟩
        rw [← hy, ← hm]
      · intro heq
        constructor <;> omega
    simp only [hkey]
    refine ⟨(12 * (cal.toJalali o.date).y + (cal.toJalali o.date).m -
      (12 * (cal.toJalali today).y + (cal.toJalali today).m)).toNat, ?_, ?_⟩
    · dsimp only
      omega
    · rintro k ⟨-, heq⟩
      omega

/-- With whole amounts and at least one month, the schedule conserves money: the months count
every positive occurrence dated before their end once, an overdue one in the first month, and a
subscription in every month but the current one when it was charged; the total of a month is that
of its items and that of its parts. -/
theorem schedule_conserves (hcal : cal.Lawful) (htoday : isIsoDate today) (hpos : 0 < horizon)
    (hocc : ∀ o ∈ occurrences, o.toman.Whole) (hsub : ∀ s ∈ subscriptions, s.monthlyToman.Whole) :
    (∃ months, schedule cal today occurrences subscriptions horizon = some months ∧
      months.length = horizon ∧
      ∀ k b, months[k]? = some b →
        b.start = (monthAt cal today k).2 ∧
        b.totalToman = (b.items.map (·.toman)).sum ∧ b.totalToman = b.parts.total ∧
        (∀ kind, b.parts.of kind =
          ((occurrences.filter fun o => 0 < o.toman ∧ o.kind = kind ∧ o.CountedIn cal today k).map
            (·.toman)).sum +
          (if kind = .subscription then
            ((subscriptions.filter fun s => s.DueIn cal today k).map (·.monthlyToman)).sum
          else 0)) ∧
        b.overdueToman = ((occurrences.filter fun o => 0 < o.toman ∧ k = 0 ∧
          o.date < (monthAt cal today 0).2).map (·.toman)).sum) ∧
      ∀ o ∈ occurrences, isIsoDate o.date →
        (cal.toJalali o.date).monthNumber < (cal.toJalali today).monthNumber + horizon →
        ∃! k, k < horizon ∧ o.CountedIn cal today k := by
  refine ⟨⟨buildSchedule cal occurrences subscriptions today horizon,
    if_neg fun h => hpos.ne' h.1, ?_, ?_⟩,
    fun o _ hdate hend => existsUnique_countedIn hcal htoday hpos hdate hend⟩
  · rw [buildSchedule_eq, List.length_map, List.length_range]
  · intro k b hb
    rw [buildSchedule_eq, List.getElem?_map] at hb
    obtain ⟨j, hj, rfl⟩ := Option.map_eq_some_iff.mp hb
    obtain ⟨hk, hj⟩ := List.getElem?_eq_some_iff.mp hj
    obtain rfl : k = j := by rwa [List.getElem_range] at hj
    have hbalanced : (monthBucket cal today occurrences subscriptions k).Balanced :=
      balanced_monthBucket hocc hsub k
    obtain ⟨hitems, htotal, hparts, hoverdue⟩ := hbalanced.bucket
    refine ⟨(monthBucket_figures hcal htoday k .installment).1, hitems, htotal, fun kind => ?_, ?_⟩
    · exact (hparts kind).trans (monthBucket_figures hcal htoday k kind).2.1
    · exact hoverdue.trans (monthBucket_figures hcal htoday k .installment).2.2

end Months

section Examples

/-- A subscription of 500 Toman that was last charged in the month before. -/
def streaming : Subscription := ⟨"s:stream", "stream", .ofInt 500, some 20260301⟩

/-- An overdue installment and one of the next month. -/
def twoInstallments : List Occurrence :=
  [⟨"d:1", .installment, "loan", 20260310, .ofInt 1000⟩,
    ⟨"d:1", .installment, "loan", 20260425, .ofInt 1000⟩]

theorem schedule_conserves_twoInstallments :
    (∃ months, schedule ordinaryYears 20260410 twoInstallments [streaming] 2 = some months ∧
      months.length = 2 ∧ ∀ b, months[0]? = some b → b.overdueToman = .ofInt 1000 ∧
        b.parts.of .installment = .ofInt 1000 ∧ b.parts.of .subscription = .ofInt 500) ∧
      ∀ o ∈ twoInstallments, ∃! k, k < 2 ∧ o.CountedIn ordinaryYears 20260410 k := by
  have hocc : ∀ o ∈ twoInstallments, o.toman.Whole := by
    simp only [twoInstallments, List.forall_mem_cons, List.not_mem_nil, false_implies, implies_true,
      and_true]
    exact ⟨⟨1000, rfl⟩, 1000, rfl⟩
  have hsub : ∀ s ∈ [streaming], s.monthlyToman.Whole := by
    rintro s hs
    rw [List.mem_singleton.mp hs]
    exact ⟨500, rfl⟩
  obtain ⟨⟨months, hmonths, hlength, hbuckets⟩, hcounted⟩ :=
    schedule_conserves ordinaryYears_lawful (by decide : isIsoDate 20260410) two_pos hocc hsub
  refine ⟨⟨months, hmonths, hlength, fun b hb => ?_⟩, fun o ho => hcounted o ho ?_ ?_⟩
  · obtain ⟨-, -, -, hparts, hoverdue⟩ := hbuckets 0 b hb
    rw [hoverdue, hparts, hparts]
    decide
  · revert o
    decide
  · revert o
    decide

/-- With no months, what is overdue throws. -/
theorem schedule_of_no_month :
    schedule ordinaryYears 20260410 twoInstallments [] 0 = none := by decide

end Examples

end Pwos
