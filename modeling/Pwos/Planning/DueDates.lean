import Pwos.Domain.MonthSteps
import Pwos.Planning.Schedules

/-!
# The rows of a schedule

What `splitPrincipal` and `generateDueDates` of `features/planning/obligations.ts` promise: the
parts of a principal add up to it and differ by a Toman at most, and the days of an accepted
schedule rise month by month from the first one.
-/

namespace Pwos

/-! ## The parts of a principal -/

theorem splitPrincipal_eq {principal : Decimal} {count : Nat} (hc : 0 < count)
    (hp : 0 < principal) : ∃ total : Nat, principal.toFixed 0 = .ofInt total ∧
      splitPrincipal principal count =
        .ok ((List.range count).map fun i => .ofInt (share total count i)) := by
  obtain ⟨n, hn⟩ := Decimal.exists_toFixed_zero principal
  have hnonneg := Decimal.toFixed_nonneg hp.le 0
  rw [hn, ← Decimal.ofInt_zero, Decimal.ofInt_le] at hnonneg
  lift n to Nat using hnonneg
  refine ⟨n, hn, ?_⟩
  unfold splitPrincipal
  rw [if_neg (by omega), if_neg (not_le.mpr hp), hn]
  simp only [Decimal.raw_ofInt, Int.mul_tdiv_cancel _ Decimal.one_pos.ne']
  refine congrArg Except.ok (List.map_congr_left fun i _ => ?_)
  unfold share
  rw [← Int.ofNat_tdiv, ← Int.ofNat_tmod]
  push_cast
  norm_cast

theorem share_antitone (total count : Nat) : Antitone (share total count) := by
  intro i j hij
  unfold share
  grind

theorem share_le_succ (total count i j : Nat) : share total count i ≤ share total count j + 1 := by
  unfold share
  grind

theorem sum_ofInt_shares {total count : Nat} (hc : 0 < count) :
    ((List.range count).map fun i => Decimal.ofInt (share total count i)).sum = .ofInt total := by
  have hsum := Decimal.sum_ofInt ((List.range count).map (share total count))
  rw [List.map_map, sum_shares total hc] at hsum
  exact hsum

/-- A positive principal is split into as many whole amounts as asked for; they add up to it
rounded to whole Toman, differ by one Toman at most, and the larger ones come first. Any other
principal is refused. -/
theorem splitPrincipal_parts (principal : Decimal) {count : Nat} (hc : 0 < count) :
    (principal ≤ 0 → splitPrincipal principal count =
      .error (.failure "اصل مبلغ باید بزرگ‌تر از صفر باشد.")) ∧
    (0 < principal → ∃ parts, splitPrincipal principal count = .ok parts ∧
      parts.length = count ∧ parts.sum = principal.toFixed 0 ∧
      (∀ a ∈ parts, ∃ n : Nat, a = .ofInt n) ∧
      (∀ a ∈ parts, ∀ b ∈ parts, a ≤ b + .ofInt 1) ∧ parts.Pairwise (· ≥ ·)) := by
  constructor
  · intro hp
    unfold splitPrincipal
    rw [if_neg (by omega), if_pos hp]
  · intro hp
    obtain ⟨total, htotal, heq⟩ := splitPrincipal_eq hc hp
    refine ⟨_, heq, ?_, ?_, ?_, ?_, ?_⟩
    · rw [List.length_map, List.length_range]
    · rw [htotal, sum_ofInt_shares hc]
    · intro a ha
      obtain ⟨i, -, rfl⟩ := List.mem_map.mp ha
      exact ⟨_, rfl⟩
    · intro a ha b hb
      obtain ⟨i, -, rfl⟩ := List.mem_map.mp ha
      obtain ⟨j, -, rfl⟩ := List.mem_map.mp hb
      rw [Decimal.ofInt_add, Decimal.ofInt_le]
      exact_mod_cast share_le_succ total count i j
    · rw [List.pairwise_map]
      refine List.pairwise_lt_range.imp fun hij => ?_
      rw [ge_iff_le, Decimal.ofInt_le]
      exact_mod_cast share_antitone total count hij.le

theorem splitPrincipal_parts_of_three :
    ∃ parts, splitPrincipal (.ofInt 1000000) 3 = .ok parts ∧ parts.length = 3 ∧
      parts.sum = (Decimal.ofInt 1000000).toFixed 0 := by
  obtain ⟨parts, heq, hlen, hsum, -⟩ :=
    (splitPrincipal_parts (.ofInt 1000000) (by decide : 0 < 3)).2 (by decide)
  exact ⟨parts, heq, hlen, hsum⟩

/-- Nothing is split when the principal is zero. -/
theorem splitPrincipal_of_zero : ¬ ∃ parts, splitPrincipal 0 3 = .ok parts ∧
    parts.length = 3 ∧ parts.sum = (0 : Decimal).toFixed 0 := by
  rintro ⟨parts, h, -⟩
  cases h

/-! ## The due dates -/

namespace ScheduleInput

/-- The dates as entered. -/
def given : ScheduleInput → List IsoDate
  | .once dueDate => [dueDate]
  | .recurring _ _ firstDueDate => [firstDueDate]
  | .custom dueDates => dueDates

/-- The number of installments. -/
def size : ScheduleInput → Nat
  | .once _ => 1
  | .recurring count _ _ => count.toNat
  | .custom dueDates => dueDates.length

end ScheduleInput

section Clamped
variable {d : IsoDate}

theorem addMonthsClamped_parts (d : IsoDate) (n : Nat) :
    IsoDate.year (addMonthsClamped d n) = (monthAfter d n).1 ∧
      IsoDate.month (addMonthsClamped d n) = (monthAfter d n).2 ∧
      IsoDate.day (addMonthsClamped d n) =
        min (IsoDate.day d) (daysInMonth (monthAfter d n).1 (monthAfter d n).2) := by
  have hm := monthAfter_le d n
  have hdays := daysInMonth_le (monthAfter d n).1 (monthAfter d n).2
  unfold addMonthsClamped
  dsimp only
  rw [ofParts_year (by omega) (by omega), ofParts_month (by omega) (by omega),
    ofParts_day (by omega)]
  exact ⟨rfl, rfl, rfl⟩

theorem monthAfter_spec (hd : 0 < IsoDate.month d) (n : Nat) : 0 < (monthAfter d n).2 ∧
    12 * (monthAfter d n).1 + (monthAfter d n).2 =
      12 * IsoDate.year d + IsoDate.month d + n := by
  unfold monthAfter
  dsimp only
  omega

theorem addMonthsClamped_zero (hd : isIsoDate d) : addMonthsClamped d 0 = d := by
  obtain ⟨hm, hm', -, hday, -⟩ := (isIsoDate_iff d).mp hd
  have hsame : monthAfter d 0 = (IsoDate.year d, IsoDate.month d) := by
    unfold monthAfter
    refine Prod.ext ?_ ?_
    · dsimp only
      omega
    · dsimp only
      omega
  unfold addMonthsClamped
  rw [hsame]
  dsimp only
  rw [min_eq_left hday]
  unfold IsoDate.ofParts IsoDate.year IsoDate.month IsoDate.day
  have hparts : ∀ a : Nat, a / 10000 * 10000 + a / 100 % 100 * 100 + a % 100 = a := by omega
  exact hparts d

theorem ofParts_lt {y m k y' m' k' : Nat} (hm : 0 < m) (hm' : 0 < m') (hle : m' ≤ 12) (hk : k < 100)
    (h : 12 * y + m < 12 * y' + m') : (IsoDate.ofParts y m k : Nat) < .ofParts y' m' k' := by
  have hdays : y * 10000 + m * 100 + k < y' * 10000 + m' * 100 + k' := by omega
  exact hdays

/-- A later month comes after, whatever the days are clamped to. -/
theorem addMonthsClamped_lt (hd : 0 < IsoDate.month d) {n k : Nat} (h : n < k) :
    (addMonthsClamped d n : Nat) < addMonthsClamped d k := by
  have hn := monthAfter_spec hd n
  have hk := monthAfter_spec hd k
  have hle := monthAfter_le d n
  have hle' := monthAfter_le d k
  have hdays := daysInMonth_le (monthAfter d n).1 (monthAfter d n).2
  have hday : min (IsoDate.day d) (daysInMonth (monthAfter d n).1 (monthAfter d n).2) ≤ 31 :=
    (min_le_right _ _).trans hdays
  exact ofParts_lt hn.1 hk.1 hle' (hday.trans_lt (by decide)) (by omega)

end Clamped

section Custom
variable {startDate : IsoDate}

theorem customDateError_eq_none {ds : List IsoDate} :
    customDateError startDate ds = none ↔ ∀ d ∈ ds, isIsoDueDate d ∧ startDate ≤ d := by
  induction ds with
  | nil => simp [customDateError]
  | cons d ds ih =>
    unfold customDateError
    rw [List.forall_mem_cons, ← ih]
    grind

theorem insertionSort_lt {ds : List IsoDate} (h : ds.Nodup) :
    (ds.insertionSort (· ≤ ·)).Pairwise (· < ·) := by
  have hsorted := List.pairwise_insertionSort (· ≤ ·) ds
  have hnodup : (ds.insertionSort (· ≤ ·)).Nodup := (List.perm_insertionSort _ ds).nodup_iff.mpr h
  exact (hsorted.and hnodup).imp fun ⟨hle, hne⟩ => lt_of_le_of_ne hle hne

end Custom

/-! ## An accepted schedule -/

theorem isIsoDueDate_iff {d : IsoDate} :
    isIsoDueDate d ↔ isIsoDate d ∧ 100 ≤ IsoDate.year d := by
  simp [isIsoDueDate]

section Accepted
variable {startDate : IsoDate}

theorem validateSchedule_custom {ds : List IsoDate}
    (h : validateSchedule startDate (.custom ds) = none) :
    ds.Nodup ∧ ∀ d ∈ ds, isIsoDueDate d ∧ startDate ≤ d := by
  rw [← customDateError_eq_none]
  unfold validateSchedule at h
  grind

theorem validateSchedule_recurring {count : Int} {interval : Nat} {first : IsoDate}
    (h : validateSchedule startDate (.recurring count interval first) = none) :
    1 ≤ count ∧ count ≤ 360 ∧ 1 ≤ interval ∧ interval ≤ 6 ∧ isIsoDueDate first ∧
      startDate ≤ first := by
  have hrange : interval ∈ RECURRING_INTERVALS → 1 ≤ interval ∧ interval ≤ 6 := by
    intro hmem
    simp only [RECURRING_INTERVALS, List.mem_cons, List.not_mem_nil, or_false] at hmem
    omega
  unfold validateSchedule MAX_INSTALLMENTS at h
  grind

theorem validateSchedule_once {d : IsoDate} (h : validateSchedule startDate (.once d) = none) :
    isIsoDueDate d ∧ startDate ≤ d := by
  unfold validateSchedule at h
  grind

theorem generateDueDates_rises {schedule : ScheduleInput}
    (h : validateSchedule startDate schedule = none) :
    (generateDueDates schedule).Pairwise (· < ·) := by
  cases schedule with
  | once d => exact List.pairwise_singleton _ d
  | custom ds => exact insertionSort_lt (validateSchedule_custom h).1
  | recurring count interval first =>
    obtain ⟨-, -, hpos, -, hdate, -⟩ := validateSchedule_recurring h
    have hmonth := ((isIsoDate_iff first).mp (isIsoDueDate_iff.mp hdate).1).1
    refine List.pairwise_map.mpr (List.pairwise_lt_range.imp fun hij => ?_)
    exact addMonthsClamped_lt hmonth (Nat.mul_lt_mul_of_pos_right hij hpos)

theorem le_generateDueDates {schedule : ScheduleInput}
    (h : validateSchedule startDate schedule = none) :
    ∀ d ∈ generateDueDates schedule, startDate ≤ d := by
  intro e he
  cases schedule with
  | once d =>
    obtain rfl := List.mem_singleton.mp he
    exact (validateSchedule_once h).2
  | custom ds => exact ((validateSchedule_custom h).2 e ((List.mem_insertionSort _).mp he)).2
  | recurring count interval first =>
    obtain ⟨i, -, rfl⟩ := List.mem_map.mp he
    obtain ⟨-, -, hpos, -, hdate, hstart⟩ := validateSchedule_recurring h
    have hiso := (isIsoDueDate_iff.mp hdate).1
    have hmonth := ((isIsoDate_iff first).mp hiso).1
    apply hstart.trans
    rcases Nat.eq_zero_or_pos (i * interval) with hzero | hsome
    · rw [hzero, addMonthsClamped_zero hiso]
    · have hlt := addMonthsClamped_lt hmonth hsome
      rw [addMonthsClamped_zero hiso] at hlt
      exact Nat.le_of_lt hlt

/-- The `k`-th day of a recurring schedule: never counted from a clamped one before it. -/
theorem generateDueDates_recurring {count : Int} {interval : Nat} {first : IsoDate}
    (h : validateSchedule startDate (.recurring count interval first) = none)
    (hlow : 1000 ≤ IsoDate.year first) (hhigh : IsoDate.year first ≤ 9900) {k : Nat}
    (hk : (k : Int) < count) :
    ∃ d, (generateDueDates (.recurring count interval first))[k]? = some d ∧
      0 < IsoDate.month d ∧ IsoDate.month d ≤ 12 ∧
      12 * IsoDate.year d + IsoDate.month d =
        12 * IsoDate.year first + IsoDate.month first + k * interval ∧
      IsoDate.day d =
        min (IsoDate.day first) (daysInMonth (IsoDate.year d) (IsoDate.month d)) ∧
      addMonthsClampedText first (k * interval : Nat) = d.text := by
  obtain ⟨-, hcount, hpos, hsix, hdate, -⟩ := validateSchedule_recurring h
  have hiso := (isIsoDueDate_iff.mp hdate).1
  obtain ⟨hmonth, hlast, -⟩ := (isIsoDate_iff first).mp hiso
  obtain ⟨hyear, hm, hday⟩ := addMonthsClamped_parts first (k * interval)
  obtain ⟨hone, hsum⟩ := monthAfter_spec hmonth (k * interval)
  have hle := monthAfter_le first (k * interval)
  have hfar : k * interval ≤ 360 * 6 := Nat.mul_le_mul (by omega) hsix
  have hin : k < count.toNat := by omega
  refine ⟨addMonthsClamped first (k * interval), by simp [generateDueDates, hin], ?_⟩
  rw [hyear, hm]
  exact ⟨hone, hle, hsum, hday, addMonthsClampedText_eq hiso hlow (by omega)⟩

/-- The days of an accepted schedule: as many as its installments, rising (their texts too, as
long as the years have four digits), none before the start date. A custom list is only sorted.
The `k`-th day of a recurring one lies in the month `k` intervals after that of the first, on the
chosen day or the last one of a shorter month. -/
theorem generateDueDates_accepted {schedule : ScheduleInput}
    (h : validateSchedule startDate schedule = none)
    (hyears : ∀ d ∈ schedule.given, 1000 ≤ IsoDate.year d ∧ IsoDate.year d ≤ 9900) :
    (generateDueDates schedule).length = schedule.size ∧
    (generateDueDates schedule).Pairwise (· < ·) ∧
    ((∀ d ∈ generateDueDates schedule, IsoDate.year d < 10000) →
      ((generateDueDates schedule).map IsoDate.text).Pairwise (· < ·)) ∧
    (∀ d ∈ generateDueDates schedule, startDate ≤ d) ∧
    (∀ ds, schedule = .custom ds → (generateDueDates schedule).Perm ds) ∧
    (∀ count interval first, schedule = .recurring count interval first →
      ∀ k : Nat, (k : Int) < count → ∃ d, (generateDueDates schedule)[k]? = some d ∧
        0 < IsoDate.month d ∧ IsoDate.month d ≤ 12 ∧
        12 * IsoDate.year d + IsoDate.month d =
          12 * IsoDate.year first + IsoDate.month first + k * interval ∧
        IsoDate.day d =
          min (IsoDate.day first) (daysInMonth (IsoDate.year d) (IsoDate.month d)) ∧
        addMonthsClampedText first (k * interval : Nat) = d.text) := by
  have hrises := generateDueDates_rises h
  refine ⟨?_, hrises, fun hfour => ?_, le_generateDueDates h, ?_, ?_⟩
  · cases schedule with
    | once d => rfl
    | custom ds => exact List.length_insertionSort _ ds
    | recurring count interval first => simp [generateDueDates, ScheduleInput.size]
  · refine List.pairwise_map.mpr (hrises.imp_of_mem fun ha hb hab => ?_)
    exact (text_lt_iff (hfour _ ha) (hfour _ hb)).mpr hab
  · rintro ds rfl
    exact List.perm_insertionSort _ ds
  · rintro count interval first rfl k hk
    obtain ⟨hlow, hhigh⟩ := hyears first List.mem_cons_self
    exact generateDueDates_recurring h hlow hhigh hk

/-- Three months from 31 January: the 31st is back after February. -/
theorem generateDueDates_accepted_from_january :
    validateSchedule 20260101 (.recurring 3 1 20260131) = none ∧
      (generateDueDates (.recurring 3 1 20260131)).Pairwise (· < ·) ∧
      generateDueDates (.recurring 3 1 20260131) = [20260131, 20260228, 20260331] := by
  have hvalid : validateSchedule 20260101 (.recurring 3 1 20260131) = none := by decide
  exact ⟨hvalid, (generateDueDates_accepted hvalid (by decide)).2.1, by decide⟩

end Accepted

end Pwos
