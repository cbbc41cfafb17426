import Pwos.Domain.Recurrence
import Pwos.Planning.Reminders

/-!
# The chain of premiums

`nextPremiumDate` and then `followingPremiumDate` of `features/insurance/service.ts`, called again
and again. Both search from the start of the policy, 1199 periods far: up to there each premium
comes once, and after it the last of them comes again.
-/

namespace Pwos

section PremiumChain
variable {cal : JalaliCalendar} {start today : IsoDate} {frequency : PremiumFrequency}

/-- The day `k` periods after the start, on its Jalali day or the last one of the month. -/
def premiumAt (cal : JalaliCalendar) (start : IsoDate) (frequency : PremiumFrequency) (k : Nat) :
    IsoDate :=
  let date := cal.toJalali start
  let target := date.monthsLater (k * frequency.periodMonths)
  if k = 0 then start
  else cal.jalaliToIso target.1 target.2 (min date.d (cal.jalaliMonthLength target.1 target.2))

/-- The first premium, and the ones that follow it until there is none. -/
def premiumChain (cal : JalaliCalendar) (start : IsoDate) (frequency : PremiumFrequency)
    (today : IsoDate) (endDate : Option IsoDate) : Nat → Option IsoDate
  | 0 => nextPremiumDate cal start frequency today endDate
  | n + 1 => (premiumChain cal start frequency today endDate n).bind fun date =>
    followingPremiumDate cal start frequency date endDate

theorem addJalaliMonths_eq_premiumAt (cal : JalaliCalendar) (start : IsoDate)
    (frequency : PremiumFrequency) {k : Nat} (hk : k ≠ 0) :
    addJalaliMonths cal start (k * frequency.periodMonths) (cal.toJalali start).d =
      premiumAt cal start frequency k := by
  simp [addJalaliMonths, premiumAt, JalaliDate.monthsLater, hk, mul_comm]

/-! ## The days are in order -/

theorem periodMonths_pos (hfreq : frequency ≠ .once) : 0 < frequency.periodMonths := by
  cases frequency <;> simp_all [PremiumFrequency.periodMonths]

/-- The day of a premium is one that its month has. -/
theorem premiumAt_hasDay (hcal : cal.Ordered) (hstart : isIsoDate start) (n : Nat) :
    let target := (cal.toJalali start).monthsLater n
    cal.HasDay ⟨target.1, target.2,
      min (cal.toJalali start).d (cal.jalaliMonthLength target.1 target.2)⟩ := by
  obtain ⟨hm, hm', -⟩ := monthsLater_spec (cal.toJalali start) n
  exact ⟨hm, hm', lt_min (hcal.day start hstart).2.2 (hcal.length _ _ hm hm'), min_le_right _ _⟩

theorem monthsLater_before (date : JalaliDate) {j k : Nat} (hjk : j < k) (d d' : Nat) :
    JalaliDate.monthBefore ⟨(date.monthsLater j).1, (date.monthsLater j).2, d⟩
      ⟨(date.monthsLater k).1, (date.monthsLater k).2, d'⟩ := by
  have hj := monthsLater_spec date j
  have hk := monthsLater_spec date k
  unfold JalaliDate.monthBefore
  dsimp only
  omega

theorem premiumAt_strictMono (hcal : cal.Ordered) (hstart : isIsoDate start)
    (hfreq : frequency ≠ .once) : StrictMono (premiumAt cal start frequency) := by
  have hperiod := periodMonths_pos hfreq
  obtain ⟨-, hm, -⟩ := hcal.day start hstart
  -- every month but the first is after that of the start
  have hbefore (k d : Nat) (hk : 0 < k) :=
    monthBefore_monthsLater (n := k * frequency.periodMonths) hm (Nat.mul_pos hk hperiod) d
  intro j k hjk
  have hk : k ≠ 0 := by omega
  rcases Nat.eq_zero_or_pos j with rfl | hj
  · simp only [premiumAt, hk, if_true, if_false]
    exact hcal.after start hstart ⟨_, _, _⟩ (hbefore k _ hjk) (premiumAt_hasDay hcal hstart _)
  · have hmonths : j * frequency.periodMonths < k * frequency.periodMonths :=
      Nat.mul_lt_mul_of_pos_right hjk hperiod
    simp only [premiumAt, hk, hj.ne', if_false]
    exact hcal.increasing start hstart ⟨_, _, _⟩ ⟨_, _, _⟩ (hbefore j _ hj)
      (monthsLater_before _ hmonths _ _) (premiumAt_hasDay hcal hstart _)
      (premiumAt_hasDay hcal hstart _)

/-! ## The search -/

/-- The search ends at the first day that is not past, or when it has no steps left. -/
theorem premiumSteps_eq (cal : JalaliCalendar) (start : IsoDate) (frequency : PremiumFrequency)
    (past : IsoDate → Bool) (fuel : Nat) {j k : Nat} (hkj : k ≤ j) (hjk : j ≤ k + fuel)
    (hpast : ∀ i, k ≤ i → i < j → past (premiumAt cal start frequency i) = true)
    (hstop : j < k + fuel → past (premiumAt cal start frequency j) = false) :
    premiumSteps cal start frequency.periodMonths past fuel (k + 1)
      (premiumAt cal start frequency k) = premiumAt cal start frequency j := by
  induction fuel generalizing k with
  | zero =>
    have hsame : k = j := by omega
    simp [premiumSteps, hsame]
  | succ n ih =>
    rcases hkj.eq_or_lt with rfl | hlt
    · simp [premiumSteps, hstop (by omega)]
    · have hnext := ih (k := k + 1) hlt (by omega) (fun i hi => hpast i (by omega))
        (fun hj => hstop (by omega))
      simp [premiumSteps, hpast k le_rfl hlt, addJalaliMonths_eq_premiumAt, hnext]

/-- The first day that is on or after today. -/
theorem nextPremiumDate_eq (hfreq : frequency ≠ .once) (endDate : Option IsoDate) {j : Nat}
    (hj : j ≤ 1199) (hpast : ∀ i < j, premiumAt cal start frequency i < today)
    (hstop : today ≤ premiumAt cal start frequency j) :
    nextPremiumDate cal start frequency today endDate =
      if endDate.any (· ≤ premiumAt cal start frequency j) then none
      else some (premiumAt cal start frequency j) := by
  have hsteps := premiumSteps_eq cal start frequency (· < today) 1199 (k := 0) (j := j)
    (by omega) (by omega) (fun i _ hi => by simpa using hpast i hi)
    (fun _ => by simpa using hstop)
  have hzero : premiumAt cal start frequency 0 = start := rfl
  rw [hzero] at hsteps
  simp [nextPremiumDate, hfreq, hsteps]

/-- After the `j`-th day comes the next one, but the 1199th comes again. -/
theorem followingPremiumDate_eq (hmono : StrictMono (premiumAt cal start frequency))
    (hfreq : frequency ≠ .once) (endDate : Option IsoDate) {j : Nat} (hj : j ≤ 1199) :
    followingPremiumDate cal start frequency (premiumAt cal start frequency j) endDate =
      if endDate.any (· ≤ premiumAt cal start frequency (min (j + 1) 1199)) then none
      else some (premiumAt cal start frequency (min (j + 1) 1199)) := by
  have hsteps := premiumSteps_eq cal start frequency
    (· ≤ premiumAt cal start frequency j) 1199 (k := 0) (j := min (j + 1) 1199) (by omega) (by omega)
    (fun i _ hi => decide_eq_true (hmono.monotone (by omega)))
    (fun hlt => decide_eq_false (not_le.mpr (hmono (by omega))))
  have hzero : premiumAt cal start frequency 0 = start := rfl
  rw [hzero] at hsteps
  simp [followingPremiumDate, hfreq, hsteps]

/-! ## The chain -/

theorem premiumChain_eq (hmono : StrictMono (premiumAt cal start frequency))
    (hfreq : frequency ≠ .once) (endDate : Option IsoDate) {k : Nat} (hk : k ≤ 1199)
    (hfirst : ∀ j, today ≤ premiumAt cal start frequency j ↔ k ≤ j) (n : Nat) :
    premiumChain cal start frequency today endDate n =
      if endDate.any (· ≤ premiumAt cal start frequency (min (k + n) 1199)) then none
      else some (premiumAt cal start frequency (min (k + n) 1199)) := by
  induction n with
  | zero =>
    rw [Nat.add_zero, Nat.min_eq_left hk]
    exact nextPremiumDate_eq hfreq endDate hk
      (fun i hi => not_le.mp ((hfirst i).not.mpr (by omega))) ((hfirst k).mpr le_rfl)
  | succ n ih =>
    have hlast : min (min (k + n) 1199 + 1) 1199 = min (k + (n + 1)) 1199 := by omega
    have hle : premiumAt cal start frequency (min (k + n) 1199) ≤
        premiumAt cal start frequency (min (k + (n + 1)) 1199) := hmono.monotone (by omega)
    unfold premiumChain
    rw [ih]
    split
    · -- a day that is past the end stays past it
      rename_i hend
      have hstill : endDate.any (· ≤ premiumAt cal start frequency (min (k + (n + 1)) 1199)) := by
        cases endDate with
        | none => simp at hend
        | some last => simpa using le_trans (by simpa using hend) hle
      simp [hstill]
    · rw [Option.bind_some, followingPremiumDate_eq hmono hfreq endDate (min_le_right _ _), hlast]

/-- The first premium that is on or after today. -/
theorem exists_first_premium (hmono : StrictMono (premiumAt cal start frequency)) {bound : Nat}
    (htoday : today ≤ premiumAt cal start frequency bound) :
    ∃ k ≤ bound, ∀ j, today ≤ premiumAt cal start frequency j ↔ k ≤ j := by
  have hex : ∃ k, today ≤ premiumAt cal start frequency k := ⟨bound, htoday⟩
  refine ⟨Nat.find hex, Nat.find_min' hex htoday, fun j => ⟨Nat.find_min' hex, fun hj => ?_⟩⟩
  exact (Nat.find_spec hex).trans (hmono.monotone hj)

/-- The chain of a policy visits the days of its first 1199 periods from today on, before the end
of its term, each once and in order. -/
theorem premiumChain_visits (hcal : cal.Ordered) (hstart : isIsoDate start)
    (hfreq : frequency ≠ .once) (htoday : today ≤ premiumAt cal start frequency 1199)
    (endDate : Option IsoDate) :
    StrictMono (premiumAt cal start frequency) ∧
      ∃ k ≤ 1199, (∀ j, today ≤ premiumAt cal start frequency j ↔ k ≤ j) ∧
        ∀ n, k + n ≤ 1199 → premiumChain cal start frequency today endDate n =
          if endDate.any (· ≤ premiumAt cal start frequency (k + n)) then none
          else some (premiumAt cal start frequency (k + n)) := by
  have hmono := premiumAt_strictMono hcal hstart hfreq
  obtain ⟨k, hk, hfirst⟩ := exists_first_premium hmono htoday
  refine ⟨hmono, k, hk, hfirst, fun n hn => ?_⟩
  have hchain := premiumChain_eq hmono hfreq endDate hk hfirst n
  rwa [Nat.min_eq_left hn] at hchain

end PremiumChain

/-- A policy of 31 Shahrivar 1404, paid quarterly for a year: its premiums from Mehr on. -/
theorem premiumChain_visits_shahrivar : 20250923 ≤ premiumAt recentYears 20250922 .quarterly 1199 ∧
    ∃ k ≤ 1199, (∀ j, 20250923 ≤ premiumAt recentYears 20250922 .quarterly j ↔ k ≤ j) ∧
      premiumChain recentYears 20250922 .quarterly 20250923 (some 20260922) 0 =
        if 20260922 ≤ premiumAt recentYears 20250922 .quarterly k then none
        else some (premiumAt recentYears 20250922 .quarterly k) := by
  have htoday : 20250923 ≤ premiumAt recentYears 20250922 .quarterly 1199 := by decide
  obtain ⟨-, k, hk, hfirst, hchain⟩ := premiumChain_visits recentYears_ordered
    (by decide : isIsoDate 20250922) (by decide : PremiumFrequency.quarterly ≠ .once) htoday
    (some 20260922)
  exact ⟨htoday, k, hk, hfirst, by simpa using hchain 0 (by omega)⟩

/-- The premium of the 1199th period of a monthly policy without an end comes again. -/
theorem premiumChain_repeats : recentYears.Ordered ∧ isIsoDate 20250321 ∧
    20250321 ≤ premiumAt recentYears 20250321 .monthly 1199 ∧
    premiumChain recentYears 20250321 .monthly 20250321 none 1199 =
      some (premiumAt recentYears 20250321 .monthly 1199) ∧
    premiumChain recentYears 20250321 .monthly 20250321 none 1200 =
      some (premiumAt recentYears 20250321 .monthly 1199) := by
  have hmono := premiumAt_strictMono recentYears_ordered (by decide : isIsoDate 20250321)
    (by decide : PremiumFrequency.monthly ≠ .once)
  have hfirst (j : Nat) : 20250321 ≤ premiumAt recentYears 20250321 .monthly j ↔ 0 ≤ j :=
    ⟨fun _ => Nat.zero_le j, fun hj => hmono.monotone hj⟩
  have hchain := premiumChain_eq hmono (by decide) none (Nat.zero_le 1199) hfirst
  exact ⟨recentYears_ordered, by decide, hmono.monotone (Nat.zero_le _), by simpa using hchain 1199,
    by simpa using hchain 1200⟩

end Pwos
