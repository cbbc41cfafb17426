import Pwos.Lib.UtcDate
import Pwos.Search.SearchText

/-!
# The session of a clock time

`inferTehranSessionInstant` of `features/pricing/providers/brsapi.ts`: a price comes with a clock
time only, and is of the last trading day in Tehran on which that time has come. The day is built
from its year, month and date again, so in the years 0 to 99 it is one of the 20th century.
-/

namespace Pwos

namespace BrsApi

open UtcDate

/-! ## The clock time -/

/-- A group of digits, of one of the lengths. -/
def clockPart (lengths : List Nat) (part : Text) : Option Nat :=
  if part.all Char.isDigit && lengths.contains part.length then
    some (Nat.ofDigitChars 10 part 0)
  else none

/-- `HH:MM:SS`, or without the seconds. -/
def clockParts (hhmmss : Text) : Option (Nat × Nat × Nat) :=
  match (trim hhmmss).splitOn ':' with
  | [h, min] => do some (← clockPart [1, 2] h, ← clockPart [2] min, 0)
  | [h, min, sec] => do some (← clockPart [1, 2] h, ← clockPart [2] min, ← clockPart [2] sec)
  | _ => none

/-- The seconds of a valid clock time. -/
def clockOf (hhmmss : Text) : Option Nat :=
  (clockParts hhmmss).bind fun (h, min, sec) =>
    if h > 23 || min > 59 || sec > 59 then none else some (h * 3600 + min * 60 + sec)

theorem clockOf_lt {hhmmss : Text} {clock : Nat} (h : clockOf hhmmss = some clock) :
    clock < 86400 := by
  obtain ⟨⟨hour, min, sec⟩, -, h⟩ := Option.bind_eq_some_iff.mp h
  dsimp only at h
  split_ifs at h with hvalid
  simp at hvalid h
  omega

/-! ## The instant -/

/-- Tehran is ahead by three hours and a half, all year. -/
def TEHRAN_OFFSET_MS : Int := 12600000

theorem getUTCDay_earlier {day earlier : Instant} (hday : day.getUTCDay = 4 ∨ day.getUTCDay = 5)
    (hback : timeClip (day.ms - DAY_MS) = some earlier) :
    earlier.getUTCDay.toNat < day.getUTCDay.toNat := by
  have hms := timeClip_eq_some.mp hback
  unfold Instant.getUTCDay at hday ⊢
  unfold DAY_MS at *
  omega

/-- The loop over the days without trading, Thursday and Friday. -/
def backToTrading (day : Instant) : Option Instant :=
  if hday : day.getUTCDay = 4 ∨ day.getUTCDay = 5 then
    match hback : timeClip (day.ms - DAY_MS) with
    | none => none
    | some earlier =>
      have := getUTCDay_earlier hday hback
      backToTrading earlier
  else some day
termination_by day.getUTCDay.toNat

def sessionInstant (clock : Nat) (now : Instant) : Option Instant := do
  let tehranNow ← timeClip (now.ms + TEHRAN_OFFSET_MS)
  let day ← timeClip
    (dateUTC tehranNow.getUTCFullYear tehranNow.getUTCMonth tehranNow.getUTCDate)
  let secondsNow :=
    tehranNow.getUTCHours * 3600 + tehranNow.getUTCMinutes * 60 + tehranNow.getUTCSeconds
  let day ← if secondsNow + 300 < clock then timeClip (day.ms - DAY_MS) else some day
  let day ← backToTrading day
  timeClip (day.ms + clock * 1000 - TEHRAN_OFFSET_MS)

/-- `none` for a text that is no clock time, and inside that for an invalid date. -/
def inferTehranSessionInstant (hhmmss : Text) (now : Instant) : Option (Option Instant) :=
  (clockOf hhmmss).map fun clock => sessionInstant clock now

/-! ## Trading days -/

/-- The day of an instant in Tehran. -/
def tehranDay (ms : Int) : Int := (ms + TEHRAN_OFFSET_MS) / DAY_MS

/-- From Saturday to Wednesday. -/
def Trading (day : Int) : Prop := (day + 4) % 7 ≠ 4 ∧ (day + 4) % 7 ≠ 5

/-- The last day of trading up to a day. -/
def lastTrading (day : Int) : Int :=
  if (day + 4) % 7 = 4 then day - 1 else if (day + 4) % 7 = 5 then day - 2 else day

section Trading
variable {day e : Int}

theorem trading_lastTrading (day : Int) : Trading (lastTrading day) := by
  unfold Trading lastTrading
  split_ifs <;> omega

theorem lastTrading_le (day : Int) : lastTrading day ≤ day := by
  unfold lastTrading
  split_ifs <;> omega

theorem sub_two_le_lastTrading (day : Int) : day - 2 ≤ lastTrading day := by
  unfold lastTrading
  split_ifs <;> omega

theorem le_lastTrading (he : Trading e) (hle : e ≤ day) : e ≤ lastTrading day := by
  unfold Trading at he
  unfold lastTrading
  split_ifs <;> omega

theorem backToTrading_eq (day : Instant) : backToTrading day =
    timeClip (day.ms - (day.ms / DAY_MS - lastTrading (day.ms / DAY_MS)) * DAY_MS) := by
  fun_induction backToTrading day with
  | case1 day hday hback =>
    refine (timeClip_eq_none.mpr (.inl ?_)).symm
    have hlow := timeClip_eq_none.mp hback
    have hhigh := day.upper
    unfold Instant.getUTCDay at hday
    unfold lastTrading
    unfold DAY_MS MAX_MS at *
    split_ifs <;> omega
  | case2 day hday earlier hback _ ih =>
    rw [ih, timeClip_eq_some.mp hback]
    unfold Instant.getUTCDay at hday
    congr 1
    unfold lastTrading
    unfold DAY_MS at *
    split_ifs <;> omega
  | case3 day hday =>
    unfold Instant.getUTCDay at hday
    refine (timeClip_eq_some.mpr ?_).symm
    unfold lastTrading
    split_ifs <;> omega

end Trading

/-! ## The last session -/

/-- An instant with the clock time, on a day of trading. -/
structure IsSession (clock : Nat) (ms : Int) : Prop where
  clock : (ms + TEHRAN_OFFSET_MS) % DAY_MS = clock * 1000
  trading : Trading (tehranDay ms)

/-- Today, or yesterday where the clock time is more than five minutes ahead. -/
def lookBackFrom (clock : Nat) (now : Int) : Int :=
  if (now + TEHRAN_OFFSET_MS) % DAY_MS / 1000 + 300 < clock then tehranDay now - 1
  else tehranDay now

def lastSession (clock : Nat) (now : Int) : Int :=
  lastTrading (lookBackFrom clock now) * DAY_MS + clock * 1000 - TEHRAN_OFFSET_MS

/-- What may be taken for the instant of a price: what is past, and today what is not more than
five minutes ahead. -/
structure Candidate (clock : Nat) (now ms : Int) : Prop where
  session : IsSession clock ms
  near : ms ≤ now ∨ ms ≤ now + 300000 ∧ tehranDay ms = tehranDay now

section Sessions
variable {clock : Nat} {now later ms : Int}

theorem tehranDay_session (hclock : clock < 86400) (day : Int) :
    tehranDay (day * DAY_MS + clock * 1000 - TEHRAN_OFFSET_MS) = day := by
  unfold tehranDay DAY_MS TEHRAN_OFFSET_MS
  omega

theorem candidate_lastSession (hclock : clock < 86400) (now : Int) :
    Candidate clock now (lastSession clock now) := by
  have hday : tehranDay (lastSession clock now) = lastTrading (lookBackFrom clock now) :=
    tehranDay_session hclock _
  have hle := lastTrading_le (lookBackFrom clock now)
  refine ⟨⟨?_, hday ▸ trading_lastTrading _⟩, ?_⟩
  · unfold lastSession TEHRAN_OFFSET_MS DAY_MS
    omega
  · unfold lastSession
    generalize lastTrading (lookBackFrom clock now) = day at *
    unfold lookBackFrom at hle
    unfold tehranDay DAY_MS TEHRAN_OFFSET_MS at *
    split_ifs at hle <;> omega

theorem le_lastSession (h : Candidate clock now ms) : ms ≤ lastSession clock now := by
  obtain ⟨⟨hclock, htrading⟩, hnear⟩ := h
  have hlook : tehranDay ms ≤ lookBackFrom clock now := by
    unfold lookBackFrom
    unfold tehranDay DAY_MS TEHRAN_OFFSET_MS at *
    split_ifs <;> omega
  have hle := le_lastTrading htrading hlook
  unfold lastSession
  generalize lastTrading (lookBackFrom clock now) = day at *
  unfold tehranDay DAY_MS TEHRAN_OFFSET_MS at *
  omega

theorem lastSession_isGreatest (hclock : clock < 86400) (now : Int) :
    IsGreatest {ms | Candidate clock now ms} (lastSession clock now) :=
  ⟨candidate_lastSession hclock now, fun _ h => le_lastSession h⟩

/-- What was a candidate stays one. -/
theorem Candidate.stays (h : Candidate clock now ms) (hle : now ≤ later) :
    Candidate clock later ms := by
  refine ⟨h.session, ?_⟩
  have hnear := h.near
  unfold tehranDay DAY_MS TEHRAN_OFFSET_MS at *
  omega

theorem lastSession_mono (hclock : clock < 86400) (hle : now ≤ later) :
    lastSession clock now ≤ lastSession clock later :=
  le_lastSession ((candidate_lastSession hclock now).stays hle)

end Sessions

/-! ## The function -/

/-- The year of an instant in Tehran. -/
def tehranYear (now : Instant) : Int := yearOf (tehranDay now.ms)

/-- Tehran's day is within the range, its year is none that `Date.UTC` moves, and the range has
a candidate. -/
structure Inferable (clock : Nat) (now : Instant) : Prop where
  year : ¬(0 ≤ tehranYear now ∧ tehranYear now ≤ 99)
  upper : now.ms + TEHRAN_OFFSET_MS ≤ MAX_MS
  room : ∃ ms, Candidate clock now.ms ms ∧ -MAX_MS ≤ ms

section Instants
variable {clock : Nat} {now : Instant}

theorem secondsNow_eq (t : Instant) :
    t.getUTCHours * 3600 + t.getUTCMinutes * 60 + t.getUTCSeconds = t.ms % DAY_MS / 1000 := by
  unfold Instant.getUTCHours Instant.getUTCMinutes Instant.getUTCSeconds DAY_MS
  omega

/-- A midnight that is no instant has no session after it that is one. -/
theorem back_eq {n : Int} (hclock : clock < 86400) (hn : n * DAY_MS ≤ MAX_MS) :
    ((timeClip (n * DAY_MS)).bind fun day => (backToTrading day).bind fun day =>
        timeClip (day.ms + clock * 1000 - TEHRAN_OFFSET_MS)) =
      timeClip (lastTrading n * DAY_MS + clock * 1000 - TEHRAN_OFFSET_MS) := by
  have hle := lastTrading_le n
  cases hday : timeClip (n * DAY_MS) with
  | none =>
    have hlow := timeClip_eq_none.mp hday
    refine (timeClip_eq_none.mpr (.inl ?_)).symm
    unfold DAY_MS MAX_MS TEHRAN_OFFSET_MS at *
    omega
  | some day =>
    have hms := timeClip_eq_some.mp hday
    have hn : n * DAY_MS / DAY_MS = n := by
      unfold DAY_MS
      omega
    have hback : n * DAY_MS - (n - lastTrading n) * DAY_MS = lastTrading n * DAY_MS := by ring
    rw [Option.bind_some, backToTrading_eq, hms, hn, hback]
    cases hlast : timeClip (lastTrading n * DAY_MS) with
    | none =>
      have hlow := timeClip_eq_none.mp hlast
      refine (timeClip_eq_none.mpr (.inl ?_)).symm
      unfold DAY_MS MAX_MS TEHRAN_OFFSET_MS at *
      omega
    | some last => rw [Option.bind_some, timeClip_eq_some.mp hlast]

/-- From the day on which `Date.UTC` puts it, the session is looked for backwards. -/
theorem sessionInstant_of_day {tehranNow day : Instant} {n : Int}
    (hnow : timeClip (now.ms + TEHRAN_OFFSET_MS) = some tehranNow)
    (hday : timeClip (dateUTC tehranNow.getUTCFullYear tehranNow.getUTCMonth
      tehranNow.getUTCDate) = some day) (hclock : clock < 86400) (hn : day.ms = n * DAY_MS) :
    sessionInstant clock now = timeClip (lastTrading
      (if (now.ms + TEHRAN_OFFSET_MS) % DAY_MS / 1000 + 300 < clock then n - 1 else n) * DAY_MS +
        clock * 1000 - TEHRAN_OFFSET_MS) := by
  have hhigh := day.upper
  have hseconds := secondsNow_eq tehranNow
  rw [timeClip_eq_some.mp hnow] at hseconds
  unfold sessionInstant
  simp only [hnow, hday, Option.bind_eq_bind, Option.bind_some, hseconds]
  split_ifs with hahead
  · have hbefore : day.ms - DAY_MS = (n - 1) * DAY_MS := by rw [hn]; ring
    rw [hbefore]
    refine back_eq hclock ?_
    rw [hn] at hhigh
    unfold DAY_MS at *
    omega
  · rw [← back_eq hclock (hn ▸ hhigh), ← hn, timeClip_eq_some.mpr rfl, Option.bind_some]

theorem exists_tehranNow (hupper : now.ms + TEHRAN_OFFSET_MS ≤ MAX_MS) :
    ∃ tehranNow, timeClip (now.ms + TEHRAN_OFFSET_MS) = some tehranNow := by
  rw [← Option.ne_none_iff_exists', Ne, timeClip_eq_none]
  have hlow := now.lower
  unfold TEHRAN_OFFSET_MS at *
  omega

theorem sessionInstant_eq (hclock : clock < 86400)
    (hyear : ¬(0 ≤ tehranYear now ∧ tehranYear now ≤ 99))
    (hupper : now.ms + TEHRAN_OFFSET_MS ≤ MAX_MS) :
    sessionInstant clock now = timeClip (lastSession clock now.ms) := by
  obtain ⟨tehranNow, hnow⟩ := exists_tehranNow hupper
  have hms := timeClip_eq_some.mp hnow
  have hday : tehranNow.ms / DAY_MS = tehranDay now.ms := by rw [hms, tehranDay]
  have hdate : dateUTC tehranNow.getUTCFullYear tehranNow.getUTCMonth tehranNow.getUTCDate =
      tehranDay now.ms * DAY_MS := by
    unfold Instant.getUTCFullYear Instant.getUTCMonth Instant.getUTCDate
    rw [hday]
    exact dateUTC_parts hyear
  cases hclip : timeClip (tehranDay now.ms * DAY_MS) with
  | none =>
    have hout := timeClip_eq_none.mp hclip
    have hlow := now.lower
    unfold tehranDay DAY_MS MAX_MS TEHRAN_OFFSET_MS at *
    omega
  | some day =>
    rw [sessionInstant_of_day hnow (hdate ▸ hclip) hclock (timeClip_eq_some.mp hclip)]
    rfl

/-- In the first hundred years the session is centuries ahead. -/
theorem sessionInstant_ahead {t : Instant} (hclock : clock < 86400)
    (hyear : 0 ≤ tehranYear now ∧ tehranYear now ≤ 99)
    (h : sessionInstant clock now = some t) : now.ms + 300000 < t.ms := by
  obtain ⟨tehranNow, hnow, hrest⟩ := Option.bind_eq_some_iff.mp h
  obtain ⟨day, hday, -⟩ := Option.bind_eq_some_iff.mp hrest
  have hms := timeClip_eq_some.mp hnow
  have hlater : (tehranDay now.ms + 693000) * DAY_MS ≤ day.ms := by
    have hparts : yearOf (tehranNow.ms / DAY_MS) = tehranYear now := by
      rw [hms, tehranYear, tehranDay]
    have hmoved := dateUTC_later (n := tehranNow.ms / DAY_MS) (hparts ▸ hyear)
    rw [tehranDay, ← hms, timeClip_eq_some.mp hday]
    exact hmoved
  obtain ⟨n, hn⟩ : ∃ n, day.ms = n * DAY_MS := ⟨_, timeClip_eq_some.mp hday⟩
  rw [sessionInstant_of_day hnow hday hclock hn] at h
  have ht := timeClip_eq_some.mp h
  have hback := sub_two_le_lastTrading n
  have hback' := sub_two_le_lastTrading (n - 1)
  rw [hn] at hlater
  unfold tehranDay DAY_MS TEHRAN_OFFSET_MS at *
  split_ifs at ht <;> omega

/-- What a result has to be: a session, at most five minutes ahead, and none between it and now. -/
structure IsLatestSession (clock : Nat) (now t : Instant) : Prop where
  session : IsSession clock t.ms
  near : t.ms ≤ now.ms + 300000
  latest : ∀ ms, IsSession clock ms → t.ms < ms → now.ms < ms

theorem Inferable.sessionInstant (h : Inferable clock now) (hclock : clock < 86400) :
    ∃ t, sessionInstant clock now = some t ∧ t.ms = lastSession clock now.ms ∧
      IsLatestSession clock now t := by
  have hcandidate := candidate_lastSession hclock now.ms
  have hnear : lastSession clock now.ms ≤ now.ms + 300000 := by
    have := hcandidate.near
    omega
  have hout : timeClip (lastSession clock now.ms) ≠ none := by
    obtain ⟨ms, hms, hlow⟩ := h.room
    have hle := le_lastSession hms
    have hupper := h.upper
    rw [Ne, timeClip_eq_none]
    unfold TEHRAN_OFFSET_MS at hupper
    omega
  obtain ⟨t, ht⟩ := Option.ne_none_iff_exists'.mp hout
  have hms := timeClip_eq_some.mp ht
  refine ⟨t, (sessionInstant_eq hclock h.year h.upper).trans ht, hms, ?_⟩
  rw [← hms] at hcandidate hnear
  refine ⟨hcandidate.session, hnear, fun ms hsession hlt => ?_⟩
  by_contra hle
  have hlast := le_lastSession ⟨hsession, .inl (not_lt.mp hle)⟩
  omega

theorem inferable_of_latest {t : Instant} (hclock : clock < 86400)
    (h : sessionInstant clock now = some t) (hlatest : IsLatestSession clock now t) :
    Inferable clock now := by
  have hyear : ¬(0 ≤ tehranYear now ∧ tehranYear now ≤ 99) := fun hyear =>
    absurd (sessionInstant_ahead hclock hyear h) (not_lt.mpr hlatest.near)
  have hupper : now.ms + TEHRAN_OFFSET_MS ≤ MAX_MS := by
    obtain ⟨tehranNow, hnow, -⟩ := Option.bind_eq_some_iff.mp h
    exact timeClip_eq_some.mp hnow ▸ tehranNow.upper
  refine ⟨hyear, hupper, lastSession clock now.ms, candidate_lastSession hclock now.ms, ?_⟩
  rw [sessionInstant_eq hclock hyear hupper] at h
  exact timeClip_eq_some.mp h ▸ t.lower

end Instants

section Claim
variable {hhmmss : Text} {clock : Nat}

/-- The latest session is found exactly where there is one to find, and a later instant finds
none that is earlier. -/
theorem inferTehranSessionInstant_latest_iff (h : clockOf hhmmss = some clock) :
    (∀ now, (∃ t, inferTehranSessionInstant hhmmss now = some (some t) ∧
      IsLatestSession clock now t) ↔ Inferable clock now) ∧
    ∀ now later t u, Inferable clock now → Inferable clock later → now.ms ≤ later.ms →
      inferTehranSessionInstant hhmmss now = some (some t) →
      inferTehranSessionInstant hhmmss later = some (some u) → t.ms ≤ u.ms := by
  have hclock := clockOf_lt h
  have heq : ∀ now t, inferTehranSessionInstant hhmmss now = some (some t) ↔
      sessionInstant clock now = some t := by
    intro now t
    rw [inferTehranSessionInstant, h, Option.map_some, Option.some_inj]
  simp only [heq]
  constructor
  · intro now
    constructor
    · rintro ⟨t, ht, hlatest⟩
      exact inferable_of_latest hclock ht hlatest
    · intro hinf
      obtain ⟨t, ht, -, hlatest⟩ := hinf.sessionInstant hclock
      exact ⟨t, ht, hlatest⟩
  · intro now later t u hnow hlater hle ht hu
    obtain ⟨t', ht', hms, -⟩ := hnow.sessionInstant hclock
    obtain ⟨u', hu', hms', -⟩ := hlater.sessionInstant hclock
    obtain rfl := Option.some_inj.mp (ht.symm.trans ht')
    obtain rfl := Option.some_inj.mp (hu.symm.trans hu')
    rw [hms, hms']
    exact lastSession_mono hclock hle

end Claim

-- on a Friday morning, the session of Wednesday
example : ((timeClip 1749191400000).bind (sessionInstant 44999)).map (·.ms) =
    some 1749027599000 := by decide +kernel

/-- Noon UTC on 4 June of the year 50. -/
def yearFifty : Int := -60575947200000

theorem yearFifty_range : -MAX_MS ≤ yearFifty ∧ yearFifty ≤ MAX_MS := by decide

def noonOfYearFifty : Instant := ⟨yearFifty, yearFifty_range.1, yearFifty_range.2⟩

theorem latest_iff_at_ten :
    clockOf "10:00:00".toList = some 36000 ∧
    ((∃ t, inferTehranSessionInstant "10:00:00".toList noonOfYearFifty = some (some t) ∧
      IsLatestSession 36000 noonOfYearFifty t) ↔ Inferable 36000 noonOfYearFifty) :=
  ⟨by decide, (inferTehranSessionInstant_latest_iff (by decide)).1 noonOfYearFifty⟩

/-- Ten o'clock is put on a day of the year 1950. -/
theorem year_fifty_is_taken_for_1950 :
    clockOf "10:00:00".toList = some 36000 ∧
    ((inferTehranSessionInstant "10:00:00".toList noonOfYearFifty).bind fun t =>
      t.map (·.getUTCFullYear)) = some 1950 ∧
    ¬∃ t, inferTehranSessionInstant "10:00:00".toList noonOfYearFifty = some (some t) ∧
      IsLatestSession 36000 noonOfYearFifty t := by
  refine ⟨by decide, by decide +kernel, ?_⟩
  rintro ⟨t, ht, hlatest⟩
  have hclock : clockOf "10:00:00".toList = some 36000 := by decide
  rw [inferTehranSessionInstant, hclock, Option.map_some, Option.some_inj] at ht
  have hahead := sessionInstant_ahead (by decide) (by decide) ht
  exact absurd hlatest.near (not_le.mpr hahead)

end BrsApi

end Pwos
