import Pwos.Pricing.ReferenceQuotes
import Pwos.Lib.Sums

/-!
# Leases, observations and the daily budget

What holds over the runs of all instances. A stored quote is always one that a provider gave, and
its observation time only grows. The lease of a source is held by one run at a time as long as no
run records how it went over the lease of another, and the day's requests stay within the budget as
long as the count that a run reads covers what was sent and what is being sent.
-/

namespace Pwos

namespace ReferenceState

variable {config : ReferenceConfig} {registry : List String} {s t : ReferenceState}

/-! ## What is said of a state -/

/-- The run has claimed the source until then, and not recorded how it went. -/
def Holds (s : ReferenceState) (i : Nat) (source : ReferenceSourceId) (u : Nat) : Prop :=
  ∃ r, s.runs[i]? = some r ∧ r.source = source ∧ r.lease = some u ∧ s.now < u

/-- No two runs hold the lease of one source, and the one held is on the source's row. -/
structure LeasesKept (s : ReferenceState) : Prop where
  alone : ∀ i j source u v, s.Holds i source u → s.Holds j source v → i = j
  own : ∀ i source u, s.Holds i source u →
    ∃ row, s.status source = some row ∧ row.leaseUntil = some u

/-- Every stored price is the one that was observed at the stored time. -/
def QuotesObserved (s : ReferenceState) : Prop :=
  ∀ source ref row, s.quotes source ref = some row →
    ∃ q, (source, ref, q) ∈ s.given ∧ row = q.row ref

/-- No stored observation time goes back. -/
def QuotesAdvance (s t : ReferenceState) : Prop :=
  ∀ source ref row, s.quotes source ref = some row →
    ∃ row', t.quotes source ref = some row' ∧ row.observedAt ≤ row'.observedAt

def WithinBudget (config : ReferenceConfig) (s : ReferenceState) : Prop :=
  ∀ day, s.requests.count day ≤ config.brsapi.dailyBudget

end ReferenceState

namespace RunPhase

/-- The count that a run is to claim on. -/
def used : RunPhase → Option Nat
  | .claiming used => used
  | _ => none

def isRecording : RunPhase → Bool
  | .recording _ _ _ => true
  | _ => false

end RunPhase

/-- The requests the run may still send, on the day of its clock. -/
def RefreshRun.reserve (day : Nat) (r : RefreshRun) : Nat :=
  match r.phase with
  | .fetching =>
    if r.source.isBrs ∧ tehranDay r.now = day then MAX_ATTEMPTS_PER_FETCH - r.attempts else 0
  | _ => 0

namespace ReferenceState
variable {config : ReferenceConfig} {registry : List String} {s t : ReferenceState}

/-- The requests that runs on their way may still send. -/
def reserved (s : ReferenceState) (day : Nat) : Nat := (s.runs.map (·.reserve day)).sum

/-- The lease on the source's row is over, or the run's own. -/
def RecordsOwn (s : ReferenceState) (r : RefreshRun) : Prop :=
  r.phase.isRecording = true →
    ∀ row ∈ s.status r.source, ∀ u ∈ row.leaseUntil, u ≤ s.now ∨ r.lease = some u

/-- The count that the run has read covers what was sent that day, and what runs on their way may
still send. -/
def CountCovers (config : ReferenceConfig) (s : ReferenceState) (r : RefreshRun) : Prop :=
  ∀ used ∈ r.phase.used,
    claimSource (config.intervalMs r.source) r.now (s.status r.source) ≠ none →
    s.requests.count (tehranDay r.now) + s.reserved (tehranDay r.now) ≤ used

/-- It is still the day on which the run read the clock. -/
def SameDay (s : ReferenceState) (r : RefreshRun) : Prop :=
  r.phase = .fetching → tehranDay s.now = tehranDay r.now

instance (r : RefreshRun) : Decidable (s.RecordsOwn r) := inferInstanceAs (Decidable (_ → _))
instance (r : RefreshRun) : Decidable (s.CountCovers config r) :=
  inferInstanceAs (Decidable (∀ used ∈ r.phase.used, _ → _))
instance (r : RefreshRun) : Decidable (s.SameDay r) := inferInstanceAs (Decidable (_ → _))

/-- Runs record over no lease that another run holds, claim on a count that is not behind, and send
their requests on the day of the claim. -/
def Timely (config : ReferenceConfig) : RefreshMove → ReferenceState → Prop
  | .run i .record, s => ∀ r ∈ s.runs[i]?, s.RecordsOwn r
  | .run i .claim, s => ∀ r ∈ s.runs[i]?, s.CountCovers config r
  | .run i .attempt, s => ∀ r ∈ s.runs[i]?, s.SameDay r
  | _, _ => True

instance (move : RefreshMove) : Decidable (Timely config move s) :=
  match move with
  | .run i .record => inferInstanceAs (Decidable (∀ r ∈ s.runs[i]?, s.RecordsOwn r))
  | .run i .claim => inferInstanceAs (Decidable (∀ r ∈ s.runs[i]?, s.CountCovers config r))
  | .run i .attempt => inferInstanceAs (Decidable (∀ r ∈ s.runs[i]?, s.SameDay r))
  | .run _ .budget | .run _ (.fetched _) | .run _ .persist | .run _ .fault | .run _ .crash
  | .tick _ | .start _ => isTrue trivial

/-! ## The invariant -/

/-- What is known of a run by how far it is. -/
def RunSound (config : ReferenceConfig) (s : ReferenceState) (r : RefreshRun) : Prop :=
  match r.phase with
  | .claiming used => r.source.isBrs = true →
      ∃ n ∈ used, n + MAX_ATTEMPTS_PER_FETCH ≤ config.brsapi.dailyBudget
  | .persisting rest _ _ => ∀ q ∈ rest, (r.source.provider, q) ∈ s.given
  | _ => True

structure Sound (config : ReferenceConfig) (s : ReferenceState) : Prop where
  clock : ∀ r ∈ s.runs, r.now ≤ s.now
  leases : s.LeasesKept
  stored : s.QuotesObserved
  charged : ∀ day, s.requests.count day + s.reserved day ≤ config.brsapi.dailyBudget
  runs : ∀ r ∈ s.runs, s.RunSound config r

theorem start_sound (now : Nat) : (start now).Sound config where
  clock := by simp [start]
  leases := by constructor <;> simp [Holds, start]
  stored := by simp [QuotesObserved, start]
  charged := by simp [start, reserved]
  runs := by simp [start]

theorem QuotesAdvance.refl : s.QuotesAdvance s := fun _ _ row h => ⟨row, h, le_rfl⟩

theorem QuotesAdvance.trans {u : ReferenceState} (h : s.QuotesAdvance t) (g : t.QuotesAdvance u) :
    s.QuotesAdvance u := by
  intro source ref row hrow
  obtain ⟨row', hrow', hle⟩ := h source ref row hrow
  obtain ⟨row'', hrow'', hle'⟩ := g source ref row' hrow'
  exact ⟨row'', hrow'', hle.trans hle'⟩

theorem RunSound.mono {r : RefreshRun} (h : s.RunSound config r) (hgiven : s.given ⊆ t.given) :
    t.RunSound config r := by
  unfold RunSound at h ⊢
  cases hphase : r.phase <;> simp only [hphase] at h ⊢
  case claiming used => exact h
  case persisting rest _ _ => exact fun q hq => hgiven (h q hq)

theorem LeasesKept.of_holds (h : s.LeasesKept) (hstatus : t.status = s.status)
    (hholds : ∀ i source u, t.Holds i source u → s.Holds i source u) : t.LeasesKept where
  alone i j source u v hi hj := h.alone i j source u v (hholds i source u hi) (hholds j source v hj)
  own i source u hi := hstatus ▸ h.own i source u (hholds i source u hi)

/-! ## Moves that claim nothing and record nothing -/

theorem holds_setRun {i j : Nat} {r r' : RefreshRun} {source : ReferenceSourceId} {u : Nat}
    (hr : s.runs[i]? = some r) (h : (s.setRun i r').Holds j source u)
    (hsource : r'.source = r.source) (hlease : r'.lease = r.lease ∨ r'.lease = none) :
    s.Holds j source u := by
  obtain ⟨q, hq, hqsource, hqlease, hnow⟩ := h
  simp only [setRun, List.getElem?_set] at hq
  split at hq
  · rename_i hij
    subst hij
    split at hq
    · cases hq
      rcases hlease with hlease | hlease
      · exact ⟨r, hr, hsource ▸ hqsource, hlease ▸ hqlease, hnow⟩
      · rw [hlease] at hqlease
        cases hqlease
    · cases hq
  · exact ⟨q, hq, hqsource, hqlease, hnow⟩

theorem reserved_setRun {i : Nat} {r : RefreshRun} (hr : s.runs[i]? = some r) (r' : RefreshRun)
    (day : Nat) :
    (s.setRun i r').reserved day + r.reserve day = s.reserved day + r'.reserve day :=
  sum_map_set (·.reserve day) hr r'

/-- A run goes on, with its lease or without, and may send no more requests than before. -/
theorem Sound.setRun {i : Nat} {r r' : RefreshRun} (hs : s.Sound config)
    (hr : s.runs[i]? = some r) (hsource : r'.source = r.source) (hnow : r'.now = r.now)
    (hlease : r'.lease = r.lease ∨ r'.lease = none)
    (hreserve : ∀ day, r'.reserve day ≤ r.reserve day) (hrun : s.RunSound config r') :
    (s.setRun i r').Sound config where
  clock q hq := by
    rcases List.mem_or_eq_of_mem_set hq with hq | rfl
    · exact hs.clock q hq
    · exact hnow ▸ hs.clock r (List.mem_of_getElem? hr)
  leases := hs.leases.of_holds rfl fun _ _ _ h => holds_setRun hr h hsource hlease
  stored := hs.stored
  charged day := by
    have hsum := reserved_setRun hr r' day
    have hle := hreserve day
    have hbefore := hs.charged day
    have hsame : (s.setRun i r').requests = s.requests := rfl
    rw [hsame]
    omega
  runs q hq := by
    rcases List.mem_or_eq_of_mem_set hq with hq | rfl
    · exact (hs.runs q hq).mono (t := s.setRun i r') (List.Subset.refl _)
    · exact hrun.mono (t := s.setRun i q) (List.Subset.refl _)

theorem Sound.tick (hs : s.Sound config) (ms : Nat) : Sound config { s with now := s.now + ms } where
  clock r hr := (hs.clock r hr).trans (Nat.le_add_right _ _)
  leases := hs.leases.of_holds rfl fun _ _ _ ⟨r, hr, hsource, hlease, hnow⟩ =>
    ⟨r, hr, hsource, hlease, (Nat.le_add_right _ _).trans_lt hnow⟩
  stored := hs.stored
  charged := hs.charged
  runs r hr := (hs.runs r hr).mono (List.Subset.refl _)

/-- Providers give more quotes. -/
theorem Sound.give (hs : s.Sound config) (given : List (String × String × PriceQuote))
    (hgiven : s.given ⊆ given) : Sound config { s with given } where
  clock := hs.clock
  leases := hs.leases.of_holds rfl fun _ _ _ h => h
  stored source ref row hrow := by
    obtain ⟨q, hq, heq⟩ := hs.stored source ref row hrow
    exact ⟨q, hgiven hq, heq⟩
  charged := hs.charged
  runs r hr := (hs.runs r hr).mono hgiven

/-- A refresh begins over, budgeting or claiming, and holds no lease. -/
theorem begin_runs (config : ReferenceConfig) (registry : List String) (s : ReferenceState)
    (source : ReferenceSourceId) :
    ∃ r : RefreshRun, (s.begin config registry source).runs = s.runs ++ [r] ∧ r.source = source ∧
      r.now = s.now ∧ r.lease = none ∧ ((∃ outcome, r.phase = .ended outcome) ∨
        r.phase = .budgeting ∨ source.isBrs = false ∧ r.phase = .claiming none) := by
  refine ⟨_, rfl, rfl, rfl, rfl, ?_⟩
  dsimp only
  split
  · exact .inl ⟨_, rfl⟩
  · split
    · exact .inl ⟨_, rfl⟩
    · split
      · exact .inr (.inl rfl)
      · rename_i hbrs
        exact .inr (.inr ⟨by simpa using hbrs, rfl⟩)

theorem Sound.begin (hs : s.Sound config) (source : ReferenceSourceId) :
    (s.begin config registry source).Sound config := by
  obtain ⟨r, hruns, hsource, hrnow, hnone, hphase⟩ :=
    begin_runs config registry s source
  have hreserve : ∀ day, r.reserve day = 0 := by
    intro day
    unfold RefreshRun.reserve
    rcases hphase with ⟨outcome, h⟩ | h | ⟨-, h⟩ <;> rw [h]
  refine ⟨fun q hq => ?_, hs.leases.of_holds rfl fun j source' u hj => ?_, hs.stored,
    fun day => ?_, fun q hq => ?_⟩
  · rcases List.mem_append.mp (hruns ▸ hq) with hq | hq
    · exact hs.clock q hq
    · obtain rfl := List.mem_singleton.mp hq
      exact hrnow.le
  · obtain ⟨q, hq, hqsource, hlease, hnow⟩ := hj
    rw [hruns, List.getElem?_append] at hq
    split at hq
    · exact ⟨q, hq, hqsource, hlease, hnow⟩
    · obtain rfl : q = r := by simpa using List.mem_of_getElem? hq
      rw [hnone] at hlease
      cases hlease
  · have hsum : (s.begin config registry source).reserved day = s.reserved day := by
      unfold reserved
      rw [hruns, List.map_append, List.sum_append]
      simp [hreserve day]
    rw [hsum]
    exact hs.charged day
  · rcases List.mem_append.mp (hruns ▸ hq) with hq | hq
    · exact (hs.runs q hq).mono (t := s.begin config registry source) (List.Subset.refl _)
    · obtain rfl := List.mem_singleton.mp hq
      unfold RunSound
      rcases hphase with ⟨outcome, h⟩ | h | ⟨hbrs, h⟩ <;> rw [h]
      · trivial
      · trivial
      · intro hyes
        rw [hsource, hbrs] at hyes
        cases hyes

/-! ## Stored quotes -/

theorem upsertQuote_advances (source : String) (table : QuoteTable) (value : String × PriceQuote)
    {s' ref : String} {row : ReferenceQuoteRow} (h : table s' ref = some row) :
    ∃ row', upsertQuote source table value s' ref = some row' ∧
      row.observedAt ≤ row'.observedAt := by
  unfold upsertQuote
  split
  · simp only [h]
    split
    · rename_i hnewer
      exact ⟨_, rfl, hnewer⟩
    · exact ⟨row, rfl, le_rfl⟩
  · exact ⟨row, h, le_rfl⟩

/-- A row that is there after the statement was there before, or is one of the values. -/
theorem upsertQuote_from {source : String} {table : QuoteTable} {value : String × PriceQuote}
    {s' ref : String} {row : ReferenceQuoteRow}
    (h : upsertQuote source table value s' ref = some row) :
    table s' ref = some row ∨ s' = source ∧ ref = value.1 ∧ row = value.2.row ref := by
  unfold upsertQuote at h
  split at h
  · rename_i hkey
    split at h
    · cases h
      exact .inr ⟨hkey.1, hkey.2, rfl⟩
    · rename_i old hold
      split at h
      · cases h
        exact .inr ⟨hkey.1, hkey.2, rfl⟩
      · cases h
        exact .inl hold
  · exact .inl h

theorem upsertChunk_advances (source : String) (chunk : List (String × PriceQuote))
    {table : QuoteTable} {s' ref : String} {row : ReferenceQuoteRow} (h : table s' ref = some row) :
    ∃ row', upsertChunk source chunk table s' ref = some row' ∧
      row.observedAt ≤ row'.observedAt := by
  induction chunk generalizing table row with
  | nil => exact ⟨row, h, le_rfl⟩
  | cons value chunk ih =>
    obtain ⟨row', hrow', hle⟩ := upsertQuote_advances source table value h
    obtain ⟨row'', hrow'', hle'⟩ := ih hrow'
    exact ⟨row'', hrow'', hle.trans hle'⟩

theorem upsertChunk_from {source : String} {chunk : List (String × PriceQuote)}
    {table : QuoteTable} {s' ref : String} {row : ReferenceQuoteRow}
    (h : upsertChunk source chunk table s' ref = some row) :
    table s' ref = some row ∨
      s' = source ∧ ∃ value ∈ chunk, ref = value.1 ∧ row = value.2.row ref := by
  induction chunk generalizing table with
  | nil => exact .inl h
  | cons value chunk ih =>
    rcases ih h with h | ⟨hs, v, hv, hrest⟩
    · rcases upsertQuote_from h with h | ⟨hs, hrest⟩
      · exact .inl h
      · exact .inr ⟨hs, value, List.mem_cons_self, hrest⟩
    · exact .inr ⟨hs, v, List.mem_cons_of_mem _ hv, hrest⟩

/-- A chunk of quotes that the provider gave is stored. -/
theorem Sound.store {source : String} (hs : s.Sound config) (chunk : List (String × PriceQuote))
    (hgiven : ∀ q ∈ chunk, (source, q) ∈ s.given) :
    Sound config { s with quotes := upsertChunk source chunk s.quotes } where
  clock := hs.clock
  leases := hs.leases.of_holds rfl fun _ _ _ h => h
  stored source' ref row hrow := by
    rcases upsertChunk_from hrow with h | ⟨rfl, ⟨ref', q⟩, hq, rfl, rfl⟩
    · exact hs.stored source' ref row h
    · exact ⟨q, hgiven _ hq, rfl⟩
  charged := hs.charged
  runs r hr := (hs.runs r hr).mono (List.Subset.refl _)

/-! ## The moves of a run -/

variable {i : Nat} {r : RefreshRun}

theorem reserve_eq_zero {day : Nat} (h : r.phase ≠ .fetching) : r.reserve day = 0 := by
  unfold RefreshRun.reserve
  split
  · exact absurd ‹_› h
  · rfl

/-- A run that is not to fetch goes on. -/
theorem Sound.goes {phase : RunPhase} (hs : s.Sound config) (hr : s.runs[i]? = some r)
    (hphase : phase ≠ .fetching) (hrun : s.RunSound config { r with phase }) :
    (s.setRun i { r with phase }).Sound config :=
  hs.setRun hr rfl rfl (.inl rfl) (fun day => by rw [reserve_eq_zero hphase]; exact Nat.zero_le _)
    hrun

theorem Sound.budget (hs : s.Sound config) (hr : s.runs[i]? = some r) :
    (s.setRun i { r with phase := s.budgeted config r }).Sound config := by
  unfold budgeted
  dsimp only
  split
  · exact hs.goes hr nofun trivial
  · rename_i hroom
    exact hs.goes hr nofun fun _ => ⟨_, rfl, Nat.le_of_not_lt hroom⟩

theorem Sound.attempt (hs : s.Sound config) (hr : s.runs[i]? = some r) (hphase : r.phase = .fetching)
    (hday : tehranDay s.now = tehranDay r.now) : (s.attempt i r).Sound config := by
  unfold ReferenceState.attempt
  split
  · rename_i hsends
    set r' : RefreshRun := { r with attempts := r.attempts + 1 } with hr'
    have hgoes : (s.setRun i r').Sound config := by
      refine hs.setRun hr rfl rfl (.inl rfl) (fun day => ?_) ?_
      · simp only [RefreshRun.reserve, hr', hphase]
        split <;> omega
      · simp only [RunSound, hr', hphase]
    refine ⟨hgoes.clock, hgoes.leases.of_holds rfl fun _ _ _ h => h, hgoes.stored, fun day => ?_,
      fun q hq => (hgoes.runs q hq).mono (List.Subset.refl _)⟩
    have hsum := reserved_setRun hr r' day
    have hbefore := hs.charged day
    have hmoved : r'.reserve day + (if tehranDay r.now = day then 1 else 0) = r.reserve day := by
      simp only [RefreshRun.reserve, hr', hphase, hsends.1, true_and]
      split <;> omega
    have hcount : (tehranDay s.now :: s.requests).count day =
        s.requests.count day + (if tehranDay r.now = day then 1 else 0) := by
      rw [List.count_cons, hday]
      simp
    have hsame : reserved { s.setRun i r' with requests := tehranDay s.now :: s.requests } day =
        (s.setRun i r').reserved day := rfl
    rw [hsame]
    dsimp only
    rw [hcount]
    omega
  · exact hs

theorem answered_returned (quotes : List (String × PriceQuote)) (failures : List PriceFailureCode) :
    let r' := s.answered r (.returned quotes failures)
    r'.source = r.source ∧ r'.now = r.now ∧ r'.lease = r.lease ∧
      ((∃ n m, r'.phase = .persisting quotes n m) ∨
        ∃ code, r'.phase = .recording s.now (.failure code) false) := by
  by_cases hbrs : r.source.isBrs
  · simp [answered, hbrs]
  · by_cases hnone : quotes.isEmpty <;> simp [answered, hbrs, hnone]

theorem Sound.takeAnswer (hs : s.Sound config) (hr : s.runs[i]? = some r)
    (answer : ProviderAnswer) :
    (s.takeAnswer i r answer).Sound config := by
  have hsame : s.RunSound config r := hs.runs r (List.mem_of_getElem? hr)
  cases answer with
  | refused code =>
    have hgoes : (s.setRun i (s.answered r (.refused code))).Sound config := by
      unfold answered
      dsimp only
      split
      · exact hs.goes hr nofun trivial
      · exact hs.setRun hr rfl rfl (.inl rfl) (fun _ => le_rfl) hsame
    exact hgoes.give _ (List.Subset.refl _)
  | returned quotes failures =>
    have hgive := hs.give (quotes.map (fun q => (r.source.provider, q)) ++ s.given)
      (List.subset_append_right _ _)
    have hquotes : ∀ q ∈ quotes, (r.source.provider, q) ∈
        quotes.map (fun q => (r.source.provider, q)) ++ s.given := fun q hq =>
      List.mem_append_left _ (List.mem_map_of_mem hq)
    obtain ⟨hsource, hnow, hlease, hnext⟩ := answered_returned (s := s) (r := r) quotes failures
    have hidle : ∀ day, (s.answered r (.returned quotes failures)).reserve day = 0 := fun day => by
      apply reserve_eq_zero
      rcases hnext with ⟨n, m, h⟩ | ⟨code, h⟩ <;> simp [h]
    refine hgive.setRun hr hsource hnow (.inl hlease) (fun day => by simp [hidle day]) ?_
    unfold RunSound
    rcases hnext with ⟨n, m, h⟩ | ⟨code, h⟩ <;> simp only [h]
    rw [hsource]
    exact hquotes

theorem Sound.persist (hs : s.Sound config) (hr : s.runs[i]? = some r)
    {rest : List (String × PriceQuote)} {quotes rejected : Nat}
    (hphase : r.phase = .persisting rest quotes rejected) :
    (s.persist i r rest quotes rejected).Sound config := by
  have hgiven : ∀ q ∈ rest, (r.source.provider, q) ∈ s.given := by
    have hrun := hs.runs r (List.mem_of_getElem? hr)
    simpa only [RunSound, hphase] using hrun
  unfold ReferenceState.persist
  split
  · exact hs.goes hr nofun trivial
  · have hstore := hs.store (rest.take UPSERT_CHUNK) fun q hq =>
      hgiven q (List.mem_of_mem_take hq)
    exact hstore.goes hr nofun fun q hq => hgiven q (List.mem_of_mem_drop hq)

/-- After a fault a run is over, or about to record it. -/
theorem faulted_cases : (∃ outcome, s.faulted r = .ended outcome) ∨
    (∃ result caught, s.faulted r = .recording s.now result caught) ∨ s.faulted r = .crashed := by
  unfold faulted
  cases r.phase with
  | recording at_ result caught => cases caught <;> simp
  | _ => simp

theorem Sound.fault (hs : s.Sound config) (hr : s.runs[i]? = some r) :
    (s.setRun i { r with phase := s.faulted r }).Sound config := by
  rcases faulted_cases (s := s) (r := r) with ⟨outcome, h⟩ | ⟨result, caught, h⟩ | h
  all_goals rw [h]
  all_goals exact hs.goes hr nofun trivial

theorem claimSource_lease {interval now : Nat} {old : Option SourceStatus} {row : SourceStatus}
    (h : claimSource interval now old = some row) : row.leaseUntil = some (now + LEASE_MS) := by
  unfold claimSource at h
  split at h
  · cases h
    rfl
  · split at h
    · cases h
      rfl
    · cases h

/-- The run has the source's row: nobody else holds it. -/
theorem Sound.claim (hs : s.Sound config) (hr : s.runs[i]? = some r) {used : Option Nat}
    (hphase : r.phase = .claiming used)
    (hcovers : ∀ n ∈ used, claimSource (config.intervalMs r.source) r.now (s.status r.source) ≠ none →
      s.requests.count (tehranDay r.now) + s.reserved (tehranDay r.now) ≤ n) :
    (s.claim config i r).Sound config := by
  have hmem := List.mem_of_getElem? hr
  unfold ReferenceState.claim
  split
  · exact hs.goes hr nofun trivial
  · rename_i row hclaim
    set r' : RefreshRun := { r with phase := .fetching, lease := some (r.now + LEASE_MS) } with hr'
    have hfree : ∀ j u, ¬ s.Holds j r.source u := by
      intro j u hj
      obtain ⟨row', hrow', hlease⟩ := hs.leases.own j r.source u hj
      obtain ⟨-, -, -, -, hnow⟩ := hj
      have hclock := hs.clock r hmem
      rw [hrow', claimSource] at hclaim
      split at hclaim
      · rename_i hopen
        have := hopen.1 u hlease
        omega
      · cases hclaim
    have hother : ∀ j source u, ((s.setStatus r.source row).setRun i r').Holds j source u →
        j = i ∧ source = r.source ∧ u = r.now + LEASE_MS ∨ s.Holds j source u := by
      rintro j source u ⟨q, hq, hqsource, hqlease, hqnow⟩
      simp only [ReferenceState.setRun, setStatus, List.getElem?_set] at hq
      split at hq
      · rename_i hij
        split at hq
        · cases hq
          cases hqlease
          exact .inl ⟨hij.symm, hqsource.symm, rfl⟩
        · cases hq
      · exact .inr ⟨q, hq, hqsource, hqlease, hqnow⟩
    refine ⟨fun q hq => ?_, ⟨fun j k source u v hj hk => ?_, fun j source u hj => ?_⟩, hs.stored,
      fun day => ?_, fun q hq => ?_⟩
    · rcases List.mem_or_eq_of_mem_set hq with hq | rfl
      · exact hs.clock q hq
      · exact hs.clock r hmem
    · rcases hother j source u hj with ⟨hji, hsource, -⟩ | hj
      · rcases hother k source v hk with ⟨hki, -, -⟩ | hk
        · exact hji.trans hki.symm
        · exact absurd (hsource ▸ hk) (hfree k v)
      · rcases hother k source v hk with ⟨-, hsource, -⟩ | hk
        · exact absurd (hsource ▸ hj) (hfree j u)
        · exact hs.leases.alone j k source u v hj hk
    · rcases hother j source u hj with ⟨-, rfl, rfl⟩ | hj
      · exact ⟨row, by simp [ReferenceState.setRun, setStatus], claimSource_lease hclaim⟩
      · obtain ⟨row', hrow', hlease⟩ := hs.leases.own j source u hj
        have hne : source ≠ r.source := by
          rintro rfl
          exact hfree j u hj
        exact ⟨row', by simpa [ReferenceState.setRun, setStatus, hne] using hrow', hlease⟩
    · have hsum := reserved_setRun (s := s) hr r' day
      have hbefore := hs.charged day
      have hidle : r.reserve day = 0 := reserve_eq_zero (by rw [hphase]; exact nofun)
      have hsame : ((s.setStatus r.source row).setRun i r').reserved day =
          (s.setRun i r').reserved day := rfl
      have hrequests : ((s.setStatus r.source row).setRun i r').requests = s.requests := rfl
      rw [hsame, hrequests]
      by_cases hcharges : r.source.isBrs = true ∧ tehranDay r.now = day
      · -- The count it has read leaves room for its requests.
        have hrun := hs.runs r hmem
        simp only [RunSound, hphase] at hrun
        obtain ⟨n, hn, hroom⟩ := hrun hcharges.1
        have hcovered := hcovers n hn (by rw [hclaim]; exact nofun)
        rw [hcharges.2] at hcovered
        have hmay : r'.reserve day ≤ MAX_ATTEMPTS_PER_FETCH := by
          simp only [RefreshRun.reserve, hr', if_pos hcharges]
          omega
        omega
      · have hnone : r'.reserve day = 0 := by
          simp only [RefreshRun.reserve, hr', if_neg hcharges]
        omega
    · rcases List.mem_or_eq_of_mem_set hq with hq | rfl
      · exact (hs.runs q hq).mono (List.Subset.refl _)
      · trivial

/-- A run that records over nobody's lease gives back its own. -/
theorem Sound.record (hs : s.Sound config) (hr : s.runs[i]? = some r) {at_ : Nat}
    {result : FetchRecord}
    (hown : ∀ row ∈ s.status r.source, ∀ u ∈ row.leaseUntil, u ≤ s.now ∨ r.lease = some u) :
    (s.record i r at_ result).Sound config := by
  set finished : RefreshRun := { r with phase := .ended result.outcome, lease := none }
    with hfinish
  have hfinished : (s.setRun i finished).Sound config := by
    refine hs.setRun hr rfl rfl (.inr rfl) (fun day => ?_) trivial
    rw [reserve_eq_zero (by exact nofun)]
    exact Nat.zero_le _
  unfold ReferenceState.record
  dsimp only
  split
  · exact hfinished
  · rename_i row hrow
    split
    · rename_i row' hwrite
      refine ⟨hfinished.clock, ⟨hfinished.leases.alone, fun j source u hj => ?_⟩, hfinished.stored,
        hfinished.charged, hfinished.runs⟩
      have hset : (s.setRun i finished).Holds j source u := hj
      have hbefore : s.Holds j source u := holds_setRun hr hset rfl (.inr rfl)
      have hji : j ≠ i := by
        rintro rfl
        obtain ⟨q, hq, -, hlease, -⟩ := hj
        have hlength := (List.getElem?_eq_some_iff.mp hr).1
        simp only [ReferenceState.setRun, setStatus, List.getElem?_set_self hlength] at hq
        cases hq
        cases hlease
      obtain ⟨row'', hrow'', hlease⟩ := hs.leases.own j source u hbefore
      have hne : source ≠ r.source := by
        rintro rfl
        rcases hown row'' hrow'' u hlease with hpast | hmine
        · obtain ⟨-, -, -, -, hnow⟩ := hbefore
          omega
        · have hmine : s.Holds i r.source u := by
            obtain ⟨-, -, -, -, hnow⟩ := hbefore
            exact ⟨r, hr, rfl, hmine, hnow⟩
          exact hji (hs.leases.alone j i r.source u u hbefore hmine)
      exact ⟨row'', by simpa [ReferenceState.setRun, setStatus, hne] using hrow'', hlease⟩
    · exact hs.fault hr

theorem Sound.act (hs : s.Sound config) (hr : s.runs[i]? = some r) (move : RunMove)
    (htimely : Timely config (.run i move) s) : (s.act config i r move).Sound config := by
  unfold ReferenceState.act
  split
  · exact hs.budget hr
  · rename_i used hphase
    exact hs.claim hr hphase fun n hn => htimely r hr n (by rw [hphase]; exact hn)
  · rename_i hphase
    exact hs.attempt hr hphase (htimely r hr hphase)
  · exact hs.takeAnswer hr _
  · rename_i hphase
    exact hs.persist hr hphase
  · rename_i at_ result caught hphase
    exact hs.record hr (htimely r hr (by rw [hphase]; rfl))
  · exact hs.fault hr
  · exact hs
  · exact hs.goes hr nofun trivial
  · exact hs

theorem step_sound (move : RefreshMove) (s : ReferenceState) (hs : s.Sound config)
    (htimely : Timely config move s) : (step config registry move s).Sound config := by
  cases move with
  | tick ms => exact hs.tick ms
  | start source => exact hs.begin source
  | run i move =>
    simp only [step]
    split
    · rename_i r hr
      exact hs.act hr move htimely
    · exact hs

/-- Stored observation times never go back, whatever the runs do. -/
theorem step_advances (move : RefreshMove) (s : ReferenceState) :
    s.QuotesAdvance (step config registry move s) := by
  have hsame : ∀ t : ReferenceState, t.quotes = s.quotes → s.QuotesAdvance t := by
    intro t ht source ref row hrow
    exact ⟨row, ht ▸ hrow, le_rfl⟩
  cases move with
  | tick ms => exact QuotesAdvance.refl
  | start source => exact QuotesAdvance.refl
  | run i move =>
    simp only [step]
    split
    · rename_i r hr
      unfold act
      split
      · exact QuotesAdvance.refl
      · apply hsame
        unfold claim
        split <;> rfl
      · apply hsame
        unfold attempt
        split <;> rfl
      · exact QuotesAdvance.refl
      · rename_i rest quotes rejected _
        unfold persist
        split
        · exact QuotesAdvance.refl
        · exact fun source ref row hrow => upsertChunk_advances _ _ hrow
      · apply hsame
        unfold record
        dsimp only
        split
        · rfl
        · split <;> rfl
      · exact QuotesAdvance.refl
      · exact QuotesAdvance.refl
      · exact QuotesAdvance.refl
      · exact QuotesAdvance.refl
    · exact QuotesAdvance.refl

theorem run_advances (moves : List RefreshMove) (s : ReferenceState) :
    s.QuotesAdvance (runAll (step config registry) moves s) :=
  runAll_keeps (I := fun t => s.QuotesAdvance t) (fun move _ h => h.trans (step_advances move _))
    moves QuotesAdvance.refl

theorem run_sound (moves : List RefreshMove) (now : Nat)
    (htimely : EveryCall (step config registry) (Timely config) moves (start now)) :
    (runAll (step config registry) moves (start now)).Sound config :=
  runAll_keeps_of step_sound moves (start_sound now) htimely

/-! ## Sources over several instances -/

/-- Where every run records, claims and sends in time, leases are exclusive, prices stay with their
times and go forward, and the day's budget is kept, whatever else happens in between. -/
theorem sources_shared (config : ReferenceConfig) (registry : List String) (now : Nat)
    (earlier later : List RefreshMove)
    (htimely : EveryCall (step config registry) (Timely config) (earlier ++ later) (start now)) :
    let s := runAll (step config registry) earlier (start now)
    let t := runAll (step config registry) (earlier ++ later) (start now)
    t.LeasesKept ∧ t.QuotesObserved ∧ s.QuotesAdvance t ∧ WithinBudget config t := by
  intro s t
  have hsound := run_sound (earlier ++ later) now htimely
  refine ⟨hsound.leases, hsound.stored, ?_, fun day => ?_⟩
  · have ht : t = runAll (step config registry) later s := runAll_append _ _ _ _
    rw [ht]
    exact run_advances later s
  · exact (Nat.le_add_right _ _).trans (hsound.charged day)

def ounce (observedAt : Nat) : PriceQuote :=
  { price := "4258", currency := "USD", observedAt, fetchedAt := observedAt }

/-- The smallest budget a fetch fits in, and the shortest interval of the gold source. -/
def smallBudget : ReferenceConfig where
  goldApi := { intervalMs := 30000 }
  brsapi := { hasKey := true, dailyBudget := 3 }

def bothProviders : List String := ["gold-api", "brsapi"]

/-- A whole run, when the source answers at once. -/
def refreshed (i : Nat) (answer : ProviderAnswer) : List RefreshMove :=
  [.run i .claim, .run i (.fetched answer), .run i .persist, .run i .persist, .run i .record]

/-- One source after the other. -/
theorem one_after_the_other :
    let earlier : List RefreshMove :=
      .start .goldApi :: refreshed 0 (.returned [("XAU", ounce 0)] [])
    let later : List RefreshMove :=
      [.tick 1000, .start (.brsapi .commodity), .run 1 .budget, .run 1 .claim, .run 1 .attempt,
        .run 1 (.fetched (.refused .timeout)), .run 1 .record]
    let s := runAll (step smallBudget bothProviders) earlier (start 0)
    let t := runAll (step smallBudget bothProviders) (earlier ++ later) (start 0)
    t.LeasesKept ∧ t.QuotesObserved ∧ s.QuotesAdvance t ∧ WithinBudget smallBudget t :=
  sources_shared smallBudget bothProviders 0 _ _ (by decide)

/-- A run whose lease is over ends the lease of the next, and a third claims the source with it
still on. -/
def overtaken : List RefreshMove :=
  [.start .goldApi, .run 0 .claim, .tick 61000, .start .goldApi, .run 1 .claim, .tick 1000,
    .run 0 (.fetched (.returned [("XAU", ounce 0)] [])), .run 0 .persist, .run 0 .persist,
    .run 0 .record, .tick 29000, .start .goldApi, .run 2 .claim]

/-- Two feeds read the count before either has claimed, and both send all they may. -/
def spentTwice : List RefreshMove :=
  [RefreshMove.start (.brsapi .gold_currency), RefreshMove.start (.brsapi .commodity),
    RefreshMove.run 0 .budget, RefreshMove.run 1 .budget, RefreshMove.run 0 .claim,
    RefreshMove.run 1 .claim] ++
    List.replicate 3 (RefreshMove.run 0 .attempt) ++ List.replicate 3 (RefreshMove.run 1 .attempt)

theorem instances_collide :
    let s := runAll (step smallBudget bothProviders) overtaken (start 0)
    let t := runAll (step smallBudget bothProviders) spentTwice (start 0)
    (s.Holds 1 .goldApi 121000 ∧ s.Holds 2 .goldApi 151000) ∧ t.requests.count 0 = 6 :=
  ⟨⟨⟨_, rfl, rfl, rfl, by decide⟩, ⟨_, rfl, rfl, rfl, by decide⟩⟩, by decide⟩

end ReferenceState

end Pwos
