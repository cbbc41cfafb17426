import Pwos.Lib.Runs
import Pwos.Pricing.ReferenceQuotes

/-!
# Current prices

`getCurrentUsdPrices` of `features/pricing/service.ts` in one process. Calls share the refresh in
flight of their ids, a price that a live source returned is fresh for a minute, and a failed id is
kept from the sources for half a minute. What no source knows is looked up in the store of
last-known prices, and put into the same cache as if it had just been fetched.
-/

namespace Pwos

def FRESH_TTL_MS : Nat := 60000
def FAILURE_COOLDOWN_MS : Nat := 30000

/-- An id of CoinGecko. Ids are only compared. -/
abbrev CoinId := Nat

structure Quote where
  priceUsd : String
  observedAt : Nat
  deriving DecidableEq, Repr

inductive PriceFreshness where
  | fresh | stale | unavailable
  deriving DecidableEq, Repr

structure CachedPrice where
  priceUsd : String
  observedAt : Nat
  fetchedAt : Nat
  expiresAt : Nat
  /-- From the store of last-known prices: kept for the specification alone. -/
  stored : Bool
  deriving DecidableEq, Repr

structure DegradedEntry where
  cooldownEnd : Nat
  code : PriceFailureCode
  deriving DecidableEq, Repr

structure PricePoint where
  coingeckoId : CoinId
  priceUsd : Option String
  observedAt : Option Nat
  fetchedAt : Option Nat
  freshness : PriceFreshness
  failureCode : Option PriceFailureCode := none
  deriving DecidableEq, Repr

/-- How far a run of `runLiveRefresh` has got. -/
inductive RefreshPhase where
  | coinGecko
  /-- A fallback is asked, and so many more may be. -/
  | fallback (more : Nat)
  | persisting
  /-- The cache is written, and the refresh still in flight. -/
  | written
  | settled
  deriving DecidableEq, Repr

structure Refresh where
  ids : List CoinId
  now : Nat
  fallbacks : Nat
  fetched : CoinId → Option Quote := fun _ => none
  liveFailure : PriceFailureCode := .asset_not_found
  phase : RefreshPhase := .coinGecko

inductive PriceCallPhase where
  | waiting (refresh : Nat) (needsRefresh : List CoinId)
  /-- The last-known prices are read, for the first of the groups. -/
  | reading (groups : List (PriceFailureCode × List CoinId))
  | returned
  deriving DecidableEq, Repr

structure PriceCall where
  ids : List CoinId
  now : Nat
  result : CoinId → Option PricePoint
  phase : PriceCallPhase

structure PriceProcess where
  now : Nat := 0
  cache : CoinId → Option CachedPrice := fun _ => none
  degraded : CoinId → Option DegradedEntry := fun _ => none
  /-- By the sorted ids. -/
  inflight : List CoinId → Option Nat := fun _ => none
  refreshes : List Refresh := []
  calls : List PriceCall := []

inductive PriceMove where
  | tick (ms : Nat)
  /-- The ids as asked for, with the empty ones, and how many fallbacks the call may use. -/
  | call (assets : List (Option CoinId)) (fallbacks : Nat)
  /-- The source that a refresh has asked answers. -/
  | answer (refresh : Nat) (quotes : Except PriceFailureCode (CoinId → Option Quote))
  /-- The prices are persisted, or could not be. -/
  | persist (refresh : Nat)
  /-- `finally`. -/
  | finish (refresh : Nat)
  | resume (call : Nat)
  /-- The store of last-known prices answers; a failed read finds nothing. -/
  | lastKnown (call : Nat) (store : CoinId → Option Quote)

/-! ## The live refresh -/

namespace Refresh
variable (r : Refresh)

def stillMissing : List CoinId := r.ids.filter fun id => (r.fetched id).isNone

/-- On to the next fallback, if something is missing. -/
def next (more : Nat) : Refresh :=
  { r with
    phase := match more with
      | 0 => .persisting
      | more + 1 => if r.stillMissing = [] then .persisting else .fallback more }

def answer (quotes : Except PriceFailureCode (CoinId → Option Quote)) : Refresh :=
  match r.phase, quotes with
  | .coinGecko, .ok found => { r with fetched := found }.next r.fallbacks
  | .coinGecko, .error code => { r with liveFailure := code }.next r.fallbacks
  | .fallback more, .ok found =>
    { r with fetched := fun id => (found id).orElse fun _ => r.fetched id }.next more
  | .fallback more, .error _ => r.next more
  | _, _ => r

end Refresh

namespace PriceProcess
variable (s : PriceProcess)

def setRefresh (i : Nat) (r : Refresh) : PriceProcess := { s with refreshes := s.refreshes.set i r }

def setCall (i : Nat) (c : PriceCall) : PriceProcess := { s with calls := s.calls.set i c }

/-- The end of a refresh: prices into the cache, failures into the cooldown. -/
def writeCache (r : Refresh) : PriceProcess :=
  { s with
    cache := fun id =>
      if id ∈ r.ids then
        match r.fetched id with
        | some q => some ⟨q.priceUsd, q.observedAt, r.now, r.now + FRESH_TTL_MS, false⟩
        | none => s.cache id
      else s.cache id
    degraded := fun id =>
      if id ∈ r.ids then
        match r.fetched id with
        | some _ => none
        | none => some ⟨s.now + FAILURE_COOLDOWN_MS, r.liveFailure⟩
      else s.degraded id }

/-! ## The call -/

/-- The cached price of an id, if it has not expired. -/
def freshPrice (now : Nat) (id : CoinId) : Option CachedPrice :=
  (s.cache id).filter (now < ·.expiresAt)

def freshPoint (id : CoinId) (c : CachedPrice) : PricePoint :=
  ⟨id, some c.priceUsd, some c.observedAt, some c.fetchedAt, .fresh, none⟩

def degradedCode (id : CoinId) : PriceFailureCode :=
  ((s.degraded id).map (·.code)).getD .upstream_error

/-- Step 4, up to the reading of last-known prices. -/
def finalise (ids needsRefresh : List CoinId) (now : Nat) (result : CoinId → Option PricePoint) :
    PriceCall :=
  let missing := needsRefresh.filter fun id => (result id).isNone ∧ s.cache id = none
  let result' : CoinId → Option PricePoint := fun id =>
    if id ∈ needsRefresh then
      match s.freshPrice now id, result id, s.cache id with
      | some c, _, _ => some (freshPoint id c)
      | none, some p, _ => some p
      | none, none, some c =>
        some ⟨id, some c.priceUsd, some c.observedAt, some c.fetchedAt, .stale,
          some (s.degradedCode id)⟩
      | none, none, none => none
    else result id
  let groups := (missing.map s.degradedCode).eraseDups.map fun code =>
    (code, missing.filter fun id => s.degradedCode id = code)
  { ids, now, result := result', phase := if missing = [] then .returned else .reading groups }

/-- Join the refresh in flight of these ids, or start one. -/
def join (liveIds : List CoinId) (fallbacks : Nat) : Nat × PriceProcess :=
  let batchKey := liveIds.insertionSort (· ≤ ·)
  match s.inflight batchKey with
  | some i => (i, s)
  | none => (s.refreshes.length,
      { s with
        inflight := Function.update s.inflight batchKey (some s.refreshes.length)
        refreshes := s.refreshes ++ [{ ids := liveIds, now := s.now, fallbacks }] })

/-- `new Set` of the ids that are there. -/
def uniqueIds (assets : List (Option CoinId)) : List CoinId := (assets.filterMap id).eraseDups

/-- A new call, up to its first pause. -/
def begin (assets : List (Option CoinId)) (fallbacks : Nat) : PriceProcess :=
  let ids := uniqueIds assets
  let result : CoinId → Option PricePoint := fun id =>
    if id ∈ ids then (s.freshPrice s.now id).map (freshPoint id) else none
  let needsRefresh := ids.filter fun id => (s.freshPrice s.now id).isNone
  let liveIds := needsRefresh.filter fun id =>
    ((s.degraded id).filter (s.now < ·.cooldownEnd)).isNone
  if needsRefresh = [] then
    { s with calls := s.calls ++ [⟨ids, s.now, result, .returned⟩] }
  else if liveIds = [] then
    { s with calls := s.calls ++ [s.finalise ids needsRefresh s.now result] }
  else
    let (i, s') := s.join liveIds fallbacks
    { s' with calls := s'.calls ++ [⟨ids, s.now, result, .waiting i needsRefresh⟩] }

/-- What `applyLastKnownFallback` does once it has read: what is found goes into the cache. -/
def applyLastKnownFallback (code : PriceFailureCode) (ids : List CoinId) (c : PriceCall)
    (store : CoinId → Option Quote) : PriceProcess × (CoinId → Option PricePoint) :=
  ({ s with
      cache := fun id =>
        if id ∈ ids then
          match store id with
          | some q => some ⟨q.priceUsd, q.observedAt, c.now, s.now + FRESH_TTL_MS, true⟩
          | none => s.cache id
        else s.cache id },
    fun id =>
      if id ∈ ids then
        match store id with
        | some q => some ⟨id, some q.priceUsd, some q.observedAt, some c.now, .stale, some code⟩
        | none => some ⟨id, none, none, some c.now, .unavailable, some code⟩
      else c.result id)

def resume (i : Nat) : PriceProcess :=
  match s.calls[i]? with
  | some ⟨ids, now, result, .waiting j needsRefresh⟩ =>
    if (s.refreshes[j]?).map (·.phase) = some .settled then
      s.setCall i (s.finalise ids needsRefresh now result)
    else s
  | _ => s

def lastKnown (i : Nat) (store : CoinId → Option Quote) : PriceProcess :=
  match s.calls[i]? with
  | some c =>
    match c.phase with
    | .reading ((code, ids) :: groups) =>
      let (s', result) := s.applyLastKnownFallback code ids c store
      s'.setCall i { c with result, phase := if groups = [] then .returned else .reading groups }
    | _ => s
  | none => s

def step : PriceMove → PriceProcess → PriceProcess
  | .tick ms, s => { s with now := s.now + ms }
  | .call assets fallbacks, s => s.begin assets fallbacks
  | .answer i quotes, s =>
    match s.refreshes[i]? with
    | some r => s.setRefresh i (r.answer quotes)
    | none => s
  | .persist i, s =>
    match s.refreshes[i]? with
    | some r =>
      if r.phase = .persisting then (s.writeCache r).setRefresh i { r with phase := .written } else s
    | none => s
  | .finish i, s =>
    match s.refreshes[i]? with
    | some r =>
      if r.phase = .written then
        let batchKey := r.ids.insertionSort (· ≤ ·)
        { s.setRefresh i { r with phase := .settled } with
          inflight := if s.inflight batchKey = some i then
            Function.update s.inflight batchKey none else s.inflight }
      else s
    | none => s
  | .resume i, s => s.resume i
  | .lastKnown i store, s => s.lastKnown i store

/-! ## One point for every id -/

/-- The ids of a call that have no point yet. -/
def pending : PriceCallPhase → List CoinId
  | .waiting _ needsRefresh => needsRefresh
  | .reading groups => groups.flatMap (·.2)
  | .returned => []

/-- A call has points for its ids alone, and for those that are not pending. -/
structure Covers (c : PriceCall) : Prop where
  pending : pending c.phase ⊆ c.ids
  mem_ids : ∀ id, (c.result id).isSome → id ∈ c.ids
  isSome : ∀ id ∈ c.ids, id ∉ PriceProcess.pending c.phase → (c.result id).isSome

section Points
variable {s : PriceProcess} {c : PriceCall} {ids needsRefresh : List CoinId} {now : Nat}
  {result : CoinId → Option PricePoint}

theorem pending_groups {missing : List CoinId} {code : CoinId → PriceFailureCode} {id : CoinId} :
    id ∈ ((missing.map code).eraseDups.map fun k =>
      (k, missing.filter fun id => code id = k)).flatMap (·.2) ↔ id ∈ missing := by
  simp only [List.mem_flatMap, List.mem_map, List.mem_eraseDups]
  grind

theorem finalise_covers (hsub : needsRefresh ⊆ ids) (hmem : ∀ id, (result id).isSome → id ∈ ids)
    (h : ∀ id ∈ ids, id ∉ needsRefresh → (result id).isSome) :
    Covers (s.finalise ids needsRefresh now result) := by
  have hmissing : ∀ id, id ∈ pending (s.finalise ids needsRefresh now result).phase ↔
      id ∈ needsRefresh ∧ (result id).isNone ∧ s.cache id = none := by
    intro id
    unfold finalise
    simp only
    split
    · rename_i hnone
      have := List.filter_eq_nil_iff.mp hnone id
      simp only [pending, List.not_mem_nil, false_iff]
      grind
    · simp only [pending]
      rw [pending_groups]
      simp
  refine ⟨fun id hid => hsub ((hmissing id).mp hid).1, fun id hid => ?_, fun id hid hnot => ?_⟩
  · change id ∈ ids
    simp only [finalise] at hid
    split at hid
    · exact hsub ‹_›
    · exact hmem id hid
  · rw [hmissing] at hnot
    have := h id hid
    unfold finalise freshPrice
    simp only
    split
    · cases hcache : s.cache id with
      | none => cases hresult : result id <;> grind
      | some e =>
        cases hfresh : (some e).filter (now < ·.expiresAt) <;> cases hresult : result id <;> grind
    · grind

/-- What is in the cache has a point, and the rest is to be refreshed. -/
theorem initial_covers {phase : PriceCallPhase}
    (hpending : pending phase = ids.filter fun id => (s.freshPrice s.now id).isNone) :
    Covers ⟨ids, s.now,
      fun id => if id ∈ ids then (s.freshPrice s.now id).map (freshPoint id) else none, phase⟩ := by
  refine ⟨?_, fun id hid => ?_, fun id hid hnot => ?_⟩
  · simpa only [hpending] using List.filter_subset_self _
  · by_contra hnot
    simp [hnot] at hid
  · simp only [hpending, List.mem_filter, hid, true_and] at hnot
    cases hfresh : s.freshPrice s.now id <;> simp_all

theorem join_calls (liveIds : List CoinId) (fallbacks : Nat) :
    (s.join liveIds fallbacks).2.calls = s.calls := by
  simp only [join]
  split <;> rfl

theorem begin_covers (assets : List (Option CoinId)) (fallbacks : Nat)
    (h : ∀ c ∈ s.calls, Covers c) : ∀ c ∈ (s.begin assets fallbacks).calls, Covers c := by
  unfold begin
  simp only
  split
  · rename_i hnone
    intro c hc
    rcases List.mem_append.mp hc with hc | hc
    · exact h c hc
    · obtain rfl := List.mem_singleton.mp hc
      exact initial_covers hnone.symm
  · split
    · intro c hc
      rcases List.mem_append.mp hc with hc | hc
      · exact h c hc
      · obtain rfl := List.mem_singleton.mp hc
        obtain ⟨hsub, hmem, hsome⟩ :=
          @initial_covers s (uniqueIds assets) (.waiting 0 _) rfl
        exact finalise_covers hsub hmem hsome
    · intro c hc
      simp only [join_calls] at hc
      rcases List.mem_append.mp hc with hc | hc
      · exact h c hc
      · obtain rfl := List.mem_singleton.mp hc
        exact initial_covers rfl

theorem setCall_covers {i : Nat} (h : ∀ c ∈ s.calls, Covers c) (hc : Covers c) :
    ∀ d ∈ (s.setCall i c).calls, Covers d := by
  intro d hd
  rcases List.mem_or_eq_of_mem_set hd with hd | rfl
  · exact h d hd
  · exact hc

theorem lastKnown_covers (i : Nat) (store : CoinId → Option Quote) (h : ∀ c ∈ s.calls, Covers c) :
    ∀ c ∈ (s.lastKnown i store).calls, Covers c := by
  unfold lastKnown
  split
  · rename_i c hc
    have hcovers := h c (List.mem_of_getElem? hc)
    split
    · rename_i code ids groups hphase
      have hpending : ∀ id, id ∈ pending (if groups = [] then .returned else .reading groups) ↔
          id ∈ groups.flatMap (·.2) := by
        intro id
        split
        · rename_i hnil
          simp [hnil, pending]
        · rfl
      obtain ⟨hsub, hmem, hsome⟩ := hcovers
      simp only [hphase, pending, List.flatMap_cons] at hsub hsome
      refine setCall_covers h ⟨fun id hid => ?_, fun id hid => ?_, fun id hid hnot => ?_⟩
      · exact hsub (List.mem_append_right _ ((hpending id).mp hid))
      · have := hmem id
        have := @hsub id
        simp only at hid
        grind
      · have := mt (hpending id).mpr hnot
        have := hsome id hid
        simp only
        cases store id <;> grind
    · exact h
  · exact h

theorem step_covers (move : PriceMove) (s : PriceProcess) (h : ∀ c ∈ s.calls, Covers c) :
    ∀ c ∈ (step move s).calls, Covers c := by
  cases move with
  | tick ms => exact h
  | call assets fallbacks => exact begin_covers assets fallbacks h
  | answer i quotes =>
    simp only [step]
    split <;> exact h
  | persist i =>
    simp only [step]
    split
    · split <;> exact h
    · exact h
  | finish i =>
    simp only [step]
    split
    · split <;> exact h
    · exact h
  | resume i =>
    simp only [step, resume]
    split
    · rename_i hc
      split
      · obtain ⟨hsub, hmem, hsome⟩ := h _ (List.mem_of_getElem? hc)
        exact setCall_covers h (finalise_covers hsub hmem hsome)
      · exact h
    · exact h
  | lastKnown i store => exact lastKnown_covers i store h

end Points

/-! ## Where fresh prices come from -/

/-- A live source returned the price in a refresh, which started at `t` and is done. -/
def Returned (s : PriceProcess) (id : CoinId) (priceUsd : String) (t : Nat) : Prop :=
  ∃ r ∈ s.refreshes, (r.phase = .written ∨ r.phase = .settled) ∧ r.now = t ∧
    ∃ q ∈ r.fetched id, q.priceUsd = priceUsd

/-- Fresh points carry a price that a refresh returned which started a minute before at most. -/
def Honest (s : PriceProcess) (c : PriceCall) : Prop :=
  ∀ id, ∀ p ∈ c.result id, p.freshness = .fresh →
    ∃ price t, p.priceUsd = some price ∧ s.Returned id price t ∧ c.now ≤ t + FRESH_TTL_MS

/-- Whatever is cached and not from the store was returned by a refresh. -/
structure LiveCache (s : PriceProcess) : Prop where
  cached : ∀ id, ∀ e ∈ s.cache id, e.stored = false →
    ∃ t, s.Returned id e.priceUsd t ∧ e.expiresAt = t + FRESH_TTL_MS
  honest : ∀ c ∈ s.calls, s.Honest c

/-- None of the ids is found fresh with a price from the store. -/
def NoneStored (s : PriceProcess) (ids : List CoinId) (now : Nat) : Prop :=
  ∀ id ∈ ids, ∀ e ∈ s.freshPrice now id, e.stored = false

instance (s : PriceProcess) (ids : List CoinId) (now : Nat) : Decidable (s.NoneStored ids now) :=
  decidable_of_iff (∀ id ∈ ids, (s.freshPrice now id).all (! ·.stored) = true) <| by
    simp [NoneStored, Option.all_eq_true]

/-- The ids that a call looks up in the cache, and the time it takes them to be asked at. -/
def lookedUp (s : PriceProcess) : PriceMove → List CoinId × Nat
  | .call assets _ => (uniqueIds assets, s.now)
  | .resume i =>
    match s.calls[i]? with
    | some ⟨_, now, _, .waiting j needsRefresh⟩ =>
      if (s.refreshes[j]?).map (·.phase) = some .settled then (needsRefresh, now) else ([], now)
    | _ => ([], s.now)
  | _ => ([], s.now)

/-- No call finds a price fresh that the fallback has put into the cache. -/
def LooksUpLive (move : PriceMove) (s : PriceProcess) : Prop :=
  s.NoneStored (s.lookedUp move).1 (s.lookedUp move).2

instance (move : PriceMove) (s : PriceProcess) : Decidable (LooksUpLive move s) :=
  inferInstanceAs (Decidable (s.NoneStored _ _))

section Live
variable {s t : PriceProcess} {c : PriceCall} {r r' : Refresh} {i : Nat} {id : CoinId}
  {price : String} {time : Nat}

/-- A refresh that is done keeps what it fetched. -/
theorem Returned.setRefresh (h : s.Returned id price time) (hr : s.refreshes[i]? = some r)
    (hkeep : r.phase = .written ∨ r.phase = .settled →
      (r'.phase = .written ∨ r'.phase = .settled) ∧ r'.now = r.now ∧ r'.fetched = r.fetched) :
    (s.setRefresh i r').Returned id price time := by
  obtain ⟨x, hx, hdone, hnow, q, hq, hprice⟩ := h
  obtain ⟨j, hj⟩ := List.mem_iff_getElem?.mp hx
  have hlt := (List.getElem?_eq_some_iff.mp hj).1
  by_cases hij : i = j
  · subst j
    obtain rfl : x = r := Option.some.inj (hj.symm.trans hr)
    obtain ⟨hdone', hnow', hfetched⟩ := hkeep hdone
    refine ⟨r', List.mem_of_getElem? (i := i) ?_, hdone', hnow'.trans hnow, q, hfetched ▸ hq, hprice⟩
    simp [PriceProcess.setRefresh, hlt]
  · refine ⟨x, List.mem_of_getElem? (i := j) ?_, hdone, hnow, q, hq, hprice⟩
    simpa [PriceProcess.setRefresh, List.getElem?_set_ne hij] using hj

theorem Honest.mono (h : s.Honest c)
    (hmono : ∀ {id price time}, s.Returned id price time → t.Returned id price time) :
    t.Honest c := by
  intro id p hp hfresh
  obtain ⟨price, time, hprice, hreturned, hle⟩ := h id p hp hfresh
  exact ⟨price, time, hprice, hmono hreturned, hle⟩

/-- A cached price that is fresh and not from the store makes an honest point. -/
theorem LiveCache.fresh (h : s.LiveCache) {now : Nat} {e : CachedPrice}
    (he : e ∈ s.freshPrice now id) (hlive : e.stored = false) :
    ∃ price t, (freshPoint id e).priceUsd = some price ∧ s.Returned id price t ∧
      now ≤ t + FRESH_TTL_MS := by
  obtain ⟨hcache, hlt⟩ := Option.filter_eq_some_iff.mp he
  obtain ⟨t, hreturned, hexpires⟩ := h.cached id e hcache hlive
  have hlt : now < e.expiresAt := by simpa using hlt
  exact ⟨e.priceUsd, t, rfl, hreturned, by omega⟩

theorem LiveCache.finalise (h : s.LiveCache) {ids needsRefresh : List CoinId} {now : Nat}
    {result : CoinId → Option PricePoint} {phase : PriceCallPhase}
    (hresult : s.Honest ⟨ids, now, result, phase⟩) (hlive : s.NoneStored needsRefresh now) :
    s.Honest (s.finalise ids needsRefresh now result) := by
  intro id p hp hfresh
  simp only [PriceProcess.finalise] at hp
  split at hp
  · rename_i hid
    split at hp
    · rename_i he
      cases hp
      exact h.fresh he (hlive id hid _ he)
    · rename_i q _ hq
      cases hp
      exact hresult id p hq hfresh
    · cases hp
      cases hfresh
    · cases hp
  · exact hresult id p hp hfresh

/-- A step that keeps what was returned, and adds to the cache and the calls only what is live. -/
theorem LiveCache.of_step (h : s.LiveCache)
    (hmono : ∀ {id price time}, s.Returned id price time → t.Returned id price time)
    (hcache : ∀ id, ∀ e ∈ t.cache id, e.stored = false → e ∈ s.cache id ∨
      ∃ time, t.Returned id e.priceUsd time ∧ e.expiresAt = time + FRESH_TTL_MS)
    (hcalls : ∀ c ∈ t.calls, c ∈ s.calls ∨ s.Honest c) : t.LiveCache where
  cached id e he hlive := by
    rcases hcache id e he hlive with hold | hnew
    · obtain ⟨time, hreturned, hexpires⟩ := h.cached id e hold hlive
      exact ⟨time, hmono hreturned, hexpires⟩
    · exact hnew
  honest c hc := by
    rcases hcalls c hc with hold | hnew
    · exact (h.honest c hold).mono hmono
    · exact hnew.mono hmono

theorem LiveCache.begin (h : s.LiveCache) (assets : List (Option CoinId)) (fallbacks : Nat)
    (hlive : s.NoneStored (uniqueIds assets) s.now) : (s.begin assets fallbacks).LiveCache := by
  have hinitial : ∀ phase, s.Honest ⟨uniqueIds assets, s.now, fun id =>
      if id ∈ uniqueIds assets then (s.freshPrice s.now id).map (freshPoint id) else none,
      phase⟩ := by
    intro phase id p hp hfresh
    simp only at hp
    split at hp
    · rename_i hid
      obtain ⟨e, he, rfl⟩ := Option.map_eq_some_iff.mp hp
      exact h.fresh he (hlive id hid e he)
    · cases hp
  have hadded : ∀ {c : PriceCall}, s.Honest c → ∀ d ∈ s.calls ++ [c], d ∈ s.calls ∨ s.Honest d := by
    intro c hc d hd
    rcases List.mem_append.mp hd with hd | hd
    · exact .inl hd
    · exact .inr (List.mem_singleton.mp hd ▸ hc)
  unfold PriceProcess.begin
  simp only
  split
  · exact h.of_step (fun h => h) (fun _ _ he _ => .inl he) (hadded (hinitial _))
  · split
    · refine h.of_step (fun h => h) (fun _ _ he _ => .inl he)
        (hadded (h.finalise (hinitial .returned) fun id hid => ?_))
      exact hlive id (List.filter_subset_self _ hid)
    · simp only [join_calls]
      refine h.of_step (fun hreturned => ?_) (fun id e he _ => .inl ?_) (hadded (hinitial _))
      · obtain ⟨r, hr, hrest⟩ := hreturned
        refine ⟨r, ?_, hrest⟩
        simp only [PriceProcess.join]
        split
        · exact hr
        · exact List.mem_append_left _ hr
      · simp only [PriceProcess.join] at he
        split at he <;> exact he

theorem LiveCache.setRefresh (h : s.LiveCache) (hr : s.refreshes[i]? = some r)
    (hkeep : r.phase = .written ∨ r.phase = .settled →
      (r'.phase = .written ∨ r'.phase = .settled) ∧ r'.now = r.now ∧ r'.fetched = r.fetched) :
    (s.setRefresh i r').LiveCache :=
  h.of_step (fun hreturned => hreturned.setRefresh hr hkeep) (fun _ _ he _ => .inl he)
    fun _ hc => .inl hc

/-- Whatever a refresh writes into the cache, a live source has returned to it. -/
theorem LiveCache.persist (h : s.LiveCache) (hr : s.refreshes[i]? = some r)
    (hphase : r.phase = .persisting) :
    ((s.writeCache r).setRefresh i { r with phase := .written }).LiveCache := by
  have hmem : { r with phase := .written } ∈
      ((s.writeCache r).setRefresh i { r with phase := .written }).refreshes := by
    have hlt := (List.getElem?_eq_some_iff.mp hr).1
    exact List.mem_of_getElem? (i := i) (by simp [PriceProcess.setRefresh, writeCache, hlt])
  refine h.of_step (fun hreturned => ?_) (fun id e he hlive => ?_) fun _ hc => .inl hc
  · refine Returned.setRefresh (s := s.writeCache r) hreturned hr fun hdone => ?_
    simp [hphase] at hdone
  · simp only [PriceProcess.setRefresh, writeCache] at he
    split at he
    · split at he
      · rename_i q hq
        cases he
        exact .inr ⟨r.now, ⟨_, hmem, .inl rfl, rfl, q, hq, rfl⟩, rfl⟩
      · exact .inl he
    · exact .inl he

theorem LiveCache.setCall (h : s.LiveCache) (hc : s.Honest c) : (s.setCall i c).LiveCache := by
  refine h.of_step (fun h => h) (fun _ _ he _ => .inl he) fun d hd => ?_
  rcases List.mem_or_eq_of_mem_set hd with hd | rfl
  · exact .inl hd
  · exact .inr hc

/-- What the fallback puts into the cache is marked, and the points it makes are not fresh. -/
theorem LiveCache.lastKnown (h : s.LiveCache) (i : Nat) (store : CoinId → Option Quote) :
    (s.lastKnown i store).LiveCache := by
  unfold PriceProcess.lastKnown
  split
  · rename_i c hc
    have hhonest := h.honest c (List.mem_of_getElem? hc)
    split
    · rename_i code ids groups hphase
      refine LiveCache.setCall (s := (s.applyLastKnownFallback code ids c store).1) ?_ ?_
      · refine h.of_step (fun h => h) (fun id e he hlive => .inl ?_) fun _ hc => .inl hc
        simp only [applyLastKnownFallback] at he
        split at he
        · split at he
          · cases he
            cases hlive
          · exact he
        · exact he
      · intro id p hp hfresh
        simp only at hp
        split at hp
        · split at hp <;> cases hp <;> cases hfresh
        · exact hhonest id p hp hfresh
    · exact h
  · exact h

theorem step_live (move : PriceMove) (s : PriceProcess) (h : s.LiveCache)
    (hlive : LooksUpLive move s) : (step move s).LiveCache := by
  cases move with
  | tick ms => exact h.of_step (fun h => h) (fun _ _ he _ => .inl he) fun _ hc => .inl hc
  | call assets fallbacks => exact h.begin assets fallbacks hlive
  | answer i quotes =>
    simp only [step]
    split
    · rename_i r hr
      refine h.setRefresh hr fun hdone => ?_
      have hsame : r.answer quotes = r := by
        unfold Refresh.answer
        rcases hdone with hdone | hdone <;> simp [hdone]
      exact hsame.symm ▸ ⟨hdone, rfl, rfl⟩
    · exact h
  | persist i =>
    simp only [step]
    split
    · rename_i hr
      split
      · exact h.persist hr ‹_›
      · exact h
    · exact h
  | finish i =>
    simp only [step]
    split
    · rename_i r hr
      split
      · refine LiveCache.of_step (s := s.setRefresh i { r with phase := .settled })
          (h.setRefresh hr fun _ => ⟨.inr rfl, rfl, rfl⟩) (fun h => h) (fun _ _ he _ => .inl he)
          fun _ hc => .inl hc
      · exact h
    · exact h
  | resume i =>
    simp only [step, resume]
    split
    · rename_i hc
      split
      · rename_i hsettled
        simp only [LooksUpLive, lookedUp, hc, if_pos hsettled] at hlive
        exact h.setCall (h.finalise (h.honest _ (List.mem_of_getElem? hc)) hlive)
      · exact h
    · exact h
  | lastKnown i store => exact h.lastKnown i store

end Live

/-! ## Every run -/

/-- The ids of the calls that a run makes. -/
def asked (moves : List PriceMove) : List (List CoinId) :=
  moves.filterMap fun
    | .call assets _ => some (uniqueIds assets)
    | _ => none

theorem setCall_ids {s : PriceProcess} {i : Nat} {c d : PriceCall} (hc : s.calls[i]? = some c)
    (hids : d.ids = c.ids) : (s.setCall i d).calls.map (·.ids) = s.calls.map (·.ids) := by
  obtain ⟨hlt, rfl⟩ := List.getElem?_eq_some_iff.mp hc
  apply List.ext_getElem
  · simp [PriceProcess.setCall]
  · intro j hj _
    simp only [PriceProcess.setCall, List.getElem_map, List.getElem_set]
    split
    · subst j
      exact hids
    · rfl

theorem step_ids (move : PriceMove) (s : PriceProcess) :
    (step move s).calls.map (·.ids) = s.calls.map (·.ids) ++ asked [move] := by
  cases move with
  | tick ms => simp [step, asked]
  | call assets fallbacks =>
    simp only [step, begin, asked, List.filterMap]
    split
    · simp
    · split
      · simp [finalise]
      · simp [join_calls]
  | answer i quotes =>
    simp only [step, asked, List.filterMap, List.append_nil]
    split <;> rfl
  | persist i =>
    simp only [step, asked, List.filterMap, List.append_nil]
    split
    · split <;> rfl
    · rfl
  | finish i =>
    simp only [step, asked, List.filterMap, List.append_nil]
    split
    · split <;> rfl
    · rfl
  | resume i =>
    simp only [step, resume, asked, List.filterMap, List.append_nil]
    split
    · rename_i hc
      split
      · exact setCall_ids hc rfl
      · rfl
    · rfl
  | lastKnown i store =>
    simp only [step, lastKnown, asked, List.filterMap, List.append_nil]
    split
    · rename_i hc
      split
      · exact setCall_ids (s := (s.applyLastKnownFallback _ _ _ store).1) hc rfl
      · rfl
    · rfl

theorem run_ids (moves : List PriceMove) (s : PriceProcess) :
    (runAll step moves s).calls.map (·.ids) = s.calls.map (·.ids) ++ asked moves := by
  induction moves generalizing s with
  | nil => simp [asked]
  | cons move moves ih =>
    rw [runAll_cons, ih, step_ids, List.append_assoc]
    congr 1
    simp only [asked, ← List.filterMap_append, List.singleton_append]

theorem run_covers (moves : List PriceMove) {s : PriceProcess} (h : ∀ c ∈ s.calls, Covers c) :
    ∀ c ∈ (runAll step moves s).calls, Covers c :=
  runAll_keeps (I := fun s : PriceProcess => ∀ c ∈ s.calls, Covers c) step_covers moves h

/-- A call that returns has one point for each id it was asked for. Its fresh prices are those of
refreshes of the last minute as long as no call finds a price fresh that the fallback has put into
the cache. -/
theorem fresh_prices (clock : Nat) (moves : List PriceMove) :
    (runAll step moves { now := clock }).calls.map (·.ids) = asked moves ∧
      (∀ c ∈ (runAll step moves { now := clock }).calls, c.phase = .returned →
        ∀ id, (c.result id).isSome ↔ id ∈ c.ids) ∧
      (EveryCall step LooksUpLive moves { now := clock } →
        ∀ c ∈ (runAll step moves { now := clock }).calls,
          (runAll step moves { now := clock }).Honest c) := by
  refine ⟨run_ids moves _, fun c hc hreturned id => ?_, fun hlive => ?_⟩
  · obtain ⟨-, hmem, hsome⟩ := run_covers moves (s := { now := clock }) (by simp) c hc
    simp only [hreturned, pending] at hsome
    exact ⟨hmem id, fun hid => hsome id hid (List.not_mem_nil)⟩
  · have hstart : LiveCache { now := clock } := ⟨by simp, by simp⟩
    exact (runAll_keeps_of (fun move s h => step_live move s h) moves hstart hlive).honest

/-- The price of a refresh is served to a second call. -/
def servedFresh : List PriceMove :=
  [.call [some 1] 0, .answer 0 (.ok fun _ => some ⟨"10", 0⟩), .persist 0, .finish 0, .resume 0,
    .tick 1000, .call [some 1, none] 0]

theorem served_fresh : EveryCall step LooksUpLive servedFresh { now := 5000 } ∧
    ∀ c ∈ (runAll step servedFresh { now := 5000 }).calls,
      (runAll step servedFresh { now := 5000 }).Honest c :=
  have hlive : EveryCall step LooksUpLive servedFresh { now := 5000 } := by decide
  ⟨hlive, (fresh_prices 5000 servedFresh).2.2 hlive⟩

/-- The refresh fails, the store knows a price, and the next call finds it fresh. -/
def storedFresh : List PriceMove :=
  [.call [some 1] 0, .answer 0 (.error .timeout), .persist 0, .finish 0, .resume 0,
    .lastKnown 0 (fun _ => some ⟨"7", 0⟩), .tick 1000, .call [some 1] 0]

theorem stored_fresh : ¬ ∀ clock moves, ∀ c ∈ (runAll step moves { now := clock }).calls,
    (runAll step moves { now := clock }).Honest c := by
  intro h
  have hcall := h 5000 storedFresh _ (List.mem_of_getElem? (i := 1) rfl) 1 _ rfl rfl
  obtain ⟨price, t, -, ⟨r, hr, -, -, q, hq, -⟩, -⟩ := hcall
  obtain rfl := List.mem_singleton.mp hr
  cases hq

end PriceProcess

end Pwos
