import Pwos.Lib.OrderedMap
import Pwos.Lib.Runs

/-!
# The rate limiter of one process

The in-memory store of `lib/rateLimit.ts`: a window for every key, which starts with the first
call and is not prolonged. When too many keys are tracked, windows that have run out go first,
then those that run out first.

As long as the window of a key is not dropped before its time, the key is served as if there were
no others (`limiter_of_calls`).
-/

namespace Pwos

/-- Hard cap on tracked keys. -/
def MAX_TRACKED_KEYS : Nat := 20000

/-- The calls that were counted in a window, and when it runs out, in milliseconds. -/
structure RateWindow where
  count : Nat
  resetAt : Int
  deriving DecidableEq, Repr

structure RateLimitResult where
  ok : Bool
  remaining : Int
  deriving DecidableEq, Repr

abbrev RateLimits := OrderedMap String RateWindow

namespace RateLimits

def dropExpired (limits : RateLimits) (now : Int) : RateLimits :=
  limits.filter fun _ e => now < e.resetAt

/-- The keys, those that are reset first in front. The sort is stable. -/
def byReset (limits : RateLimits) : List String :=
  (limits.entries.insertionSort fun a b => a.2.resetAt ≤ b.2.resetAt).map Prod.fst

def evictIfNeeded (limits : RateLimits) (now : Int) : RateLimits :=
  if limits.size < MAX_TRACKED_KEYS then limits
  else
    let limits := limits.dropExpired now
    if limits.size < MAX_TRACKED_KEYS then limits
    else (limits.byReset.take (limits.size - MAX_TRACKED_KEYS + 1)).foldl OrderedMap.delete limits

def check (limits : RateLimits) (key : String) (maxAttempts windowSeconds now : Int) :
    RateLimitResult × RateLimits :=
  let limits := limits.evictIfNeeded now
  let fresh := (⟨true, maxAttempts - 1⟩, limits.set key ⟨1, now + windowSeconds * 1000⟩)
  match limits.lookup key with
  | none => fresh
  | some existing =>
    if existing.resetAt ≤ now then fresh
    else if maxAttempts ≤ existing.count then (⟨false, 0⟩, limits)
    else
      (⟨true, maxAttempts - (existing.count + 1 : Nat)⟩,
        limits.set key ⟨existing.count + 1, existing.resetAt⟩)

end RateLimits

inductive LimiterOp where
  | check (maxAttempts windowSeconds : Int)
  | reset
  deriving DecidableEq, Repr

structure LimiterCall where
  key : String
  now : Int
  op : LimiterOp
  deriving DecidableEq, Repr

/-- What a call answers, and what it leaves. -/
def LimiterCall.serve (c : LimiterCall) (limits : RateLimits) :
    Option RateLimitResult × RateLimits :=
  match c.op with
  | .check maxAttempts windowSeconds =>
    let (r, limits) := limits.check c.key maxAttempts windowSeconds c.now
    (some r, limits)
  | .reset => (none, limits.delete c.key)

/-- The calls with their answers. -/
def answers : List LimiterCall → RateLimits → List (LimiterCall × Option RateLimitResult)
  | [], _ => []
  | c :: cs, limits => (c, (c.serve limits).1) :: answers cs (c.serve limits).2

/-- The call drops the window of the key before it has run out. -/
def Evicts (key : String) (c : LimiterCall) (limits : RateLimits) : Prop :=
  c.op ≠ .reset ∧ ∃ e ∈ limits.lookup key, c.now < e.resetAt ∧
    (limits.evictIfNeeded c.now).lookup key = none

def LimiterCall.exec (c : LimiterCall) (limits : RateLimits) : RateLimits := (c.serve limits).2

/-- No call does. -/
def NeverEvicted (key : String) (calls : List LimiterCall) (limits : RateLimits) : Prop :=
  EveryCall LimiterCall.exec (fun c limits => ¬ Evicts key c limits) calls limits

/-! ## The number of keys -/

namespace RateLimits
variable {limits : RateLimits} {now : Int} {key : String}

theorem nodup_byReset : limits.byReset.Nodup := by
  have hperm := (limits.entries.perm_insertionSort fun a b => a.2.resetAt ≤ b.2.resetAt)
  exact ((hperm.map Prod.fst).nodup_iff).mpr limits.nodup

theorem length_byReset : limits.byReset.length = limits.size := by
  simp [byReset, OrderedMap.size]

theorem lookup_byReset (h : key ∈ limits.byReset) : (limits.lookup key).isSome := by
  obtain ⟨e, he, rfl⟩ := List.mem_map.mp h
  have he := ((limits.entries.perm_insertionSort _).mem_iff).mp he
  rw [OrderedMap.lookup_eq_some.mpr he]
  rfl

/-- There is room for another key. -/
theorem size_evictIfNeeded : (limits.evictIfNeeded now).size < MAX_TRACKED_KEYS := by
  unfold evictIfNeeded
  split
  · assumption
  dsimp only
  split
  · assumption
  · rename_i hfull
    set kept := limits.dropExpired now
    set dropped := kept.byReset.take (kept.size - MAX_TRACKED_KEYS + 1)
    have hsize : (dropped.foldl OrderedMap.delete kept).size + dropped.length ≤ kept.size :=
      OrderedMap.size_deleteAll (nodup_byReset.sublist (List.take_sublist _ _)) fun k hk =>
        lookup_byReset (List.mem_of_mem_take hk)
    have hlength : dropped.length = min (kept.size - MAX_TRACKED_KEYS + 1) kept.size := by
      rw [List.length_take, length_byReset]
    have hcap : 0 < MAX_TRACKED_KEYS := by decide
    omega

theorem size_check (maxAttempts windowSeconds : Int) :
    (limits.check key maxAttempts windowSeconds now).2.size ≤ MAX_TRACKED_KEYS := by
  have hroom : (limits.evictIfNeeded now).size + 1 ≤ MAX_TRACKED_KEYS := size_evictIfNeeded
  have hset := fun v => OrderedMap.size_set_le (m := limits.evictIfNeeded now) (k := key) (v := v)
  unfold check
  dsimp only
  split
  · exact (hset _).trans hroom
  · split
    · exact (hset _).trans hroom
    · split
      · exact (Nat.le_succ _).trans hroom
      · exact (hset _).trans hroom

end RateLimits

/-! ## One key -/

/-- A call that finds the window `w` of its key. -/
def RateWindow.check (w : Option RateWindow) (maxAttempts windowSeconds now : Int) :
    RateLimitResult × Option RateWindow :=
  let fresh := (⟨true, maxAttempts - 1⟩, some ⟨1, now + windowSeconds * 1000⟩)
  match w with
  | none => fresh
  | some existing =>
    if existing.resetAt ≤ now then fresh
    else if maxAttempts ≤ existing.count then (⟨false, 0⟩, w)
    else
      (⟨true, maxAttempts - (existing.count + 1 : Nat)⟩,
        some ⟨existing.count + 1, existing.resetAt⟩)

def LimiterCall.serveAlone (c : LimiterCall) (w : Option RateWindow) :
    Option RateLimitResult × Option RateWindow :=
  match c.op with
  | .check maxAttempts windowSeconds =>
    let (r, w) := RateWindow.check w maxAttempts windowSeconds c.now
    (some r, w)
  | .reset => (none, none)

def answersAlone : List LimiterCall → Option RateWindow → List (LimiterCall × Option RateLimitResult)
  | [], _ => []
  | c :: cs, w => (c, (c.serveAlone w).1) :: answersAlone cs (c.serveAlone w).2

/-- The store shows the window, or nothing of one that has run out. -/
def RateLimits.Shows (limits : RateLimits) (key : String) (now : Int) (w : Option RateWindow) :
    Prop :=
  limits.lookup key = w ∨ limits.lookup key = none ∧ ∀ e ∈ w, e.resetAt ≤ now

section Key
variable {limits : RateLimits} {key : String} {now : Int} {w : Option RateWindow} {c : LimiterCall}

theorem check_of_expired (h : ∀ e ∈ w, e.resetAt ≤ now) (maxAttempts windowSeconds : Int) :
    RateWindow.check w maxAttempts windowSeconds now =
      RateWindow.check none maxAttempts windowSeconds now := by
  cases w with
  | none => rfl
  | some e =>
    unfold RateWindow.check
    dsimp only
    rw [if_pos (h e rfl)]

theorem lookup_evictIfNeeded :
    (limits.evictIfNeeded now).lookup key = none ∨
      (limits.evictIfNeeded now).lookup key = limits.lookup key := by
  have hfilter : (limits.dropExpired now).lookup key = none ∨
      (limits.dropExpired now).lookup key = limits.lookup key := by
    rw [RateLimits.dropExpired, OrderedMap.lookup_filter]
    cases limits.lookup key with
    | none => exact .inl rfl
    | some e => grind [Option.filter]
  unfold RateLimits.evictIfNeeded
  split
  · exact .inr rfl
  dsimp only
  split
  · exact hfilter
  · set dropped := (limits.dropExpired now).byReset.take _
    by_cases hk : key ∈ dropped
    · exact .inl (OrderedMap.lookup_deleteAll_of_mem hk)
    · rw [OrderedMap.lookup_deleteAll hk]
      exact hfilter

/-- Eviction leaves what a key shows, unless it drops its window. -/
theorem RateLimits.Shows.evict (h : limits.Shows key now w) {later : Int} (hle : now ≤ later)
    (hkept : ¬ ∃ e ∈ limits.lookup key, later < e.resetAt ∧
      (limits.evictIfNeeded later).lookup key = none) :
    (limits.evictIfNeeded later).Shows key later w := by
  rcases @lookup_evictIfNeeded limits key later with hnone | hsame
  · refine .inr ⟨hnone, fun e he => ?_⟩
    rcases h with h | ⟨-, h⟩
    · by_contra hlive
      exact hkept ⟨e, h ▸ he, Int.not_le.mp hlive, hnone⟩
    · exact (h e he).trans hle
  · rw [RateLimits.Shows, hsame]
    exact h.imp_right fun ⟨hnone, hall⟩ => ⟨hnone, fun e he => (hall e he).trans hle⟩

/-- One call on the key. -/
theorem serve_shows (h : limits.Shows c.key now w) (hle : now ≤ c.now)
    (hkept : ¬ Evicts c.key c limits) :
    (c.serve limits).1 = (c.serveAlone w).1 ∧
      (c.serve limits).2.Shows c.key c.now (c.serveAlone w).2 := by
  obtain ⟨key, later, op⟩ := c
  cases op with
  | reset => exact ⟨rfl, .inl OrderedMap.lookup_delete_self⟩
  | check maxAttempts windowSeconds =>
    have hshown := h.evict hle fun hdrop => hkept ⟨by simp, hdrop⟩
    have hcheck : ∀ v, (limits.evictIfNeeded later).lookup key = v →
        (limits.check key maxAttempts windowSeconds later).1 =
          (RateWindow.check v maxAttempts windowSeconds later).1 ∧
        (limits.check key maxAttempts windowSeconds later).2.lookup key =
          (RateWindow.check v maxAttempts windowSeconds later).2 := by
      rintro v rfl
      unfold RateLimits.check RateWindow.check
      dsimp only
      split
      · exact ⟨rfl, OrderedMap.lookup_set_self⟩
      · split
        · exact ⟨rfl, OrderedMap.lookup_set_self⟩
        · split
          · exact ⟨rfl, rfl⟩
          · exact ⟨rfl, OrderedMap.lookup_set_self⟩
    rcases hshown with hsame | ⟨hnone, hexpired⟩
    · obtain ⟨hanswer, hstate⟩ := hcheck w hsame
      exact ⟨congrArg some hanswer, .inl hstate⟩
    · obtain ⟨hanswer, hstate⟩ := hcheck none hnone
      rw [← check_of_expired hexpired] at hanswer hstate
      exact ⟨congrArg some hanswer, .inl hstate⟩

/-- A call on another key. -/
theorem serve_shows_of_ne (h : limits.Shows key now w) (hne : key ≠ c.key) (hle : now ≤ c.now)
    (hkept : ¬ Evicts key c limits) : (c.serve limits).2.Shows key c.now w := by
  obtain ⟨other, later, op⟩ := c
  cases op with
  | reset =>
    have hsame : (limits.delete other).lookup key = limits.lookup key :=
      OrderedMap.lookup_delete_of_ne hne
    have hshown : limits.Shows key later w :=
      h.imp_right fun ⟨hnone, hall⟩ => ⟨hnone, fun e he => (hall e he).trans hle⟩
    unfold RateLimits.Shows LimiterCall.serve
    dsimp only
    rwa [hsame]
  | check maxAttempts windowSeconds =>
    have hshown := h.evict hle fun hdrop => hkept ⟨by simp, hdrop⟩
    have hsame : (limits.check other maxAttempts windowSeconds later).2.lookup key =
        (limits.evictIfNeeded later).lookup key := by
      unfold RateLimits.check
      dsimp only
      split
      · exact OrderedMap.lookup_set_of_ne hne
      · split
        · exact OrderedMap.lookup_set_of_ne hne
        · split
          · rfl
          · exact OrderedMap.lookup_set_of_ne hne
    unfold RateLimits.Shows LimiterCall.serve
    dsimp only
    rwa [hsame]

theorem answers_alone {calls : List LimiterCall} (h : limits.Shows key now w)
    (hclock : (now :: calls.map (·.now)).IsChain (· ≤ ·)) (hkept : NeverEvicted key calls limits) :
    (answers calls limits).filter (·.1.key = key) =
      answersAlone (calls.filter (·.key = key)) w := by
  induction calls generalizing limits now w with
  | nil => rfl
  | cons c cs ih =>
    rw [List.map_cons, List.isChain_cons_cons] at hclock
    rw [answers]
    by_cases hkey : c.key = key
    · subst hkey
      obtain ⟨hanswer, hshows⟩ := serve_shows h hclock.1 hkept.1
      rw [List.filter_cons_of_pos (by simp), List.filter_cons_of_pos (by simp), answersAlone,
        ih hshows hclock.2 hkept.2, hanswer]
    · have hshows := serve_shows_of_ne h (Ne.symm hkey) hclock.1 hkept.1
      rw [List.filter_cons_of_neg (by simpa using hkey), List.filter_cons_of_neg (by simpa using hkey),
        ih hshows hclock.2 hkept.2]

end Key

/-! ## What was allowed since a window started -/

/-- A window of a key as its callers see it: when it ends, and the calls it has allowed. -/
structure Epoch where
  endsAt : Int
  allowed : Nat
  deriving DecidableEq, Repr

/-- The window a call falls into, after the call: a new one if none is open. -/
def Epoch.follow (before : Option Epoch) (served : LimiterCall × Option RateLimitResult) :
    Option Epoch :=
  match served.1.op, served.2 with
  | .check _ windowSeconds, some r =>
    let allowed := if r.ok then 1 else 0
    match before.filter (served.1.now < ·.endsAt) with
    | some e => some ⟨e.endsAt, e.allowed + allowed⟩
    | none => some ⟨served.1.now + windowSeconds * 1000, allowed⟩
  | _, _ => none

/-- The window of a key after these calls. -/
def epochOf (key : String) (served : List (LimiterCall × Option RateLimitResult)) : Option Epoch :=
  (served.filter (·.1.key = key)).foldl Epoch.follow none

/-- The window the limiter keeps is the one its callers see. -/
def RateWindow.Counts (w : Option RateWindow) (e : Option Epoch) : Prop :=
  e = w.map fun w => ⟨w.resetAt, w.count⟩

/-- The answer is yes when no window is open, and the calls it has allowed are no more than
`maxAttempts`, the first one apart. -/
def Epoch.Grants (before after : Option Epoch) (c : LimiterCall) (r : Option RateLimitResult) :
    Prop :=
  ∀ maxAttempts windowSeconds, c.op = .check maxAttempts windowSeconds → ∃ a ∈ r,
    ((∀ e ∈ before, e.endsAt ≤ c.now) → a.ok = true) ∧
    (a.ok = true → ∃ e ∈ after, (e.allowed : Int) ≤ max 1 maxAttempts)

theorem serveAlone_counts {w : Option RateWindow} {e : Option Epoch} (h : RateWindow.Counts w e)
    (c : LimiterCall) :
    RateWindow.Counts (c.serveAlone w).2 (Epoch.follow e (c, (c.serveAlone w).1)) ∧
      Epoch.Grants e (Epoch.follow e (c, (c.serveAlone w).1)) c (c.serveAlone w).1 := by
  obtain ⟨key, now, op⟩ := c
  obtain rfl := h
  cases op with
  | reset => exact ⟨rfl, nofun⟩
  | check maxAttempts windowSeconds =>
    rcases w with _ | ⟨count, resetAt⟩
    · refine ⟨rfl, ?_⟩
      rintro _ _ ⟨⟩
      refine ⟨_, rfl, fun _ => rfl, fun _ => ⟨_, rfl, ?_⟩⟩
      simp
    · by_cases hexpired : resetAt ≤ now
      · have hlive : ¬ now < resetAt := Int.not_lt.mpr hexpired
        simp [LimiterCall.serveAlone, RateWindow.check, Epoch.follow, Epoch.Grants,
          RateWindow.Counts, Option.filter, hexpired, hlive]
      · have hlive : now < resetAt := Int.not_le.mp hexpired
        by_cases hfull : maxAttempts ≤ count
        · simp [LimiterCall.serveAlone, RateWindow.check, Epoch.follow, Epoch.Grants,
            RateWindow.Counts, Option.filter, hexpired, hlive, hfull]
        · have hroom : (count : Int) < maxAttempts := Int.not_le.mp hfull
          simp [LimiterCall.serveAlone, RateWindow.check, Epoch.follow, Epoch.Grants,
            RateWindow.Counts, Option.filter, hexpired, hlive, hfull, hroom]

/-- Every call of a key alone is granted what the calls before it leave. -/
theorem answersAlone_grants {calls : List LimiterCall} {w : Option RateWindow} {e : Option Epoch}
    (h : RateWindow.Counts w e) {before after : List (LimiterCall × Option RateLimitResult)}
    {c : LimiterCall} {r : Option RateLimitResult}
    (hsplit : answersAlone calls w = before ++ (c, r) :: after) :
    Epoch.Grants (before.foldl Epoch.follow e) (Epoch.follow (before.foldl Epoch.follow e) (c, r))
      c r := by
  induction calls generalizing w e before with
  | nil => simp [answersAlone] at hsplit
  | cons d calls ih =>
    obtain ⟨hcounts, hgrants⟩ := serveAlone_counts h d
    cases before with
    | nil =>
      rw [answersAlone, List.nil_append, List.cons.injEq] at hsplit
      cases hsplit.1
      exact hgrants
    | cons b before =>
      rw [answersAlone, List.cons_append, List.cons.injEq] at hsplit
      obtain ⟨rfl, hrest⟩ := hsplit
      exact ih hcounts hrest

/-! ## Every key -/

theorem size_serve {c : LimiterCall} {limits : RateLimits} (h : limits.size ≤ MAX_TRACKED_KEYS) :
    (c.serve limits).2.size ≤ MAX_TRACKED_KEYS := by
  obtain ⟨key, now, op⟩ := c
  cases op with
  | check maxAttempts windowSeconds => exact RateLimits.size_check _ _
  | reset => exact (OrderedMap.size_filter_le _).trans h

theorem map_fst_answers (calls : List LimiterCall) (limits : RateLimits) :
    (answers calls limits).map Prod.fst = calls := by
  induction calls generalizing limits with
  | nil => rfl
  | cons c calls ih => rw [answers, List.map_cons, ih]

/-- A key that is alone is never evicted. -/
theorem neverEvicted_alone {key : String} {calls : List LimiterCall} {limits : RateLimits}
    (hkey : ∀ c ∈ calls, c.key = key) (h : ∀ j, j ≠ key → limits.lookup j = none) :
    NeverEvicted key calls limits := by
  induction calls generalizing limits with
  | nil => trivial
  | cons c calls ih =>
    have hsize : limits.size < MAX_TRACKED_KEYS :=
      (OrderedMap.size_le_one h).trans_lt (by decide)
    have hsame : ∀ now, limits.evictIfNeeded now = limits := fun now => if_pos hsize
    refine ⟨?_, ih (fun d hd => hkey d (List.mem_cons_of_mem _ hd)) fun j hj => ?_⟩
    · rintro ⟨-, e, he, -, hnone⟩
      rw [hsame] at hnone
      rw [hnone] at he
      cases he
    · have hne : j ≠ c.key := fun e => hj (e.trans (hkey c List.mem_cons_self))
      have hshows : limits.Shows j c.now none := .inl (h j hj)
      have hkept : ¬ Evicts j c limits := by
        rintro ⟨-, e, he, -⟩
        rw [h j hj] at he
        cases he
      have hafter := serve_shows_of_ne hshows hne le_rfl hkept
      exact hafter.elim id fun hafter => hafter.1

/-- The limiter from the start of its process. Whatever is called, there are never too many keys. A
key that is not evicted is answered as if it were alone, its first call in a window is allowed,
and no call beyond `maxAttempts` is, but the first. -/
theorem limiter_of_calls (calls : List LimiterCall)
    (hclock : (calls.map (·.now)).IsChain (· ≤ ·)) :
    (runAll LimiterCall.exec calls .empty).size ≤ MAX_TRACKED_KEYS ∧
      ∀ key, NeverEvicted key calls .empty →
        (answers calls .empty).filter (·.1.key = key) =
          answers (calls.filter (·.key = key)) .empty ∧
        ∀ before c r after, answers calls .empty = before ++ (c, r) :: after → c.key = key →
          Epoch.Grants (epochOf key before) (epochOf key (before ++ [(c, r)])) c r := by
  have hsize : (OrderedMap.empty : RateLimits).size ≤ MAX_TRACKED_KEYS := Nat.zero_le _
  refine ⟨runAll_keeps (I := fun limits : RateLimits => limits.size ≤ MAX_TRACKED_KEYS)
    (fun c limits h => size_serve h) calls hsize, ?_⟩
  intro key hkept
  have halone : ∀ {calls : List LimiterCall}, (calls.map (·.now)).IsChain (· ≤ ·) →
      NeverEvicted key calls .empty → (answers calls .empty).filter (·.1.key = key) =
        answersAlone (calls.filter (·.key = key)) none := by
    intro calls hclock hkept
    cases calls with
    | nil => rfl
    | cons c calls =>
      have hshows : RateLimits.Shows .empty key c.now none := .inl OrderedMap.lookup_empty
      exact answers_alone hshows (List.isChain_cons_cons.mpr ⟨le_rfl, hclock⟩) hkept
  refine ⟨?_, ?_⟩
  · set own := calls.filter (·.key = key) with hown
    have hkeys : ∀ c ∈ own, c.key = key := by
      intro c hc
      simpa using (List.mem_filter.mp hc).2
    have hchain : (own.map (·.now)).IsChain (· ≤ ·) :=
      (hclock.pairwise.sublist (List.filter_sublist.map _)).isChain
    have hsame := halone hchain (neverEvicted_alone hkeys fun _ _ => OrderedMap.lookup_empty)
    have hall : ∀ s ∈ answers own .empty, s.1.key = key := by
      intro s hs
      apply hkeys
      rw [← map_fst_answers own .empty]
      exact List.mem_map_of_mem hs
    rw [halone hclock hkept, ← hown]
    rw [List.filter_eq_self.mpr (by simpa using hall), List.filter_eq_self.mpr (by simpa using hkeys)]
      at hsame
    exact hsame.symm
  · intro before c r after hsplit hkey
    have hown := halone hclock hkept
    rw [hsplit, List.filter_append, List.filter_cons_of_pos (by simpa using hkey)] at hown
    have hgrants := answersAlone_grants (w := none) (e := none) rfl hown.symm
    have hafter : epochOf key (before ++ [(c, r)]) = Epoch.follow (epochOf key before) (c, r) := by
      rw [epochOf, List.filter_append, List.filter_cons_of_pos (by simpa using hkey)]
      simp [epochOf]
    rw [hafter]
    exact hgrants

/-- Two sign-ins of one user with a single attempt a minute, another user between them, and a third
one a minute later. -/
def demoSignIns : List LimiterCall :=
  [⟨"login:ali", 0, .check 1 60⟩, ⟨"login:sara", 5000, .check 1 60⟩,
    ⟨"login:ali", 10000, .check 1 60⟩, ⟨"login:ali", 60000, .check 1 60⟩]

instance (key : String) (c : LimiterCall) (limits : RateLimits) : Decidable (Evicts key c limits) :=
  inferInstanceAs (Decidable (_ ∧ ∃ e ∈ limits.lookup key, _))

theorem demoSignIns_answers :
    (answers demoSignIns .empty).map (fun s => s.2.map (·.ok)) =
        [some true, some true, some false, some true] ∧
      (answers demoSignIns .empty).filter (·.1.key = "login:ali") =
        answers (demoSignIns.filter (·.key = "login:ali")) .empty ∧
      (runAll LimiterCall.exec demoSignIns .empty).size ≤ MAX_TRACKED_KEYS := by
  have hclock : (demoSignIns.map (·.now)).IsChain (· ≤ ·) := by decide
  have hkept : NeverEvicted "login:ali" demoSignIns .empty := by
    unfold NeverEvicted
    decide
  have hlimiter := limiter_of_calls demoSignIns hclock
  exact ⟨by decide, (hlimiter.2 _ hkept).1, hlimiter.1⟩

/-- With no attempt to spare the first call is allowed all the same. -/
theorem first_call_allowed :
    let calls := [⟨"login:ali", 0, .check 0 60⟩]
    NeverEvicted "login:ali" calls .empty ∧
      answers calls .empty = [(⟨"login:ali", 0, .check 0 60⟩, some ⟨true, -1⟩)] ∧
      ∃ e, epochOf "login:ali" (answers calls .empty) = some e ∧ ¬ (e.allowed : Int) ≤ 0 := by
  refine ⟨?_, by decide, ⟨60000, 1⟩, by decide, by decide⟩
  unfold NeverEvicted
  decide

end Pwos
