import Pwos.Db.Schema
import Pwos.Lib.Runs

/-!
# The tenant state cache

`lib/tenantState.ts` in one process. A probe of the users table is two reads whose results arrive
later; callers share the probe in flight, and its result is cached for 60 seconds. An invalidation
drops what is cached, but not the probe in flight: a probe that has counted the users before the
write may still answer, and fill the cache again, afterwards.
-/

namespace Pwos

def USER_PRESENCE_TTL_MS : Nat := 60000

structure UserRow where
  id : Uuid
  /-- The row has a username or an email. -/
  canSignIn : Bool
  deriving DecidableEq, Repr

structure TenantState where
  /-- Capped at 2. -/
  userCount : Nat
  singleUserId : Option Uuid
  authUsersExist : Bool
  expiresAt : Nat
  deriving DecidableEq, Repr

/-! ## Probes and calls -/

inductive ProbeKind where
  | state | verify
  deriving DecidableEq, Repr

/-- How far a run of `loadTenantState` has got, with what it has read. -/
inductive ProbePhase where
  | asked
  | counted (userCount : Nat) (singleUserId : Option Uuid)
  | checked (userCount : Nat) (singleUserId : Option Uuid) (authUsersExist : Bool)
  | loaded (s : TenantState)
  /-- The result is in the cache, and the probe still in flight. -/
  | stored (s : TenantState)
  | failed
  | settled (result : Option TenantState)
  deriving DecidableEq, Repr

structure Probe where
  kind : ProbeKind
  phase : ProbePhase := .asked
  deriving DecidableEq, Repr

inductive GateKind where
  | readTenantState | isMultiTenantCached
  deriving DecidableEq, Repr

inductive GatePhase where
  /-- The cached state was fresh. -/
  | ready (s : TenantState)
  | waiting (probe : Nat)
  | verifying (probe : Nat)
  | returned (s : TenantState)
  | answered (multiTenant : Bool)
  | threw
  deriving DecidableEq, Repr

def GatePhase.done : GatePhase → Bool
  | .returned _ | .answered _ | .threw => true
  | _ => false

structure GateCall where
  kind : GateKind
  phase : GatePhase
  /-- It started after an invalidation, and there have been two users or more all along. -/
  watched : Bool
  deriving DecidableEq, Repr

/-- The call says that there is one tenant at most. -/
def GateCall.DeniesTenants (c : GateCall) : Prop :=
  c.phase = .answered false ∨ ∃ s, c.phase = .returned s ∧ s.userCount ≤ 1

structure TenantProcess where
  now : Nat := 0
  users : List UserRow
  cachedState : Option TenantState := none
  inflightState : Option Nat := none
  inflightVerify : Option Nat := none
  probes : List Probe := []
  calls : List GateCall := []
  /-- There are two users or more, and the cache was dropped since. -/
  armed : Bool
  deriving DecidableEq, Repr

/-- The next thing that happens to a probe. -/
inductive ProbeMove where
  /-- The database answers the first query. -/
  | count
  | checkAuth
  /-- The second result has arrived. -/
  | load
  | fail
  /-- `cachedState = state`. -/
  | store
  /-- `finally`. -/
  | finish
  deriving DecidableEq, Repr

inductive TenantMove where
  | tick (ms : Nat)
  /-- A write to the users table commits. -/
  | write (users : List UserRow)
  | invalidate
  | call (kind : GateKind)
  | probe (probe : Nat) (move : ProbeMove)
  | resume (call : Nat)
  deriving Repr

namespace TenantProcess

/-- A process that starts, with nothing cached. -/
def start (users : List UserRow) : TenantProcess := { users, armed := 2 ≤ users.length }

variable (s : TenantProcess)

def inflight : ProbeKind → Option Nat
  | .state => s.inflightState
  | .verify => s.inflightVerify

def setInflight (probe : Option Nat) : ProbeKind → TenantProcess
  | .state => { s with inflightState := probe }
  | .verify => { s with inflightVerify := probe }

def phaseOf (probe : Nat) : Option ProbePhase := (s.probes[probe]?).map (·.phase)

def setPhase (probe : Nat) (phase : ProbePhase) : TenantProcess :=
  { s with probes := s.probes.modify probe fun p => { p with phase } }

/-- `select id from users limit 2`. -/
def counted : ProbePhase :=
  let rows := s.users.take 2
  .counted rows.length (if rows.length = 1 then rows.head?.map (·.id) else none)

/-- Share the probe in flight, or start one. -/
def join (kind : ProbeKind) : Nat × TenantProcess :=
  match s.inflight kind with
  | some p => (p, s)
  | none => (s.probes.length,
      { s with probes := s.probes ++ [Probe.mk kind .asked] }.setInflight (some s.probes.length) kind)

/-- `readTenantState`, up to its pause. -/
def enter : GatePhase × TenantProcess :=
  match s.cachedState.filter (s.now < ·.expiresAt) with
  | some c => (.ready c, s)
  | none => (.waiting (s.join .state).1, (s.join .state).2)

/-- On with the state: only `isMultiTenantCached` asks again, before it says yes. -/
def proceed (kind : GateKind) (c : TenantState) : GatePhase × TenantProcess :=
  match kind with
  | .readTenantState => (.returned c, s)
  | .isMultiTenantCached =>
    if c.userCount ≤ 1 then (.answered false, s)
    else (.verifying (s.join .verify).1, (s.join .verify).2)

/-- Where a call goes on when what it waits for is there. -/
def resumed (c : GateCall) : GatePhase × TenantProcess :=
  match c.phase with
  | .ready t => s.proceed c.kind t
  | .waiting p =>
    match s.phaseOf p with
    | some (.settled (some t)) => s.proceed c.kind t
    | some (.settled none) => (.threw, s)
    | _ => (c.phase, s)
  | .verifying p =>
    match s.phaseOf p with
    | some (.settled (some t)) => (.answered (1 < t.userCount), s)
    | some (.settled none) => (.threw, s)
    | _ => (c.phase, s)
  | phase => (phase, s)

def write (users : List UserRow) : TenantProcess :=
  { s with
    users, armed := s.armed && 2 ≤ users.length
    calls := s.calls.map fun c =>
      if c.phase.done then c else { c with watched := c.watched && 2 ≤ users.length } }

def invalidate : TenantProcess := { s with cachedState := none, armed := 2 ≤ s.users.length }

def begin (kind : GateKind) : TenantProcess :=
  { s.enter.2 with calls := s.calls ++ [{ kind, phase := s.enter.1, watched := s.armed }] }

def resume (i : Nat) : TenantProcess :=
  match s.calls[i]? with
  | some c => { (s.resumed c).2 with calls := s.calls.set i { c with phase := (s.resumed c).1 } }
  | none => s

/-- A move that has nothing to act on changes nothing. -/
def advance (probe : Nat) (move : ProbeMove) : TenantProcess :=
  match s.probes[probe]? with
  | none => s
  | some p =>
    match move, p.phase with
    | .count, .asked => s.setPhase probe s.counted
    | .checkAuth, .counted n single =>
      s.setPhase probe (.checked n single (s.users.any (·.canSignIn)))
    | .load, .checked n single auth =>
      s.setPhase probe (.loaded ⟨n, single, auth, s.now + USER_PRESENCE_TTL_MS⟩)
    | .fail, .asked | .fail, .counted _ _ | .fail, .checked _ _ _ => s.setPhase probe .failed
    | .store, .loaded t => { s.setPhase probe (.stored t) with cachedState := some t }
    | .finish, .stored t => (s.setPhase probe (.settled (some t))).setInflight none p.kind
    | .finish, .failed => (s.setPhase probe (.settled none)).setInflight none p.kind
    | _, _ => s

def step : TenantMove → TenantProcess → TenantProcess
  | .tick ms, s => { s with now := s.now + ms }
  | .write users, s => s.write users
  | .invalidate, s => s.invalidate
  | .call kind, s => s.begin kind
  | .probe p move, s => s.advance p move
  | .resume i, s => s.resume i

end TenantProcess

/-! ## What is never stale -/

namespace ProbePhase

/-- How many users the probe has counted. -/
def userCount : ProbePhase → Option Nat
  | .counted n _ | .checked n _ _ => some n
  | .loaded s | .stored s | .settled (some s) => some s.userCount
  | .asked | .failed | .settled none => none

def inFlight : ProbePhase → Bool
  | .settled _ => false
  | _ => true

/-- The probe has not counted fewer than two users. -/
def Current (phase : ProbePhase) : Prop := ∀ n ∈ phase.userCount, 1 < n

instance (phase : ProbePhase) : Decidable phase.Current :=
  inferInstanceAs (Decidable (∀ n ∈ phase.userCount, 1 < n))

end ProbePhase

namespace TenantProcess
variable {s : TenantProcess}

/-- No probe in flight has counted fewer than two users where there are two. -/
def Clean (s : TenantProcess) : Prop :=
  2 ≤ s.users.length → ∀ p ∈ s.probes, p.phase.inFlight = true → p.phase.Current

instance (s : TenantProcess) : Decidable s.Clean := inferInstanceAs (Decidable (_ → _))

/-- The cache is dropped only when no probe in flight counted before the write. -/
def InvalidatesClean : TenantMove → TenantProcess → Prop
  | .invalidate, s => s.Clean
  | _, _ => True

/-- A call on its way will see two users. -/
def Serves (s : TenantProcess) (c : GateCall) : Prop :=
  match c.phase with
  | .waiting i | .verifying i => s.armed = true ∧ ∀ p, s.probes[i]? = some p → p.phase.Current
  | .ready t => s.armed = true ∧ 1 < t.userCount
  | .returned t => 1 < t.userCount
  | .answered b => b = true
  | .threw => True

structure Sound (s : TenantProcess) : Prop where
  armed : s.armed = true → 2 ≤ s.users.length
  cached : s.armed = true → ∀ t ∈ s.cachedState, 1 < t.userCount
  probes : s.armed = true → ∀ p ∈ s.probes, p.phase.inFlight = true → p.phase.Current
  pointers : ∀ kind, ∀ i ∈ s.inflight kind, ∃ p, s.probes[i]? = some p ∧ p.kind = kind ∧
    p.phase.inFlight = true
  calls : ∀ c ∈ s.calls, c.watched = true → s.Serves c

theorem start_sound (users : List UserRow) : (start users).Sound where
  armed h := of_decide_eq_true h
  cached _ := by simp [start]
  probes _ := by simp [start]
  pointers kind := by cases kind <;> simp [start, inflight]
  calls := by simp [start]

theorem probe_setPhase {i j : Nat} {phase : ProbePhase} {q : Probe}
    (h : (s.setPhase i phase).probes[j]? = some q) : s.probes[j]? = some q ∨ q.phase = phase := by
  simp only [TenantProcess.setPhase, List.getElem?_modify] at h
  split at h
  · obtain ⟨p, -, rfl⟩ := Option.map_eq_some_iff.mp h
    exact .inr rfl
  · obtain ⟨p, hp, rfl⟩ := Option.map_eq_some_iff.mp h
    exact .inl hp

/-- What a call waits for may move on, as long as it stays current. -/
theorem Serves.mono {t : TenantProcess} {c : GateCall} (h : s.Serves c) (harmed : s.armed = t.armed)
    (hprobes : ∀ (j : Nat) q, t.probes[j]? = some q → s.probes[j]? = some q ∨
      (s.armed = true → q.phase.Current)) : t.Serves c := by
  have hwaits : ∀ j : Nat, (s.armed = true ∧ ∀ p, s.probes[j]? = some p → p.phase.Current) →
      t.armed = true ∧ ∀ q, t.probes[j]? = some q → q.phase.Current := by
    rintro j ⟨ha, hp⟩
    refine ⟨harmed ▸ ha, fun q hq => ?_⟩
    rcases hprobes j q hq with hq | hq
    · exact hp q hq
    · exact hq ha
  unfold Serves at h ⊢
  cases hphase : c.phase <;> simp only [hphase] at h ⊢
  case waiting j => exact hwaits j h
  case verifying j => exact hwaits j h
  case ready state => exact ⟨harmed ▸ h.1, h.2⟩
  all_goals exact h

/-- A probe moves on to a phase that is current, and whoever looks at the probes may. -/
theorem Sound.setPhase {i : Nat} {phase : ProbePhase} (hs : s.Sound)
    (hcurrent : s.armed = true → phase.Current) :
    (s.armed = true → ∀ q ∈ (s.setPhase i phase).probes, q.phase.inFlight = true →
      q.phase.Current) ∧ ∀ c ∈ s.calls, c.watched = true → (s.setPhase i phase).Serves c := by
  constructor
  · intro ha q hq hflight
    obtain ⟨j, hj⟩ := List.mem_iff_getElem?.mp hq
    rcases probe_setPhase hj with h | h
    · exact hs.probes ha q (List.mem_of_getElem? h) hflight
    · exact h ▸ hcurrent ha
  · intro c hc hw
    refine (hs.calls c hc hw).mono rfl fun j q hq => ?_
    rcases probe_setPhase hq with h | h
    · exact .inl h
    · exact .inr fun ha => h ▸ hcurrent ha

theorem Sound.pointers_of {t : TenantProcess} (hs : s.Sound)
    (hstate : t.inflightState = s.inflightState) (hverify : t.inflightVerify = s.inflightVerify)
    (hprobes : t.probes = s.probes) : ∀ kind, ∀ i ∈ t.inflight kind,
      ∃ p, t.probes[i]? = some p ∧ p.kind = kind ∧ p.phase.inFlight = true := by
  intro kind i hi
  have hsame : t.inflight kind = s.inflight kind := by cases kind <;> assumption
  rw [hprobes]
  exact hs.pointers kind i (hsame ▸ hi)

theorem Sound.tick (hs : s.Sound) (ms : Nat) : Sound { s with now := s.now + ms } where
  armed := hs.armed
  cached := hs.cached
  probes := hs.probes
  pointers := hs.pointers_of rfl rfl rfl
  calls c hc hw := (hs.calls c hc hw).mono rfl fun _ _ h => .inl h

theorem Sound.write (hs : s.Sound) (users : List UserRow) : (s.write users).Sound := by
  have harmed : (s.write users).armed = true → s.armed = true ∧ 2 ≤ users.length := by
    simp [TenantProcess.write]
  refine ⟨fun h => (harmed h).2, fun h => hs.cached (harmed h).1, fun h => hs.probes (harmed h).1,
    hs.pointers_of rfl rfl rfl, fun c hc hw => ?_⟩
  · obtain ⟨d, hd, rfl⟩ := List.mem_map.mp hc
    split at hw
    · -- What a finished call said it has said.
      rename_i hdone
      rw [if_pos hdone]
      have hserves := hs.calls d hd hw
      unfold Serves at hserves ⊢
      cases hphase : d.phase <;> simp_all [GatePhase.done]
    · rename_i hopen
      rw [if_neg hopen]
      simp only [Bool.and_eq_true, decide_eq_true_eq] at hw
      have hserves := hs.calls d hd hw.1
      unfold Serves at hserves ⊢
      cases hphase : d.phase <;> simp_all [GatePhase.done, TenantProcess.write]

theorem Sound.invalidate (hs : s.Sound) (hclean : s.Clean) : s.invalidate.Sound := by
  have harmed : s.invalidate.armed = true → 2 ≤ s.users.length := by
    simp [TenantProcess.invalidate]
  refine ⟨harmed, fun _ => by simp [TenantProcess.invalidate],
    fun h => hclean (harmed h), hs.pointers_of rfl rfl rfl, fun c hc hw => ?_⟩
  · -- A call that is watched is armed already.
    have hserves := hs.calls c hc hw
    have hstill : s.armed = true → s.invalidate.armed = true := fun h => by
      simpa [TenantProcess.invalidate] using hs.armed h
    unfold Serves at hserves ⊢
    cases hphase : c.phase <;> simp_all [TenantProcess.invalidate]

theorem getElem?_setPhase {i j : Nat} {phase : ProbePhase} :
    (s.setPhase i phase).probes[j]? =
      (s.probes[j]?).map fun p => if i = j then { p with phase } else p := by
  simp only [TenantProcess.setPhase, List.getElem?_modify]
  split <;> simp

/-- A probe that stays in flight. -/
theorem Sound.moved {i : Nat} {phase : ProbePhase} {cached : Option TenantState} (hs : s.Sound)
    (hcurrent : s.armed = true → phase.Current) (hflight : phase.inFlight = true)
    (hcached : s.armed = true → ∀ t ∈ cached, 1 < t.userCount) :
    Sound { s.setPhase i phase with cachedState := cached } := by
  obtain ⟨hprobes, hcalls⟩ := hs.setPhase (i := i) hcurrent
  refine ⟨hs.armed, hcached, hprobes, fun kind j hj => ?_, fun c hc hw => ?_⟩
  · obtain ⟨p, hp, hkind, hp'⟩ := hs.pointers kind j (by cases kind <;> exact hj)
    refine ⟨_, getElem?_setPhase.trans (congrArg _ hp), ?_, ?_⟩
    · split <;> exact hkind
    · split
      · exact hflight
      · exact hp'
  · exact (hcalls c hc hw).mono rfl fun _ _ h => .inl h

/-- A probe that is over is nobody's to join. -/
theorem Sound.settled {i : Nat} {p : Probe} {result : Option TenantState} (hs : s.Sound)
    (hp : s.probes[i]? = some p) (hcurrent : s.armed = true → (ProbePhase.settled result).Current) :
    ((s.setPhase i (.settled result)).setInflight none p.kind).Sound := by
  obtain ⟨hprobes, hcalls⟩ := hs.setPhase (i := i) hcurrent
  have hsame : ∀ kind, (s.setPhase i (.settled result)).inflight kind = s.inflight kind := by
    intro kind
    cases kind <;> rfl
  have hother : ∀ kind, ∀ j ∈ ((s.setPhase i (.settled result)).setInflight none p.kind).inflight kind,
      kind ≠ p.kind ∧ j ∈ s.inflight kind := by
    intro kind j hj
    rw [← hsame]
    cases kind <;> cases hk : p.kind <;> simp_all [setInflight, inflight]
  have htables : ∀ kind (t : TenantProcess), (t.setInflight none kind).probes = t.probes ∧
      (t.setInflight none kind).armed = t.armed ∧ (t.setInflight none kind).calls = t.calls ∧
      (t.setInflight none kind).users = t.users ∧
      (t.setInflight none kind).cachedState = t.cachedState := by
    intro kind t
    cases kind <;> exact ⟨rfl, rfl, rfl, rfl, rfl⟩
  obtain ⟨h₁, h₂, h₃, h₄, h₅⟩ := htables p.kind (s.setPhase i (.settled result))
  refine ⟨?_, ?_, ?_, fun kind j hj => ?_, fun c hc hw => ?_⟩
  · rw [h₂, h₄]
    exact hs.armed
  · rw [h₂, h₅]
    exact hs.cached
  · rw [h₁, h₂]
    exact hprobes
  · obtain ⟨hne, hj⟩ := hother kind j hj
    obtain ⟨q, hq, hkind, hflight⟩ := hs.pointers kind j hj
    have hij : i ≠ j := by
      rintro rfl
      rw [hp] at hq
      cases hq
      exact hne hkind.symm
    refine ⟨q, ?_, hkind, hflight⟩
    rw [h₁, getElem?_setPhase, hq]
    simp [hij]
  · rw [h₃] at hc
    exact (hcalls c hc hw).mono h₂.symm fun j q hq => .inl (h₁ ▸ hq)

theorem counted_current (h : 2 ≤ s.users.length) : s.counted.Current := by
  intro n hn
  have hlength : (s.users.take 2).length = 2 := by
    rw [List.length_take]
    omega
  simp only [counted, ProbePhase.userCount, hlength, Option.mem_def, Option.some.injEq] at hn
  omega

theorem Sound.advance (hs : s.Sound) (i : Nat) (move : ProbeMove) : (s.advance i move).Sound := by
  unfold TenantProcess.advance
  split
  · exact hs
  · rename_i p hp
    have hmem := List.mem_of_getElem? hp
    have hold : s.armed = true → p.phase.inFlight = true → p.phase.Current := fun ha =>
      hs.probes ha p hmem
    split <;> rename_i hphase <;> try rw [hphase] at hold
    · exact hs.moved (fun ha => counted_current (hs.armed ha)) rfl hs.cached
    · exact hs.moved (fun ha => hold ha rfl) rfl hs.cached
    · exact hs.moved (fun ha => hold ha rfl) rfl hs.cached
    · exact hs.moved (fun _ => nofun) rfl hs.cached
    · exact hs.moved (fun _ => nofun) rfl hs.cached
    · exact hs.moved (fun _ => nofun) rfl hs.cached
    · refine hs.moved (fun ha => hold ha rfl) rfl fun ha t ht => ?_
      cases ht
      exact hold ha rfl _ rfl
    · exact hs.settled hp fun ha => hold ha rfl
    · exact hs.settled hp fun _ => nofun
    · exact hs

theorem Sound.withCalls {calls : List GateCall} (hs : s.Sound)
    (h : ∀ c ∈ calls, c.watched = true → s.Serves c) : Sound { s with calls } where
  armed := hs.armed
  cached := hs.cached
  probes := hs.probes
  pointers := hs.pointers_of rfl rfl rfl
  calls c hc hw := (h c hc hw).mono rfl fun _ _ h => .inl h

/-- What follows from joining a probe, new or not. -/
structure Joined (s : TenantProcess) (i : Nat) (t : TenantProcess) : Prop where
  sound : t.Sound
  armed : t.armed = s.armed
  calls : t.calls = s.calls
  current : s.armed = true → ∀ p, t.probes[i]? = some p → p.phase.Current

theorem Sound.join (hs : s.Sound) (kind : ProbeKind) :
    Joined s (s.join kind).1 (s.join kind).2 := by
  unfold TenantProcess.join
  split
  · rename_i i hi
    refine ⟨hs, rfl, rfl, fun ha p hp => ?_⟩
    obtain ⟨q, hq, -, hflight⟩ := hs.pointers kind i hi
    cases hp.symm.trans hq
    exact hs.probes ha p (List.mem_of_getElem? hp) hflight
  · rename_i hnone
    -- The new probe has counted nothing yet.
    set t := ({ s with probes := s.probes ++ [Probe.mk kind .asked] } : TenantProcess).setInflight
      (some s.probes.length) kind with ht
    have hprobes : t.probes = s.probes ++ [Probe.mk kind .asked] := by rw [ht]; cases kind <;> rfl
    have hsame : t.armed = s.armed ∧ t.users = s.users ∧ t.cachedState = s.cachedState ∧
        t.calls = s.calls := by
      rw [ht]
      cases kind <;> exact ⟨rfl, rfl, rfl, rfl⟩
    obtain ⟨harmed, husers, hcached, hcalls⟩ := hsame
    have hlook : ∀ (j : Nat) q, t.probes[j]? = some q → s.probes[j]? = some q ∨
        (s.armed = true → q.phase.Current) := by
      intro j q hq
      rw [hprobes, List.getElem?_append] at hq
      split at hq
      · exact .inl hq
      · obtain rfl : q = ⟨kind, .asked⟩ := by
          simpa using List.mem_of_getElem? hq
        exact .inr fun _ => nofun
    refine ⟨⟨?_, ?_, fun ha q hq hflight => ?_, fun k j hj => ?_, fun c hc hw => ?_⟩, harmed, hcalls,
      fun ha p hp => ?_⟩
    · rw [harmed, husers]
      exact hs.armed
    · rw [harmed, hcached]
      exact hs.cached
    · obtain ⟨j, hj⟩ := List.mem_iff_getElem?.mp hq
      rcases hlook j q hj with h | h
      · exact hs.probes (harmed ▸ ha) q (List.mem_of_getElem? h) hflight
      · exact h (harmed ▸ ha)
    · have hpointer : k = kind ∧ j = s.probes.length ∨ j ∈ s.inflight k := by
        rw [ht] at hj
        cases kind <;> cases k <;> simp_all [setInflight, inflight]
      rcases hpointer with ⟨rfl, rfl⟩ | hj
      · exact ⟨⟨k, .asked⟩, by simp [hprobes], rfl, rfl⟩
      · obtain ⟨q, hq, hrest⟩ := hs.pointers k j hj
        refine ⟨q, ?_, hrest⟩
        rw [hprobes, List.getElem?_append_left (List.getElem?_eq_some_iff.mp hq).1]
        exact hq
    · rw [hcalls] at hc
      exact (hs.calls c hc hw).mono harmed.symm hlook
    · rcases hlook _ p hp with h | h
      · simp at h
      · exact h ha

theorem Sound.begin (hs : s.Sound) (kind : GateKind) : (s.begin kind).Sound := by
  unfold TenantProcess.begin enter
  cases hfresh : s.cachedState.filter (s.now < ·.expiresAt) with
  | some c =>
    refine hs.withCalls fun d hd hw => ?_
    rcases List.mem_append.mp hd with hd | hd
    · exact hs.calls d hd hw
    · obtain rfl := List.mem_singleton.mp hd
      exact ⟨hw, hs.cached hw c (Option.filter_eq_some_iff.mp hfresh).1⟩
  | none =>
    have hjoin := hs.join .state
    refine hjoin.sound.withCalls fun d hd hw => ?_
    rcases List.mem_append.mp hd with hd | hd
    · exact hjoin.sound.calls d (hjoin.calls ▸ hd) hw
    · obtain rfl := List.mem_singleton.mp hd
      exact ⟨hjoin.armed.trans hw, hjoin.current hw⟩

/-- Where a call goes on: the rest of the process is sound, and the call still served. -/
structure Resumed (s : TenantProcess) (watched : Bool) (r : GatePhase × TenantProcess) : Prop where
  sound : r.2.Sound
  calls : r.2.calls = s.calls
  serves : watched = true → ∀ kind, r.2.Serves ⟨kind, r.1, watched⟩

theorem Sound.stays (hs : s.Sound) {watched : Bool} {phase : GatePhase}
    (h : watched = true → ∀ kind, s.Serves ⟨kind, phase, watched⟩) :
    Resumed s watched (phase, s) := ⟨hs, rfl, h⟩

theorem Sound.proceed (hs : s.Sound) (kind : GateKind) {t : TenantState} {watched : Bool}
    (h : watched = true → s.armed = true ∧ 1 < t.userCount) :
    Resumed s watched (s.proceed kind t) := by
  cases kind with
  | readTenantState => exact hs.stays fun hw _ => (h hw).2
  | isMultiTenantCached =>
    unfold TenantProcess.proceed
    simp only
    split
    · rename_i hone
      refine hs.stays fun hw => ?_
      have := (h hw).2
      omega
    · have hjoin := hs.join .verify
      exact ⟨hjoin.sound, hjoin.calls, fun hw _ =>
        ⟨hjoin.armed.trans (h hw).1, hjoin.current (h hw).1⟩⟩

theorem settled_current {i : Nat} {t : TenantState}
    (hphase : s.phaseOf i = some (.settled (some t)))
    (h : ∀ p, s.probes[i]? = some p → p.phase.Current) : 1 < t.userCount := by
  obtain ⟨p, hp, hsettled⟩ := Option.map_eq_some_iff.mp hphase
  have hcurrent := h p hp
  rw [hsettled] at hcurrent
  exact hcurrent _ rfl

theorem Sound.resumed (hs : s.Sound) {c : GateCall} (hc : c.watched = true → s.Serves c) :
    Resumed s c.watched (s.resumed c) := by
  have hstill : ∀ phase, c.phase = phase → c.watched = true → ∀ kind,
      s.Serves ⟨kind, phase, c.watched⟩ := by
    rintro phase rfl hw kind
    exact hc hw
  unfold TenantProcess.resumed
  cases hphase : c.phase with
  | ready t =>
    exact hs.proceed c.kind fun hw => hstill _ hphase hw c.kind
  | waiting i =>
    have hserves := hstill _ hphase
    simp only
    split
    · rename_i t hsettled
      exact hs.proceed c.kind fun hw =>
        ⟨(hserves hw c.kind).1, settled_current hsettled (hserves hw c.kind).2⟩
    · exact hs.stays fun _ _ => trivial
    · exact hs.stays hserves
  | verifying i =>
    have hserves := hstill _ hphase
    simp only
    split
    · rename_i t hsettled
      exact hs.stays fun hw _ =>
        decide_eq_true (settled_current hsettled (hserves hw c.kind).2)
    · exact hs.stays fun _ _ => trivial
    · exact hs.stays hserves
  | returned t => exact hs.stays (hstill _ hphase)
  | answered b => exact hs.stays (hstill _ hphase)
  | threw => exact hs.stays (hstill _ hphase)

theorem Sound.resume (hs : s.Sound) (i : Nat) : (s.resume i).Sound := by
  unfold TenantProcess.resume
  split
  · rename_i c hi
    have hgoes := hs.resumed (hs.calls c (List.mem_of_getElem? hi))
    refine hgoes.sound.withCalls fun d hd hw => ?_
    rcases List.mem_or_eq_of_mem_set hd with hd | rfl
    · exact hgoes.sound.calls d (hgoes.calls ▸ hd) hw
    · exact hgoes.serves hw _
  · exact hs

theorem step_sound (move : TenantMove) (s : TenantProcess) (hs : s.Sound)
    (hclean : InvalidatesClean move s) : (step move s).Sound := by
  cases move with
  | tick ms => exact hs.tick ms
  | write users => exact hs.write users
  | invalidate => exact hs.invalidate hclean
  | call kind => exact hs.begin kind
  | probe i move => exact hs.advance i move
  | resume i => exact hs.resume i

theorem run_sound (moves : List TenantMove) (users : List UserRow)
    (hclean : EveryCall step InvalidatesClean moves (start users)) :
    (runAll step moves (start users)).Sound :=
  runAll_keeps_of step_sound moves (start_sound users) hclean

theorem Serves.not_denies {c : GateCall} (h : s.Serves c) : ¬ c.DeniesTenants := by
  unfold Serves at h
  rintro (hphase | ⟨t, hphase, hone⟩)
  · rw [hphase] at h
    cases h
  · rw [hphase] at h
    have : 1 < t.userCount := h
    omega

/-! ## Calls after an invalidation -/

/-- Where the cache is only ever dropped with no outdated probe in flight, no call that starts
afterwards denies the second user. -/
theorem tenant_state_current (users : List UserRow) (moves : List TenantMove)
    (hclean : EveryCall step InvalidatesClean moves (start users)) :
    ∀ c ∈ (runAll step moves (start users)).calls, c.watched = true → ¬ c.DeniesTenants :=
  fun c hc hw => ((run_sound moves users hclean).calls c hc hw).not_denies

def owner : UserRow := ⟨1, true⟩
def invited : UserRow := ⟨2, true⟩

/-- The owner reads the state, a second user signs up, and the next call asks again. -/
def signUp : List TenantMove :=
  [.call .readTenantState, .probe 0 .count, .probe 0 .checkAuth, .probe 0 .load, .probe 0 .store,
    .probe 0 .finish, .resume 0, .write [owner, invited], .invalidate, .call .isMultiTenantCached,
    .probe 1 .count, .probe 1 .checkAuth, .probe 1 .load, .probe 1 .store, .probe 1 .finish,
    .resume 1]

theorem sign_up_seen :
    (runAll step signUp (start [owner])).calls.any (·.watched) = true ∧
      ∀ c ∈ (runAll step signUp (start [owner])).calls, c.watched = true → ¬ c.DeniesTenants :=
  ⟨by decide, tenant_state_current [owner] signUp
    ⟨trivial, trivial, trivial, trivial, trivial, trivial, trivial, trivial,
      (by decide : Clean _), trivial, trivial, trivial, trivial, trivial, trivial, trivial, trivial⟩⟩

/-- The same sign-up while the first probe has counted, and not answered. -/
def overtaken : List TenantMove :=
  [.call .readTenantState, .probe 0 .count, .write [owner, invited], .invalidate,
    .call .isMultiTenantCached, .probe 0 .checkAuth, .probe 0 .load, .probe 0 .store,
    .probe 0 .finish, .resume 1]

/-- The call joins the probe that counted one user, is told so, and leaves it in the cache. -/
theorem invalidation_overtaken :
    let s := runAll step overtaken (start [owner])
    s.users = [owner, invited] ∧
    s.calls[1]? = some ⟨.isMultiTenantCached, .answered false, true⟩ ∧
    s.cachedState = some ⟨1, some 1, true, 60000⟩ := by decide

end TenantProcess

end Pwos
