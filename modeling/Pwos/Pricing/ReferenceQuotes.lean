import Mathlib.Tactic
import Pwos.Lib.Runs

/-!
# Reference prices over several instances

`features/pricing/referenceQuotes.ts`. A run of `refreshOne` reads the day's request count, claims
the lease of its source in one statement, asks the provider, stores the quotes in chunks and records
how it went. Runs of any instances interleave between these statements; a run may crash at any time,
and a statement that fails has changed nothing. Times are in milliseconds.
-/

namespace Pwos

/-- A fetch holds its lease this long at most. -/
def LEASE_MS : Nat := 60000
def BACKOFF_BASE_MS : Nat := 2 * 60000
def BACKOFF_MAX_MS : Nat := 60 * 60000
def REJECTED_BACKOFF_MS : Nat := 6 * 60 * 60000
def MAX_ATTEMPTS_PER_FETCH : Nat := 3
def UPSERT_CHUNK : Nat := 200
def TEHRAN_OFFSET_MS : Nat := 12600000
def MS_PER_DAY : Nat := 86400000

/-- The Tehran calendar day, counted from 1 January 1970. -/
def tehranDay (now : Nat) : Nat := (now + TEHRAN_OFFSET_MS) / MS_PER_DAY

def nextTehranMidnight (now : Nat) : Nat := (tehranDay now + 1) * MS_PER_DAY - TEHRAN_OFFSET_MS

/-! ## Sources -/

inductive BrsFeed where
  | gold_currency | commodity | tsetmc
  deriving DecidableEq, Repr

def BRS_FEEDS : List BrsFeed := [.gold_currency, .commodity, .tsetmc]

inductive ReferenceSourceId where
  | goldApi
  | brsapi (feed : BrsFeed)
  deriving DecidableEq, Repr

def ReferenceSourceId.isBrs : ReferenceSourceId → Bool
  | .goldApi => false
  | .brsapi _ => true

/-- The provider that is asked for a source. -/
def ReferenceSourceId.provider : ReferenceSourceId → String
  | .goldApi => "gold-api"
  | .brsapi _ => "brsapi"

structure GoldApiConfig where
  enabled : Bool := true
  intervalMs : Nat := 60000
  deriving DecidableEq, Repr

structure BrsApiConfig where
  enabled : Bool := true
  hasKey : Bool
  feeds : List BrsFeed := BRS_FEEDS
  intervalMs : Nat := 300000
  /-- Requests in a Tehran day, of all BrsAPI feeds together. -/
  dailyBudget : Nat := 1200
  deriving DecidableEq, Repr

structure ReferenceConfig where
  goldApi : GoldApiConfig
  brsapi : BrsApiConfig
  deriving DecidableEq, Repr

def disabledReason (config : ReferenceConfig) : ReferenceSourceId → Option String
  | .goldApi => if config.goldApi.enabled then none else some "با GOLD_API_ENABLED خاموش شده است."
  | .brsapi feed =>
    if !config.brsapi.enabled then some "با BRSAPI_ENABLED خاموش شده است."
    else if !config.brsapi.hasKey then some "کلید BRSAPI_KEY تنظیم نشده است."
    else if !config.brsapi.feeds.contains feed then some "این بخش در BRSAPI_FEEDS نیست."
    else none

def ReferenceConfig.intervalMs (config : ReferenceConfig) : ReferenceSourceId → Nat
  | .goldApi => config.goldApi.intervalMs
  | .brsapi _ => config.brsapi.intervalMs

inductive PriceFailureCode where
  | missing_configuration | rate_limited | upstream_error | timeout | network_failure
  | invalid_response | asset_not_found | quota_exhausted | rejected_request
  deriving DecidableEq, Repr

/-! ## The status row of a source -/

structure SourceStatus where
  leaseUntil : Option Nat := none
  lastAttemptAt : Option Nat := none
  lastSuccessAt : Option Nat := none
  lastErrorAt : Option Nat := none
  lastErrorCode : Option PriceFailureCode := none
  consecutiveFailures : Nat := 0
  backoffUntil : Option Nat := none
  quotaDay : Option Nat := none
  requestsToday : Nat := 0
  quotaExhaustedUntil : Option Nat := none
  lastQuoteCount : Option Nat := none
  lastRejectedCount : Option Nat := none
  deriving DecidableEq, Repr

/-- `market_source_status`; `source` is its primary key. -/
abbrev StatusTable := ReferenceSourceId → Option SourceStatus

/-- The requests counted for the day, over the rows of the BrsAPI feeds. -/
def brsRequestsToday (status : StatusTable) (day : Nat) : Nat :=
  (BRS_FEEDS.map fun feed =>
    match status (.brsapi feed) with
    | some row => if row.quotaDay = some day then row.requestsToday else 0
    | none => 0).sum

/-- One statement: the row it writes, or nothing where the source is not to be had. -/
def claimSource (intervalMs now : Nat) : Option SourceStatus → Option SourceStatus
  | none => some { leaseUntil := some (now + LEASE_MS), lastAttemptAt := some now,
                   quotaDay := some (tehranDay now) }
  | some row =>
    if (∀ t ∈ row.leaseUntil, t ≤ now) ∧ (∀ t ∈ row.lastAttemptAt, t + intervalMs ≤ now) ∧
        (∀ t ∈ row.backoffUntil, t ≤ now) ∧ (∀ t ∈ row.quotaExhaustedUntil, t ≤ now) then
      some { row with
        leaseUntil := some (now + LEASE_MS), lastAttemptAt := some now
        requestsToday := if row.quotaDay = some (tehranDay now) then row.requestsToday else 0
        quotaDay := some (tehranDay now) }
    else none

def recordSuccess (now attempts quotes rejected : Nat) (row : SourceStatus) : SourceStatus :=
  { row with
    leaseUntil := none, lastSuccessAt := some now, consecutiveFailures := 0, backoffUntil := none
    lastQuoteCount := some quotes, lastRejectedCount := some rejected
    requestsToday := row.requestsToday + attempts }

/-- When a failed source may be asked again. The product of the transient gaps is a `bigint`, and
the statement raises where it does not fit. -/
def backoffAfter (now failures : Nat) : PriceFailureCode → Option Nat
  | .rejected_request | .missing_configuration => some (now + REJECTED_BACKOFF_MS)
  | _ =>
    if BACKOFF_BASE_MS * 2 ^ failures < 2 ^ 63 then
      some (now + min (BACKOFF_BASE_MS * 2 ^ failures) BACKOFF_MAX_MS)
    else none

def recordFailure (now attempts : Nat) (code : PriceFailureCode) (row : SourceStatus) :
    Option SourceStatus :=
  (backoffAfter now row.consecutiveFailures code).map fun backoff =>
    { row with
      leaseUntil := none, lastErrorAt := some now, lastErrorCode := some code
      consecutiveFailures := row.consecutiveFailures + 1, backoffUntil := some backoff
      quotaExhaustedUntil := if code = .quota_exhausted then some (nextTehranMidnight now)
        else row.quotaExhaustedUntil
      requestsToday := row.requestsToday + attempts }

/-! ## Stored quotes -/

structure QuoteMeta where
  instrumentId : String
  quantityUnit : String
  sourceUnitQuantity : String
  basis : String
  observedAtInferred : Option Bool := none
  extra : Option (List (String × String)) := none
  deriving DecidableEq, Repr

structure PriceQuote where
  price : String
  currency : String
  observedAt : Nat
  fetchedAt : Nat
  quoteMeta : Option QuoteMeta := none
  deriving DecidableEq, Repr

structure ReferenceQuoteRow where
  instrumentId : String
  price : String
  currency : String
  quantityUnit : String
  sourceUnitQuantity : String
  basis : String
  observedAt : Nat
  observedAtInferred : Bool
  fetchedAt : Nat
  extra : Option (List (String × String))
  deriving DecidableEq, Repr

def PriceQuote.row (ref : String) (q : PriceQuote) : ReferenceQuoteRow where
  instrumentId := (q.quoteMeta.map (·.instrumentId)).getD ref
  price := q.price
  currency := q.currency
  quantityUnit := (q.quoteMeta.map (·.quantityUnit)).getD "unit"
  sourceUnitQuantity := (q.quoteMeta.map (·.sourceUnitQuantity)).getD "1"
  basis := (q.quoteMeta.map (·.basis)).getD "unspecified"
  observedAt := q.observedAt
  observedAtInferred := (q.quoteMeta.bind (·.observedAtInferred)).getD false
  fetchedAt := q.fetchedAt
  extra := q.quoteMeta.bind (·.extra)

/-- `market_reference_quotes`; source and ref are its primary key. -/
abbrev QuoteTable := String → String → Option ReferenceQuoteRow

/-- The row of one value: a stored row gives way to one whose source time is not older. -/
def upsertQuote (source : String) (table : QuoteTable) (value : String × PriceQuote) : QuoteTable :=
  fun s ref =>
    if s = source ∧ ref = value.1 then
      match table s ref with
      | none => some (value.2.row ref)
      | some row => if row.observedAt ≤ value.2.observedAt then some (value.2.row ref) else some row
    else table s ref

/-- One `INSERT` of `persistReferenceQuotes`. -/
def upsertChunk (source : String) (chunk : List (String × PriceQuote)) (table : QuoteTable) :
    QuoteTable :=
  chunk.foldl (upsertQuote source) table

/-! ## Runs -/

inductive RefreshOutcome where
  | disabled (reason : String)
  | skipped
  | ok (quotes rejected : Nat)
  | failed (code : PriceFailureCode)
  deriving DecidableEq, Repr

/-- What the last statement of a run is to record. -/
inductive FetchRecord where
  | success (quotes rejected : Nat)
  | failure (code : PriceFailureCode)
  deriving DecidableEq, Repr

def FetchRecord.outcome : FetchRecord → RefreshOutcome
  | .success quotes rejected => .ok quotes rejected
  | .failure code => .failed code

/-- The row `recordSuccess` or `recordFailure` leaves. -/
def FetchRecord.write (at_ attempts : Nat) : FetchRecord → SourceStatus → Option SourceStatus
  | .success quotes rejected, row => some (recordSuccess at_ attempts quotes rejected row)
  | .failure code, row => recordFailure at_ attempts code row

/-- The next statement of a run. -/
inductive RunPhase where
  | budgeting
  /-- With the requests it has read, where the source is one of BrsAPI. -/
  | claiming (used : Option Nat)
  | fetching
  | persisting (rest : List (String × PriceQuote)) (quotes rejected : Nat)
  /-- `caught`: from the `catch` block, which does not try again. -/
  | recording (at_ : Nat) (record : FetchRecord) (caught : Bool)
  | ended (outcome : RefreshOutcome)
  | crashed
  deriving DecidableEq, Repr

structure RefreshRun where
  source : ReferenceSourceId
  /-- The clock, read once before the claim. -/
  now : Nat
  phase : RunPhase
  attempts : Nat := 0
  /-- The lease it claimed, until it has recorded how it went. -/
  lease : Option Nat := none
  deriving DecidableEq, Repr

/-- What a provider returns: quotes and what it could not price, or a refusal of the feed. -/
inductive ProviderAnswer where
  | returned (quotes : List (String × PriceQuote)) (failures : List PriceFailureCode)
  | refused (code : PriceFailureCode)
  deriving DecidableEq, Repr

inductive RunMove where
  | budget
  | claim
  /-- One HTTP request is sent. -/
  | attempt
  | fetched (answer : ProviderAnswer)
  | persist
  | record
  /-- What it waits for throws. -/
  | fault
  | crash
  deriving DecidableEq, Repr

inductive RefreshMove where
  | tick (ms : Nat)
  | start (source : ReferenceSourceId)
  | run (i : Nat) (move : RunMove)
  deriving DecidableEq, Repr

structure ReferenceState where
  now : Nat
  status : StatusTable := fun _ => none
  quotes : QuoteTable := fun _ _ => none
  runs : List RefreshRun := []
  /-- The Tehran day of every BrsAPI request sent. -/
  requests : List Nat := []
  /-- Every quote a provider returned, with the provider and the ref. -/
  given : List (String × String × PriceQuote) := []

namespace ReferenceState
variable (config : ReferenceConfig) (registry : List String) (s : ReferenceState)

def setStatus (source : ReferenceSourceId) (row : SourceStatus) : ReferenceState :=
  { s with status := fun other => if other = source then some row else s.status other }

def setRun (i : Nat) (r : RefreshRun) : ReferenceState := { s with runs := s.runs.set i r }

/-- `refreshOne`, up to its first statement. -/
def begin (source : ReferenceSourceId) : ReferenceState :=
  { s with
    runs := s.runs ++ [{
      source, now := s.now
      phase := match disabledReason config source with
        | some reason => .ended (.disabled reason)
        | none =>
          if !registry.contains source.provider then
            .ended (.disabled "منبع در این نمونهٔ برنامه ثبت نشده است.")
          else if source.isBrs then .budgeting
          else .claiming none }] }

/-- The phase after the day's requests are read. -/
def budgeted (r : RefreshRun) : RunPhase :=
  let used := brsRequestsToday s.status (tehranDay r.now)
  if config.brsapi.dailyBudget < used + MAX_ATTEMPTS_PER_FETCH then .ended .skipped
  else .claiming (some used)

def claim (i : Nat) (r : RefreshRun) : ReferenceState :=
  match claimSource (config.intervalMs r.source) r.now (s.status r.source) with
  | none => s.setRun i { r with phase := .ended .skipped }
  | some row => (s.setStatus r.source row).setRun i
      { r with phase := .fetching, lease := some (r.now + LEASE_MS) }

def attempt (i : Nat) (r : RefreshRun) : ReferenceState :=
  if r.source.isBrs ∧ r.attempts < MAX_ATTEMPTS_PER_FETCH then
    { s.setRun i { r with attempts := r.attempts + 1 } with
      requests := tehranDay s.now :: s.requests }
  else s

/-- The run with the provider's answer. Gold API counts a request for each of its two metals. -/
def answered (r : RefreshRun) : ProviderAnswer → RefreshRun
  | .refused code =>
    if r.source.isBrs then { r with phase := .recording s.now (.failure code) false } else r
  | .returned quotes failures =>
    if r.source.isBrs then { r with phase := .persisting quotes quotes.length failures.length }
    else
      { r with
        attempts := 2
        phase := if quotes.isEmpty then
            .recording s.now (.failure (failures.head?.getD .upstream_error)) false
          else .persisting quotes quotes.length failures.length }

def takeAnswer (i : Nat) (r : RefreshRun) (answer : ProviderAnswer) : ReferenceState :=
  { s.setRun i (s.answered r answer) with
    given := match answer with
      | .returned quotes _ => quotes.map (fun q => (r.source.provider, q)) ++ s.given
      | .refused _ => s.given }

def persist (i : Nat) (r : RefreshRun) (rest : List (String × PriceQuote))
    (quotes rejected : Nat) : ReferenceState :=
  if rest.isEmpty then
    s.setRun i { r with phase := .recording s.now (.success quotes rejected) false }
  else
    { s.setRun i { r with phase := .persisting (rest.drop UPSERT_CHUNK) quotes rejected } with
      quotes := upsertChunk r.source.provider (rest.take UPSERT_CHUNK) s.quotes }

/-- Where a run goes when what it waits for throws. -/
def faulted (r : RefreshRun) : RunPhase :=
  match r.phase with
  | .budgeting | .claiming _ | .recording _ _ true => .ended (.failed .upstream_error)
  | .fetching | .persisting _ _ _ | .recording _ _ false =>
    .recording s.now (.failure .upstream_error) true
  | phase => phase

def record (i : Nat) (r : RefreshRun) (at_ : Nat) (result : FetchRecord) : ReferenceState :=
  let finished := { r with phase := .ended (result.outcome), lease := none }
  match s.status r.source with
  | none => s.setRun i finished
  | some row =>
    match result.write at_ r.attempts row with
    | some row => (s.setStatus r.source row).setRun i finished
    | none => s.setRun i { r with phase := s.faulted r }

/-- A move that is not the run's next one changes nothing. -/
def act (i : Nat) (r : RefreshRun) (move : RunMove) : ReferenceState :=
  match move, r.phase with
  | .budget, .budgeting => s.setRun i { r with phase := s.budgeted config r }
  | .claim, .claiming _ => s.claim config i r
  | .attempt, .fetching => s.attempt i r
  | .fetched answer, .fetching => s.takeAnswer i r answer
  | .persist, .persisting rest quotes rejected => s.persist i r rest quotes rejected
  | .record, .recording at_ result _ => s.record i r at_ result
  | .fault, _ => s.setRun i { r with phase := s.faulted r }
  | .crash, .ended _ => s
  | .crash, _ => s.setRun i { r with phase := .crashed }
  | _, _ => s

def step : RefreshMove → ReferenceState → ReferenceState
  | .tick ms, s => { s with now := s.now + ms }
  | .start source, s => s.begin config registry source
  | .run i move, s =>
    match s.runs[i]? with
    | some r => s.act config i r move
    | none => s

/-- Before the first run. -/
def start (now : Nat) : ReferenceState := { now }

end ReferenceState

end Pwos
