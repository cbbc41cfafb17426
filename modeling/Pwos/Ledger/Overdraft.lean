import Pwos.Ledger.Run

/-!
# The overdraft guard

With `preventOverdraft`, `postEntry` refuses an entry that would take more out of an
account than it natively holds. It asks that of the lines with a negative base value, and
asks of the same lines that the book balance of their account, in dollars, does not turn
negative either. The two balances drift apart when the rate changes.
-/

namespace Pwos

section Short
variable (db : Db) (userId : Option Uuid) (postings : List DraftPosting) (p : DraftPosting)

/-- The line takes units out, and after the whole entry the account holds fewer than none. -/
def NativeShort : Prop :=
  p.quantity < 0 ∧ db.nativeBalance userId p.accountId p.assetId +
    nativeChange postings p.accountId p.assetId < OVERDRAFT_ROUNDING_TOLERANCE

/-- The line's base value takes the book balance of its account below zero. -/
def BookShort : Prop :=
  db.bookBalance userId p.accountId + p.baseValue < OVERDRAFT_ROUNDING_TOLERANCE

instance : Decidable (NativeShort db userId postings p) := inferInstanceAs (Decidable (_ ∧ _))
instance : Decidable (BookShort db userId p) := inferInstanceAs (Decidable (_ < _))

/-- Some outgoing line of the entry overdraws its account. -/
def Overdrawn : Prop := ∃ p ∈ postings, NativeShort db userId postings p

instance : Decidable (Overdrawn db userId postings) :=
  inferInstanceAs (Decidable (∃ p ∈ postings, _))

/-- A line the guard looks at and finds short. -/
def GuardTrips : Prop :=
  p.baseValue < 0 ∧ (NativeShort db userId postings p ∨ BookShort db userId p)

instance : Decidable (GuardTrips db userId postings p) := inferInstanceAs (Decidable (_ ∧ (_ ∨ _)))

end Short

section Guard
variable {db : Db} {userId : Option Uuid} {postings : List DraftPosting}

/-- One round of the guard. -/
theorem guardLine_run (p : DraftPosting) :
    (Tx.when (p.baseValue < 0) do
      let currentBal ← Tx.read (·.bookBalance userId p.accountId)
      Tx.when (p.quantity < 0) do
        let native ← Tx.read (·.nativeBalance userId p.accountId p.assetId)
        Tx.require (OVERDRAFT_ROUNDING_TOLERANCE ≤
          native + nativeChange postings p.accountId p.assetId) .insufficientBalance
      Tx.require (OVERDRAFT_ROUNDING_TOLERANCE ≤ currentBal + p.baseValue)
        .insufficientBalance : Sql Unit).run db =
      if GuardTrips db userId postings p then .error .insufficientBalance else .ok ((), db) := by
  unfold Tx.when GuardTrips NativeShort BookShort
  by_cases hb : p.baseValue < 0
  · rw [if_pos hb, Tx.run_read_bind]
    by_cases hq : p.quantity < 0
    · rw [if_pos hq, Tx.run_bind, Tx.run_read_bind, Tx.run_require]
      by_cases hn : OVERDRAFT_ROUNDING_TOLERANCE ≤ db.nativeBalance userId p.accountId p.assetId +
          nativeChange postings p.accountId p.assetId
      · simp [hb, hq, not_lt.mpr hn, hn, Tx.run_require, ← not_lt]
      · simp [hb, hq, not_le.mp hn, hn]
    · rw [if_neg hq]
      simp [hb, hq, Tx.run_require, ← not_lt]
  · simp [hb]

theorem guardOverdraft_run :
    (guardOverdraft userId postings).run db =
      if ∃ p ∈ postings, GuardTrips db userId postings p then .error .insufficientBalance
      else .ok ((), db) := by
  have hlines : ∀ ps : List DraftPosting,
      (Tx.each ps fun p => Tx.when (p.baseValue < 0) do
        let currentBal ← Tx.read (·.bookBalance userId p.accountId)
        Tx.when (p.quantity < 0) do
          let native ← Tx.read (·.nativeBalance userId p.accountId p.assetId)
          Tx.require (OVERDRAFT_ROUNDING_TOLERANCE ≤
            native + nativeChange postings p.accountId p.assetId) .insufficientBalance
        Tx.require (OVERDRAFT_ROUNDING_TOLERANCE ≤ currentBal + p.baseValue)
          .insufficientBalance : Sql Unit).run db =
      if ∃ p ∈ ps, GuardTrips db userId postings p then .error .insufficientBalance
      else .ok ((), db) := by
    intro ps
    induction ps with
    | nil => simp
    | cons p ps ih =>
      rw [Tx.each_cons, Tx.run_bind, guardLine_run]
      by_cases hp : GuardTrips db userId postings p
      · simp [hp]
      · simp [hp, ih]
  exact hlines postings

end Guard

/-- What keeps an entry from being written once it passed the guard. -/
def AppError.AfterGuard : AppError → Prop
  | .constraintViolation _ | .lotOpenedAtInvalid | .lotRateInvalid | .lotsInsufficient => True
  | _ => False

theorem writeEntry_failsWith (env : Env) (priced : Option (List OpenLot)) (input : PostEntryInput)
    (userId : Option Uuid) :
    (writeEntry env priced input userId).FailsWith AppError.AfterGuard := by
  have hopen : ∀ x, (openLot env input userId x).FailsWith AppError.AfterGuard := fun x =>
    (Tx.FailsWith.require trivial).bind fun _ => (Tx.FailsWith.require trivial).bind fun _ =>
      Tx.FailsWith.when (Tx.FailsWith.insert trivial)
  have hconsume : ∀ a, (consumeLot env.entryId a).FailsWith AppError.AfterGuard :=
    fun a _ => fun _ => trivial
  have hconsumeAll : ∀ c, (consumeLots env priced userId c).FailsWith AppError.AfterGuard :=
    fun c _ _ => (Tx.FailsWith.require trivial).bind fun _ => Tx.FailsWith.each hconsume
  refine Tx.FailsWith.bind (Tx.FailsWith.insert trivial) fun _ =>
    Tx.FailsWith.bind (fun _ => trivial) fun _ => (Tx.FailsWith.each hopen).bind fun _ => ?_
  split
  · trivial
  · exact Tx.FailsWith.when (hconsumeAll _)

section Refusal
variable {env : Env} {input : PostEntryInput} {userId : Option Uuid} {db : Db}

/-- The call gets as far as the guard: no entry is recorded under its key, and its
accounts exist. -/
def ReachesGuard (input : PostEntryInput) (userId : Option Uuid) (db : Db) : Prop :=
  (∀ k ∈ trimmedKey input.idempotencyKey, db.findByIdempotencyKey userId k = none) ∧
    ∀ p ∈ input.postings, (db.findAccount p.accountId).isSome

theorem findReplay_failsWith (key : Option String) (hash : Digest) :
    (findReplay userId key hash).FailsWith (· = .idempotencyConflict) := by
  unfold findReplay
  split
  · trivial
  · refine Tx.FailsWith.bind (fun _ => trivial) fun found => ?_
    split
    · trivial
    · refine Tx.FailsWith.bind (Tx.FailsWith.require ?_) fun _ => ?_
      · rfl
      · trivial

/-- The guard alone refuses with `INSUFFICIENT_BALANCE`. -/
theorem postEntry_insufficient_iff (hb : Balanced input.postings)
    (hp : input.preventOverdraft = true)
    (hu : (resolveServiceUserId env input.userId (input.postings.map (·.accountId))).answer db =
      .ok userId) :
    (postEntry env input).refusal db = some .insufficientBalance ↔
      ReachesGuard input userId db ∧ ∃ p ∈ input.postings, GuardTrips db userId input.postings p := by
  have hbal : (Tx.ofExcept ((assertBalanced input.postings).mapError AppError.unbalanced) :
      Sql Unit).run db = .ok ((), db) := by
    rw [assertBalanced_ok.mpr hb]; rfl
  rw [Tx.refusal_eq_some, postEntry, postEntryPriced, Tx.run_bind_of_ok hbal,
    Tx.run_bind_of_ok ((readOnly_resolveServiceUserId _ _ _).run_ok.mpr ⟨hu, rfl⟩), Tx.run_bind]
  have hreplay := (readOnly_findReplay userId (trimmedKey input.idempotencyKey)
    (canonicalizePayload input)).run_eq db
  rw [hreplay]
  cases hans : (findReplay userId (trimmedKey input.idempotencyKey)
      (canonicalizePayload input)).answer db with
  | error e =>
    have he : e = .idempotencyConflict := by
      rw [hans] at hreplay
      exact (findReplay_failsWith _ _).error hreplay
    have hkey : ¬ ReachesGuard input userId db := by
      intro h
      rw [findReplay_none.mpr h.1] at hans
      cases hans
    simp [Except.map, he, hkey]
  | ok found =>
    cases found with
    | some id =>
      have hkey : ¬ ReachesGuard input userId db := by
        intro h
        rw [findReplay_none.mpr h.1] at hans
        cases hans
      simp [Except.map, hkey]
    | none =>
      have hkey := findReplay_none.mp hans
      simp only [Except.map, Tx.run_bind, lockAccounts_run]
      by_cases hacc : ∀ i ∈ input.postings.map (·.accountId), (db.findAccount i).isSome
      · have hreach : ReachesGuard input userId db :=
          ⟨hkey, fun p hp => hacc _ (List.mem_map_of_mem hp)⟩
        rw [if_pos hacc]
        simp only [Tx.when, if_pos hp, guardOverdraft_run, hreach, true_and]
        by_cases htrip : ∃ p ∈ input.postings, GuardTrips db userId input.postings p
        · simp [htrip]
        · simp only [htrip, if_false, iff_false]
          intro herr
          cases hw : (writeEntry env none input userId).run db with
          | ok r => rw [hw] at herr; cases herr
          | error e =>
            rw [hw] at herr
            cases herr
            exact (writeEntry_failsWith _ _ _ _).error hw
      · have hreach : ¬ ReachesGuard input userId db := by
          rintro ⟨-, h⟩
          refine hacc fun i hi => ?_
          obtain ⟨p, hp, rfl⟩ := List.mem_map.mp hi
          exact h p hp
        rw [if_neg hacc]
        simp [hreach]

/-- When the guard's verdict is that of the native balances: a book shortage comes only
with a native one, and a native one shows on a line the guard looks at. A call that does
not get to the guard must overdraw nothing. -/
structure GuardFaithful (input : PostEntryInput) (userId : Option Uuid) (db : Db) : Prop where
  book : ReachesGuard input userId db → ∀ p ∈ input.postings, p.baseValue < 0 →
    BookShort db userId p → Overdrawn db userId input.postings
  seen : ReachesGuard input userId db → ∀ p ∈ input.postings,
    NativeShort db userId input.postings p →
      ∃ q ∈ input.postings, q.baseValue < 0 ∧
        (NativeShort db userId input.postings q ∨ BookShort db userId q)
  skipped : ¬ ReachesGuard input userId db → ∀ p ∈ input.postings,
    ¬ NativeShort db userId input.postings p

/-- `INSUFFICIENT_BALANCE` means a native overdraft, and every native overdraft is refused
with it, exactly when `GuardFaithful` holds. -/
theorem postEntry_overdraft_iff (hb : Balanced input.postings)
    (hp : input.preventOverdraft = true)
    (hu : (resolveServiceUserId env input.userId (input.postings.map (·.accountId))).answer db =
      .ok userId) :
    ((postEntry env input).refusal db = some .insufficientBalance ↔
      Overdrawn db userId input.postings) ↔ GuardFaithful input userId db := by
  rw [postEntry_insufficient_iff hb hp hu]
  constructor
  · intro h
    refine ⟨fun hr p hmem hneg hbook => h.mp ⟨hr, p, hmem, hneg, .inr hbook⟩, ?_, ?_⟩
    · intro hr p hmem hshort
      obtain ⟨-, q, hq, htrip⟩ := h.mpr ⟨p, hmem, hshort⟩
      exact ⟨q, hq, htrip⟩
    · exact fun hr p hmem hshort => hr (h.mpr ⟨p, hmem, hshort⟩).1
  · rintro ⟨hbook, hseen, hskipped⟩
    constructor
    · rintro ⟨hr, p, hmem, hneg, hshort | hshort⟩
      · exact ⟨p, hmem, hshort⟩
      · exact hbook hr p hmem hneg hshort
    · rintro ⟨p, hmem, hshort⟩
      have hr : ReachesGuard input userId db := by
        by_contra hr
        exact hskipped hr p hmem hshort
      obtain ⟨q, hq, htrip⟩ := hseen hr p hmem hshort
      exact ⟨hr, q, hq, htrip⟩

end Refusal

/-- A deposit of `toman` Toman booked at `usd` dollars. -/
def demoDeposit (toman usd : Int) : PostEntryInput :=
  { entryDate := 1, type := .income, description := "واریز"
    postings := [demoLine 11 2 toman usd, demoLine 13 2 (-toman) (-usd)] }

/-- Toman spent, at `usd` dollars, under the guard. -/
def demoSpend (toman usd : Int) : PostEntryInput :=
  { entryDate := 2, type := .expense, description := "خرج"
    postings := [demoLine 11 2 (-toman) (-usd), demoLine 14 2 toman usd]
    preventOverdraft := true }

theorem demoSpend_overdraft_iff :
    ((postEntry { entryId := 2 } (demoSpend 500 10)).refusal
        (runOps [.post { entryId := 1 } (demoDeposit 1000 10)] demo) = some .insufficientBalance ↔
      Overdrawn (runOps [.post { entryId := 1 } (demoDeposit 1000 10)] demo) (some 1)
        (demoSpend 500 10).postings) ↔
    GuardFaithful (demoSpend 500 10) (some 1)
      (runOps [.post { entryId := 1 } (demoDeposit 1000 10)] demo) :=
  postEntry_overdraft_iff (assertBalanced_ok.mp (by decide)) rfl (by decide)

/-- Spending all of the Toman after the dollar got cheaper: nothing is overdrawn, and the
entry is refused. -/
theorem guard_refuses_covered_spending :
    (postEntry { entryId := 2 } (demoSpend 1000 20)).refusal
        (runOps [.post { entryId := 1 } (demoDeposit 1000 10)] demo) = some .insufficientBalance ∧
      ¬ Overdrawn (runOps [.post { entryId := 1 } (demoDeposit 1000 10)] demo) (some 1)
        (demoSpend 1000 20).postings := by
  constructor <;> decide

end Pwos
