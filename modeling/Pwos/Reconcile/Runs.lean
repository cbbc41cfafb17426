import Pwos.Ledger.CounterLegs
import Pwos.Ledger.Journal
import Pwos.Reconcile.Checkpoints

/-!
# Runs of reconciliation

Postings, reversals, checkpoints and adjustments, in any order. The key of an adjustment is
held only by the entry of a checkpoint that is resolved, so the adjustment of one that is not
is never a replay.
-/

namespace Pwos

/-! ## The key of an adjustment -/

/-- A key without blanks is taken as it is. -/
theorem trimmedKey_of_no_blank {k : String} (hne : k.toList ≠ [])
    (h : ∀ c ∈ k.toList, c.isWhitespace = false) : trimmedKey (some k) = some k := by
  simp only [trimmedKey, Option.bind_some, Decimal.trim_self h, hne, if_false, String.ofList_toList]

/-- A key that is a text without blanks and a number is kept as it is. -/
theorem trimmedKey_numbered {p : String} (i : Uuid) (hne : p.toList ≠ [])
    (h : p.toList.all (fun c => !c.isWhitespace) = true) :
    trimmedKey (some (p ++ String.ofList (Nat.toDigits 10 i))) =
      some (p ++ String.ofList (Nat.toDigits 10 i)) := by
  have hchars : (p ++ String.ofList (Nat.toDigits 10 i)).toList = p.toList ++ Nat.toDigits 10 i := by
    simp
  apply trimmedKey_of_no_blank
  · simp [hchars, hne]
  · intro c hc
    rw [hchars] at hc
    rcases List.mem_append.mp hc with hc | hc
    · simpa using List.all_eq_true.mp h c hc
    · exact Decimal.digit_not_whitespace (Nat.isDigit_of_mem_toDigits (by decide) (by decide) hc)

theorem numberedKey_injective {p : String} {i j : Uuid}
    (h : p ++ String.ofList (Nat.toDigits 10 i) = p ++ String.ofList (Nat.toDigits 10 j)) : i = j := by
  have hchars : p.toList ++ Nat.toDigits 10 i = p.toList ++ Nat.toDigits 10 j := by
    simpa using congrArg String.toList h
  have hdigits := congrArg (Nat.ofDigitChars 10 · 0) (List.append_cancel_left hchars)
  simpa using hdigits

theorem trimmedKey_reconcileKey (i : Uuid) :
    trimmedKey (some (reconcileKey i)) = some (reconcileKey i) :=
  trimmedKey_numbered i (by decide) (by decide)

theorem reconcileKey_injective {i j : Uuid} (h : reconcileKey i = reconcileKey j) : i = j :=
  numberedKey_injective h

/-! ## Runs -/

/-- A posting or a reversal, a new checkpoint, or an adjustment. -/
inductive ReconcileOp where
  | ledger (op : LedgerOp)
  | checkpoint (env : Env) (rules : ReconcileRules) (input : CheckpointInput)
  | adjust (env : Env) (rules : ReconcileRules) (userId checkpointId : Uuid) (why : ReconcileWhy)

def ReconcileOp.exec : ReconcileOp → Db → Db
  | .ledger op, db => op.exec db
  | .checkpoint env rules input, db => (recordBalanceCheckpoint env rules input).exec db
  | .adjust env rules userId checkpointId why, db =>
    (adjustToReported env rules userId checkpointId why).exec db

def runReconcile (ops : List ReconcileOp) (db : Db) : Db := runAll ReconcileOp.exec ops db

/-- What is posted otherwise does not use the key of an adjustment. -/
def ReconcileOp.KeyFree : ReconcileOp → Prop
  | .ledger (.post _ input) => ∀ i, trimmedKey input.idempotencyKey ≠ some (reconcileKey i)
  | _ => True

/-- The books, and that the key of an adjustment is held only for a resolved checkpoint. -/
structure Reconciled (db : Db) : Prop extends LedgerInv db where
  accountIds : (db.accounts.map (·.id)).Nodup
  chart : ∀ a ∈ db.accounts, a.type = .asset → a.code ≠ RECONCILE_EQUITY_CODE
  checkpointIds : (db.balanceCheckpoints.map (·.id)).Nodup
  keyed : ∀ e ∈ db.journalEntries, ∀ i, e.idempotencyKey = some (reconcileKey i) →
    ∃ c ∈ db.balanceCheckpoints, c.id = i ∧ c.resolutionEntryId ≠ none

/-- Nothing is posted and nothing is reported yet, and the account of corrections is no asset
account. -/
structure Db.Unreported (db : Db) : Prop extends db.EmptyLedger where
  accountIds : (db.accounts.map (·.id)).Nodup
  chart : ∀ a ∈ db.accounts, a.type = .asset → a.code ≠ RECONCILE_EQUITY_CODE
  checkpoints : db.balanceCheckpoints = []

theorem Db.Unreported.reconciled {db : Db} (h : db.Unreported) : Reconciled db where
  toLedgerInv := h.toEmptyLedger.inv
  accountIds := h.accountIds
  chart := h.chart
  checkpointIds := by simp [h.checkpoints]
  keyed := by simp [h.journalEntries]

section Steps
variable {db db' : Db} {env : Env}

theorem Reconciled.posted {input : PostEntryInput} {userId : Option Uuid} (hr : Reconciled db)
    (hp : Posted env input userId db db')
    (hfree : ∀ i, trimmedKey input.idempotencyKey = some (reconcileKey i) →
      ∃ c ∈ db.balanceCheckpoints, c.id = i ∧ c.resolutionEntryId ≠ none) : Reconciled db' := by
  have hinv := hr.toLedgerInv.step (hp.step hr.lotIds)
  have hres := hp.written.result
  refine ⟨hinv, ?_, ?_, ?_, ?_⟩ <;> rw [hres]
  · exact hr.accountIds
  · exact hr.chart
  · exact hr.checkpointIds
  · intro e he i hkey
    rcases List.mem_append.mp he with he | he
    · exact hr.keyed e he i hkey
    · rw [List.mem_singleton.mp he] at hkey
      exact hfree i hkey

theorem Reconciled.ledger {op : LedgerOp} (hr : Reconciled db)
    (hfree : (ReconcileOp.ledger op).KeyFree) : Reconciled (op.exec db) := by
  cases op with
  | post env input =>
    rcases exec_postEntryPriced env none input hr.lotIds with h | ⟨userId, hp⟩
    · exact (congrArg Reconciled h).mpr hr
    · exact hr.posted hp fun i hkey => absurd hkey (hfree i)
  | reverse env entryId =>
    rcases exec_reverseEntry env entryId hr.lotIds with ⟨-, h⟩ | ⟨e, -, he, h⟩
    · exact (congrArg Reconciled h).mpr hr
    · have hexec : (LedgerOp.reverse env entryId).exec db = db.reversed env e := h
      rw [hexec]
      refine ⟨hr.toLedgerInv.step (.reverse he), hr.accountIds, hr.chart, hr.checkpointIds, ?_⟩
      intro f hf i hkey
      rcases List.mem_append.mp hf with hf | hf
      · obtain ⟨g, hg, rfl⟩ := List.mem_map.mp hf
        exact hr.keyed g hg i (voided_idempotencyKey _ _ ▸ hkey)
      · rw [List.mem_singleton.mp hf] at hkey
        cases hkey

theorem recordBalanceCheckpoint_ok {rules : ReconcileRules} {input : CheckpointInput} {i : Uuid}
    (h : (recordBalanceCheckpoint env rules input).run db = .ok (i, db')) :
    ∃ row : BalanceCheckpoint, (∀ c ∈ db.balanceCheckpoints, c.id ≠ row.id) ∧
      db' = { db with balanceCheckpoints := db.balanceCheckpoints ++ [row] } := by
  unfold recordBalanceCheckpoint at h
  split at h
  · cases h
  · cases h
  · obtain ⟨found, db₁, h₁, h⟩ := Tx.run_bind_ok.mp h
    have hread : (assertMoneyAccount rules input.userId input.accountId).ReadOnly := by
      refine (Tx.readOnly_read _).bind fun found => ?_
      split <;> trivial
    rw [hread.run_state h₁, Tx.run_insert_bind] at h
    split at h
    · rename_i hfits
      cases h
      exact ⟨_, hfits.1, rfl⟩
    · cases h

theorem Reconciled.checkpoint (hr : Reconciled db) (rules : ReconcileRules)
    (input : CheckpointInput) : Reconciled ((recordBalanceCheckpoint env rules input).exec db) := by
  rcases (recordBalanceCheckpoint env rules input).ok_or_refused db with ⟨i, db', h⟩ | h
  · rw [Tx.exec_of_ok h]
    obtain ⟨row, hfresh, rfl⟩ := recordBalanceCheckpoint_ok h
    refine ⟨hr.toLedgerInv.same ⟨rfl, rfl, rfl, rfl, rfl, rfl⟩, hr.accountIds, hr.chart, ?_, ?_⟩
    · rw [List.map_append]
      refine List.nodup_append.mpr ⟨hr.checkpointIds, by simp, ?_⟩
      rintro i hi j hj rfl
      obtain ⟨c, hc, hid⟩ := List.mem_map.mp hi
      exact hfresh c hc (hid.trans (List.mem_singleton.mp hj))
    · intro e he i hkey
      obtain ⟨c, hc, hid⟩ := hr.keyed e he i hkey
      exact ⟨c, List.mem_append_left _ hc, hid⟩
  · rwa [h.exec]

end Steps

/-! ## An adjustment -/

/-- The latest checkpoint of a money account of the user, and that the books say otherwise. -/
structure Db.Mismatch (rules : ReconcileRules) (userId : Uuid) (cp : BalanceCheckpoint)
    (account : Account) (asset : Asset) (db : Db) : Prop where
  own : db.ownCheckpoint userId cp.id = some cp
  latest : (db.latestCheckpoint rules userId cp.accountId).map (·.id) = some cp.id
  account : db.moneyAccount rules userId cp.accountId = some (account, asset)
  differs : ¬ isWithinTolerance (cp.balance - db.ledgerBalanceAsOf userId cp.accountId cp.asOf)
    asset.symbol

/-- What the bank has more than the books. -/
def Db.difference (userId : Uuid) (cp : BalanceCheckpoint) (db : Db) : Decimal :=
  cp.balance - db.ledgerBalanceAsOf userId cp.accountId cp.asOf

def BalanceCheckpoint.resolve (i userId entryId : Uuid) (c : BalanceCheckpoint) :
    BalanceCheckpoint :=
  if c.id = i ∧ c.userId = userId then { c with resolutionEntryId := some entryId } else c

section Adjust
variable {db db' : Db} {env : Env} {rules : ReconcileRules} {userId checkpointId : Uuid}
  {why : ReconcileWhy} {cp : BalanceCheckpoint} {account : Account} {asset : Asset}
  {r : Uuid × Decimal}

/-- What an adjustment does when it is accepted. -/
structure Adjusts (env : Env) (rules : ReconcileRules) (userId : Uuid) (why : ReconcileWhy)
    (cp : BalanceCheckpoint) (account : Account) (asset : Asset) (db : Db) (r : Uuid × Decimal)
    (db' : Db) : Prop where
  mismatch : db.Mismatch rules userId cp account asset
  unresolved : cp.resolutionEntryId = none
  difference : r.2 = db.difference userId cp
  posts : ∃ (baseValue : Decimal) (equity : Account) (entry : PostResult) (db₁ db₂ : Db),
    (ensureSystemAccount env RECONCILE_EQUITY_CODE RECONCILE_EQUITY_NAME .equity
      (some userId)).run db = .ok (some equity, db₁) ∧
    (postEntry env (adjustInput cp account asset.id equity.id r.2 baseValue why)).run db₁ =
      .ok (entry, db₂) ∧ r.1 = entry.id ∧
    ∃ snapshots, db' = { db₂ with
      entryFxSnapshots := snapshots
      balanceCheckpoints :=
        db₂.balanceCheckpoints.map (BalanceCheckpoint.resolve cp.id userId entry.id) }

theorem ownCheckpoint_spec (h : db.ownCheckpoint userId checkpointId = some cp) :
    cp ∈ db.balanceCheckpoints ∧ cp.id = checkpointId ∧ cp.userId = userId := by
  have hp := List.find?_some h
  simp only [decide_eq_true_eq] at hp
  exact ⟨List.mem_of_find?_eq_some h, hp⟩

theorem moneyAccount_spec {accountId : Uuid}
    (h : db.moneyAccount rules userId accountId = some (account, asset)) :
    account ∈ db.accounts ∧ account.id = accountId ∧ account.type = .asset := by
  obtain ⟨found, hfound, h⟩ := Option.bind_eq_some_iff.mp h
  obtain ⟨x, -, heq⟩ := Option.map_eq_some_iff.mp h
  obtain ⟨rfl, rfl⟩ := Prod.mk.inj heq
  have hp := List.find?_some hfound
  simp only [decide_eq_true_eq] at hp
  exact ⟨List.mem_of_find?_eq_some hfound, hp.1, hp.2.2.1⟩

theorem assertMoneyAccount_ok {accountId : Uuid} {found : Account × Asset}
    (h : (assertMoneyAccount rules userId accountId).run db = .ok (found, db')) :
    db.moneyAccount rules userId accountId = some found ∧ db' = db := by
  unfold assertMoneyAccount at h
  rw [Tx.run_read_bind] at h
  split at h <;> cases h
  exact ⟨‹_›, rfl⟩

theorem freezeRate_run (f : EntryFxSnapshot) (db : Db) :
    ∃ snapshots, (freezeRate f).run db = .ok ((), { db with entryFxSnapshots := snapshots }) := by
  unfold freezeRate
  rw [Tx.run_write]
  split
  · exact ⟨db.entryFxSnapshots, rfl⟩
  · exact ⟨db.entryFxSnapshots ++ [f], rfl⟩

theorem adjustToReported_ok
    (h : (adjustToReported env rules userId checkpointId why).run db = .ok (r, db')) :
    ∃ cp account asset, cp.id = checkpointId ∧
      Adjusts env rules userId why cp account asset db r db' := by
  unfold adjustToReported at h
  rw [Tx.run_read_bind] at h
  split at h
  · cases h
  obtain ⟨fx, h⟩ := (readOnly_getWritableUsdIrtRateForUser _).run_bind_ok h
  rw [Tx.run_lock_bind] at h
  split at h
  · cases h
  rename_i cp hown
  obtain ⟨-, hid, -⟩ := ownCheckpoint_spec hown
  rw [Tx.run_require_bind] at h
  split at h
  swap
  · cases h
  rename_i hunresolved
  rw [Tx.run_read_bind, Tx.run_require_bind] at h
  split at h
  swap
  · cases h
  rename_i hlatest
  obtain ⟨⟨account, asset⟩, db₀, hmoney, h⟩ := Tx.run_bind_ok.mp h
  obtain ⟨hmoney, hsame⟩ := assertMoneyAccount_ok hmoney
  rw [hsame, Tx.run_read_bind, Tx.run_require_bind] at h
  split at h
  swap
  · cases h
  rename_i hdiffers
  obtain ⟨unitUsd, h⟩ := (readOnly_nativeUnitPriceUsd _ _).run_bind_ok h
  obtain ⟨found, db₁, hensure, h⟩ := Tx.run_bind_ok.mp h
  cases found with
  | none => cases h
  | some equity =>
  obtain ⟨entry, db₂, hpost, h⟩ := Tx.run_bind_ok.mp h
  obtain ⟨snapshots, hfreeze⟩ := freezeRate_run { entryId := entry.id, fxRate := fx.rate } db₂
  rw [Tx.run_bind_of_ok hfreeze, Tx.run_write_bind] at h
  cases h
  subst hid
  exact ⟨cp, account, asset, rfl, ⟨hown, hlatest, hmoney, hdiffers⟩, hunresolved, rfl,
    _, equity, entry, db₁, db₂, hensure, hpost, rfl, snapshots, rfl⟩

/-- The account of corrections is another account, and may be new. -/
theorem Reconciled.ensureEquity {equity : Account} (hr : Reconciled db)
    (hm : db.Mismatch rules userId cp account asset)
    (h : (ensureSystemAccount env RECONCILE_EQUITY_CODE RECONCILE_EQUITY_NAME .equity
      (some userId)).run db = .ok (some equity, db')) :
    equity.id ≠ cp.accountId ∧ equity ∈ db'.accounts ∧
      ∃ accounts, db' = db.withAccounts accounts ∧ Reconciled db' := by
  obtain ⟨hmem, hid, htype⟩ := moneyAccount_spec hm.account
  have hapart : db.Apart cp.accountId [RECONCILE_EQUITY_CODE] := by
    refine ⟨⟨account, hmem, hid⟩, fun other hother hsame hcode => ?_⟩
    obtain rfl := List.inj_on_of_nodup_map hr.accountIds hother hmem (hsame.trans hid.symm)
    exact hr.chart other hother htype (List.mem_singleton.mp hcode)
  have helse := ensureSystemAccount_elsewhere hapart (List.mem_singleton_self _) h
  refine ⟨helse.other equity rfl, helse.mem equity rfl, ?_⟩
  rcases ensureSystemAccount_ok h with ⟨rfl, -⟩ | ⟨acct, -, -, hequity, hfresh, rfl⟩
  · exact ⟨[], (withAccounts_nil _).symm, hr⟩
  · refine ⟨[acct], rfl, hr.toLedgerInv.step (.provision _), ?_, ?_, hr.checkpointIds, hr.keyed⟩
    · simp only [Db.withAccounts, List.map_append]
      refine List.nodup_append.mpr ⟨hr.accountIds, by simp, ?_⟩
      rintro i hi j hj rfl
      obtain ⟨other, hother, hsame⟩ := List.mem_map.mp hi
      exact hfresh other hother (hsame.trans (List.mem_singleton.mp hj))
    · intro other hother hasset
      rcases List.mem_append.mp hother with hother | hother
      · exact hr.chart other hother hasset
      · rw [List.mem_singleton.mp hother, hequity] at hasset
        cases hasset

/-- The key of an unresolved checkpoint is free. -/
theorem Reconciled.keyFree (hr : Reconciled db) (hown : cp ∈ db.balanceCheckpoints)
    (hunresolved : cp.resolutionEntryId = none) {e : JournalEntry} (he : e ∈ db.journalEntries) :
    e.idempotencyKey ≠ some (reconcileKey cp.id) := by
  intro hkey
  obtain ⟨c, hc, hid, hresolved⟩ := hr.keyed e he cp.id hkey
  rw [List.inj_on_of_nodup_map hr.checkpointIds hc hown hid] at hresolved
  exact hresolved hunresolved

/-- An adjustment posts a new entry. -/
theorem Adjusts.posted (hr : Reconciled db)
    (ha : Adjusts env rules userId why cp account asset db r db') :
    ∃ accounts baseValue equity db₂ snapshots, equity ≠ cp.accountId ∧
      Reconciled (db.withAccounts accounts) ∧ r.1 = env.entryId ∧
      Posted env (adjustInput cp account asset.id equity r.2 baseValue why) (some userId)
        (db.withAccounts accounts) db₂ ∧
      db' = { db₂ with
        entryFxSnapshots := snapshots
        balanceCheckpoints :=
          db₂.balanceCheckpoints.map (BalanceCheckpoint.resolve cp.id userId r.1) } := by
  obtain ⟨hmem, -, huser⟩ := ownCheckpoint_spec ha.mismatch.own
  obtain ⟨baseValue, equity, entry, db₁, db₂, hensure, hpost, hentry, snapshots, rfl⟩ := ha.posts
  obtain ⟨hother, -, accounts, rfl, hr₁⟩ := hr.ensureEquity ha.mismatch hensure
  refine ⟨accounts, baseValue, equity.id, db₂, snapshots, hother, hr₁, ?_⟩
  rw [hentry]
  rcases postEntryPriced_ok hr₁.lotIds hpost with ⟨⟨u, k, found, -, hk, hfound, -⟩, -⟩ | ⟨rfl, u, hp⟩
  · -- A replay would have found an entry under the key of this checkpoint.
    obtain rfl := Option.some.inj ((trimmedKey_reconcileKey cp.id).symm.trans hk)
    have hheld := List.find?_some hfound
    simp only [decide_eq_true_eq] at hheld
    exact absurd hheld.2 (hr₁.keyFree hmem ha.unresolved (List.mem_of_find?_eq_some hfound))
  · obtain rfl : some userId = u := by
      have huser' : (adjustInput cp account asset.id equity.id r.2 baseValue why).userId =
          some userId := congrArg some huser
      have hu := hp.user
      rw [huser'] at hu
      exact Except.ok.inj hu
    exact ⟨rfl, hp, rfl⟩

theorem resolve_id (i entryId : Uuid) (c : BalanceCheckpoint) :
    (c.resolve i userId entryId).id = c.id := by
  unfold BalanceCheckpoint.resolve
  split <;> rfl

theorem resolve_resolved {i entryId : Uuid} {c : BalanceCheckpoint}
    (h : c.resolutionEntryId ≠ none) : (c.resolve i userId entryId).resolutionEntryId ≠ none := by
  unfold BalanceCheckpoint.resolve
  split
  · exact Option.some_ne_none _
  · exact h

theorem Adjusts.reconciled (hr : Reconciled db)
    (ha : Adjusts env rules userId why cp account asset db r db') : Reconciled db' := by
  obtain ⟨hmem, -, huser⟩ := ownCheckpoint_spec ha.mismatch.own
  obtain ⟨accounts, baseValue, equity, db₂, snapshots, -, hr₁, -, hp, rfl⟩ := ha.posted hr
  have hinv := hr₁.toLedgerInv.step (hp.step hr₁.lotIds)
  have hres := hp.written.result
  refine ⟨hinv.same ⟨rfl, rfl, rfl, rfl, rfl, rfl⟩, ?_, ?_, ?_, ?_⟩
  · rw [hres]
    exact hr₁.accountIds
  · rw [hres]
    exact hr₁.chart
  · rw [hres, List.map_map]
    have hids : BalanceCheckpoint.id ∘ BalanceCheckpoint.resolve cp.id userId r.1 =
        BalanceCheckpoint.id := funext fun c => resolve_id _ _ c
    rw [hids]
    exact hr.checkpointIds
  · intro e he i hkey
    simp only [hres] at he ⊢
    rcases List.mem_append.mp he with he | he
    · obtain ⟨c, hc, hid, hresolved⟩ := hr.keyed e he i hkey
      exact ⟨_, List.mem_map_of_mem hc, (resolve_id _ _ c).trans hid, resolve_resolved hresolved⟩
    · rw [List.mem_singleton.mp he] at hkey
      dsimp only [PostEntryInput.entryRow, adjustInput] at hkey
      rw [trimmedKey_reconcileKey] at hkey
      obtain rfl := reconcileKey_injective (Option.some.inj hkey)
      refine ⟨_, List.mem_map_of_mem hmem, resolve_id _ _ cp, ?_⟩
      rw [BalanceCheckpoint.resolve, if_pos ⟨rfl, huser⟩]
      exact Option.some_ne_none _

theorem ReconcileOp.exec_reconciled {op : ReconcileOp} (hr : Reconciled db) (hfree : op.KeyFree) :
    Reconciled (op.exec db) := by
  cases op with
  | ledger op => exact hr.ledger hfree
  | checkpoint env rules input => exact hr.checkpoint rules input
  | adjust env rules userId checkpointId why =>
    have hexec : (ReconcileOp.adjust env rules userId checkpointId why).exec db =
        (adjustToReported env rules userId checkpointId why).exec db := rfl
    rw [hexec]
    rcases (adjustToReported env rules userId checkpointId why).ok_or_refused db with
      ⟨r, db', h⟩ | h
    · rw [Tx.exec_of_ok h]
      obtain ⟨cp, account, asset, -, ha⟩ := adjustToReported_ok h
      exact ha.reconciled hr
    · rwa [h.exec]

theorem runReconcile_reconciled (ops : List ReconcileOp) (hr : Reconciled db)
    (hfree : ∀ op ∈ ops, op.KeyFree) : Reconciled (runReconcile ops db) := by
  induction ops generalizing db with
  | nil => exact hr
  | cons op ops ih =>
    exact ih (op.exec_reconciled hr (hfree op (by simp))) fun op' h => hfree op' (by simp [h])

/-! ## What is left of the difference -/

/-- The lines of the entry on the account are the difference. -/
theorem ledgerBalance_adjusted {accounts : List Account} {baseValue : Decimal} {equity : Uuid}
    {diff : Decimal} (hi : LedgerInv (db.withAccounts accounts)) (hother : equity ≠ cp.accountId)
    (hp : Posted env (adjustInput cp account asset.id equity diff baseValue why) (some userId)
      (db.withAccounts accounts) db') :
    db'.ledgerBalanceAsOf userId cp.accountId cp.asOf =
      db.ledgerBalanceAsOf userId cp.accountId cp.asOf + diff := by
  have hcounts : ((adjustInput cp account asset.id equity diff baseValue why).entryRow env.entryId
      (some userId)).CountsOn userId cp.asOf := ⟨rfl, .inl rfl, le_rfl⟩
  have hlines := filter_recorded hi.toWellFormed (hp.recordable hi.lotIds) hcounts
  have hnew : db'.postingsOn userId cp.asOf = db.postingsOn userId cp.asOf ++
      (adjustInput cp account asset.id equity diff baseValue why).postings.map
        (DraftPosting.row env.entryId) := by
    rw [hp.written.result]
    exact hlines
  unfold Db.ledgerBalanceAsOf
  rw [hnew, List.filter_append, List.map_append, List.sum_append]
  simp [adjustInput, DraftPosting.row, hother]

theorem Adjusts.closed (hr : Reconciled db)
    (ha : Adjusts env rules userId why cp account asset db r db') :
    (∃ e, e.id = env.entryId ∧ db'.journalEntries = db.journalEntries ++ [e]) ∧
      db'.difference userId cp = 0 := by
  obtain ⟨accounts, baseValue, equity, db₂, snapshots, hother, hr₁, -, hp, rfl⟩ := ha.posted hr
  refine ⟨⟨_, rfl, congrArg Db.journalEntries hp.written.result⟩, ?_⟩
  have hbalance := ledgerBalance_adjusted hr₁.toLedgerInv hother hp
  have hclosed : cp.balance - db₂.ledgerBalanceAsOf userId cp.accountId cp.asOf = 0 := by
    rw [hbalance, ha.difference, Db.difference]
    abel
  exact hclosed

/-- After an adjustment the checkpoint is resolved. -/
theorem Adjusts.refused_again (hr : Reconciled db)
    (ha : Adjusts env rules userId why cp account asset db r db') (env' : Env)
    (rules' : ReconcileRules) (why' : ReconcileWhy) :
    (adjustToReported env' rules' userId cp.id why').Refused db' := by
  obtain ⟨-, -, huser⟩ := ownCheckpoint_spec ha.mismatch.own
  rcases (adjustToReported env' rules' userId cp.id why').ok_or_refused db' with ⟨r', t, h⟩ | h
  · obtain ⟨cp', account', asset', hid, ha'⟩ := adjustToReported_ok h
    obtain ⟨hmem, -, huser'⟩ := ownCheckpoint_spec ha'.mismatch.own
    obtain ⟨accounts, baseValue, equity, db₂, snapshots, -, -, -, -, rfl⟩ := ha.posted hr
    obtain ⟨c, -, rfl⟩ := List.mem_map.mp hmem
    have hunresolved := ha'.unresolved
    rw [resolve_id] at hid
    unfold BalanceCheckpoint.resolve at huser' hunresolved
    split at hunresolved
    · cases hunresolved
    · rename_i hne
      rw [if_neg hne] at huser'
      exact absurd ⟨hid, huser'⟩ hne
  · exact h

/-- There is a rate and a price, the account of corrections can be had, the user exists and
the new entry has an id of its own. -/
structure Db.CanAdjust (env : Env) (userId : Uuid) (asset : Asset) (db : Db) : Prop where
  rate : ∃ fx, (getWritableUsdIrtRateForUser (pure ()) (some userId)).answer db = .ok fx
  price : ∃ p, (nativeUnitPriceUsd asset.id (some userId)).answer db = .ok p
  equity : ∃ equity db₁, (ensureSystemAccount env RECONCILE_EQUITY_CODE RECONCILE_EQUITY_NAME
    .equity (some userId)).run db = .ok (some equity, db₁)
  user : userId ∈ db.users
  entry : ∀ e ∈ db.journalEntries, e.id ≠ env.entryId

theorem difference_ne_zero (hm : db.Mismatch rules userId cp account asset) :
    db.difference userId cp ≠ 0 := by
  intro hzero
  refine hm.differs ?_
  have hpos : ∀ symbol, (0 : Decimal) < reconcileTolerance symbol := by
    intro symbol
    unfold reconcileTolerance
    split <;> decide
  unfold isWithinTolerance
  rw [show cp.balance - db.ledgerBalanceAsOf userId cp.accountId cp.asOf = 0 from hzero]
  exact hpos asset.symbol

theorem balanced_adjustInput {diff baseValue : Decimal} {equity : Uuid} (h : diff ≠ 0) :
    Balanced (adjustInput cp account asset.id equity diff baseValue why).postings where
  two := le_rfl
  sum := by
    simp only [adjustInput, List.map_cons, List.map_nil, List.sum_cons, List.sum_nil, add_zero,
      add_neg_cancel]
    decide
  nonzero p hp := by
    simp only [adjustInput, List.mem_cons, List.not_mem_nil, or_false] at hp
    rcases hp with rfl | rfl
    · exact h
    · exact neg_ne_zero.mpr h

/-- An unresolved mismatch can be adjusted. -/
theorem adjustToReported_accepted (hr : Reconciled db)
    (hm : db.Mismatch rules userId cp account asset) (hunresolved : cp.resolutionEntryId = none)
    (hcan : db.CanAdjust env userId asset) :
    ∃ r db', (adjustToReported env rules userId cp.id why).run db = .ok (r, db') := by
  obtain ⟨hmem, -, huser⟩ := ownCheckpoint_spec hm.own
  obtain ⟨fx, hfx⟩ := hcan.rate
  obtain ⟨unitUsd, hprice⟩ := hcan.price
  obtain ⟨equity, db₁, hensure⟩ := hcan.equity
  obtain ⟨-, hequity, accounts, rfl, hr₁⟩ := hr.ensureEquity hm hensure
  obtain ⟨haccount, hid, -⟩ := moneyAccount_spec hm.account
  have hmoney : (assertMoneyAccount rules userId cp.accountId).run db =
      .ok ((account, asset), db) := by
    unfold assertMoneyAccount
    rw [Tx.run_read_bind, hm.account]
    rfl
  have hkey : ∀ k ∈ trimmedKey (some (reconcileKey cp.id)),
      (db.withAccounts accounts).findByIdempotencyKey (some userId) k = none := by
    intro k hk
    obtain rfl := Option.some.inj ((trimmedKey_reconcileKey cp.id).symm.trans hk)
    refine List.find?_eq_none.mpr fun e he => ?_
    simpa using fun _ => hr₁.keyFree hmem hunresolved he
  set diff := db.difference userId cp with hdiff
  have hbalanced : Balanced (adjustInput cp account asset.id equity.id diff (diff.mul unitUsd)
      why).postings := balanced_adjustInput (difference_ne_zero hm)
  have hacc : ∀ p ∈ (adjustInput cp account asset.id equity.id diff (diff.mul unitUsd)
      why).postings, ((db.withAccounts accounts).findAccount p.accountId).isSome = true := by
    intro p hp
    unfold Db.findAccount
    rw [List.find?_isSome]
    simp only [adjustInput, List.mem_cons, List.not_mem_nil, or_false] at hp
    rcases hp with rfl | rfl
    · exact ⟨account, List.mem_append_left _ haccount, by simpa using hid⟩
    · exact ⟨equity, hequity, by simp⟩
  have hu : userId ∈ (db.withAccounts accounts).users := hcan.user
  have hpost := postEntry_run hbalanced (congrArg some huser) hu hkey hacc rfl rfl rfl hcan.entry
  obtain ⟨snapshots, hfreeze⟩ := freezeRate_run
    { entryId := env.entryId, fxRate := fx.rate } _
  unfold adjustToReported
  rw [Tx.run_read_bind, hm.own]
  simp only
  rw [Tx.run_bind_of_ok ((readOnly_getWritableUsdIrtRateForUser _).run_ok.mpr ⟨hfx, rfl⟩),
    Tx.run_lock_bind, hm.own]
  simp only
  rw [Tx.run_require_bind, if_pos hunresolved, Tx.run_read_bind, Tx.run_require_bind,
    if_pos hm.latest, Tx.run_bind_of_ok hmoney, Tx.run_read_bind, Tx.run_require_bind,
    if_pos hm.differs,
    Tx.run_bind_of_ok ((readOnly_nativeUnitPriceUsd _ _).run_ok.mpr ⟨hprice, rfl⟩),
    Tx.run_bind_of_ok hensure]
  simp only
  exact ⟨_, _, (Tx.run_bind_of_ok hpost).trans ((Tx.run_bind_of_ok hfreeze).trans rfl)⟩

/-! ## The law of reconciliation -/

/-- The latest checkpoint of the account differs from the books and is not resolved yet. -/
def Db.OpenMismatch (rules : ReconcileRules) (userId checkpointId : Uuid) (db : Db) : Prop :=
  ∃ cp account asset, cp.id = checkpointId ∧ cp.resolutionEntryId = none ∧
    db.Mismatch rules userId cp account asset

/-- One entry is posted and closes the difference, and a second adjustment is refused. -/
structure ClosesDifference (env : Env) (rules : ReconcileRules) (userId : Uuid)
    (cp : BalanceCheckpoint) (db db' : Db) : Prop where
  one : ∃ e, e.id = env.entryId ∧ db'.journalEntries = db.journalEntries ++ [e]
  closed : db'.difference userId cp = 0
  again : ∀ env' rules' why',
    (adjustToReported env' rules' userId cp.id why').exec db' = db'

/-- In every run the latest checkpoint of an account that differs from the books and is not
resolved yet is closed by one entry, and only such a checkpoint is adjusted. -/
theorem open_mismatch_closed (ops : List ReconcileOp) (hdb : db.Unreported)
    (hfree : ∀ op ∈ ops, op.KeyFree) :
    (∀ cp account asset, cp.resolutionEntryId = none →
      (runReconcile ops db).Mismatch rules userId cp account asset →
      (runReconcile ops db).CanAdjust env userId asset →
        ClosesDifference env rules userId cp (runReconcile ops db)
          ((adjustToReported env rules userId cp.id why).exec (runReconcile ops db))) ∧
      ∀ checkpointId, ¬ (runReconcile ops db).OpenMismatch rules userId checkpointId →
        (adjustToReported env rules userId checkpointId why).exec (runReconcile ops db) =
          runReconcile ops db := by
  have hr := runReconcile_reconciled ops hdb.reconciled hfree
  constructor
  · intro cp account asset hunresolved hm hcan
    obtain ⟨r, db', h⟩ : ∃ r db', (adjustToReported env rules userId cp.id why).run
        (runReconcile ops db) = .ok (r, db') := adjustToReported_accepted hr hm hunresolved hcan
    obtain ⟨cp', account', asset', hid, ha⟩ := adjustToReported_ok h
    obtain rfl : cp' = cp := by
      have hown := ha.mismatch.own
      rw [hid, hm.own] at hown
      exact (Option.some.inj hown).symm
    rw [Tx.exec_of_ok h]
    exact ⟨(ha.closed hr).1, (ha.closed hr).2, fun env' rules' why' =>
      (ha.refused_again hr env' rules' why').exec⟩
  · intro checkpointId hnone
    rcases (adjustToReported env rules userId checkpointId why).ok_or_refused
      (runReconcile ops db) with ⟨r, db', h⟩ | h
    · obtain ⟨cp, account, asset, hid, ha⟩ := adjustToReported_ok h
      exact absurd ⟨cp, account, asset, hid, ha.unresolved, ha.mismatch⟩ hnone
    · exact h.exec

end Adjust

section Examples

theorem demoRated_unreported : demoRated.Unreported where
  toEmptyLedger := demoRated_empty
  accountIds := by decide
  chart := by decide
  checkpoints := rfl

/-- The bank says five dollars. -/
def demoReport : ReconcileOp := .checkpoint { entryId := 0, today := 20260101, checkpointId := 7 }
  {} { userId := 1, accountId := 10, asOf := some 20260101, balance := some (.ofInt 5) }

/-- The row of that report. -/
def demoCheckpoint : BalanceCheckpoint :=
  { id := 7, userId := 1, accountId := 10, asOf := 20260101, observedAt := 0
    balance := .ofInt 5 }

def demoAdjust (entryId : Uuid) : Env := { entryId, accountId := 50 }

theorem five_dollars_closed : ClosesDifference (demoAdjust 1) {} 1 demoCheckpoint
    (runReconcile [demoReport] demoRated)
    ((adjustToReported (demoAdjust 1) {} 1 7 {}).exec (runReconcile [demoReport] demoRated)) :=
  (open_mismatch_closed [demoReport] demoRated_unreported
    (by simp [demoReport, ReconcileOp.KeyFree])).1 demoCheckpoint
    ⟨10, 0, some 1, "1010", "دلار", .asset, some 1, false⟩ ⟨1, "USD", "FIAT", false⟩ rfl
    ⟨by decide, by decide, by decide, by decide⟩
    ⟨⟨_, rfl⟩, ⟨_, rfl⟩, ⟨_, _, rfl⟩, by decide, by decide⟩

/-- The entry that closed the difference is reversed: the account differs again, and cannot be
adjusted. -/
theorem reversed_adjustment_stays_open :
    let db := runReconcile [demoReport, .adjust (demoAdjust 1) {} 1 7 {},
      .ledger (.reverse (demoAdjust 2) 1)] demoRated
    db.Mismatch {} 1 { demoCheckpoint with resolutionEntryId := some 1 }
      ⟨10, 0, some 1, "1010", "دلار", .asset, some 1, false⟩ ⟨1, "USD", "FIAT", false⟩ ∧
      (adjustToReported (demoAdjust 3) {} 1 7 {}).refusal db =
        some (.failure "این اختلاف قبلاً اصلاح شده است.") := by
  refine ⟨⟨?_, ?_, ?_, ?_⟩, ?_⟩ <;> decide

end Examples

end Pwos
