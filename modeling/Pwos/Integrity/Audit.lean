import Pwos.Ledger.Journal

/-!
# The accounting audits

`features/integrity/service.ts`: the ledger checks of `runIntegrityChecks` and the Stage 3
audit. The checks of plans, prices, duplicates and reviews read other tables and are left
out. The FIFO check compares every lot of the user with its consumptions, those of
reversed purchases included, and a reversal empties a lot without a consumption.
-/

namespace Pwos

inductive CheckStatus where
  | pass | warn | fail
  deriving DecidableEq, Repr

structure IntegrityCheck where
  id : String
  title : String
  description : String
  status : CheckStatus
  outcome : String
  affected : Nat
  /-- Name and day of each finding. -/
  samples : List (String × IsoDate)
  severityLabel : String
  action : Option (String × String)
  deriving DecidableEq, Repr

/-- The base values of an entry add up to more than 1e-9. -/
def Db.Unbalanced (db : Db) (e : JournalEntry) : Prop :=
  db.postingsOf e.id ≠ [] ∧ TOLERANCE < ((db.postingsOf e.id).map Posting.baseValue).sum.abs

instance (db : Db) (e : JournalEntry) : Decidable (db.Unbalanced e) :=
  inferInstanceAs (Decidable (_ ∧ _))

/-- 1e-8 units. -/
def LOT_TOLERANCE : Decimal := ⟨10 ^ 10⟩

/-- `qty_opened - qty_remaining - sum(consumptions)` of a lot is not zero. -/
def Db.LotInconsistent (db : Db) (l : Lot) : Prop :=
  LOT_TOLERANCE < (l.qtyOpened - l.qtyRemaining - db.consumed l.id).abs

instance (db : Db) (l : Lot) : Decidable (db.LotInconsistent l) :=
  inferInstanceAs (Decidable (_ < _))

def Db.unbalancedEntries (db : Db) (userId : Uuid) : List JournalEntry :=
  (db.journalEntries.filter fun e => e.userId = some userId ∧ db.Unbalanced e).take 10

def Db.incompleteEntries (db : Db) (userId : Uuid) : List JournalEntry :=
  (db.journalEntries.filter fun e =>
    e.userId = some userId ∧ (db.postingsOf e.id).length < 2).take 10

/-- Symbol and opening day of the lots that do not add up. -/
def Db.fifoBad (db : Db) (userId : Uuid) : List (String × IsoDate) :=
  ((db.lots.filter fun l => l.userId = some userId ∧ db.LotInconsistent l).filterMap fun l =>
    (db.findAsset l.assetId).map fun a => (a.symbol, l.openedAt)).take 10

/-- A check that fails when something was found. -/
def checkOf (id title description : String) (found : List (String × IsoDate))
    (bad good : String) (action : String × String) : IntegrityCheck :=
  { id, title, description
    status := if found = [] then .pass else .fail
    outcome := if found = [] then good else toString found.length ++ bad
    affected := found.length
    samples := found
    severityLabel := if found = [] then "سالم" else "بحرانی"
    action := if found = [] then none else some action }

def ledgerBalanceCheck (userId : Uuid) (db : Db) : IntegrityCheck :=
  checkOf "ledger-balance" "تراز سوابق مالی" ""
    ((db.unbalancedEntries userId).map fun e => (e.description, e.entryDate))
    " سند نامتوازن پیدا شد — مانده‌های مشتق‌شده قابل اتکا نیستند تا زمانی که اصلاح شوند."
    "همه اسناد کاملاً تراز هستند؛ مانده‌ها درست حساب شده‌اند."
    ("/ledger", "مشاهده در سوابق مالی")

def recordCompletenessCheck (userId : Uuid) (db : Db) : IntegrityCheck :=
  checkOf "record-completeness" "کامل بودن اسناد"
    "هر سند باید حداقل دو ردیف (بدهکار و بستانکار) داشته باشد؛ اسناد ناقص نشانه ثبت نیمه‌کاره هستند."
    ((db.incompleteEntries userId).map fun e => (e.description, e.entryDate))
    " سند کمتر از دو ردیف دارد." "همه اسناد حداقل دو ردیف حسابداری دارند."
    ("/ledger", "بررسی اسناد")

def fifoConsistencyCheck (userId : Uuid) (db : Db) : IntegrityCheck :=
  checkOf "fifo-consistency" "سازگاری بهای تمام‌شده" "" (db.fifoBad userId)
    " رکورد بهای تمام‌شده ناسازگار است." "بهای تمام‌شده برای همه دارایی‌ها سازگار است."
    ("/portfolio", "بررسی دارایی‌ها")

/-- The checks of the ledger among those `runIntegrityChecks` returns. -/
def runIntegrityChecks (userId : Uuid) (db : Db) : List IntegrityCheck :=
  [ledgerBalanceCheck userId db, recordCompletenessCheck userId db,
    fifoConsistencyCheck userId db]

structure Stage3Audit where
  unbalancedJournals : Nat
  orphanPostings : Nat
  duplicateIdempotency : Nat
  negativeLots : Nat
  overConsumedLots : Nat
  deriving DecidableEq, Repr

def Stage3Audit.ok (a : Stage3Audit) : Bool :=
  a.unbalancedJournals = 0 ∧ a.orphanPostings = 0 ∧ a.duplicateIdempotency = 0 ∧
    a.negativeLots = 0 ∧ a.overConsumedLots = 0

/-- User and key of every entry that has a key. -/
def Db.idempotencyKeys (db : Db) : List (Option Uuid × String) :=
  db.journalEntries.filterMap fun e => e.idempotencyKey.map fun k => (e.userId, k)

def runStage3IntegrityAudit (db : Db) : Stage3Audit :=
  { unbalancedJournals := (db.journalEntries.filter fun e => db.Unbalanced e).length
    orphanPostings :=
      (db.postings.filter fun p => ¬ ∃ e ∈ db.journalEntries, e.id = p.entryId).length
    duplicateIdempotency :=
      (db.idempotencyKeys.dedup.filter fun k => 1 < db.idempotencyKeys.count k).length
    negativeLots := (db.lots.filter fun l => l.qtyRemaining < 0).length
    overConsumedLots :=
      (db.lots.filter fun l => l.qtyOpened + LOT_TOLERANCE < db.consumed l.id).length }

/-- No audit reports a violation, and what remains of every lot is between zero and
what was opened. -/
structure AuditsPass (db : Db) : Prop where
  checks : ∀ userId, ∀ c ∈ runIntegrityChecks userId db, c.status = .pass
  stage3 : (runStage3IntegrityAudit db).ok = true
  bounds : ∀ l ∈ db.lots, 0 ≤ l.qtyRemaining ∧ l.qtyRemaining ≤ l.qtyOpened

/-! ## When the audits pass -/

/-- A lot of some user, large enough for the audit to see. -/
def Lot.Audited (l : Lot) : Prop := l.userId ≠ none ∧ LOT_TOLERANCE < l.qtyOpened

/-- Under the invariant of the lots the FIFO check finds the lots of void entries. -/
theorem lotInconsistent_iff {db : Db} (hb : LotBook db) {l : Lot} (hl : l ∈ db.lots) :
    db.LotInconsistent l ↔ ¬ db.Posted l.openEntryId ∧ LOT_TOLERANCE < l.qtyOpened := by
  unfold Db.LotInconsistent
  by_cases hp : db.Posted l.openEntryId
  · have hzero : l.qtyOpened - l.qtyRemaining - db.consumed l.id = 0 := by
      rw [hb.live l hl hp]; abel
    have hlt : ¬ LOT_TOLERANCE < Decimal.abs 0 := by decide
    simp [hzero, hp, hlt]
  · obtain ⟨hrem, hnone⟩ := hb.void l hl hp
    have hcons : db.consumed l.id = 0 := taken_eq_zero hnone
    have habs : l.qtyOpened.abs = l.qtyOpened := if_neg (not_lt.mpr (hb.opened l hl).le)
    simp [hrem, hcons, habs, hp]

theorem fifoBad_eq_nil {db : Db} (hi : LedgerInv db) (userId : Uuid) :
    db.fifoBad userId = [] ↔ ∀ l ∈ db.lots, l.userId = some userId →
      ¬ (¬ db.Posted l.openEntryId ∧ LOT_TOLERANCE < l.qtyOpened) := by
  unfold Db.fifoBad
  rw [List.take_eq_nil_iff, or_iff_right (by decide), List.filterMap_eq_nil_iff]
  constructor
  · intro h l hl hu hbad
    have hasset := h l (List.mem_filter.mpr
      ⟨hl, by simpa [hu] using (lotInconsistent_iff hi.toLotBook hl).mpr hbad⟩)
    obtain ⟨a, ha, hid⟩ := hi.lotAsset l hl
    rw [Option.map_eq_none_iff, Db.findAsset, List.find?_eq_none] at hasset
    exact absurd hid (by simpa using hasset a ha)
  · intro h l hl
    obtain ⟨hl, hbad⟩ := List.mem_filter.mp hl
    simp only [decide_eq_true_eq] at hbad
    exact absurd ((lotInconsistent_iff hi.toLotBook hl).mp hbad.2) (h l hl hbad.1)

theorem not_unbalanced {db : Db} (hj : JournalInv db) {e : JournalEntry}
    (he : e ∈ db.journalEntries) : ¬ db.Unbalanced e :=
  fun h => not_lt.mpr (hj.sound e he).balanced h.2

theorem checkOf_pass {id title description : String} {found : List (String × IsoDate)}
    {bad good : String} {action : String × String} :
    (checkOf id title description found bad good action).status = .pass ↔ found = [] := by
  unfold checkOf
  by_cases h : found = [] <;> simp [h]

theorem runIntegrityChecks_pass {db : Db} (hi : LedgerInv db) (hj : JournalInv db) :
    (∀ userId, ∀ c ∈ runIntegrityChecks userId db, c.status = .pass) ↔ ¬ db.HasVoidLot Lot.Audited := by
  have hbalance : ∀ userId, db.unbalancedEntries userId = [] := by
    intro u
    rw [Db.unbalancedEntries, List.filter_eq_nil_iff.mpr, List.take_nil]
    intro e he
    simpa using fun _ => not_unbalanced hj he
  have hcomplete : ∀ userId, db.incompleteEntries userId = [] := by
    intro u
    rw [Db.incompleteEntries, List.filter_eq_nil_iff.mpr, List.take_nil]
    intro e he
    simp only [decide_eq_true_eq, not_and, not_lt]
    exact fun _ => (hj.sound e he).two
  simp only [runIntegrityChecks, List.mem_cons, List.not_mem_nil, or_false, forall_eq_or_imp,
    forall_eq, ledgerBalanceCheck, recordCompletenessCheck, fifoConsistencyCheck, checkOf_pass,
    hbalance, hcomplete, List.map_nil, true_and, fifoBad_eq_nil hi]
  constructor
  · rintro h ⟨l, hl, ⟨hu, ht⟩, hv⟩
    obtain ⟨u, hu⟩ := Option.ne_none_iff_exists'.mp hu
    exact h u l hl hu ⟨hv, ht⟩
  · rintro h u l hl hu ⟨hv, ht⟩
    exact h ⟨l, hl, ⟨by simp [hu], ht⟩, hv⟩

theorem consumed_le_opened {db : Db} (hi : LedgerInv db) {l : Lot} (hl : l ∈ db.lots) :
    l.qtyRemaining + db.consumed l.id ≤ l.qtyOpened := by
  by_cases hp : db.Posted l.openEntryId
  · exact (hi.live l hl hp).ge
  · obtain ⟨hrem, hnone⟩ := hi.void l hl hp
    rw [hrem, show db.consumed l.id = 0 from taken_eq_zero hnone, add_zero]
    exact (hi.opened l hl).le

theorem lot_bounds {db : Db} (hi : LedgerInv db) {l : Lot} (hl : l ∈ db.lots) :
    0 ≤ l.qtyRemaining ∧ l.qtyRemaining ≤ l.qtyOpened :=
  ⟨hi.nonneg l hl,
    (le_add_of_nonneg_right (consumed_nonneg hi.toWellFormed l.id)).trans (consumed_le_opened hi hl)⟩

theorem runStage3IntegrityAudit_ok {db : Db} (hi : LedgerInv db) (hj : JournalInv db)
    (hk : db.idempotencyKeys.Nodup) : (runStage3IntegrityAudit db).ok = true := by
  simp only [Stage3Audit.ok, runStage3IntegrityAudit, List.length_eq_zero_iff,
    List.filter_eq_nil_iff, decide_eq_true_eq]
  refine ⟨fun e he => not_unbalanced hj he, fun p hp => not_not.mpr (hi.postingEntry p hp), ?_,
    fun l hl => not_lt.mpr (hi.nonneg l hl), fun l hl => not_lt.mpr ?_⟩
  · exact fun k _ => not_lt.mpr (List.nodup_iff_count_le_one.mp hk k)
  · calc db.consumed l.id
        ≤ l.qtyRemaining + db.consumed l.id := le_add_of_nonneg_left (hi.nonneg l hl)
      _ ≤ l.qtyOpened := consumed_le_opened hi hl
      _ ≤ l.qtyOpened + LOT_TOLERANCE := le_add_of_nonneg_right (by decide)

theorem auditsPass_iff {db : Db} (hi : LedgerInv db) (hj : JournalInv db)
    (hk : db.idempotencyKeys.Nodup) : AuditsPass db ↔ ¬ db.HasVoidLot Lot.Audited :=
  ⟨fun h => (runIntegrityChecks_pass hi hj).mp h.checks,
    fun h => ⟨(runIntegrityChecks_pass hi hj).mpr h, runStage3IntegrityAudit_ok hi hj hk,
      fun _ hl => lot_bounds hi hl⟩⟩

/-! ## Which runs pass -/

/-- The call voids an entry that opened a lot large enough to be seen. -/
def LedgerOp.VoidsLot (op : LedgerOp) (db : Db) : Prop :=
  match op with
  | .post _ _ => False
  | .reverse env entryId => Reverses Lot.Audited env entryId db

theorem recorded_keys_nodup {env : Env} {input : PostEntryInput} {userId : Option Uuid}
    {db db' : Db} (hk : db.idempotencyKeys.Nodup) (h : Posted env input userId db db') :
    db'.idempotencyKeys.Nodup := by
  have hkeys : db'.idempotencyKeys = db.idempotencyKeys ++
      ((trimmedKey input.idempotencyKey).map fun k => (userId, k)).toList := by
    rw [h.written.result]
    simp only [Db.idempotencyKeys, Db.recorded, List.filterMap_append, List.filterMap_cons,
      List.filterMap_nil, PostEntryInput.entryRow]
    cases trimmedKey input.idempotencyKey <;> rfl
  rw [hkeys]
  cases hkey : trimmedKey input.idempotencyKey with
  | none => simpa using hk
  | some k =>
    refine List.nodup_append.mpr ⟨hk, by simp, ?_⟩
    rintro x hx y hy rfl
    simp only [Option.map_some, Option.toList_some, List.mem_singleton] at hy
    obtain ⟨e, he, hek⟩ := List.mem_filterMap.mp hx
    have hnone := List.find?_eq_none.mp (h.newKey k hkey) e he
    obtain ⟨k', hk', hpair⟩ := Option.map_eq_some_iff.mp hek
    rw [hy, Prod.mk.injEq] at hpair
    simp [hpair.1, hk', hpair.2] at hnone

theorem reversed_keys (db : Db) (env : Env) (e : JournalEntry) :
    (db.reversed env e).idempotencyKeys = db.idempotencyKeys := by
  simp [Db.idempotencyKeys, Db.reversed, List.filterMap_map, JournalEntry.reversalRow]

/-- What a call does to the lots the audit sees. -/
theorem hasVoidLot_exec (op : LedgerOp) (db : Db) (hi : LedgerInv db) :
    (op.exec db).HasVoidLot Lot.Audited ↔ db.HasVoidLot Lot.Audited ∨ op.VoidsLot db := by
  cases op with
  | post env input =>
    simp only [LedgerOp.VoidsLot, or_false]
    rcases exec_postEntryPriced env none input hi.lotIds with h | ⟨userId, h⟩
    · exact iff_of_eq (congrArg (Db.HasVoidLot Lot.Audited) h)
    · have hresult := h.written.result
      rw [LedgerOp.exec, LedgerOp.program, postEntry, hresult]
      exact hasVoidLot_recorded (fun _ _ => Iff.rfl) hi.toWellFormed (h.recordable hi.lotIds)
  | reverse env entryId => exact hasVoidLot_reverseEntry (fun _ _ => Iff.rfl) hi env entryId

theorem exec_keys_nodup (op : LedgerOp) {db : Db} (hi : LedgerInv db)
    (hk : db.idempotencyKeys.Nodup) : (op.exec db).idempotencyKeys.Nodup := by
  cases op with
  | post env input =>
    rcases exec_postEntryPriced env none input hi.lotIds with h | ⟨userId, h⟩
    · exact (congrArg Db.idempotencyKeys h).symm ▸ hk
    · exact recorded_keys_nodup hk h
  | reverse env entryId =>
    rcases exec_reverseEntry env entryId hi.lotIds with ⟨-, h⟩ | ⟨e, -, -, h⟩
    · exact (congrArg Db.idempotencyKeys h).symm ▸ hk
    · exact (congrArg Db.idempotencyKeys h).symm ▸ (reversed_keys db env e).symm ▸ hk

theorem runOps_keys_nodup (ops : List LedgerOp) {db : Db} (hi : LedgerInv db)
    (hk : db.idempotencyKeys.Nodup) : (runOps ops db).idempotencyKeys.Nodup :=
  (runAll_keeps (I := fun s => LedgerInv s ∧ s.idempotencyKeys.Nodup)
    (fun op _ h => ⟨op.exec_inv h.1, exec_keys_nodup op h.1 h.2⟩) ops ⟨hi, hk⟩).2

/-- The audits pass after a run exactly if no accepted reversal of the run voided a
purchase: the lot of a voided purchase is reported as inconsistent. -/
theorem runOps_auditsPass {db : Db} (h : db.EmptyLedger) (ops : List LedgerOp) :
    AuditsPass (runOps ops db) ↔ EveryCall LedgerOp.exec (fun op s => ¬ op.VoidsLot s) ops db := by
  have hi := runOps_inv ops h.inv
  have hj := (runOps_keeps (fun _ _ hi hj hs => JournalInv.step hi hj hs) ops h.inv
    h.journalInv).2
  have hk := runOps_keys_nodup ops h.inv (by simp [Db.idempotencyKeys, h.journalEntries])
  have hstart : ¬ db.HasVoidLot Lot.Audited := by rintro ⟨l, hl, -⟩; simp [h.lots] at hl
  rw [auditsPass_iff hi hj hk, runOps,
    runAll_marked (fun op _ => op.exec_inv) hasVoidLot_exec ops h.inv, or_iff_right hstart, not_not]

theorem demo_auditsPass :
    AuditsPass (runOps [.post { entryId := 1 } (demoBuy 2 100)] demo) ↔
      EveryCall LedgerOp.exec (fun op s => ¬ op.VoidsLot s)
        [.post { entryId := 1 } (demoBuy 2 100)] demo :=
  runOps_auditsPass demo_empty _

/-- Buy two coins and reverse the purchase. -/
theorem audit_flags_reversed_buy :
    ¬ AuditsPass (runOps [.post { entryId := 1 } (demoBuy 2 100), .reverse { entryId := 2 } 1]
      demo) := by
  intro h
  have hfail : (fifoConsistencyCheck 1 (runOps [.post { entryId := 1 } (demoBuy 2 100),
      .reverse { entryId := 2 } 1] demo)).status = .fail := by decide
  have hpass := h.checks 1 _ (List.mem_cons_of_mem _ (List.mem_cons_of_mem _
    (List.mem_singleton_self _)))
  rw [hfail] at hpass
  cases hpass

end Pwos
