import Pwos.Fx.UnitPrice
import Pwos.Lib.Backfill

/-!
# The Toman amounts of old debts

`db/migrate-debt-toman.ts`. A debt or installment from before the Toman columns gets its amount
only from evidence: the one entry that booked the debt in Toman, or the one snapshot frozen with
the payment. Everything else is blocked. The backfill goes through each table in batches and may be
stopped after any of them.
-/

namespace Pwos

/-- A row of `entry_fx_snapshots`. -/
structure SnapshotRow where
  entryId : Uuid
  irtAmount : Decimal
  usdAmount : Decimal
  fxRate : Decimal
  deriving DecidableEq, Repr

/-- The tables of the migration, under their primary keys and the foreign key of installments. -/
@[ext] structure LegacyTables where
  assets : List Asset := []
  accounts : List Account := []
  journalEntries : List JournalEntry := []
  postings : List Posting := []
  entryFxSnapshots : List SnapshotRow := []
  debts : List Debt
  installments : List Installment
  accountIds : (accounts.map (·.id)).Nodup := by decide
  entryIds : (journalEntries.map (·.id)).Nodup := by decide
  debtIds : (debts.map (·.id)).Nodup
  installmentIds : (installments.map (·.id)).Nodup
  owned : ∀ i ∈ installments.map (·.debtId), i ∈ debts.map (·.id)

/-! ## Evidence -/

inductive BlockerCategory where
  | missingEvidence | ambiguous | invalid | quickPayNoSnapshot | nonIrtDenomination | pendingNoToman
  deriving DecidableEq, Repr

structure Blocked where
  category : BlockerCategory
  reason : String
  deriving DecidableEq, Repr

structure DebtEvidence where
  principalToman : Decimal
  entryId : Uuid
  deriving DecidableEq, Repr

structure InstallmentEvidence where
  amountToman : Decimal
  paidToman : Decimal
  paidUsd : Decimal
  paidFxRate : Decimal
  deriving DecidableEq, Repr

namespace LegacyTables
variable (t : LegacyTables)

/-- The lines of the debt's own entries of type `debt` on its account. Primary keys join each line
once. -/
def debtLines (d : Debt) (accountId : Uuid) : List Posting :=
  t.postings.filter fun p => p.accountId = accountId ∧ ∃ a ∈ t.accounts, a.id = accountId ∧
    ∃ e ∈ t.journalEntries, e.id = p.entryId ∧ e.type = .debt ∧ e.userId = a.userId ∧
      e.userId = d.userId

/-- `(p.symbol ?? "").toUpperCase() === "IRT"`. -/
def isToman (p : Posting) : Bool :=
  upper (((t.assets.find? (·.id = p.assetId)).map (·.symbol)).getD "") = "IRT"

/-- What the lines of a debt on its account prove. -/
def debtEvidence (postings : List Posting) : Except Blocked DebtEvidence :=
  match (postings.map (·.entryId)).dedup with
  | [] => .error ⟨.missingEvidence, "no type='debt' ledger entry posts to the liability account."⟩
  | [entryId] =>
    match postings.filter t.isToman with
    | [p] =>
      if p.quantity = 0 then .error ⟨.invalid, "native IRT quantity is zero."⟩
      else .ok ⟨p.quantity.abs, entryId⟩
    | _ => .error ⟨.nonIrtDenomination,
        "the liability posting is not uniquely denominated in native IRT."⟩
  | _ => .error ⟨.ambiguous, "multiple type='debt' entries post to the same liability account."⟩

def classifyDebtEvidence (d : Debt) : Except Blocked DebtEvidence :=
  match d.accountId with
  | none => .error ⟨.missingEvidence,
      "planning-only debt (no liability account) — original Toman is not stored anywhere."⟩
  | some accountId => t.debtEvidence (t.debtLines d accountId)

/-- The snapshots of an entry, with its tenant. -/
def snapshotsOf (entryId : Uuid) : List (SnapshotRow × Option Uuid) :=
  t.entryFxSnapshots.filterMap fun fx =>
    if fx.entryId = entryId then
      (t.journalEntries.find? (·.id = fx.entryId)).map fun e => (fx, e.userId)
    else none

/-- `d.user_id as debt_user`. -/
def debtUser (i : Installment) : Option Uuid := (t.debts.find? (·.id = i.debtId)).bind (·.userId)

def classifyInstallmentEvidence (i : Installment) : Except Blocked InstallmentEvidence :=
  match i.status, i.paidEntryId with
  | .paid, some entryId =>
    match t.snapshotsOf entryId with
    | [] => .error ⟨.quickPayNoSnapshot,
        "paid via the old quick-pay path that did not freeze a Toman snapshot."⟩
    | [(snap, entryUser)] =>
      if entryUser ≠ t.debtUser i then .error ⟨.ambiguous,
        "cross-user evidence: the snapshot entry belongs to another tenant."⟩
      else if snap.irtAmount ≤ 0 then .error ⟨.invalid, "snapshot irt_amount is not positive."⟩
      else .ok ⟨snap.irtAmount, snap.irtAmount, snap.usdAmount, snap.fxRate⟩
    | _ => .error ⟨.ambiguous, "multiple FX snapshots exist for the paid entry."⟩
  | _, _ => .error ⟨.pendingNoToman, "unpaid installment without an authoritative Toman source."⟩

/-! ## Classification -/

/-- `where d.principal_toman is null order by d.id`. -/
def legacyDebts : List Debt :=
  (t.debts.filter (·.principalToman.isNone)).insertionSort fun a b => a.id ≤ b.id

/-- `where i.amount_toman is null order by i.id`. -/
def legacyInstallments : List Installment :=
  (t.installments.filter (·.amountToman.isNone)).insertionSort fun a b => a.id ≤ b.id

end LegacyTables

inductive LegacyKind where
  | debt | installment
  deriving DecidableEq, Repr

structure DebtTomanBlocker where
  kind : LegacyKind
  id : Uuid
  userId : Option Uuid
  legacyAmount : Decimal
  category : BlockerCategory
  reason : String
  deriving DecidableEq, Repr

structure DebtCounts where
  total : Nat
  legacyCandidates : Nat
  reconstructable : Nat
  blocked : Nat
  planningOnly : Nat
  ledgerBacked : Nat
  ambiguous : Nat
  invalid : Nat
  missingEvidence : Nat
  deriving DecidableEq, Repr

structure InstallmentCounts where
  total : Nat
  legacyCandidates : Nat
  reconstructable : Nat
  blocked : Nat
  paid : Nat
  paidReconstructable : Nat
  paidBlocked : Nat
  pending : Nat
  pendingBlocked : Nat
  deriving DecidableEq, Repr

structure DebtTomanClassification where
  debts : DebtCounts
  installments : InstallmentCounts
  blockers : List DebtTomanBlocker
  migratedDebtIds : List Uuid
  migratedInstallmentIds : List Uuid
  deriving DecidableEq, Repr

namespace LegacyTables
variable (t : LegacyTables)

def debtBlocker (d : Debt) : Option DebtTomanBlocker :=
  match t.classifyDebtEvidence d with
  | .ok _ => none
  | .error b => some ⟨.debt, d.id, d.userId, d.principalBase, b.category, b.reason⟩

def installmentBlocker (i : Installment) : Option DebtTomanBlocker :=
  match t.classifyInstallmentEvidence i with
  | .ok _ => none
  | .error b => some ⟨.installment, i.id, t.debtUser i, i.amountBase, b.category, b.reason⟩

def classifyLegacyDebtTomanMigration : DebtTomanClassification :=
  let debts := t.legacyDebts
  let installments := t.legacyInstallments
  let debtBlockers := debts.filterMap t.debtBlocker
  let installmentBlockers := installments.filterMap t.installmentBlocker
  { debts :=
      { total := t.debts.length, legacyCandidates := debts.length
        reconstructable := debts.countP fun d => (t.debtBlocker d).isNone
        blocked := debtBlockers.length
        planningOnly := debts.countP (·.accountId.isNone)
        ledgerBacked := debts.countP (·.accountId.isSome)
        ambiguous := debtBlockers.countP (·.category = .ambiguous)
        invalid := debtBlockers.countP (·.category = .invalid)
        missingEvidence := debtBlockers.countP (·.category = .missingEvidence) }
    installments :=
      { total := t.installments.length, legacyCandidates := installments.length
        reconstructable := installments.countP fun i => (t.installmentBlocker i).isNone
        blocked := installmentBlockers.length
        paid := installments.countP (·.status = .paid)
        paidReconstructable := installments.countP fun i => (t.installmentBlocker i).isNone
        paidBlocked := installments.countP fun i => i.status = .paid ∧ (t.installmentBlocker i).isSome
        pending := installments.countP (·.status ≠ .paid)
        pendingBlocked :=
          installments.countP fun i => i.status ≠ .paid ∧ (t.installmentBlocker i).isSome }
    blockers := debtBlockers ++ installmentBlockers
    migratedDebtIds := (debts.filter fun d => (t.debtBlocker d).isNone).map (·.id)
    migratedInstallmentIds :=
      (installments.filter fun i => (t.installmentBlocker i).isNone).map (·.id) }

/-! ## Backfill -/

/-- How the debts are filled. -/
def debtBackfill : Backfill Debt DebtEvidence where
  key := (·.id)
  isOpen d := d.principalToman.isNone
  isNull d := d.principalToman.isNone
  evidence d := (t.classifyDebtEvidence d).toOption
  fill e d := { d with principalToman := some e.principalToman }

/-- How the installments are filled. Only paid ones with an entry are selected. -/
def installmentBackfill : Backfill Installment InstallmentEvidence where
  key := (·.id)
  isOpen i := i.amountToman.isNone ∧ i.status = .paid ∧ i.paidEntryId.isSome
  isNull i := i.amountToman.isNone
  evidence i := (t.classifyInstallmentEvidence i).toOption
  fill e i :=
    { i with amountToman := some e.amountToman, paidToman := some e.paidToman
             paidUsd := some e.paidUsd, paidFxRate := some e.paidFxRate }

theorem debtBackfill_lawful : t.debtBackfill.Lawful where
  key_fill _ _ := rfl
  isNull h := h
  closed _ _ := rfl

theorem installmentBackfill_lawful : t.installmentBackfill.Lawful where
  key_fill _ _ := rfl
  isNull h := by
    simp only [installmentBackfill, decide_eq_true_eq] at h
    exact h.1
  closed _ _ := by simp [installmentBackfill]

/-- The debts and the installments the two loops leave behind. -/
theorem debts_kept {n k : Nat} : ((t.debtBackfill.loop n k none t.debts).rows.map (·.id)) =
    t.debts.map (·.id) := by
  obtain ⟨ks, hks⟩ := t.debtBackfill_lawful.loop_fills n k none t.debtIds
  rw [hks]
  exact t.debtBackfill_lawful.key_fillAt _ _

theorem installments_kept {β : Type} {n k : Nat} {g : Installment → β}
    (hg : ∀ e i, g (t.installmentBackfill.fill e i) = g i) :
    (t.installmentBackfill.loop n k none t.installments).rows.map g = t.installments.map g := by
  obtain ⟨ks, hks⟩ := t.installmentBackfill_lawful.loop_fills n k none
    t.installmentIds
  rw [hks]
  exact Backfill.map_fillAt hg _ _

/-- The tables after the loop over the debts. -/
def fillDebts (n k : Nat) : LegacyTables :=
  { t with
    debts := (t.debtBackfill.loop n k none t.debts).rows
    debtIds := t.debts_kept ▸ t.debtIds
    owned := t.debts_kept ▸ t.owned }

/-- The tables after the loop over the installments. -/
def fillInstallments (n k : Nat) : LegacyTables :=
  { t with
    installments := (t.installmentBackfill.loop n k none t.installments).rows
    installmentIds := t.installments_kept (g := (·.id)) (fun _ _ => rfl) ▸ t.installmentIds
    owned := t.installments_kept (g := (·.debtId)) (fun _ _ => rfl) ▸ t.owned }

end LegacyTables

structure BackfillBatchStats where
  debtsScanned : Nat := 0
  debtsMigrated : Nat := 0
  installmentsScanned : Nat := 0
  installmentsMigrated : Nat := 0
  skippedAlreadyPopulated : Nat := 0
  deriving DecidableEq, Repr

/-- What a run leaves behind, and whether it came to its end. -/
structure BackfillRun where
  tables : LegacyTables
  batches : List BackfillBatchStats
  completed : Bool

def BackfillRun.total (r : BackfillRun) : BackfillBatchStats :=
  { debtsScanned := (r.batches.map (·.debtsScanned)).sum
    debtsMigrated := (r.batches.map (·.debtsMigrated)).sum
    installmentsScanned := (r.batches.map (·.installmentsScanned)).sum
    installmentsMigrated := (r.batches.map (·.installmentsMigrated)).sum
    skippedAlreadyPopulated := (r.batches.map (·.skippedAlreadyPopulated)).sum }

/-- A run that is stopped after `k` batches, if it has not come to its end by then. -/
def backfillDeterministicDebtToman (batchSize : Option Nat) (k : Nat) (t : LegacyTables) :
    BackfillRun :=
  let n := max 1 (batchSize.getD 200)
  let debts := t.debtBackfill.loop n k none t.debts
  let debtBatches := debts.batches.map fun (scanned, migrated) =>
    ({ debtsScanned := scanned, debtsMigrated := migrated } : BackfillBatchStats)
  let t' := t.fillDebts n k
  match debts.left with
  | none => { tables := t', batches := debtBatches, completed := false }
  | some k' =>
    let installments := t'.installmentBackfill.loop n k' none t'.installments
    let installmentBatches := installments.batches.map fun (scanned, migrated) =>
      ({ installmentsScanned := scanned, installmentsMigrated := migrated } : BackfillBatchStats)
    { tables := t'.fillInstallments n k', batches := debtBatches ++ installmentBatches
      completed := installments.left.isSome }

/-! ## Stopped runs -/

/-- The migration of `t` has come to `s`: nothing else is written, and some rows are filled. -/
structure PartlyFilled (t s : LegacyTables) : Prop where
  assets : s.assets = t.assets
  accounts : s.accounts = t.accounts
  journalEntries : s.journalEntries = t.journalEntries
  postings : s.postings = t.postings
  entryFxSnapshots : s.entryFxSnapshots = t.entryFxSnapshots
  debts : ∃ ks : List Nat, s.debts = t.debtBackfill.fillAt (· ∈ ks) t.debts
  installments : ∃ ks : List Nat, s.installments = t.installmentBackfill.fillAt (· ∈ ks) t.installments

section Runs
variable {t s : LegacyTables} {size : Option Nat} {n k : Nat}

theorem PartlyFilled.refl (t : LegacyTables) : PartlyFilled t t :=
  ⟨rfl, rfl, rfl, rfl, rfl, ⟨[], (Backfill.fillAt_never (by simp)).symm⟩,
    ⟨[], (Backfill.fillAt_never (by simp)).symm⟩⟩

theorem debtEvidence_congr (hassets : s.assets = t.assets) : s.debtEvidence = t.debtEvidence := by
  have htoman : s.isToman = t.isToman := by
    funext p
    simp only [LegacyTables.isToman, hassets]
  funext postings
  simp only [LegacyTables.debtEvidence, htoman]

theorem PartlyFilled.debtBackfill_eq (h : PartlyFilled t s) : s.debtBackfill = t.debtBackfill := by
  have hsame : s.classifyDebtEvidence = t.classifyDebtEvidence := by
    funext d
    simp only [LegacyTables.classifyDebtEvidence, debtEvidence_congr h.assets,
      LegacyTables.debtLines, h.postings, h.accounts, h.journalEntries]
  simp only [LegacyTables.debtBackfill, hsame]

/-- The tenant of a debt is not written. -/
theorem debtUser_fillAt {P : Nat → Prop} [DecidablePred P] (i : Installment)
    (h : s.debts = t.debtBackfill.fillAt P t.debts) : s.debtUser i = t.debtUser i := by
  have hid : ∀ d, (t.debtBackfill.filled d).id = d.id := t.debtBackfill_lawful.key_filled
  have huser : ∀ d, (t.debtBackfill.filled d).userId = d.userId := by
    intro d
    unfold Backfill.filled
    cases t.debtBackfill.evidence d <;> split <;> rfl
  unfold LegacyTables.debtUser
  rw [h, Backfill.fillAt, List.find?_map]
  have hfind : ((fun d : Debt => decide (d.id = i.debtId)) ∘
      fun d => if P (t.debtBackfill.key d) then t.debtBackfill.filled d else d) =
      fun d => decide (d.id = i.debtId) := by
    funext d
    simp only [Function.comp_apply]
    split
    · rw [hid]
    · rfl
  rw [hfind]
  cases t.debts.find? (·.id = i.debtId) with
  | none => rfl
  | some d =>
    simp only [Option.map_some, Option.bind_some]
    split
    · exact huser d
    · rfl

theorem installmentBackfill_eq (hentries : s.journalEntries = t.journalEntries)
    (hsnapshots : s.entryFxSnapshots = t.entryFxSnapshots) (huser : s.debtUser = t.debtUser) :
    s.installmentBackfill = t.installmentBackfill := by
  have hsame : s.classifyInstallmentEvidence = t.classifyInstallmentEvidence := by
    funext i
    simp only [LegacyTables.classifyInstallmentEvidence, LegacyTables.snapshotsOf, hentries,
      hsnapshots, huser]
  simp only [LegacyTables.installmentBackfill, hsame]

theorem PartlyFilled.installmentBackfill_eq (h : PartlyFilled t s) :
    s.installmentBackfill = t.installmentBackfill := by
  obtain ⟨ks, hks⟩ := h.debts
  exact Pwos.installmentBackfill_eq h.journalEntries h.entryFxSnapshots
    (funext fun i => debtUser_fillAt i hks)

theorem PartlyFilled.fillDebts (h : PartlyFilled t s) : PartlyFilled t (s.fillDebts n k) := by
  refine ⟨h.assets, h.accounts, h.journalEntries, h.postings, h.entryFxSnapshots, ?_, h.installments⟩
  obtain ⟨ks, hks⟩ := h.debts
  have hids : (s.debts.map t.debtBackfill.key).Nodup := s.debtIds
  obtain ⟨ls, hls⟩ := t.debtBackfill_lawful.loop_fills n k none hids
  rw [hks] at hls
  refine ⟨ks ++ ls, ?_⟩
  simp only [LegacyTables.fillDebts, h.debtBackfill_eq, hls, hks,
    Backfill.fillAt_fillAt t.debtBackfill_lawful, List.mem_append]

theorem PartlyFilled.fillInstallments (h : PartlyFilled t s) :
    PartlyFilled t (s.fillInstallments n k) := by
  refine ⟨h.assets, h.accounts, h.journalEntries, h.postings, h.entryFxSnapshots, h.debts, ?_⟩
  obtain ⟨ks, hks⟩ := h.installments
  have hids : (s.installments.map t.installmentBackfill.key).Nodup := s.installmentIds
  obtain ⟨ls, hls⟩ := t.installmentBackfill_lawful.loop_fills n k none
    hids
  rw [hks] at hls
  refine ⟨ks ++ ls, ?_⟩
  simp only [LegacyTables.fillInstallments, h.installmentBackfill_eq, hls, hks,
    Backfill.fillAt_fillAt t.installmentBackfill_lawful, List.mem_append]

theorem PartlyFilled.run (h : PartlyFilled t s) (size : Option Nat) (k : Nat) :
    PartlyFilled t (backfillDeterministicDebtToman size k s).tables := by
  simp only [backfillDeterministicDebtToman]
  split
  · exact h.fillDebts
  · exact h.fillDebts.fillInstallments

theorem PartlyFilled.runs (h : PartlyFilled t s) (runs : List (Option Nat × Nat)) :
    PartlyFilled t (runs.foldl (fun s r => (backfillDeterministicDebtToman r.1 r.2 s).tables) s) := by
  induction runs generalizing s with
  | nil => exact h
  | cons r runs ih => exact ih (h.run r.1 r.2)

/-- Everything is filled that there is evidence for. -/
structure Filled (t u : LegacyTables) : Prop extends PartlyFilled t u where
  allDebts : u.debts = t.debts.map t.debtBackfill.filled
  allInstallments : u.installments = t.installments.map t.installmentBackfill.filled

theorem fillAt_none {α ε : Type} {B : Backfill α ε} (hB : B.Lawful) (P : Nat → Prop)
    [DecidablePred P] (rows : List α) :
    B.fillAt (Backfill.Above none) (B.fillAt P rows) = rows.map B.filled := by
  rw [Backfill.fillAt_fillAt hB]
  simp [Backfill.fillAt, Backfill.Above]

theorem PartlyFilled.allDebts (h : PartlyFilled t s) (hn : 0 < n)
    (hend : (s.debtBackfill.loop n k none s.debts).left.isSome) :
    (s.fillDebts n k).debts = t.debts.map t.debtBackfill.filled := by
  obtain ⟨ks, hks⟩ := h.debts
  have hall := s.debtBackfill_lawful.loop_complete hn s.debtIds hend
  simp only [LegacyTables.fillDebts, hall]
  rw [h.debtBackfill_eq, hks, fillAt_none t.debtBackfill_lawful]

theorem PartlyFilled.allInstallments (h : PartlyFilled t s) (hn : 0 < n)
    (hend : (s.installmentBackfill.loop n k none s.installments).left.isSome) :
    (s.fillInstallments n k).installments = t.installments.map t.installmentBackfill.filled := by
  obtain ⟨ks, hks⟩ := h.installments
  have hall := s.installmentBackfill_lawful.loop_complete hn s.installmentIds hend
  simp only [LegacyTables.fillInstallments, hall]
  rw [h.installmentBackfill_eq, hks, fillAt_none t.installmentBackfill_lawful]

theorem PartlyFilled.completed (h : PartlyFilled t s)
    (hend : (backfillDeterministicDebtToman size k s).completed) :
    Filled t (backfillDeterministicDebtToman size k s).tables := by
  have hn : 0 < max 1 (size.getD 200) := by omega
  refine ⟨h.run size k, ?_, ?_⟩ <;> simp only [backfillDeterministicDebtToman] at hend ⊢
  · split at hend
    · cases hend
    · rename_i k' hleft
      exact h.allDebts hn (by rw [hleft]; rfl)
  · split at hend
    · cases hend
    · exact h.fillDebts.allInstallments hn hend

/-- With a batch for every row the run comes to its end. -/
theorem run_completes (size : Option Nat) (s : LegacyTables) :
    ∃ k, (backfillDeterministicDebtToman size k s).completed := by
  set n := max 1 (size.getD 200) with hn
  obtain ⟨k', hleft, hk'⟩ := s.debtBackfill_lawful.loop_ends n none
    (j := s.installments.length) s.debtIds le_rfl
  set k := (s.debts.map s.debtBackfill.key).countP (Backfill.Above none ·) + s.installments.length
  obtain ⟨k'', hdone, -⟩ := (s.fillDebts n k).installmentBackfill_lawful.loop_ends n none (k := k')
    (j := 0) (s.fillDebts n k).installmentIds
    (List.countP_le_length.trans (by simpa [LegacyTables.fillDebts] using hk'))
  refine ⟨k, ?_⟩
  simp only [backfillDeterministicDebtToman, ← hn, hleft, hdone, Option.isSome_some]

/-- A further run finds nothing to do. -/
theorem Filled.run_eq {u : LegacyTables} (h : Filled t u) :
    (backfillDeterministicDebtToman size k u).tables = u := by
  have hrun := (PartlyFilled.refl u).run size k
  obtain ⟨ks, hks⟩ := hrun.debts
  obtain ⟨ls, hls⟩ := hrun.installments
  have hdebts : ∀ d ∈ u.debts, u.debtBackfill.filled d = d := by
    rw [h.debtBackfill_eq, h.allDebts]
    rintro d hd
    obtain ⟨c, -, rfl⟩ := List.mem_map.mp hd
    exact t.debtBackfill_lawful.filled_filled c
  have hinstallments : ∀ i ∈ u.installments, u.installmentBackfill.filled i = i := by
    rw [h.installmentBackfill_eq, h.allInstallments]
    rintro i hi
    obtain ⟨c, -, rfl⟩ := List.mem_map.mp hi
    exact t.installmentBackfill_lawful.filled_filled c
  rw [Backfill.fillAt_filled hdebts] at hks
  rw [Backfill.fillAt_filled hinstallments] at hls
  exact LegacyTables.ext hrun.assets hrun.accounts hrun.journalEntries hrun.postings
    hrun.entryFxSnapshots hks hls

end Runs

/-! ## What a completed migration comes to -/

namespace LegacyTables
variable (t : LegacyTables)

/-- The debt with what its evidence says. -/
def reconstructDebt (d : Debt) : Debt :=
  { d with principalToman := (t.classifyDebtEvidence d).toOption.map (·.principalToman) }

/-- The installment with what its evidence says. -/
def reconstructInstallment (i : Installment) : Installment :=
  let e := (t.classifyInstallmentEvidence i).toOption
  { i with amountToman := e.map (·.amountToman), paidToman := e.map (·.paidToman)
           paidUsd := e.map (·.paidUsd), paidFxRate := e.map (·.paidFxRate) }

end LegacyTables

/-- Exactly what the classification lists is reconstructed, and there is nothing left to do. -/
structure MigrationDone (t u : LegacyTables) : Prop where
  debts : u.debts = t.debts.map fun d =>
    if d.id ∈ t.classifyLegacyDebtTomanMigration.migratedDebtIds then t.reconstructDebt d else d
  installments : u.installments = t.installments.map fun i =>
    if i.id ∈ t.classifyLegacyDebtTomanMigration.migratedInstallmentIds then
      t.reconstructInstallment i
    else i
  assets : u.assets = t.assets
  accounts : u.accounts = t.accounts
  journalEntries : u.journalEntries = t.journalEntries
  postings : u.postings = t.postings
  entryFxSnapshots : u.entryFxSnapshots = t.entryFxSnapshots
  principalBase : u.debts.map (·.principalBase) = t.debts.map (·.principalBase)
  amountBase : u.installments.map (·.amountBase) = t.installments.map (·.amountBase)
  nullPrincipal : (u.debts.countP fun d => d.principalToman.isNone) =
    t.classifyLegacyDebtTomanMigration.debts.blocked
  nullAmount : (u.installments.countP fun i => i.amountToman.isNone) =
    t.classifyLegacyDebtTomanMigration.installments.blocked
  again : ∀ size k, (backfillDeterministicDebtToman size k u).tables = u

/-- A value that is there stays. -/
def ValueKept (x y : Option Decimal) : Prop := ∀ v ∈ x, y = some v

instance (x y : Option Decimal) : Decidable (ValueKept x y) :=
  inferInstanceAs (Decidable (∀ v ∈ x, _))

/-- Only what was null is written. -/
def NullsOnly (t u : LegacyTables) : Prop :=
  List.Forall₂ (fun d d' : Debt => ValueKept d.principalToman d'.principalToman) t.debts u.debts ∧
    List.Forall₂ (fun i i' : Installment => ValueKept i.amountToman i'.amountToman ∧
      ValueKept i.paidToman i'.paidToman ∧ ValueKept i.paidUsd i'.paidUsd ∧
      ValueKept i.paidFxRate i'.paidFxRate) t.installments u.installments

instance (t u : LegacyTables) : Decidable (NullsOnly t u) := inferInstanceAs (Decidable (_ ∧ _))

/-- What is paid of an installment without an amount agrees with the snapshot it is to get one
from. -/
def PaidAsFrozen (t : LegacyTables) : Prop :=
  ∀ i ∈ t.installments, i.amountToman = none → ∀ e ∈ (t.classifyInstallmentEvidence i).toOption,
    (∀ v ∈ i.paidToman, v = e.paidToman) ∧ (∀ v ∈ i.paidUsd, v = e.paidUsd) ∧
      ∀ v ∈ i.paidFxRate, v = e.paidFxRate

instance (t : LegacyTables) : Decidable (PaidAsFrozen t) :=
  inferInstanceAs (Decidable (∀ i ∈ t.installments, _ → ∀ e ∈ _, _ ∧ _ ∧ _))

section Done
variable {t u : LegacyTables} {d : Debt} {i : Installment}

theorem debtBlocker_isNone : (t.debtBlocker d).isNone ↔ (t.classifyDebtEvidence d).toOption.isSome := by
  unfold LegacyTables.debtBlocker
  cases t.classifyDebtEvidence d <;> simp [Except.toOption]

theorem installmentBlocker_isNone :
    (t.installmentBlocker i).isNone ↔ (t.classifyInstallmentEvidence i).toOption.isSome := by
  unfold LegacyTables.installmentBlocker
  cases t.classifyInstallmentEvidence i <;> simp [Except.toOption]

theorem mem_migratedDebtIds (hd : d ∈ t.debts) :
    d.id ∈ t.classifyLegacyDebtTomanMigration.migratedDebtIds ↔
      d.principalToman.isNone ∧ (t.classifyDebtEvidence d).toOption.isSome := by
  have hiff : d.id ∈ t.classifyLegacyDebtTomanMigration.migratedDebtIds ↔
      ∃ c ∈ t.debts, (c.principalToman.isNone ∧ (t.debtBlocker c).isNone) ∧ c.id = d.id := by
    simp [LegacyTables.classifyLegacyDebtTomanMigration, LegacyTables.legacyDebts, and_assoc]
  rw [hiff, ← debtBlocker_isNone]
  refine ⟨?_, fun h => ⟨d, hd, h, rfl⟩⟩
  rintro ⟨c, hc, h, hid⟩
  obtain rfl : c = d := List.inj_on_of_nodup_map t.debtIds hc hd hid
  exact h

theorem mem_migratedInstallmentIds (hi : i ∈ t.installments) :
    i.id ∈ t.classifyLegacyDebtTomanMigration.migratedInstallmentIds ↔
      i.amountToman.isNone ∧ (t.classifyInstallmentEvidence i).toOption.isSome := by
  have hiff : i.id ∈ t.classifyLegacyDebtTomanMigration.migratedInstallmentIds ↔
      ∃ c ∈ t.installments, (c.amountToman.isNone ∧ (t.installmentBlocker c).isNone) ∧
        c.id = i.id := by
    simp [LegacyTables.classifyLegacyDebtTomanMigration, LegacyTables.legacyInstallments, and_assoc]
  rw [hiff, ← installmentBlocker_isNone]
  refine ⟨?_, fun h => ⟨i, hi, h, rfl⟩⟩
  rintro ⟨c, hc, h, hid⟩
  obtain rfl : c = i := List.inj_on_of_nodup_map t.installmentIds hc hi hid
  exact h

/-- Evidence is only found for what is paid through an entry. -/
theorem selected_of_evidence (h : (t.classifyInstallmentEvidence i).toOption.isSome) :
    i.status = .paid ∧ i.paidEntryId.isSome := by
  unfold LegacyTables.classifyInstallmentEvidence at h
  split at h
  · rename_i hstatus hentry
    exact ⟨hstatus, by rw [hentry]; rfl⟩
  · cases h

theorem filled_debt (hd : d ∈ t.debts) : t.debtBackfill.filled d =
    if d.id ∈ t.classifyLegacyDebtTomanMigration.migratedDebtIds then t.reconstructDebt d else d := by
  have hmem := mem_migratedDebtIds hd
  simp only [Backfill.filled, LegacyTables.debtBackfill, hmem, LegacyTables.reconstructDebt]
  cases (t.classifyDebtEvidence d).toOption <;> simp

theorem filled_installment (hi : i ∈ t.installments) : t.installmentBackfill.filled i =
    if i.id ∈ t.classifyLegacyDebtTomanMigration.migratedInstallmentIds then
      t.reconstructInstallment i
    else i := by
  have hmem := mem_migratedInstallmentIds hi
  have hselected : (t.classifyInstallmentEvidence i).toOption.isSome → _ := selected_of_evidence
  simp only [Backfill.filled, LegacyTables.installmentBackfill, hmem,
    LegacyTables.reconstructInstallment]
  cases h : (t.classifyInstallmentEvidence i).toOption with
  | none => simp
  | some e =>
    obtain ⟨hpaid, hentry⟩ := hselected (by rw [h]; rfl)
    simp [hpaid, hentry]

theorem filled_debt_of_some (h : d.principalToman.isNone = false) : t.debtBackfill.filled d = d :=
  Backfill.filled_of_closed h

theorem filled_installment_of_some (h : i.amountToman.isNone = false) :
    t.installmentBackfill.filled i = i := by
  apply Backfill.filled_of_closed
  cases ha : i.amountToman with
  | none => simp [ha] at h
  | some v => simp [LegacyTables.installmentBackfill, ha]

/-- What stays null is what is blocked. -/
theorem null_filled_debt : (t.debtBackfill.filled d).principalToman.isNone ↔
    d.principalToman.isNone ∧ (t.debtBlocker d).isSome := by
  have hblocked := debtBlocker_isNone (t := t) (d := d)
  by_cases hnull : d.principalToman.isNone
  · cases h : (t.classifyDebtEvidence d).toOption <;> cases hb : t.debtBlocker d <;>
      simp_all [Backfill.filled, LegacyTables.debtBackfill]
  · rw [filled_debt_of_some (eq_false_of_ne_true hnull)]
    simp [hnull]

theorem null_filled_installment : (t.installmentBackfill.filled i).amountToman.isNone ↔
    i.amountToman.isNone ∧ (t.installmentBlocker i).isSome := by
  have hblocked := installmentBlocker_isNone (t := t) (i := i)
  have hselected : (t.classifyInstallmentEvidence i).toOption.isSome → _ := selected_of_evidence
  by_cases hnull : i.amountToman.isNone
  · cases h : (t.classifyInstallmentEvidence i).toOption <;> cases hb : t.installmentBlocker i <;>
      simp_all [Backfill.filled, LegacyTables.installmentBackfill]
  · rw [filled_installment_of_some (eq_false_of_ne_true hnull)]
    simp [hnull]

theorem length_filterMap_sorted {α β : Type} {f : α → Option β} {p : α → Bool} {r : α → α → Prop}
    [DecidableRel r] (rows : List α) :
    (((rows.filter p).insertionSort r).filterMap f).length =
      rows.countP fun x => p x ∧ (f x).isSome := by
  rw [((List.perm_insertionSort r _).filterMap f).length_eq]
  induction rows with
  | nil => rfl
  | cons x rows ih =>
    cases hp : p x <;> cases hf : f x <;> simp_all

/-- What the migration of `t` filled is what the claim of its classification lists. -/
theorem Filled.done (h : Filled t u) : MigrationDone t u where
  debts := by
    rw [h.allDebts]
    exact List.map_congr_left fun d hd => filled_debt hd
  installments := by
    rw [h.allInstallments]
    exact List.map_congr_left fun i hi => filled_installment hi
  assets := h.assets
  accounts := h.accounts
  journalEntries := h.journalEntries
  postings := h.postings
  entryFxSnapshots := h.entryFxSnapshots
  principalBase := by
    obtain ⟨ks, hks⟩ := h.debts
    rw [hks]
    exact Backfill.map_fillAt (fun _ _ => rfl) _ _
  amountBase := by
    obtain ⟨ks, hks⟩ := h.installments
    rw [hks]
    exact Backfill.map_fillAt (fun _ _ => rfl) _ _
  nullPrincipal := by
    have hcount := length_filterMap_sorted (f := t.debtBlocker) (p := (·.principalToman.isNone))
      (r := fun a b => a.id ≤ b.id) t.debts
    rw [h.allDebts, List.countP_map]
    refine Eq.trans (List.countP_congr fun d _ => ?_) hcount.symm
    simpa using null_filled_debt
  nullAmount := by
    have hcount := length_filterMap_sorted (f := t.installmentBlocker)
      (p := (·.amountToman.isNone)) (r := fun a b => a.id ≤ b.id) t.installments
    rw [h.allInstallments, List.countP_map]
    refine Eq.trans (List.countP_congr fun i _ => ?_) hcount.symm
    simpa using null_filled_installment
  again _ _ := h.run_eq

theorem ValueKept.refl (x : Option Decimal) : ValueKept x x := fun _ h => h

theorem valueKept_some {x : Option Decimal} {w : Decimal} : ValueKept x (some w) ↔ ∀ v ∈ x, v = w := by
  simp only [ValueKept, Option.some.injEq, eq_comm]

theorem valueKept_debt (d : Debt) :
    ValueKept d.principalToman (t.debtBackfill.filled d).principalToman := by
  cases h : d.principalToman with
  | none => nofun
  | some v =>
    rw [filled_debt_of_some (by rw [h]; rfl), h]
    exact .refl _

/-- An installment keeps its values unless it gets an amount and was paid otherwise. -/
theorem valueKept_installment (i : Installment) :
    let j := t.installmentBackfill.filled i
    (ValueKept i.amountToman j.amountToman ∧ ValueKept i.paidToman j.paidToman ∧
      ValueKept i.paidUsd j.paidUsd ∧ ValueKept i.paidFxRate j.paidFxRate) ↔
      (i.amountToman = none → ∀ e ∈ (t.classifyInstallmentEvidence i).toOption,
        (∀ v ∈ i.paidToman, v = e.paidToman) ∧ (∀ v ∈ i.paidUsd, v = e.paidUsd) ∧
          ∀ v ∈ i.paidFxRate, v = e.paidFxRate) := by
  intro j
  cases hnull : i.amountToman with
  | some v =>
    have hj : j = i := filled_installment_of_some (by rw [hnull]; rfl)
    simp [hj, hnull, ValueKept.refl]
  | none =>
    cases he : (t.classifyInstallmentEvidence i).toOption with
    | none =>
      have hj : j = i := by simp [j, Backfill.filled, LegacyTables.installmentBackfill, he]
      simp [hj, hnull, ValueKept.refl]
    | some e =>
      obtain ⟨hpaid, hentry⟩ := selected_of_evidence (by rw [he]; rfl)
      have hj : j = t.installmentBackfill.fill e i := by
        simp [j, Backfill.filled, LegacyTables.installmentBackfill, he, hnull, hpaid, hentry]
      simp only [hj, LegacyTables.installmentBackfill, valueKept_some]
      simp

theorem nullsOnly_iff (h : Filled t u) : NullsOnly t u ↔ PaidAsFrozen t := by
  unfold NullsOnly PaidAsFrozen
  rw [h.allDebts, h.allInstallments, List.forall₂_map_right_iff, List.forall₂_map_right_iff,
    List.forall₂_same, List.forall₂_same]
  simp only [valueKept_installment]
  exact ⟨fun hkept => hkept.2, fun hpaid => ⟨fun d _ => valueKept_debt d, hpaid⟩⟩

end Done

/-- Runs that are stopped after some batches, one after the other. -/
def stoppedRuns (runs : List (Option Nat × Nat)) (t : LegacyTables) : LegacyTables :=
  runs.foldl (fun s r => (backfillDeterministicDebtToman r.1 r.2 s).tables) t

/-- Whatever was stopped before, a run can be completed, and then exactly what the classification
lists is reconstructed; it writes nulls only if what is paid of the installments agrees with their
snapshots. -/
theorem backfill_one_pass (t : LegacyTables) (runs : List (Option Nat × Nat)) (size : Option Nat) :
    (∃ k, (backfillDeterministicDebtToman size k (stoppedRuns runs t)).completed) ∧
      ∀ k, (backfillDeterministicDebtToman size k (stoppedRuns runs t)).completed →
        let u := (backfillDeterministicDebtToman size k (stoppedRuns runs t)).tables
        MigrationDone t u ∧ (NullsOnly t u ↔ PaidAsFrozen t) := by
  refine ⟨run_completes size _, fun k hend => ?_⟩
  have hfilled := ((PartlyFilled.refl t).runs runs).completed hend
  exact ⟨hfilled.done, nullsOnly_iff hfilled⟩

/-! ## A payment in two parts -/

/-- An old installment of ten Toman, paid six and then four: its snapshot is of the last part. -/
def paidInParts : LegacyTables where
  journalEntries := [⟨7, some 1, 20240601, .debtRepayment, "", none, .posted, none, .manual, none, none, none⟩]
  entryFxSnapshots := [⟨7, .ofInt 4, .ofInt 2, .ofInt 2⟩]
  debts := [{ id := 1, userId := some 1, title := "" }]
  installments := [
    { id := 1, debtId := 1, seq := 1, amountBase := .ofInt 5, paidToman := some (.ofInt 10)
      paidUsd := some (.ofInt 2), paidFxRate := some (.ofInt 2), status := .paid
      paidEntryId := some 7 }]
  debtIds := by decide
  installmentIds := by decide
  owned := by decide

/-- What was paid is overwritten. -/
theorem paid_amount_overwritten : (backfillDeterministicDebtToman none 2 paidInParts).completed ∧
    ¬ NullsOnly paidInParts (backfillDeterministicDebtToman none 2 paidInParts).tables := by
  decide

/-- The same, paid at once. -/
def paidAtOnce : LegacyTables :=
  { paidInParts with entryFxSnapshots := [⟨7, .ofInt 10, .ofInt 2, .ofInt 2⟩] }

/-- Stopped after the first batch, and run again one row at a time. -/
theorem paid_amount_kept :
    NullsOnly paidAtOnce
      (backfillDeterministicDebtToman (some 1) 2 (stoppedRuns [(none, 1)] paidAtOnce)).tables :=
  ((backfill_one_pass paidAtOnce [(none, 1)] (some 1)).2 2 (by decide)).2.mpr (by decide)

end Pwos
