import Pwos.Accounts.DeleteAccount
import Pwos.Ledger.Undo

/-!
# The books over live accounts

The control sum counts what is posted on accounts that are not deleted. A deletion takes lines
out of it, and whether an account may go is decided on quantities, so the sum stays zero
exactly when the values of these lines cancel (`control_sum_kept_iff`).
-/

namespace Pwos

def Db.LiveAccount (accountId : Uuid) (db : Db) : Prop :=
  ∃ a ∈ db.accounts, a.id = accountId ∧ a.deleted = false

instance (accountId : Uuid) (db : Db) : Decidable (db.LiveAccount accountId) :=
  inferInstanceAs (Decidable (∃ a ∈ db.accounts, _))

/-- What `userId` sees posted on live accounts, in the base currency. -/
def Db.controlSum (userId : Option Uuid) (db : Db) : Decimal :=
  (((db.livePostings userId).filter fun p => db.LiveAccount p.accountId).map (·.baseValue)).sum

/-! ## What a deletion does -/

section Deletion
variable {env : Env} {shown : Account → Decimal → String} {accountId userId : Option Uuid}
  {i : Uuid} {scope : Option Uuid} {db db' : Db}

/-- The account is out. Its opening entry is reversed, or nothing of it was left. -/
structure Deletes (env : Env) (i : Uuid) (db db' : Db) : Prop where
  live : db.LiveAccount i
  accounts : ∀ j, db'.LiveAccount j ↔ db.LiveAccount j ∧ j ≠ i
  books : (db.reversibleOpeningEntryId i = none ∧ SameBooks db db') ∨
    ∃ e, db.reversibleOpeningEntryId i = some e.id ∧ Reversible db env e ∧
      SameBooks (db.reversed env e) db'

theorem loadDeletableAccount_ok {row : Account}
    (h : (loadDeletableAccount accountId userId).run db = .ok (row, db')) :
    db' = db ∧ accountId = some row.id ∧ db.LiveAccount row.id := by
  unfold loadDeletableAccount at h
  split at h
  · cases h
  · rw [Tx.run_read_bind] at h
    split at h
    · cases h
    · rename_i found hfound
      rw [Tx.run_require_bind] at h
      split at h
      swap
      · cases h
      rw [Tx.run_require_bind] at h
      split at h
      swap
      · cases h
      cases h
      have hp := List.find?_some hfound
      simp only [Bool.not_eq_true', decide_eq_true_eq] at hp
      exact ⟨rfl, congrArg some hp.1.symm, row, List.mem_of_find?_eq_some hfound, rfl, hp.2.2⟩

theorem cancelLinkedPlans_run (i : Uuid) (db : Db) : ∃ plans,
    (cancelLinkedPlans i).run db = .ok ((), { db with plannedTransactions := plans }) := by
  unfold cancelLinkedPlans Tx.when
  rw [Tx.run_read_bind]
  split
  · exact ⟨_, rfl⟩
  · exact ⟨db.plannedTransactions, rfl⟩

theorem liveAccount_archived (i j : Uuid) (db : Db) :
    (Write.apply (.archiveAccount i) db).LiveAccount j ↔ db.LiveAccount j ∧ j ≠ i := by
  simp only [Db.LiveAccount, Write.apply, List.mem_map]
  constructor
  · rintro ⟨_, ⟨a, ha, rfl⟩, hid, hlive⟩
    split at hlive
    · cases hlive
    · rename_i hne
      rw [if_neg hne] at hid
      exact ⟨⟨a, ha, hid, hlive⟩, fun hji => hne (hid.trans hji)⟩
  · rintro ⟨⟨a, ha, rfl, hlive⟩, hne⟩
    exact ⟨a, ⟨a, ha, if_neg hne⟩, rfl, hlive⟩

theorem deleteMoneyAccount_ok {r : DeleteMoneyAccountResult} (hi : LedgerInv db)
    (h : (deleteMoneyAccount env shown accountId userId).run db = .ok (r, db')) :
    ∃ i, accountId = some i ∧ Deletes env i db db' := by
  obtain ⟨row, db₀, hload, h⟩ := Tx.run_bind_ok.mp h
  obtain ⟨hsame, hid, hlive⟩ := loadDeletableAccount_ok hload
  rw [hsame, Tx.run_read_bind, Tx.run_require_bind] at h
  split at h
  swap
  · cases h
  obtain ⟨reversal, db₁, hreverse, h⟩ := Tx.run_bind_ok.mp h
  obtain ⟨plans, hcancel⟩ := cancelLinkedPlans_run row.id db₁
  rw [Tx.run_bind_of_ok hcancel, Tx.run_write_bind] at h
  cases h
  have hafter : ∀ j, (Write.apply (.archiveAccount row.id)
      { db₁ with plannedTransactions := plans }).LiveAccount j ↔ db₁.LiveAccount j ∧ j ≠ row.id :=
    fun j => liveAccount_archived row.id j _
  have hopening : (db.summarizeAccountHistory row.id).reversibleOpeningEntryId =
      db.reversibleOpeningEntryId row.id := rfl
  rw [hopening] at hreverse
  refine ⟨row.id, hid, ?_⟩
  cases hentry : db.reversibleOpeningEntryId row.id with
  | none =>
    rw [hentry] at hreverse
    cases hreverse
    exact ⟨hlive, hafter, .inl ⟨hentry, rfl, rfl, rfl, rfl, rfl, rfl⟩⟩
  | some entryId =>
    rw [hentry] at hreverse
    obtain ⟨result, _, hreverse, hdone⟩ := Tx.run_bind_ok.mp hreverse
    cases hdone
    obtain ⟨e, rfl, he, rfl, -⟩ := (reverseEntry_ok hi.lotIds).mp hreverse
    exact ⟨hlive, hafter, .inr ⟨e, hentry, he, rfl, rfl, rfl, rfl, rfl, rfl⟩⟩

theorem SameBooks.livePostings (h : SameBooks db db') (userId : Option Uuid) :
    db'.livePostings userId = db.livePostings userId := by
  unfold Db.livePostings
  rw [h.postings, h.journalEntries]

/-- A posted line on an account that only its opening entry touched is a line of that entry. -/
theorem entryId_of_reversibleOpening {entryId : Uuid}
    (h : db.reversibleOpeningEntryId i = some entryId) {p : Posting}
    (hp : p ∈ db.livePostings userId) (hacc : p.accountId = i) : p.entryId = entryId := by
  unfold Db.reversibleOpeningEntryId at h
  split at h
  swap
  · cases h
  rename_i e hentries
  split at h <;> cases h
  obtain ⟨hmem, hlive⟩ := List.mem_filter.mp hp
  obtain ⟨f, hf, hid, hposted, -⟩ := of_decide_eq_true hlive
  have hon : f ∈ db.entriesOn i :=
    List.mem_filter.mpr ⟨hf, by simpa using ⟨hposted, p, hmem, hid.symm, hacc⟩⟩
  rw [hentries, List.mem_singleton] at hon
  rw [← hid, hon]

/-! ## What leaves the control sum -/

/-- What the lines that stop counting are worth: those on the account if it is archived, those
of the opening entry on live accounts if that is reversed. -/
def Db.leavingValue (userId : Option Uuid) (i : Uuid) (db : Db) : Decimal :=
  match db.reversibleOpeningEntryId i with
  | none => db.bookBalance userId i
  | some entryId => (((db.livePostings userId).filter fun p =>
      p.entryId = entryId ∧ db.LiveAccount p.accountId).map (·.baseValue)).sum

theorem reversed_livePostings_filter {e : JournalEntry} (h : Reversible db env e)
    (userId : Option Uuid) : (db.reversed env e).livePostings userId =
      (db.livePostings userId).filter fun p => p.entryId ≠ e.id := by
  have hpostings : (db.without e.id).postings = db.postings.filter (·.entryId ≠ e.id) := rfl
  rw [reversed_livePostings h, livePostings_eq, livePostings_eq, hpostings, List.filter_filter,
    List.filter_filter]
  refine List.filter_congr fun p _ => ?_
  simp only [liveIn_without]
  by_cases hne : p.entryId = e.id <;> simp [hne]

/-- The lines that still count, for either way an account goes. -/
theorem Deletes.livePostings (h : Deletes env i db db') (userId : Option Uuid) :
    db'.livePostings userId = (db.livePostings userId).filter fun p =>
      some p.entryId ≠ db.reversibleOpeningEntryId i := by
  rcases h.books with ⟨hentry, hs⟩ | ⟨e, hentry, he, hs⟩
  · rw [hs.livePostings, hentry]
    exact (List.filter_eq_self.mpr fun p _ => by simp).symm
  · rw [hs.livePostings, hentry, reversed_livePostings_filter he]
    exact List.filter_congr fun p _ => by simp

theorem Deletes.controlSum (h : Deletes env i db db') (userId : Option Uuid) :
    db.controlSum userId = db'.controlSum userId + db.leavingValue userId i := by
  have hsplit := sum_filter_split (fun p => decide (db.LiveAccount p.accountId))
    (fun p => decide (p.accountId ≠ i ∧ some p.entryId ≠ db.reversibleOpeningEntryId i))
    Posting.baseValue (db.livePostings userId)
  refine hsplit.trans (congrArg₂ _ ?_ ?_)
  · -- What stays is on the other live accounts, and not of the opening entry.
    rw [Db.controlSum, h.livePostings, List.filter_filter]
    refine congrArg (fun ps => (ps.map Posting.baseValue).sum) (List.filter_congr fun p _ => ?_)
    rw [← Bool.decide_and, ← Bool.decide_and, decide_eq_decide, h.accounts]
    tauto
  · cases hentry : db.reversibleOpeningEntryId i with
    | none =>
      rw [Db.leavingValue, hentry, Db.bookBalance]
      refine congrArg (fun ps => (ps.map Posting.baseValue).sum) (List.filter_congr fun p _ => ?_)
      by_cases hacc : p.accountId = i <;> simp [hacc, h.live]
    | some entryId =>
      rw [Db.leavingValue, hentry]
      refine congrArg (fun ps => (ps.map Posting.baseValue).sum) (List.filter_congr fun p hp => ?_)
      by_cases hacc : p.accountId = i
      · simp [hacc, entryId_of_reversibleOpening hentry hp hacc]
      · by_cases hid : p.entryId = entryId <;> simp [hacc, hid]

/-! ## Runs -/

/-- A posting, a reversal or a deletion. -/
inductive AccountOp where
  | ledger (op : LedgerOp)
  | delete (env : Env) (shown : Account → Decimal → String) (accountId userId : Option Uuid)

def AccountOp.exec : AccountOp → Db → Db
  | .ledger op, db => op.exec db
  | .delete env shown accountId userId, db =>
    (deleteMoneyAccount env shown accountId userId).exec db

def runAccounts (ops : List AccountOp) (db : Db) : Db := runAll AccountOp.exec ops db

theorem Deletes.inv (hi : LedgerInv db) (h : Deletes env i db db') : LedgerInv db' := by
  rcases h.books with ⟨-, hs⟩ | ⟨e, -, he, hs⟩
  · exact hi.same hs
  · exact (hi.step (.reverse he)).same hs

theorem AccountOp.exec_inv (op : AccountOp) (hi : LedgerInv db) : LedgerInv (op.exec db) := by
  cases op with
  | ledger op => exact op.exec_inv hi
  | delete env shown accountId userId =>
    have hexec : (AccountOp.delete env shown accountId userId).exec db =
        (deleteMoneyAccount env shown accountId userId).exec db := rfl
    rw [hexec]
    rcases (deleteMoneyAccount env shown accountId userId).ok_or_refused db with ⟨r, db', h⟩ | h
    · rw [Tx.exec_of_ok h]
      obtain ⟨i, -, hdel⟩ := deleteMoneyAccount_ok hi h
      exact hdel.inv hi
    · rwa [h.exec]

theorem runAccounts_inv (ops : List AccountOp) (hi : LedgerInv db) :
    LedgerInv (runAccounts ops db) :=
  runAll_keeps (fun op _ => op.exec_inv) ops hi

/-- In every state that is reached with a control sum of zero, an accepted deletion keeps it
zero exactly if the lines that stop counting cancel, and a refused one changes nothing. -/
theorem control_sum_kept_iff (ops : List AccountOp) (hdb : db.EmptyLedger)
    (hzero : (runAccounts ops db).controlSum scope = 0) :
    (¬ (deleteMoneyAccount env shown (some i) userId).Refused (runAccounts ops db) →
      (((deleteMoneyAccount env shown (some i) userId).exec (runAccounts ops db)).controlSum
        scope = 0 ↔ (runAccounts ops db).leavingValue scope i = 0)) ∧
      ∀ accountId, (deleteMoneyAccount env shown accountId userId).Refused (runAccounts ops db) →
        (deleteMoneyAccount env shown accountId userId).exec (runAccounts ops db) =
          runAccounts ops db := by
  refine ⟨fun hacc => ?_, fun accountId h => h.exec⟩
  obtain ⟨r, db', h⟩ := ((deleteMoneyAccount env shown (some i) userId).ok_or_refused
    (runAccounts ops db)).resolve_right hacc
  rw [Tx.exec_of_ok h]
  obtain ⟨j, hj, hdel⟩ := deleteMoneyAccount_ok (runAccounts_inv ops hdb.inv) h
  obtain rfl := Option.some.inj hj
  have hsum := hdel.controlSum scope
  rw [hzero] at hsum
  constructor
  · intro hafter
    rw [hafter, zero_add] at hsum
    exact hsum.symm
  · intro hleaving
    rw [hleaving, add_zero] at hsum
    exact hsum.symm

end Deletion

section Examples

/-- A million Toman come in or go out, for so many dollars. -/
def demoToman (entryId : Uuid) (toman dollars : Int) : AccountOp :=
  .ledger (.post { entryId } {
    entryDate := 1, type := if 0 < toman then .income else .expense, description := "تومان"
    postings := [demoLine 11 2 toman dollars, demoLine 14 1 (-dollars) (-dollars)] })

def demoDelete (entryId : Uuid) : Sql DeleteMoneyAccountResult :=
  deleteMoneyAccount { entryId } (fun _ _ => "") (some 11) (some 1)

/-- In and out at one rate. -/
theorem emptied_bank_archived : ((demoDelete 3).exec (runAccounts [demoToman 1 1000000 10,
    demoToman 2 (-1000000) (-10)] demo)).controlSum none = 0 :=
  ((control_sum_kept_iff [demoToman 1 1000000 10, demoToman 2 (-1000000) (-10)] demo_empty
    (by decide)).1 (by decide)).mpr (by decide)

/-- In at a hundred thousand Toman for a dollar, out at two hundred thousand: nothing is left
on the account but its five dollars of book value, and the account is archived. -/
theorem emptied_bank_unbalances_books :
    let db := runAccounts [demoToman 1 1000000 10, demoToman 2 (-1000000) (-5)] demo
    db.controlSum none = 0 ∧ (demoDelete 3).refusal db = none ∧
      ((demoDelete 3).exec db).controlSum none = -.ofInt 5 := by
  refine ⟨?_, ?_, ?_⟩ <;> decide

end Examples

end Pwos
