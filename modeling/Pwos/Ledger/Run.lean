import Pwos.Lib.Runs
import Pwos.Ledger.Invariant

/-!
# Runs of the write path

Calls of `postEntry` and `reverseEntry`, one after the other. A refused call leaves the
database as it was.
-/

namespace Pwos

inductive LedgerOp where
  | post (env : Env) (input : PostEntryInput)
  | reverse (env : Env) (entryId : Uuid)

def LedgerOp.program : LedgerOp → Sql PostResult
  | .post env input => postEntry env input
  | .reverse env entryId => reverseEntry env entryId

def LedgerOp.exec (op : LedgerOp) (db : Db) : Db := op.program.exec db

def runOps (ops : List LedgerOp) (db : Db) : Db := runAll LedgerOp.exec ops db

/-- A posted input is recorded, or the call changes nothing. -/
theorem exec_postEntryPriced (env : Env) (priced : Option (List OpenLot))
    (input : PostEntryInput) {db : Db} (hnd : (db.lots.map (·.id)).Nodup) :
    (postEntryPriced priced env input).exec db = db ∨
      ∃ userId, Posted env input userId db ((postEntryPriced priced env input).exec db) := by
  rcases (postEntryPriced priced env input).ok_or_refused db with ⟨r, db', h⟩ | h
  · rw [Tx.exec_of_ok h]
    rcases postEntryPriced_ok hnd h with ⟨-, rfl⟩ | ⟨-, hposted⟩
    · exact .inl rfl
    · exact .inr hposted
  · exact .inl h.exec

/-- A balanced entry without lots is posted, under a new id and a new key. -/
theorem postEntry_run {env : Env} {db : Db} {u : Uuid} {input : PostEntryInput}
    (hb : Balanced input.postings) (huser : input.userId = some u) (hu : u ∈ db.users)
    (hkey : ∀ k ∈ trimmedKey input.idempotencyKey, db.findByIdempotencyKey (some u) k = none)
    (hacc : ∀ p ∈ input.postings, (db.findAccount p.accountId).isSome = true)
    (hguard : input.preventOverdraft = false) (hlots : input.lotList = [])
    (hclose : input.closeLot = none) (hfresh : ∀ e ∈ db.journalEntries, e.id ≠ env.entryId) :
    (postEntry env input).run db = .ok (⟨env.entryId, false⟩,
      db.withEntry (input.entryRow env.entryId (some u))
        (input.postings.map (DraftPosting.row env.entryId))) := by
  have hinsert : db.EntryInsertable (input.entryRow env.entryId (some u)) := by
    refine ⟨hfresh, .inr ?_, ?_⟩
    · cases hk : trimmedKey input.idempotencyKey with
      | none => exact .inl hk
      | some k =>
        refine .inr fun f hf => ?_
        simp only [PostEntryInput.entryRow, hk]
        simpa using List.find?_eq_none.mp (hkey k hk) f hf
    · rintro v ⟨⟩
      exact hu
  have hlock : ∀ i ∈ input.postings.map (·.accountId), (db.findAccount i).isSome = true := by
    intro i hi
    obtain ⟨p, hp, rfl⟩ := List.mem_map.mp hi
    exact hacc p hp
  have hbalanced : (assertBalanced input.postings).mapError AppError.unbalanced = .ok () := by
    rw [assertBalanced_ok.mpr hb]
    rfl
  have hreplay : (findReplay (some u) (trimmedKey input.idempotencyKey)
      (canonicalizePayload input)).run db = .ok (none, db) :=
    (readOnly_findReplay _ _ _).run_ok.mpr ⟨findReplay_none.mpr hkey, rfl⟩
  have hres : (resolveServiceUserId env (some u) (input.postings.map (·.accountId))).run db =
      .ok (some u, db) := rfl
  have hwhen : (Tx.when (input.preventOverdraft = true) (guardOverdraft (some u) input.postings)).run db =
      .ok ((), db) := by
    rw [hguard]
    rfl
  unfold postEntry postEntryPriced
  rw [hbalanced, huser, Tx.run_bind_of_ok (Tx.run_ofExcept_ok.mpr ⟨rfl, rfl⟩),
    Tx.run_bind_of_ok hres, Tx.run_bind_of_ok hreplay]
  simp only
  rw [Tx.run_bind_of_ok (by rw [lockAccounts_run, if_pos hlock]), Tx.run_bind_of_ok hwhen]
  unfold writeEntry insertEntry insertPostings
  rw [hlots, hclose, Tx.bind_assoc, Tx.run_insert_bind, if_pos hinsert]
  rfl

/-- An entry is reversed, or the call is refused. -/
theorem exec_reverseEntry (env : Env) (entryId : Uuid) {db : Db}
    (hnd : (db.lots.map (·.id)).Nodup) :
    ((reverseEntry env entryId).Refused db ∧ (reverseEntry env entryId).exec db = db) ∨
      ∃ e, e.id = entryId ∧ Reversible db env e ∧
        (reverseEntry env entryId).exec db = db.reversed env e := by
  rcases (reverseEntry env entryId).ok_or_refused db with ⟨r, db', h⟩ | h
  · obtain ⟨e, hid, he, rfl, -⟩ := (reverseEntry_ok hnd).mp h
    exact .inr ⟨e, hid, he, Tx.exec_of_ok h⟩
  · exact .inl ⟨h, h.exec⟩

/-- A call is a step or changes nothing. -/
theorem LedgerOp.exec_step (op : LedgerOp) {db : Db} (hnd : (db.lots.map (·.id)).Nodup) :
    op.exec db = db ∨ LedgerStep db (op.exec db) := by
  cases op with
  | post env input =>
    exact (exec_postEntryPriced env none input hnd).imp_right fun ⟨_, h⟩ => h.step hnd
  | reverse env entryId =>
    rcases exec_reverseEntry env entryId hnd with ⟨-, h⟩ | ⟨e, -, he, h⟩
    · exact .inl h
    · exact .inr (by rw [LedgerOp.exec, LedgerOp.program, h]; exact .reverse he)

theorem LedgerOp.exec_inv (op : LedgerOp) {db : Db} (h : LedgerInv db) :
    LedgerInv (op.exec db) := by
  rcases op.exec_step h.lotIds with hexec | hexec
  · rwa [hexec]
  · exact h.step hexec

/-- What every step keeps, every run keeps. -/
theorem runOps_keeps {I : Db → Prop}
    (step : ∀ db db', LedgerInv db → I db → LedgerStep db db' → I db') (ops : List LedgerOp)
    {db : Db} (hinv : LedgerInv db) (hI : I db) :
    LedgerInv (runOps ops db) ∧ I (runOps ops db) := by
  refine runAll_keeps (I := fun s => LedgerInv s ∧ I s) ?_ ops ⟨hinv, hI⟩
  rintro op s ⟨hi, hs⟩
  refine ⟨op.exec_inv hi, ?_⟩
  rcases op.exec_step hi.lotIds with h | h
  · rwa [h]
  · exact step _ _ hi hs h

theorem runOps_inv (ops : List LedgerOp) {db : Db} (h : LedgerInv db) :
    LedgerInv (runOps ops db) := runAll_keeps (fun op _ => op.exec_inv) ops h

/-- The call reverses an entry that opened a lot `sel` selects. -/
def Reverses (sel : Lot → Prop) (env : Env) (entryId : Uuid) (db : Db) : Prop :=
  ¬ (reverseEntry env entryId).Refused db ∧ ∃ l ∈ db.lotsOpenedBy entryId, sel l

instance (sel : Lot → Prop) [DecidablePred sel] (env : Env) (entryId : Uuid) (db : Db) :
    Decidable (Reverses sel env entryId db) := inferInstanceAs (Decidable (¬ _ ∧ _))

theorem hasVoidLot_reverseEntry {sel : Lot → Prop}
    (hsel : ∀ l qty, sel (l.setRemaining qty) ↔ sel l) {db : Db} (hi : LedgerInv db) (env : Env)
    (entryId : Uuid) : ((reverseEntry env entryId).exec db).HasVoidLot sel ↔
      db.HasVoidLot sel ∨ Reverses sel env entryId db := by
  rcases exec_reverseEntry env entryId hi.lotIds with ⟨href, h⟩ | ⟨e, rfl, he, h⟩
  · rw [h]
    simp [Reverses, href]
  · have hacc : ¬ (reverseEntry env e.id).Refused db := by
      rintro ⟨err, herr⟩
      rw [(reverseEntry_ok hi.lotIds).mpr ⟨e, rfl, he, rfl, rfl⟩] at herr
      cases herr
    rw [h, hasVoidLot_reversed hsel]
    simp [Reverses, hacc]

/-! ## A small database to run on -/

/-- Dollars in a wallet, Toman in a bank, coins in two places, and the accounts of the
counter-legs. -/
def demo : Db :=
  { users := [1]
    assets := [⟨1, "USD", "FIAT", false⟩, ⟨2, "IRT", "FIAT", false⟩, ⟨3, "BTC", "CRYPTO", false⟩]
    accounts := [
      ⟨10, 0, some 1, "1010", "دلار", .asset, some 1, false⟩,
      ⟨11, 0, some 1, "1020", "بانک", .asset, some 2, false⟩,
      ⟨12, 0, some 1, "1110", "کوین", .asset, some 3, false⟩,
      ⟨13, 0, some 1, "4010", "درآمدها", .income, some 1, false⟩,
      ⟨14, 0, some 1, "5040", "کارمزد و بانک", .expense, some 1, false⟩,
      ⟨15, 0, some 1, "4100", "سود سرمایه‌ای تحقق‌یافته", .income, some 1, false⟩,
      ⟨16, 0, some 1, "1120", "کیف پول", .asset, some 3, false⟩] }

theorem demo_empty : demo.EmptyLedger := ⟨rfl, rfl, rfl, rfl⟩

/-- With a rate of the user's. -/
def demoRated : Db := { demo with userFxSettings := [⟨1, .ofInt 150000⟩] }

theorem demoRated_empty : demoRated.EmptyLedger := ⟨rfl, rfl, rfl, rfl⟩

/-- `quantity` units at `value` dollars on an account. -/
def demoLine (accountId assetId : Uuid) (quantity value : Int) : DraftPosting :=
  { accountId, assetId, quantity := .ofInt quantity, baseValue := .ofInt value }

/-- Buy `quantity` coins for `value` dollars. -/
def demoBuy (quantity value : Int) : PostEntryInput :=
  { entryDate := 1, type := .buy, description := "خرید"
    postings := [demoLine 12 3 quantity value, demoLine 10 1 (-value) (-value)]
    openLot := some { accountId := 12, assetId := 3, quantity := .ofInt quantity,
                      costBase := .ofInt value } }

end Pwos
