import Pwos.Domain.Fifo
import Pwos.Db.Schema

/-!
# Posting an entry

`postEntry` of `features/ledger/service.ts`, the single write path into the ledger, with
the functions it is made of. A call is one transaction; the audit tables it also writes
are left out.
-/

namespace Pwos

structure PostEntryInput where
  entryDate : IsoDate
  type : EntryType
  description : String
  source : Option EntrySource := none
  reference : Option String := none
  postings : List DraftPosting
  categoryId : Option Uuid := none
  openLot : Option LotInput := none
  openLots : Option (List LotInput) := none
  closeLot : Option CloseLot := none
  userId : Option Uuid := none
  idempotencyKey : Option String := none
  preventOverdraft : Bool := false

/-- `input.openLots ?? (input.openLot ? [input.openLot] : [])`. -/
def PostEntryInput.lotList (input : PostEntryInput) : List LotInput :=
  input.openLots.getD input.openLot.toList

structure PostResult where
  id : Uuid
  idempotentReplay : Bool := false
  deriving DecidableEq, Repr

/-- -0.000001: dollar values of Toman carry 1/rate rounding. -/
def OVERDRAFT_ROUNDING_TOLERANCE : Decimal := ⟨-10 ^ 12⟩

/-- 0.000000001: what a sale may ask for beyond the lots. -/
def UNMATCHED_TOLERANCE : Decimal := ⟨10 ^ 9⟩

/-! ## Idempotency -/

/-- `key?.trim() || null`. -/
def trimmedKey (key : Option String) : Option String :=
  key.bind fun k =>
    let t := (k.toList.dropWhile Char.isWhitespace).rdropWhile Char.isWhitespace
    if t = [] then none else some (String.ofList t)

def DraftPosting.canonical (p : DraftPosting) : CanonicalPosting :=
  ⟨p.accountId, p.assetId, p.quantity, p.baseValue⟩

/-- The order on account, asset and quantity that hashed postings are sorted by. -/
def CanonicalPosting.before (a b : CanonicalPosting) : Prop :=
  a.accountId < b.accountId ∨ (a.accountId = b.accountId ∧
    (a.assetId < b.assetId ∨ (a.assetId = b.assetId ∧ a.quantity ≤ b.quantity)))

instance (a b : CanonicalPosting) : Decidable (a.before b) :=
  inferInstanceAs (Decidable (_ ∨ (_ ∧ (_ ∨ (_ ∧ _)))))

def canonicalizePayload (input : PostEntryInput) : Digest :=
  { entryDate := input.entryDate
    type := input.type
    description := input.description
    categoryId := input.categoryId
    postings := (input.postings.map DraftPosting.canonical).insertionSort CanonicalPosting.before
    openLots := input.lotList
    closeLot := input.closeLot }

def Db.findByIdempotencyKey (db : Db) (userId : Option Uuid) (key : String) :
    Option JournalEntry :=
  db.journalEntries.find? fun e => e.userId = userId ∧ e.idempotencyKey = some key

/-- The entry recorded under the key, if there is one. A different payload under the
same key is a conflict. -/
def findReplay (userId : Option Uuid) (key : Option String) (hash : Digest) :
    Sql (Option Uuid) :=
  match key with
  | none => pure none
  | some k => do
    match ← Tx.read (·.findByIdempotencyKey userId k) with
    | none => pure none
    | some found =>
      Tx.require (found.idempotencyHash = none ∨ found.idempotencyHash = some hash)
        .idempotencyConflict
      pure (some found.id)

/-! ## The tenant -/

/-- The caller's user, else the owner of the first posting's account, else the session,
else the only user there is. -/
def resolveServiceUserId (env : Env) (explicitUserId : Option Uuid)
    (postingAccountIds : List Uuid) : Sql (Option Uuid) :=
  match explicitUserId with
  | some u => pure (some u)
  | none => do
    let owner ← Tx.read fun db =>
      (postingAccountIds.head?.bind db.findAccount).bind (·.userId)
    match owner with
    | some u => pure (some u)
    | none =>
      match env.currentUser with
      | some u => pure (some u)
      | none =>
        match ← Tx.read (·.users.take 2) with
        | [] => pure none
        | [u] => pure (some u)
        | _ => .fail .unauthorized

/-- The entry is the tenant's own or nobody's. Without a tenant every entry counts. -/
def InTenantScope (userId : Option Uuid) (e : JournalEntry) : Prop :=
  userId = none ∨ e.userId = userId ∨ e.userId = none

instance (userId : Option Uuid) (e : JournalEntry) : Decidable (InTenantScope userId e) :=
  inferInstanceAs (Decidable (_ ∨ _ ∨ _))

/-! ## The overdraft guard -/

/-- `from postings p join journal_entries je on je.id = p.entry_id
where je.status = 'posted'` within the tenant's scope. -/
def Db.livePostings (db : Db) (userId : Option Uuid) : List Posting :=
  db.postings.filter fun p => ∃ e ∈ db.journalEntries,
    e.id = p.entryId ∧ e.status = .posted ∧ InTenantScope userId e

/-- The book value of an account, in the base currency. -/
def Db.bookBalance (db : Db) (userId : Option Uuid) (accountId : Uuid) : Decimal :=
  (((db.livePostings userId).filter (·.accountId = accountId)).map (·.baseValue)).sum

/-- How much of an asset an account holds. -/
def Db.nativeBalance (db : Db) (userId : Option Uuid) (accountId assetId : Uuid) : Decimal :=
  (((db.livePostings userId).filter
    fun p => p.accountId = accountId ∧ p.assetId = assetId).map (·.quantity)).sum

/-- What an entry does to the native balance of an account. -/
def nativeChange (postings : List DraftPosting) (accountId assetId : Uuid) : Decimal :=
  ((postings.filter fun p => p.accountId = accountId ∧ p.assetId = assetId).map
    (·.quantity)).sum

def guardOverdraft (userId : Option Uuid) (postings : List DraftPosting) : Sql Unit :=
  Tx.each postings fun p =>
    Tx.when (p.baseValue < 0) do
      let currentBal ← Tx.read (·.bookBalance userId p.accountId)
      Tx.when (p.quantity < 0) do
        let native ← Tx.read (·.nativeBalance userId p.accountId p.assetId)
        Tx.require (OVERDRAFT_ROUNDING_TOLERANCE ≤
          native + nativeChange postings p.accountId p.assetId) .insufficientBalance
      Tx.require (OVERDRAFT_ROUNDING_TOLERANCE ≤ currentBal + p.baseValue) .insufficientBalance

/-! ## The rows of an entry -/

/-- Lock the accounts, each once, in ascending order. -/
def lockAccounts (accountIds : List Uuid) : Sql Unit :=
  Tx.each (accountIds.dedup.insertionSort (· ≤ ·)) fun id => do
    let row ← Tx.lock (fun _ => [.account id]) (·.findAccount id)
    Tx.require (row.isSome = true) .accountLockFailed

def PostEntryInput.entryRow (input : PostEntryInput) (id : Uuid) (userId : Option Uuid) :
    JournalEntry :=
  let key := trimmedKey input.idempotencyKey
  { id, userId, entryDate := input.entryDate, type := input.type
    description := input.description, reference := input.reference, status := .posted
    source := input.source.getD .manual, idempotencyKey := key
    idempotencyHash := key.map fun _ => canonicalizePayload input
    categoryId := input.categoryId }

/-- The primary key, the unique index on `(user_id, idempotency_key)` and the user the row
refers to. Rows without a user are not in the index. -/
def Db.EntryInsertable (db : Db) (e : JournalEntry) : Prop :=
  (∀ f ∈ db.journalEntries, f.id ≠ e.id) ∧
    (e.userId = none ∨ e.idempotencyKey = none ∨
      ∀ f ∈ db.journalEntries, ¬ (f.userId = e.userId ∧ f.idempotencyKey = e.idempotencyKey)) ∧
    ∀ u ∈ e.userId, u ∈ db.users

instance (db : Db) (e : JournalEntry) : Decidable (db.EntryInsertable e) :=
  inferInstanceAs (Decidable ((∀ f ∈ db.journalEntries, f.id ≠ e.id) ∧ (_ ∨ _ ∨
    ∀ f ∈ db.journalEntries, ¬ (f.userId = e.userId ∧ f.idempotencyKey = e.idempotencyKey)) ∧
    ∀ u ∈ e.userId, u ∈ db.users))

/-- A violated constraint ends the transaction: the database refuses the look-up of the
handler that follows it too. -/
def insertEntry (e : JournalEntry) : Sql Unit :=
  Tx.insert
    (fun _ => .entry e.id ::
      (e.userId.bind fun u => e.idempotencyKey.map (.idempotency u)).toList)
    (·.EntryInsertable e) (fun _ => [.insertEntry e]) (.constraintViolation "journal_entries")

def DraftPosting.row (entryId : Uuid) (p : DraftPosting) : Posting :=
  ⟨entryId, p.accountId, p.assetId, p.quantity, p.baseValue, p.memo⟩

def insertPostings (ps : List Posting) : Sql Unit :=
  Tx.write (fun _ => []) (fun _ => [.insertPostings ps])

/-! ## Lots -/

/-- The opening day is a day, not after the entry. -/
def LotInput.OpenedAtValid (l : LotInput) (entryDate : IsoDate) : Prop :=
  match l.openedAt with
  | none => True
  | some .malformed => False
  | some (.day d) => d ≤ entryDate

instance (l : LotInput) (entryDate : IsoDate) : Decidable (l.OpenedAtValid entryDate) := by
  unfold LotInput.OpenedAtValid; split <;> infer_instance

def LotInput.row (l : LotInput) (id : Uuid) (entryId : Uuid) (entryDate : IsoDate)
    (userId : Option Uuid) : Lot :=
  { id, userId, accountId := l.accountId, assetId := l.assetId, openEntryId := entryId
    openedAt := match l.openedAt with
      | some (.day d) => d
      | _ => entryDate
    qtyOpened := l.quantity, qtyRemaining := l.quantity
    unitCostBase := l.costBase.div l.quantity, purchaseFxRate := l.purchaseFxRate }

/-- The primary key of a lot and the rows it refers to. -/
def Db.LotInsertable (db : Db) (l : Lot) : Prop :=
  (∀ m ∈ db.lots, m.id ≠ l.id) ∧ (∃ a ∈ db.accounts, a.id = l.accountId) ∧
    ∃ a ∈ db.assets, a.id = l.assetId

instance (db : Db) (l : Lot) : Decidable (db.LotInsertable l) :=
  inferInstanceAs (Decidable ((∀ m ∈ db.lots, m.id ≠ l.id) ∧
    (∃ a ∈ db.accounts, a.id = l.accountId) ∧ ∃ a ∈ db.assets, a.id = l.assetId))

def insertLot (l : Lot) : Sql Unit :=
  Tx.insert (fun _ => [.lot l.id]) (·.LotInsertable l) (fun _ => [.insertLot l])
    (.constraintViolation "lots")

/-- The body of the loop over `lotList`. -/
def openLot (env : Env) (input : PostEntryInput) (userId : Option Uuid) (l : LotInput × Nat) :
    Sql Unit := do
  Tx.require (l.1.OpenedAtValid input.entryDate) .lotOpenedAtInvalid
  Tx.require (∀ r ∈ l.1.purchaseFxRate, 0 < r) .lotRateInvalid
  Tx.when (0 < l.1.quantity) do
    insertLot (l.1.row (env.lotIds l.2) env.entryId input.entryDate userId)

def Lot.toOpenLot (l : Lot) : OpenLot := ⟨l.id, l.openedAt, l.qtyRemaining, l.unitCostBase⟩

/-- The lot is one the tenant may sell from. -/
def Lot.Sellable (assetId : Uuid) (userId : Option Uuid) (l : Lot) : Prop :=
  l.assetId = assetId ∧ (userId = none ∨ l.userId = userId) ∧ 0 < l.qtyRemaining

instance (assetId : Uuid) (userId : Option Uuid) (l : Lot) :
    Decidable (l.Sellable assetId userId) := inferInstanceAs (Decidable (_ ∧ (_ ∨ _) ∧ _))

/-- `ORDER BY opened_at`; lots of one day come in the order `order`. -/
def Db.sellableLots (db : Db) (assetId : Uuid) (userId : Option Uuid) (order : Uuid → Nat) :
    List OpenLot :=
  sortByOpened (((db.lots.filter fun l => l.Sellable assetId userId).map Lot.toOpenLot).insertionSort
    fun a b => order a.id ≤ order b.id)

/-- Overwrite what remains of a lot, computed from `asRead`. -/
def updateRemaining (lotId : Uuid) (asRead qty : Decimal) : Sql Unit :=
  Tx.writeExpecting (fun _ => [.lot lotId])
    (fun a db => a = .remainingAsRead → ∀ l ∈ db.lots, l.id = lotId → l.qtyRemaining = asRead)
    (fun _ => [.setRemaining lotId qty])

def LotAllocation.row (entryId : Uuid) (a : LotAllocation) : LotConsumption :=
  ⟨a.lotId, entryId, a.quantity, a.costBase, a.proceedsBase, a.realizedPnl⟩

/-- The body of the loop over the allocations. -/
def consumeLot (entryId : Uuid) (a : LotAllocation) : Sql Unit := do
  updateRemaining a.lotId (a.newQtyRemaining + a.quantity) a.newQtyRemaining
  Tx.write (fun _ => []) (fun _ => [.insertConsumption (a.row entryId)])

/-- Lock the lots, read them again, consume them first in, first out. `priced` is no input
of the source: it names the lots the caller took the sale to consume. -/
def consumeLots (env : Env) (priced : Option (List OpenLot)) (userId : Option Uuid)
    (c : CloseLot) : Sql Unit := do
  Tx.lock (fun db => (db.sellableLots c.assetId userId env.lotOrder).map fun l => .lot l.id)
    fun _ => ()
  let opened ← Tx.readExpecting
    (fun a db => a = .lotsAsPriced →
      ∀ ls ∈ priced, db.sellableLots c.assetId userId env.lotOrder = ls)
    fun db => db.sellableLots c.assetId userId env.lotOrder
  let result := consumeFifo opened c.quantity c.proceedsBase
  Tx.require (result.unmatchedQty ≤ UNMATCHED_TOLERANCE) .lotsInsufficient
  Tx.each result.allocations (consumeLot env.entryId)

/-! ## The write path -/

/-- All that `postEntry` writes, once the key is new and the accounts are locked. -/
def writeEntry (env : Env) (priced : Option (List OpenLot)) (input : PostEntryInput)
    (userId : Option Uuid) : Sql Unit := do
  insertEntry (input.entryRow env.entryId userId)
  insertPostings (input.postings.map (DraftPosting.row env.entryId))
  Tx.each input.lotList.zipIdx (openLot env input userId)
  match input.closeLot with
  | none => pure ()
  | some c => Tx.when (0 < c.quantity) (consumeLots env priced userId c)

def postEntryPriced (priced : Option (List OpenLot)) (env : Env) (input : PostEntryInput) :
    Sql PostResult := do
  Tx.ofExcept ((assertBalanced input.postings).mapError .unbalanced)
  let userId ← resolveServiceUserId env input.userId (input.postings.map (·.accountId))
  match ← findReplay userId (trimmedKey input.idempotencyKey) (canonicalizePayload input) with
  | some id => pure ⟨id, true⟩
  | none =>
    lockAccounts (input.postings.map (·.accountId))
    Tx.when (input.preventOverdraft = true) (guardOverdraft userId input.postings)
    writeEntry env priced input userId
    pure ⟨env.entryId, false⟩

def postEntry (env : Env) (input : PostEntryInput) : Sql PostResult :=
  postEntryPriced none env input

end Pwos
