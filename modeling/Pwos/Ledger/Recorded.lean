import Pwos.Ledger.ReverseEntry

/-!
# What the two operations do

For a transaction that runs alone: `postEntry` either replays an earlier entry or appends
the rows of a new one and takes what it sold from the lots (`postEntry_ok`);
`reverseEntry` is decided by four checks and then changes exactly what `Db.reversed`
says (`reverseEntry_run`). Nothing later unfolds the programs for runs of this kind.
-/

namespace Pwos

/-- How much a list of consumptions takes from a lot. -/
def taken (cs : List LotConsumption) (lotId : Uuid) : Decimal :=
  ((cs.filter (·.lotId = lotId)).map (·.quantity)).sum

@[simp] theorem taken_nil (i : Uuid) : taken [] i = 0 := rfl

theorem taken_cons (c : LotConsumption) (cs : List LotConsumption) (i : Uuid) :
    taken (c :: cs) i = (if c.lotId = i then c.quantity else 0) + taken cs i := by
  unfold taken
  by_cases h : c.lotId = i <;> simp [h]

theorem taken_append (cs ds : List LotConsumption) (i : Uuid) :
    taken (cs ++ ds) i = taken cs i + taken ds i := by simp [taken]

theorem taken_eq_zero {cs : List LotConsumption} {i : Uuid} (h : ∀ c ∈ cs, c.lotId ≠ i) :
    taken cs i = 0 := by
  unfold taken
  rw [List.filter_eq_nil_iff.mpr (by simpa using h)]
  rfl

theorem taken_nonneg {cs : List LotConsumption} (h : ∀ c ∈ cs, 0 < c.quantity) (i : Uuid) :
    0 ≤ taken cs i := by
  apply List.sum_nonneg
  intro q hq
  obtain ⟨c, hc, rfl⟩ := List.mem_map.mp hq
  exact (h c (List.mem_of_mem_filter hc)).le

/-- Positive consumptions that take nothing from a lot do not name it. -/
theorem lotId_ne_of_taken_eq_zero {cs : List LotConsumption} (h : ∀ c ∈ cs, 0 < c.quantity)
    {i : Uuid} (hz : taken cs i ≤ 0) : ∀ c ∈ cs, c.lotId ≠ i := by
  induction cs with
  | nil => simp
  | cons d ds ih =>
    rw [taken_cons] at hz
    have hd := h d (by simp)
    have hds := taken_nonneg (fun c (hc : c ∈ ds) => h c (by simp [hc])) i
    by_cases hdi : d.lotId = i
    · rw [if_pos hdi] at hz
      exact absurd hz (not_le.mpr (add_pos_of_pos_of_nonneg hd hds))
    · rw [if_neg hdi, zero_add] at hz
      intro c hc
      rcases List.mem_cons.mp hc with rfl | hc
      · exact hdi
      · exact ih (fun c hc => h c (by simp [hc])) hz c hc

theorem consumed_eq_taken (db : Db) (i : Uuid) : db.consumed i = taken db.lotConsumptions i := rfl

/-- Change what remains of a lot by an amount that depends on the lot. -/
def Lot.adjust (δ : Uuid → Decimal) (l : Lot) : Lot :=
  { l with qtyRemaining := l.qtyRemaining + δ l.id }

section Adjust
variable (δ : Uuid → Decimal) (l : Lot)

@[simp] theorem adjust_id : (l.adjust δ).id = l.id := rfl
@[simp] theorem adjust_userId : (l.adjust δ).userId = l.userId := rfl
@[simp] theorem adjust_accountId : (l.adjust δ).accountId = l.accountId := rfl
@[simp] theorem adjust_assetId : (l.adjust δ).assetId = l.assetId := rfl
@[simp] theorem adjust_openEntryId : (l.adjust δ).openEntryId = l.openEntryId := rfl
@[simp] theorem adjust_openedAt : (l.adjust δ).openedAt = l.openedAt := rfl
@[simp] theorem adjust_qtyOpened : (l.adjust δ).qtyOpened = l.qtyOpened := rfl
@[simp] theorem adjust_qtyRemaining : (l.adjust δ).qtyRemaining = l.qtyRemaining + δ l.id := rfl
@[simp] theorem adjust_unitCostBase : (l.adjust δ).unitCostBase = l.unitCostBase := rfl
@[simp] theorem adjust_purchaseFxRate : (l.adjust δ).purchaseFxRate = l.purchaseFxRate := rfl

theorem adjust_of_eq_zero (h : δ l.id = 0) : l.adjust δ = l := by simp [Lot.adjust, h]

theorem map_adjust_of_eq_zero {δ : Uuid → Decimal} {ls : List Lot} (h : ∀ l ∈ ls, δ l.id = 0) :
    ls.map (Lot.adjust δ) = ls :=
  (List.map_congr_left fun l hl => adjust_of_eq_zero δ l (h l hl)).trans (List.map_id' ls)

end Adjust

/-- The database after an entry with its postings, new lots and consumptions. -/
def Db.recorded (db : Db) (e : JournalEntry) (ps : List Posting) (ls : List Lot)
    (cs : List LotConsumption) : Db :=
  { db with
    journalEntries := db.journalEntries ++ [e]
    postings := db.postings ++ ps
    lots := (db.lots ++ ls).map (Lot.adjust fun i => -taken cs i)
    lotConsumptions := db.lotConsumptions ++ cs }

/-- The database after an entry that neither opens nor consumes lots. -/
def Db.withEntry (db : Db) (e : JournalEntry) (ps : List Posting) : Db :=
  { db with journalEntries := db.journalEntries ++ [e], postings := db.postings ++ ps }

theorem recorded_plain (db : Db) (e : JournalEntry) (ps : List Posting) :
    db.recorded e ps [] [] = db.withEntry e ps := by
  simp [Db.recorded, Db.withEntry, map_adjust_of_eq_zero]

/-! ## Opening lots -/

/-- The rows the loop over the lots to open inserts. -/
def lotRows (env : Env) (input : PostEntryInput) (userId : Option Uuid)
    (xs : List (LotInput × Nat)) : List Lot :=
  (xs.filter fun x => 0 < x.1.quantity).map fun x =>
    x.1.row (env.lotIds x.2) env.entryId input.entryDate userId

def PostEntryInput.newLots (env : Env) (input : PostEntryInput) (userId : Option Uuid) :
    List Lot :=
  lotRows env input userId input.lotList.zipIdx

section LotRows
variable {env : Env} {input : PostEntryInput} {userId : Option Uuid}

@[simp] theorem lotRows_nil : lotRows env input userId [] = [] := rfl

theorem lotRows_single (x : LotInput × Nat) :
    lotRows env input userId [x] = if 0 < x.1.quantity then
      [x.1.row (env.lotIds x.2) env.entryId input.entryDate userId] else [] := by
  unfold lotRows
  split <;> rename_i h <;> simp only [List.filter_cons, h] <;> rfl

theorem lotRows_cons (x : LotInput × Nat) (xs : List (LotInput × Nat)) :
    lotRows env input userId (x :: xs) =
      lotRows env input userId [x] ++ lotRows env input userId xs := by
  simp only [lotRows, ← List.map_append, ← List.filter_append, List.singleton_append]

theorem mem_lotRows {xs : List (LotInput × Nat)} {l : Lot} (h : l ∈ lotRows env input userId xs) :
    l.openEntryId = env.entryId ∧ l.userId = userId ∧ l.qtyRemaining = l.qtyOpened ∧
      0 < l.qtyOpened := by
  obtain ⟨x, hx, rfl⟩ := List.mem_map.mp h
  exact ⟨rfl, rfl, rfl, of_decide_eq_true (List.mem_filter.mp hx).2⟩

end LotRows

/-- The lots are new to the table, have distinct ids, and their account and asset exist. -/
structure Db.LotsInsertable (db : Db) (ls : List Lot) : Prop where
  nodup : (ls.map (·.id)).Nodup
  fresh : ∀ l ∈ ls, ∀ m ∈ db.lots, m.id ≠ l.id
  account : ∀ l ∈ ls, ∃ a ∈ db.accounts, a.id = l.accountId
  asset : ∀ l ∈ ls, ∃ a ∈ db.assets, a.id = l.assetId

theorem openLot_run_ok {env : Env} {input : PostEntryInput} {userId : Option Uuid}
    {x : LotInput × Nat} {db db' : Db}
    (h : (openLot env input userId x).run db = .ok ((), db')) :
    db' = { db with lots := db.lots ++ lotRows env input userId [x] } ∧
      ∀ l ∈ lotRows env input userId [x], db.LotInsertable l := by
  rw [openLot, Tx.run_require_bind] at h
  split at h
  swap
  · cases h
  rw [Tx.run_require_bind] at h
  split at h
  swap
  · cases h
  unfold Tx.when at h
  by_cases hq : 0 < x.1.quantity
  · rw [if_pos hq, insertLot, Tx.run_insert] at h
    split at h
    · rename_i hins
      cases h
      rw [lotRows_single, if_pos hq]
      exact ⟨rfl, by simpa using hins⟩
    · cases h
  · rw [if_neg hq] at h
    cases h
    rw [lotRows_single, if_neg hq]
    exact ⟨by simp, by simp⟩

theorem openLots_run_ok {env : Env} {input : PostEntryInput} {userId : Option Uuid}
    {xs : List (LotInput × Nat)} {db db' : Db}
    (h : (Tx.each xs (openLot env input userId)).run db = .ok ((), db')) :
    db' = { db with lots := db.lots ++ lotRows env input userId xs } ∧
      db.LotsInsertable (lotRows env input userId xs) := by
  induction xs generalizing db with
  | nil => cases h; exact ⟨by simp [lotRows], by constructor <;> simp [lotRows]⟩
  | cons x xs ih =>
    obtain ⟨_, db₁, h₁, h⟩ := Tx.run_bind_ok.mp h
    obtain ⟨rfl, hx⟩ := openLot_run_ok h₁
    obtain ⟨rfl, hxs⟩ := ih h
    have hsplit : lotRows env input userId (x :: xs) =
        lotRows env input userId [x] ++ lotRows env input userId xs := lotRows_cons x xs
    have hsingle : ((lotRows env input userId [x]).map (·.id)).Nodup := by
      rw [lotRows_single]; split <;> simp
    refine ⟨by simp [hsplit], ?_, ?_, ?_, ?_⟩
    · rw [hsplit, List.map_append, List.nodup_append]
      refine ⟨hsingle, hxs.nodup, ?_⟩
      intro i hi j hj
      obtain ⟨l, hl, rfl⟩ := List.mem_map.mp hi
      obtain ⟨m, hm, rfl⟩ := List.mem_map.mp hj
      exact hxs.fresh m hm l (by simp [hl])
    · intro l hl m hm
      rw [hsplit] at hl
      rcases List.mem_append.mp hl with hl | hl
      · exact (hx l hl).1 m hm
      · exact hxs.fresh l hl m (by simp [hm])
    · intro l hl
      rw [hsplit] at hl
      rcases List.mem_append.mp hl with hl | hl
      · exact (hx l hl).2.1
      · exact hxs.account l hl
    · intro l hl
      rw [hsplit] at hl
      rcases List.mem_append.mp hl with hl | hl
      · exact (hx l hl).2.2
      · exact hxs.asset l hl

/-! ## Consuming lots -/

/-- The allocations were computed from what remains of the lots. -/
def FromLots (as : List LotAllocation) (ls : List Lot) : Prop :=
  ∀ a ∈ as, ∀ l ∈ ls, l.id = a.lotId → a.newQtyRemaining = l.qtyRemaining - a.quantity

theorem taken_rows_eq_zero {as : List LotAllocation} {e i : Uuid} (h : i ∉ as.map (·.lotId)) :
    taken (as.map (LotAllocation.row e)) i = 0 := by
  apply taken_eq_zero
  rintro c hc rfl
  obtain ⟨a, ha, rfl⟩ := List.mem_map.mp hc
  exact h (List.mem_map.mpr ⟨a, ha, rfl⟩)

theorem consumeLot_run (e : Uuid) (a : LotAllocation) (db : Db) :
    (consumeLot e a).run db = .ok ((), { db with
      lots := db.lots.map fun l => if l.id = a.lotId then l.setRemaining a.newQtyRemaining else l
      lotConsumptions := db.lotConsumptions ++ [a.row e] }) := rfl

/-- Overwriting the lots one by one takes from each lot what was allocated from it. -/
theorem consumeLots_run {e : Uuid} {as : List LotAllocation} {db : Db}
    (hnd : (as.map (·.lotId)).Nodup) (hfrom : FromLots as db.lots) :
    (Tx.each as (consumeLot e)).run db = .ok ((), { db with
      lots := db.lots.map (Lot.adjust fun i => -taken (as.map (LotAllocation.row e)) i)
      lotConsumptions := db.lotConsumptions ++ as.map (LotAllocation.row e) }) := by
  induction as generalizing db with
  | nil => simp [map_adjust_of_eq_zero]
  | cons a as ih =>
    obtain ⟨hna, hnd⟩ := List.nodup_cons.mp hnd
    rw [Tx.each_cons, Tx.run_bind_of_ok (consumeLot_run e a db), ih hnd]
    · have hrow : ∀ l ∈ db.lots,
          (if l.id = a.lotId then l.setRemaining a.newQtyRemaining else l).adjust
            (fun i => -taken (as.map (LotAllocation.row e)) i) =
          l.adjust fun i => -taken (a.row e :: as.map (LotAllocation.row e)) i := by
        intro l hl
        by_cases hid : l.id = a.lotId
        · have hz := taken_rows_eq_zero (e := e) hna
          rw [if_pos hid]
          simp [Lot.adjust, Lot.setRemaining, taken_cons, LotAllocation.row, hid, hz,
            hfrom a (by simp) l hl hid, sub_eq_add_neg]
        · rw [if_neg hid]
          simp [Lot.adjust, taken_cons, LotAllocation.row, Ne.symm hid]
      simp only [List.map_map, Function.comp_def, List.map_cons, List.append_assoc,
        List.singleton_append]
      rw [List.map_congr_left hrow]
    · intro b hb l hl hid
      obtain ⟨m, hm, rfl⟩ := List.mem_map.mp hl
      have hne : m.id ≠ a.lotId := by
        rintro h
        have : m.id = b.lotId := by split at hid <;> exact hid
        exact hna (List.mem_map.mpr ⟨b, hb, this ▸ h⟩)
      rw [if_neg hne] at hid ⊢
      exact hfrom b (by simp [hb]) m hm hid

theorem mem_sellableLots {db : Db} {assetId : Uuid} {userId : Option Uuid} {order : Uuid → Nat}
    {o : OpenLot} :
    o ∈ db.sellableLots assetId userId order ↔
      ∃ l ∈ db.lots, l.Sellable assetId userId ∧ l.toOpenLot = o := by
  unfold Db.sellableLots
  rw [mem_sortByOpened, List.mem_insertionSort, List.mem_map]
  simp only [List.mem_filter, decide_eq_true_eq, and_assoc]

theorem sellableLots_perm (db : Db) (assetId : Uuid) (userId : Option Uuid)
    (order : Uuid → Nat) :
    (db.sellableLots assetId userId order).Perm
      ((db.lots.filter fun l => l.Sellable assetId userId).map Lot.toOpenLot) :=
  (sortByOpened_perm _).trans (List.perm_insertionSort _ _)

theorem sellableLots_ids_nodup {db : Db} (h : (db.lots.map (·.id)).Nodup) (assetId : Uuid)
    (userId : Option Uuid) (order : Uuid → Nat) :
    ((db.sellableLots assetId userId order).map (·.id)).Nodup := by
  have hp := (sellableLots_perm db assetId userId order).map (·.id)
  rw [hp.nodup_iff, List.map_map]
  exact h.sublist (List.filter_sublist.map _)

/-- What a sale allocates: distinct lots, each from what remains of it. -/
structure Allocated (db : Db) (assetId : Uuid) (userId : Option Uuid) (as : List LotAllocation) :
    Prop where
  nodup : (as.map (·.lotId)).Nodup
  fromLots : FromLots as db.lots
  lot : ∀ a ∈ as, ∃ l ∈ db.lots, l.id = a.lotId ∧ l.Sellable assetId userId ∧
    0 < a.quantity ∧ a.quantity ≤ l.qtyRemaining

theorem consumeFifo_allocated {db : Db} (h : (db.lots.map (·.id)).Nodup) (assetId : Uuid)
    (userId : Option Uuid) (order : Uuid → Nat) (qty proceeds : Decimal) :
    Allocated db assetId userId
      (consumeFifo (db.sellableLots assetId userId order) qty proceeds).allocations := by
  rw [consumeFifo_eq]
  set ls := db.sellableLots assetId userId order with hls
  have hnd : ((sortByOpened ls).map (·.id)).Nodup :=
    ((sortByOpened_perm ls).map _).nodup_iff.mpr (sellableLots_ids_nodup h _ _ _)
  have hlot : ∀ a ∈ allocate (unitProceeds qty proceeds) qty (sortByOpened ls),
      ∃ l ∈ db.lots, l.id = a.lotId ∧ l.Sellable assetId userId ∧ 0 < a.quantity ∧
        a.quantity ≤ l.qtyRemaining ∧ a.newQtyRemaining = l.qtyRemaining - a.quantity := by
    intro a ha
    obtain ⟨o, ho, _, hpos, hle, heq⟩ := mem_allocate ha
    obtain ⟨l, hl, hs, rfl⟩ := mem_sellableLots.mp (mem_sortByOpened.mp ho)
    exact ⟨l, hl, by rw [heq]; rfl, hs, hpos, hle, by rw [heq]; rfl⟩
  refine ⟨hnd.sublist (allocate_sublist _ _ _), ?_, ?_⟩
  · intro a ha l hl hid
    obtain ⟨m, hm, hmid, -, -, -, hnew⟩ := hlot a ha
    rw [hnew, List.inj_on_of_nodup_map h hm hl (hmid.trans hid.symm)]
  · intro a ha
    obtain ⟨l, hl, hid, hs, hpos, hle, -⟩ := hlot a ha
    exact ⟨l, hl, hid, hs, hpos, hle⟩

/-! ## Writing an entry -/

def Db.withLots (db : Db) (ls : List Lot) : Db := { db with lots := db.lots ++ ls }

/-- What the input takes out of the lots of `db`. -/
def PostEntryInput.allocations (env : Env) (input : PostEntryInput) (userId : Option Uuid)
    (db : Db) : List LotAllocation :=
  match input.closeLot with
  | none => []
  | some c =>
    if 0 < c.quantity then
      (consumeFifo (db.sellableLots c.assetId userId env.lotOrder) c.quantity
        c.proceedsBase).allocations
    else []

/-- The consumption rows of the entry, which may sell from the lots it opens. -/
def PostEntryInput.consumptions (env : Env) (input : PostEntryInput) (userId : Option Uuid)
    (db : Db) : List LotConsumption :=
  (input.allocations env userId (db.withLots (input.newLots env userId))).map
    (LotAllocation.row env.entryId)

theorem mem_consumptions_entryId {env : Env} {input : PostEntryInput} {userId : Option Uuid}
    {db : Db} {c : LotConsumption} (h : c ∈ input.consumptions env userId db) :
    c.entryId = env.entryId := by
  obtain ⟨a, _, rfl⟩ := List.mem_map.mp h
  rfl

theorem newLots_nil {env : Env} {input : PostEntryInput} {userId : Option Uuid}
    (h : input.lotList = []) : input.newLots env userId = [] := by
  simp [PostEntryInput.newLots, h]

theorem consumptions_nil {env : Env} {input : PostEntryInput} {userId : Option Uuid} {db : Db}
    (h : input.closeLot = none) : input.consumptions env userId db = [] := by
  simp [PostEntryInput.consumptions, PostEntryInput.allocations, h]

/-- An entry was written: its rows fit, and they are all that changed. -/
structure Written (env : Env) (input : PostEntryInput) (userId : Option Uuid) (db db' : Db) :
    Prop where
  entry : db.EntryInsertable (input.entryRow env.entryId userId)
  lots : db.LotsInsertable (input.newLots env userId)
  drawn : ∀ c ∈ input.closeLot, Allocated (db.withLots (input.newLots env userId)) c.assetId
    userId (input.allocations env userId (db.withLots (input.newLots env userId)))
  matched : ∀ c ∈ input.closeLot, 0 < c.quantity →
    c.quantity - allocated (input.allocations env userId
      (db.withLots (input.newLots env userId))) ≤ UNMATCHED_TOLERANCE
  result : db' = db.recorded (input.entryRow env.entryId userId)
    (input.postings.map (DraftPosting.row env.entryId)) (input.newLots env userId)
    (input.consumptions env userId db)

theorem withLots_nodup {db : Db} (hnd : (db.lots.map (·.id)).Nodup) {ls : List Lot}
    (h : db.LotsInsertable ls) : ((db.withLots ls).lots.map (·.id)).Nodup := by
  simp only [Db.withLots, List.map_append, List.nodup_append]
  refine ⟨hnd, h.nodup, ?_⟩
  intro i hi j hj
  obtain ⟨m, hm, rfl⟩ := List.mem_map.mp hi
  obtain ⟨l, hl, rfl⟩ := List.mem_map.mp hj
  exact h.fresh l hl m hm

theorem consumeLots_ok {env : Env} {priced : Option (List OpenLot)} {userId : Option Uuid}
    {c : CloseLot} {db db' : Db} (hnd : (db.lots.map (·.id)).Nodup)
    (h : (consumeLots env priced userId c).run db = .ok ((), db')) :
    let as := (consumeFifo (db.sellableLots c.assetId userId env.lotOrder) c.quantity
      c.proceedsBase).allocations
    c.quantity - allocated as ≤ UNMATCHED_TOLERANCE ∧ db' = { db with
      lots := db.lots.map (Lot.adjust fun i => -taken (as.map (LotAllocation.row env.entryId)) i)
      lotConsumptions := db.lotConsumptions ++ as.map (LotAllocation.row env.entryId) } := by
  intro as
  rw [consumeLots, Tx.run_lock_bind, Tx.run_readExpecting_bind, Tx.run_require_bind] at h
  split at h
  swap
  · cases h
  rename_i hmatched
  have hall := consumeFifo_allocated hnd c.assetId userId env.lotOrder c.quantity c.proceedsBase
  rw [consumeLots_run hall.nodup hall.fromLots] at h
  cases h
  exact ⟨by simpa [consumeFifo_eq, as] using hmatched, rfl⟩

theorem writeEntry_ok {env : Env} {priced : Option (List OpenLot)} {input : PostEntryInput}
    {userId : Option Uuid} {db db' : Db} (hnd : (db.lots.map (·.id)).Nodup)
    (h : (writeEntry env priced input userId).run db = .ok ((), db')) :
    Written env input userId db db' := by
  rw [writeEntry, insertEntry, Tx.run_insert_bind] at h
  split at h
  swap
  · cases h
  rename_i hentry
  rw [insertPostings, Tx.run_write_bind] at h
  obtain ⟨_, _, h₃, h⟩ := Tx.run_bind_ok.mp h
  obtain ⟨rfl, hlots⟩ := openLots_run_ok h₃
  have hlots' : db.LotsInsertable (input.newLots env userId) :=
    ⟨hlots.nodup, hlots.fresh, hlots.account, hlots.asset⟩
  have hnd' := withLots_nodup hnd hlots'
  have hall : ∀ c ∈ input.closeLot, Allocated (db.withLots (input.newLots env userId)) c.assetId
      userId (input.allocations env userId (db.withLots (input.newLots env userId))) := by
    intro c hc
    unfold PostEntryInput.allocations
    rw [Option.mem_def.mp hc]
    simp only
    split
    · exact consumeFifo_allocated hnd' c.assetId userId env.lotOrder c.quantity c.proceedsBase
    · exact ⟨by simp, by simp [FromLots], by simp⟩
  have hnone : ∀ as : List LotAllocation,
      as = [] → db.recorded (input.entryRow env.entryId userId)
        (input.postings.map (DraftPosting.row env.entryId)) (input.newLots env userId)
        (as.map (LotAllocation.row env.entryId)) =
      { db with
        journalEntries := db.journalEntries ++ [input.entryRow env.entryId userId]
        postings := db.postings ++ input.postings.map (DraftPosting.row env.entryId)
        lots := db.lots ++ input.newLots env userId } := by
    rintro as rfl
    simp [Db.recorded, map_adjust_of_eq_zero]
  cases hclose : input.closeLot with
  | none =>
    rw [hclose] at h
    cases h
    refine ⟨hentry, hlots', hall, by simp [hclose], ?_⟩
    exact (hnone _ (by simp [PostEntryInput.allocations, hclose])).symm
  | some c =>
    rw [hclose] at h
    simp only [Tx.when] at h
    by_cases hq : 0 < c.quantity
    · rw [if_pos hq] at h
      obtain ⟨hmatched, rfl⟩ := consumeLots_ok (by exact hnd') h
      refine ⟨hentry, hlots', hall, ?_, ?_⟩
      · intro d hd _
        cases hclose.symm.trans hd
        simp only [PostEntryInput.allocations, hclose, if_pos hq]
        exact hmatched
      · simp only [Db.recorded, PostEntryInput.consumptions, PostEntryInput.allocations, hclose,
          if_pos hq]
        rfl
    · rw [if_neg hq] at h
      cases h
      refine ⟨hentry, hlots', hall, ?_, ?_⟩
      · intro d hd hpos
        cases hclose.symm.trans hd
        exact absurd hpos hq
      · exact (hnone _ (by simp [PostEntryInput.allocations, hclose, hq])).symm

/-! ## Before the entry is written -/

theorem readOnly_resolveServiceUserId (env : Env) (explicitUserId : Option Uuid)
    (accountIds : List Uuid) :
    (resolveServiceUserId env explicitUserId accountIds).ReadOnly := by
  unfold resolveServiceUserId
  split
  · exact Tx.readOnly_done _
  refine (Tx.readOnly_read _).bind fun owner => ?_
  split
  · exact Tx.readOnly_done _
  split
  · exact Tx.readOnly_done _
  refine (Tx.readOnly_read _).bind fun users => ?_
  split
  · exact Tx.readOnly_done _
  · exact Tx.readOnly_done _
  · exact Tx.readOnly_fail _

/-- The tenant depends on the accounts and the users only. -/
theorem resolveServiceUserId_congr {env : Env} {explicitUserId : Option Uuid}
    {accountIds : List Uuid} {db db' : Db} (ha : db.accounts = db'.accounts)
    (hu : db.users = db'.users) :
    (resolveServiceUserId env explicitUserId accountIds).answer db =
      (resolveServiceUserId env explicitUserId accountIds).answer db' := by
  have hacc : db.findAccount = db'.findAccount := by funext i; simp [Db.findAccount, ha]
  unfold resolveServiceUserId Tx.answer
  cases explicitUserId with
  | some u => rfl
  | none =>
    simp only [Tx.run_read_bind, hacc]
    cases (accountIds.head?.bind db'.findAccount).bind (·.userId) with
    | some u => rfl
    | none =>
      cases env.currentUser with
      | some u => rfl
      | none =>
        simp only [Tx.run_read_bind, hu]
        split <;> rfl

theorem readOnly_findReplay (userId : Option Uuid) (key : Option String) (hash : Digest) :
    (findReplay userId key hash).ReadOnly := by
  unfold findReplay
  split
  · exact Tx.readOnly_done _
  refine (Tx.readOnly_read _).bind fun found => ?_
  split
  · exact Tx.readOnly_done _
  · exact (Tx.readOnly_require _ _).bind fun _ => Tx.readOnly_done _

/-- The entry a key names, when its payload is the same. -/
theorem findReplay_some {userId : Option Uuid} {key : Option String} {hash : Digest} {db : Db}
    {id : Uuid} (h : (findReplay userId key hash).answer db = .ok (some id)) :
    ∃ k found, key = some k ∧ db.findByIdempotencyKey userId k = some found ∧ found.id = id ∧
      (found.idempotencyHash = none ∨ found.idempotencyHash = some hash) := by
  unfold findReplay Tx.answer at h
  cases key with
  | none => cases h
  | some k =>
    simp only [Tx.run_read_bind] at h
    cases hf : db.findByIdempotencyKey userId k with
    | none => rw [hf] at h; cases h
    | some found =>
      rw [hf] at h
      simp only [Tx.run_require_bind] at h
      split at h
      · rename_i hhash
        cases h
        exact ⟨k, found, rfl, hf, rfl, hhash⟩
      · cases h

theorem findReplay_none {userId : Option Uuid} {key : Option String} {hash : Digest} {db : Db} :
    (findReplay userId key hash).answer db = .ok none ↔
      ∀ k ∈ key, db.findByIdempotencyKey userId k = none := by
  unfold findReplay Tx.answer
  cases key with
  | none => simp [Except.map]
  | some k =>
    simp only [Tx.run_read_bind, Option.mem_def, Option.some.injEq, forall_eq']
    cases hf : db.findByIdempotencyKey userId k with
    | none => simp [Except.map]
    | some found =>
      simp only [Tx.run_require_bind, reduceCtorEq, iff_false]
      split <;> simp [Except.map]

theorem lockAccounts_run (ids : List Uuid) (db : Db) :
    (lockAccounts ids).run db =
      if ∀ i ∈ ids, (db.findAccount i).isSome then .ok ((), db) else .error .accountLockFailed := by
  have hmem : ∀ i, i ∈ ids.dedup.insertionSort (· ≤ ·) ↔ i ∈ ids := by simp
  unfold lockAccounts
  simp only [← hmem]
  generalize ids.dedup.insertionSort (· ≤ ·) = js
  induction js with
  | nil => simp
  | cons j js ih =>
    rw [Tx.each_cons, Tx.run_bind]
    simp only [Tx.run_lock_bind, Tx.run_require]
    by_cases hj : (db.findAccount j).isSome
    · simp [hj, ih]
    · simp [hj]

/-- An entry was posted for `userId`. -/
structure Posted (env : Env) (input : PostEntryInput) (userId : Option Uuid) (db db' : Db) :
    Prop where
  balanced : Balanced input.postings
  user : (resolveServiceUserId env input.userId (input.postings.map (·.accountId))).answer db =
    .ok userId
  newKey : ∀ k ∈ trimmedKey input.idempotencyKey, db.findByIdempotencyKey userId k = none
  accounts : ∀ p ∈ input.postings, ∃ a ∈ db.accounts, a.id = p.accountId
  covered : input.preventOverdraft = true →
    (guardOverdraft userId input.postings).run db = .ok ((), db)
  written : Written env input userId db db'

/-- An earlier entry was found under the key. -/
def Replayed (env : Env) (input : PostEntryInput) (r : PostResult) (db : Db) : Prop :=
  ∃ userId k found,
    (resolveServiceUserId env input.userId (input.postings.map (·.accountId))).answer db =
      .ok userId ∧ trimmedKey input.idempotencyKey = some k ∧
    db.findByIdempotencyKey userId k = some found ∧ r = ⟨found.id, true⟩ ∧
    (found.idempotencyHash = none ∨ found.idempotencyHash = some (canonicalizePayload input))

theorem readOnly_each {α : Type} {f : α → Sql Unit} (xs : List α) (h : ∀ x, (f x).ReadOnly) :
    (Tx.each xs f).ReadOnly := by
  induction xs with
  | nil => exact Tx.readOnly_done _
  | cons x xs ih => exact (h x).bind fun _ => ih

theorem readOnly_when {c : Prop} [Decidable c] {p : Sql Unit} (h : p.ReadOnly) :
    (Tx.when c p).ReadOnly := by
  unfold Tx.when
  split
  · exact h
  · exact Tx.readOnly_done _

theorem readOnly_guardOverdraft (userId : Option Uuid) (ps : List DraftPosting) :
    (guardOverdraft userId ps).ReadOnly :=
  readOnly_each ps fun _ => readOnly_when <| (Tx.readOnly_read _).bind fun _ =>
    (readOnly_when <| (Tx.readOnly_read _).bind fun _ => Tx.readOnly_require _ _).bind fun _ =>
      Tx.readOnly_require _ _

/-- What is checked before an entry is written for `userId`. -/
structure PostChecks (env : Env) (input : PostEntryInput) (userId : Option Uuid) (db : Db) : Prop where
  balanced : Balanced input.postings
  user : (resolveServiceUserId env input.userId (input.postings.map (·.accountId))).answer db =
    .ok userId
  newKey : ∀ k ∈ trimmedKey input.idempotencyKey, db.findByIdempotencyKey userId k = none
  accounts : ∀ p ∈ input.postings, ∃ a ∈ db.accounts, a.id = p.accountId
  covered : input.preventOverdraft = true →
    (guardOverdraft userId input.postings).run db = .ok ((), db)

theorem postEntryPriced_cases {env : Env} {priced : Option (List OpenLot)} {input : PostEntryInput}
    {db db' : Db} {r : PostResult} (h : (postEntryPriced priced env input).run db = .ok (r, db')) :
    (Replayed env input r db ∧ db' = db) ∨
      (r = ⟨env.entryId, false⟩ ∧ ∃ userId, PostChecks env input userId db ∧
        (writeEntry env priced input userId).run db = .ok ((), db')) := by
  obtain ⟨_, _, h₁, k₁⟩ := Tx.run_bind_ok.mp h
  rw [Tx.run_ofExcept] at h₁
  cases hb : assertBalanced input.postings with
  | error e => rw [hb] at h₁; cases h₁
  | ok u =>
  rw [hb] at h₁
  cases h₁
  obtain ⟨userId, _, h₂, k₂⟩ := Tx.run_bind_ok.mp k₁
  obtain ⟨huser, rfl⟩ := (readOnly_resolveServiceUserId _ _ _).run_ok.mp h₂
  obtain ⟨replay, _, h₃, k₃⟩ := Tx.run_bind_ok.mp k₂
  obtain ⟨hreplay, rfl⟩ := (readOnly_findReplay _ _ _).run_ok.mp h₃
  cases replay with
  | some id =>
    cases k₃
    obtain ⟨k, found, hk, hfound, hid, hhash⟩ := findReplay_some hreplay
    exact .inl ⟨⟨userId, k, found, huser, hk, hfound, by rw [hid], hhash⟩, rfl⟩
  | none =>
    obtain ⟨_, _, h₄, k₄⟩ := Tx.run_bind_ok.mp k₃
    rw [lockAccounts_run] at h₄
    split at h₄ <;> cases h₄
    rename_i hacc
    obtain ⟨_, _, h₅, k₅⟩ := Tx.run_bind_ok.mp k₄
    obtain ⟨hguard, rfl⟩ :=
      (readOnly_when (readOnly_guardOverdraft userId input.postings)).run_ok.mp h₅
    obtain ⟨_, _, h₆, k₆⟩ := Tx.run_bind_ok.mp k₅
    cases k₆
    refine .inr ⟨rfl, userId, ⟨assertBalanced_ok.mp hb, huser, findReplay_none.mp hreplay, ?_, ?_⟩,
      h₆⟩
    · intro p hp
      obtain ⟨a, ha⟩ := Option.isSome_iff_exists.mp (hacc _ (List.mem_map.mpr ⟨p, hp, rfl⟩))
      exact ⟨a, List.mem_of_find?_eq_some ha, by simpa using List.find?_some ha⟩
    · intro hp
      rw [Tx.when, if_pos hp] at h₅
      exact h₅

/-- The two ways `postEntry` succeeds. -/
theorem postEntryPriced_ok {env : Env} {priced : Option (List OpenLot)} {input : PostEntryInput}
    {db db' : Db} {r : PostResult} (hnd : (db.lots.map (·.id)).Nodup)
    (h : (postEntryPriced priced env input).run db = .ok (r, db')) :
    (Replayed env input r db ∧ db' = db) ∨
      (r = ⟨env.entryId, false⟩ ∧ ∃ userId, Posted env input userId db db') := by
  obtain hreplayed | ⟨hr, userId, hchecks, hwritten⟩ := postEntryPriced_cases h
  · exact .inl hreplayed
  · exact .inr ⟨hr, userId, hchecks.balanced, hchecks.user, hchecks.newKey, hchecks.accounts,
      hchecks.covered, writeEntry_ok hnd hwritten⟩

/-- An entry without lots is itself and its lines. -/
theorem writeEntry_plain_run (env : Env) (priced : Option (List OpenLot)) {input : PostEntryInput}
    (hopen : input.lotList = []) (hclose : input.closeLot = none) (userId : Option Uuid) (db : Db) :
    (writeEntry env priced input userId).run db =
      if db.EntryInsertable (input.entryRow env.entryId userId) then
        .ok ((), db.withEntry (input.entryRow env.entryId userId)
          (input.postings.map (DraftPosting.row env.entryId)))
      else .error (.constraintViolation "journal_entries") := by
  unfold writeEntry insertEntry insertPostings
  rw [Tx.run_insert_bind, hopen, hclose]
  split <;> rfl

/-- The two ways `postEntry` succeeds without lots. -/
theorem postEntry_plain_ok {env : Env} {input : PostEntryInput} {db db' : Db} {r : PostResult}
    (hopen : input.lotList = []) (hclose : input.closeLot = none)
    (h : (postEntry env input).run db = .ok (r, db')) :
    (Replayed env input r db ∧ db' = db) ∨
      (r = ⟨env.entryId, false⟩ ∧ ∃ userId, PostChecks env input userId db ∧
        db.EntryInsertable (input.entryRow env.entryId userId) ∧
        db' = db.withEntry (input.entryRow env.entryId userId)
          (input.postings.map (DraftPosting.row env.entryId))) := by
  obtain hreplayed | ⟨hr, userId, hchecks, hwritten⟩ := postEntryPriced_cases h
  · exact .inl hreplayed
  · rw [writeEntry_plain_run env none hopen hclose] at hwritten
    split at hwritten
    · rename_i hfits
      obtain ⟨-, rfl⟩ := Prod.mk.inj (Except.ok.inj hwritten)
      exact .inr ⟨hr, userId, hchecks, hfits, rfl⟩
    · cases hwritten

/-! ## Reversing -/

/-- A lot after the reversal of an entry with the consumptions `cs`. -/
def Lot.undone (entryId : Uuid) (cs : List LotConsumption) (l : Lot) : Lot :=
  { l with
    qtyRemaining := (if l.openEntryId = entryId then 0 else l.qtyRemaining) + taken cs l.id }

def JournalEntry.voided (entryId : Uuid) (e : JournalEntry) : JournalEntry :=
  if e.id = entryId ∧ e.status = .posted then e.setVoid else e

section Undone
variable (entryId : Uuid) (cs : List LotConsumption) (l : Lot) (e : JournalEntry)

@[simp] theorem undone_id : (l.undone entryId cs).id = l.id := rfl
@[simp] theorem undone_userId : (l.undone entryId cs).userId = l.userId := rfl
@[simp] theorem undone_accountId : (l.undone entryId cs).accountId = l.accountId := rfl
@[simp] theorem undone_assetId : (l.undone entryId cs).assetId = l.assetId := rfl
@[simp] theorem undone_openEntryId : (l.undone entryId cs).openEntryId = l.openEntryId := rfl
@[simp] theorem undone_qtyOpened : (l.undone entryId cs).qtyOpened = l.qtyOpened := rfl
@[simp] theorem undone_unitCostBase : (l.undone entryId cs).unitCostBase = l.unitCostBase := rfl
theorem undone_qtyRemaining : (l.undone entryId cs).qtyRemaining =
    (if l.openEntryId = entryId then 0 else l.qtyRemaining) + taken cs l.id := rfl

@[simp] theorem voided_id : (e.voided entryId).id = e.id := by
  unfold JournalEntry.voided; split <;> rfl
@[simp] theorem voided_userId : (e.voided entryId).userId = e.userId := by
  unfold JournalEntry.voided; split <;> rfl
@[simp] theorem voided_type : (e.voided entryId).type = e.type := by
  unfold JournalEntry.voided; split <;> rfl
@[simp] theorem voided_reversalOf : (e.voided entryId).reversalOf = e.reversalOf := by
  unfold JournalEntry.voided; split <;> rfl
@[simp] theorem voided_idempotencyKey :
    (e.voided entryId).idempotencyKey = e.idempotencyKey := by
  unfold JournalEntry.voided; split <;> rfl
@[simp] theorem voided_idempotencyHash :
    (e.voided entryId).idempotencyHash = e.idempotencyHash := by
  unfold JournalEntry.voided; split <;> rfl

theorem voided_status : (e.voided entryId).status = .posted ↔ e.status = .posted ∧ e.id ≠ entryId := by
  unfold JournalEntry.voided
  by_cases hid : e.id = entryId <;> cases hs : e.status <;> simp [hid, hs, JournalEntry.setVoid]

end Undone

/-- The database after the reversal of the entry `e`. -/
def Db.reversed (db : Db) (env : Env) (e : JournalEntry) : Db :=
  { db with
    journalEntries := db.journalEntries.map (JournalEntry.voided e.id) ++
      [e.reversalRow env.entryId env.today]
    postings := db.postings ++ (db.postingsOf e.id).map (Posting.mirrored env.entryId)
    lots := db.lots.map (Lot.undone e.id (db.consumptionsOf e.id))
    lotConsumptions := db.lotConsumptions.filter (·.entryId ≠ e.id) }

theorem closeOpenedLots_run (ls : List Lot) (db : Db) :
    (Tx.each ls closeOpenedLot).run db =
      if ∃ l ∈ ls, l.qtyRemaining < l.qtyOpened then .error .lotsPartlySold
      else .ok ((), { db with
        lots := db.lots.map fun l => if l.id ∈ ls.map (·.id) then l.setRemaining 0 else l }) := by
  induction ls generalizing db with
  | nil => simp
  | cons x ls ih =>
    rw [Tx.each_cons, closeOpenedLot, Tx.run_bind, Tx.run_require_bind]
    by_cases hx : x.qtyOpened ≤ x.qtyRemaining
    · have hrow : ∀ l : Lot,
          (if (if l.id = x.id then l.setRemaining 0 else l).id ∈ ls.map (·.id) then
            (if l.id = x.id then l.setRemaining 0 else l).setRemaining 0
          else if l.id = x.id then l.setRemaining 0 else l) =
          if l.id ∈ (x :: ls).map (·.id) then l.setRemaining 0 else l := by
        intro l
        by_cases hid : l.id = x.id <;> simp [hid, Lot.setRemaining]
      rw [if_pos hx, updateRemaining, Tx.run_writeExpecting]
      simp only [ih, List.exists_mem_cons_iff, not_lt.mpr hx, false_or]
      split
      · rfl
      · simp only [applyAll_cons, applyAll_nil, Writable.apply, Write.apply, List.map_map,
          Function.comp_def, hrow]
    · rw [if_neg hx, if_pos ⟨x, by simp, not_le.mp hx⟩]

theorem restoreLot_run {c : LotConsumption} {db : Db} (hnd : (db.lots.map (·.id)).Nodup) :
    (restoreLot c).run db =
      .ok ((), { db with lots := db.lots.map (Lot.adjust (taken [c])) }) := by
  unfold restoreLot
  rw [Tx.run_read_bind]
  cases hf : db.findLot c.lotId with
  | none =>
    have hno : ∀ l ∈ db.lots, taken [c] l.id = 0 := by
      intro l hl
      have hid := List.find?_eq_none.mp hf l hl
      simp only [decide_eq_true_eq] at hid
      rw [taken_cons, if_neg (Ne.symm hid), taken_nil, add_zero]
    simp only [Tx.pure_eq, Tx.run_done, map_adjust_of_eq_zero hno]
  | some l =>
    have hl := List.mem_of_find?_eq_some hf
    have hid : l.id = c.lotId := by simpa using List.find?_some hf
    have hrow : ∀ m ∈ db.lots,
        (if m.id = l.id then m.setRemaining (l.qtyRemaining + c.quantity) else m) =
          m.adjust (taken [c]) := by
      intro m hm
      rw [Lot.adjust, taken_cons, taken_nil, add_zero]
      by_cases hml : m.id = l.id
      · rw [List.inj_on_of_nodup_map hnd hm hl hml]
        simp [Lot.setRemaining, hid]
      · rw [if_neg hml, if_neg fun h => hml (h.symm.trans hid.symm), add_zero]
    simp only [updateRemaining, Tx.run_writeExpecting, applyAll_cons, applyAll_nil,
      Writable.apply, Write.apply]
    rw [List.map_congr_left hrow]

theorem restoreLots_run {cs : List LotConsumption} {db : Db} (hnd : (db.lots.map (·.id)).Nodup) :
    (Tx.each cs restoreLot).run db =
      .ok ((), { db with lots := db.lots.map (Lot.adjust (taken cs)) }) := by
  induction cs generalizing db with
  | nil =>
    have hz : db.lots.map (Lot.adjust (taken [])) = db.lots :=
      map_adjust_of_eq_zero fun _ _ => taken_nil _
    simp [hz]
  | cons c cs ih =>
    rw [Tx.each_cons, Tx.run_bind_of_ok (restoreLot_run hnd), ih (by simpa [Function.comp_def])]
    have hrow : ∀ l : Lot, (l.adjust (taken [c])).adjust (taken cs) = l.adjust (taken (c :: cs)) := by
      intro l
      simp [Lot.adjust, taken_cons c cs, taken_cons c [], add_assoc]
    simp only [List.map_map, Function.comp_def, hrow]

theorem deleteConsumptions_run {db : Db} {entryId : Uuid} {cs : List LotConsumption}
    (hcs : cs = db.consumptionsOf entryId) :
    (Tx.when (cs ≠ []) (Tx.write (fun _ => []) fun _ => [Write.deleteConsumptions entryId]) :
      Sql Unit).run db =
      .ok ((), { db with lotConsumptions := db.lotConsumptions.filter (·.entryId ≠ entryId) }) := by
  unfold Tx.when
  split
  · rfl
  · rename_i h
    have hnone := List.filter_eq_nil_iff.mp (hcs ▸ not_not.mp h)
    have hall : db.lotConsumptions.filter (·.entryId ≠ entryId) = db.lotConsumptions :=
      List.filter_eq_self.mpr fun c hc => by simpa using hnone c hc
    rw [hall]
    rfl

/-- The four checks of a reversal, and what it does when they pass. -/
theorem reverseEntry_run {env : Env} {entryId : Uuid} {db : Db}
    (hnd : (db.lots.map (·.id)).Nodup) :
    (reverseEntry env entryId).run db =
      match db.findEntry entryId with
      | none => .error .entryNotFound
      | some e =>
        if e.status = .void then .error .entryAlreadyVoid
        else if ∃ l ∈ db.lotsOpenedBy entryId, l.qtyRemaining < l.qtyOpened then
          .error .lotsPartlySold
        else if db.EntryInsertable (e.reversalRow env.entryId env.today) then
          .ok (⟨env.entryId, false⟩, db.reversed env e)
        else .error (.constraintViolation "journal_entries") := by
  unfold reverseEntry
  rw [Tx.run_lock_bind, Tx.run_read_bind]
  cases hf : db.findEntry entryId with
  | none => rfl
  | some e =>
    have hid : e.id = entryId := by simpa using List.find?_some hf
    have he := List.mem_of_find?_eq_some hf
    subst hid
    simp only [Tx.run_require_bind]
    by_cases hvoid : e.status = .void
    · simp [hvoid]
    have hposted : e.status = .posted := by cases h : e.status <;> simp_all
    rw [if_pos hvoid, if_neg hvoid, Tx.run_read_bind, Tx.run_bind, closeOpenedLots_run]
    by_cases hsold : ∃ l ∈ db.lotsOpenedBy e.id, l.qtyRemaining < l.qtyOpened
    · simp only [if_pos hsold]
    have hopened : ∀ l ∈ db.lots, l.id ∈ (db.lotsOpenedBy e.id).map (·.id) ↔
        l.openEntryId = e.id := by
      intro l hl
      simp only [Db.lotsOpenedBy, List.mem_map, List.mem_filter, decide_eq_true_eq]
      constructor
      · rintro ⟨m, ⟨hm, hopen⟩, hmid⟩
        exact List.inj_on_of_nodup_map hnd hm hl hmid ▸ hopen
      · exact fun h => ⟨l, ⟨hl, h⟩, rfl⟩
    have hzero : (db.lots.map fun l =>
          if l.id ∈ (db.lotsOpenedBy e.id).map (·.id) then l.setRemaining 0 else l) =
        db.lots.map fun l => if l.openEntryId = e.id then l.setRemaining 0 else l :=
      List.map_congr_left fun l hl => by simp only [hopened l hl]
    have hlots : (db.lots.map fun l =>
          if l.openEntryId = e.id then l.setRemaining 0 else l).map
          (Lot.adjust (taken (db.consumptionsOf e.id))) =
        db.lots.map (Lot.undone e.id (db.consumptionsOf e.id)) := by
      rw [List.map_map]
      refine List.map_congr_left fun l _ => ?_
      by_cases h : l.openEntryId = e.id <;> simp [Lot.adjust, Lot.undone, Lot.setRemaining, h]
    have hentries : (db.journalEntries ++ [e.reversalRow env.entryId env.today]).map
          (JournalEntry.voided e.id) =
        db.journalEntries.map (JournalEntry.voided e.id) ++
          [e.reversalRow env.entryId env.today] := by
      simp [JournalEntry.voided, JournalEntry.reversalRow]
    have hnd' : ((db.lots.map fun l =>
        if l.openEntryId = e.id then l.setRemaining 0 else l).map (·.id)).Nodup := by
      have hid : ∀ l : Lot,
          (if l.openEntryId = e.id then l.setRemaining 0 else l).id = l.id := by
        intro l; split <;> rfl
      simpa [Function.comp_def, hid]
    simp only [if_neg hsold, hzero]
    rw [Tx.run_read_bind, Tx.run_bind_of_ok (restoreLots_run hnd'),
      Tx.run_bind_of_ok (deleteConsumptions_run ?same), Tx.run_read_bind, insertEntry,
      Tx.run_insert_bind]
    case same => rfl
    refine if_congr Iff.rfl ?_ rfl
    rw [insertPostings, Tx.run_write_bind, voidEntry, Tx.run_insert_bind, if_pos]
    · unfold Db.reversed
      rw [← hlots, ← hentries]
      rfl
    · exact ⟨e, List.mem_append_left _ he, rfl, hposted⟩

end Pwos
