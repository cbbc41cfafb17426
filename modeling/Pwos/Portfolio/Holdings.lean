import Pwos.Ledger.CommandRuns
import Pwos.Ledger.Journal

/-!
# Lots and ledger

How much of an asset a user holds is kept twice: what remains of the lots, and what the
posted entries brought onto the user's asset-type accounts. The lots follow the asset legs
of buys and sells alone. Every other line, a transfer fee among them, moves the ledger and
leaves the lots as they are.
-/

namespace Pwos

/-- The lot belongs to the user; without a user every lot does. -/
def Lot.OwnedBy (userId : Option Uuid) (l : Lot) : Prop := userId = none ∨ l.userId = userId

instance (userId : Option Uuid) (l : Lot) : Decidable (l.OwnedBy userId) :=
  inferInstanceAs (Decidable (_ ∨ _))

/-- The lot is one of the user's of the asset. -/
def Lot.Of (userId : Option Uuid) (assetId : Uuid) (l : Lot) : Prop :=
  l.OwnedBy userId ∧ l.assetId = assetId

instance (userId : Option Uuid) (assetId : Uuid) (l : Lot) : Decidable (l.Of userId assetId) :=
  inferInstanceAs (Decidable (_ ∧ _))

/-- The lots of the user and the asset. -/
def Db.lotsOf (db : Db) (userId : Option Uuid) (assetId : Uuid) : List Lot :=
  db.lots.filter fun l => l.Of userId assetId

section Books
variable (db : Db) (u a : Uuid)

/-- What remains of the user's lots of the asset. -/
def Db.inLots : Decimal := ((db.lotsOf (some u) a).map (·.qtyRemaining)).sum

/-- The line is about the asset on one of the user's asset-type accounts. -/
def Db.OnAssetAccount (p : Posting) : Prop :=
  p.assetId = a ∧ ∃ acct ∈ db.findAccount p.accountId, acct.type = .asset ∧ acct.userId = some u

instance (p : Posting) : Decidable (db.OnAssetAccount u a p) := inferInstanceAs (Decidable (_ ∧ _))

/-- What the posted entries brought onto the user's asset-type accounts. -/
def Db.held : Decimal :=
  (((db.livePostings none).filter (db.OnAssetAccount u a ·)).map (·.quantity)).sum

/-- The line brings units in as the asset leg of a buy of the user, or takes units out as
that of a sell. -/
def IsLotLeg (e : JournalEntry) (p : Posting) : Prop :=
  e.userId = some u ∧ p.assetId = a ∧
    (e.type = .buy ∧ 0 < p.quantity ∨ e.type = .sell ∧ p.quantity < 0)

instance (e : JournalEntry) (p : Posting) : Decidable (IsLotLeg u a e p) :=
  inferInstanceAs (Decidable (_ ∧ _ ∧ (_ ∨ _)))

/-- The leg of an entry that the lots follow. A trade posts it first. -/
def Db.lotLegs (e : JournalEntry) : List Posting :=
  ((db.postingsOf e.id).take 1).filter (IsLotLeg u a e ·)

def Db.otherLines (e : JournalEntry) : List Posting :=
  ((db.postingsOf e.id).take 1).filter (¬ IsLotLeg u a e ·) ++ (db.postingsOf e.id).drop 1

/-- What the other lines of an entry bring onto the user's accounts, less what its asset
leg brings onto accounts that are none of them. -/
def Db.movedBy (e : JournalEntry) : Decimal :=
  (((db.otherLines u a e).filter (db.OnAssetAccount u a ·)).map (·.quantity)).sum -
    (((db.lotLegs u a e).filter (¬ db.OnAssetAccount u a ·)).map (·.quantity)).sum

def Db.moved : Decimal := (db.postedEntries.map (db.movedBy u a)).sum

/-- The posted sells of the asset by the user. -/
def Db.sells : Nat :=
  (db.postedEntries.filter fun e => e.type = .sell ∧ db.lotLegs u a e ≠ []).length

/-- What the asset leg of an entry brings in. -/
def Db.legQty (e : JournalEntry) : Decimal := ((db.lotLegs u a e).map (·.quantity)).sum

/-- What the lots opened by an entry brought in. -/
def Db.openedBy (i : Uuid) : Decimal :=
  (((db.lotsOf (some u) a).filter (·.openEntryId = i)).map (·.qtyOpened)).sum

/-- What an entry took out of the lots. -/
def Db.consumedBy (i : Uuid) : Decimal :=
  (((db.consumptionsOf i).filter fun c => c.lotId ∈ (db.lotsOf (some u) a).map (·.id)).map
    (·.quantity)).sum

end Books

/-! ## Entry by entry -/

section ByEntry
variable {db : Db} {u a : Uuid}

/-- On the accounts, an entry brings its asset leg and what it moves besides. -/
theorem sum_lines (e : JournalEntry) :
    (((db.postingsOf e.id).filter (db.OnAssetAccount u a ·)).map (·.quantity)).sum =
      db.legQty u a e + db.movedBy u a e := by
  have hon := sum_filter_split (db.OnAssetAccount u a ·) (IsLotLeg u a e ·) (·.quantity)
    ((db.postingsOf e.id).take 1)
  have hleg := sum_filter_split (IsLotLeg u a e ·) (db.OnAssetAccount u a ·) (·.quantity)
    ((db.postingsOf e.id).take 1)
  have hlines : (db.postingsOf e.id).take 1 ++ (db.postingsOf e.id).drop 1 = db.postingsOf e.id :=
    List.take_append_drop _ _
  rw [← hlines, List.filter_append, List.map_append, List.sum_append, hon, Db.legQty, Db.lotLegs,
    hleg, Db.movedBy, Db.otherLines, Db.lotLegs]
  simp only [List.filter_append, List.filter_filter, List.map_append, List.sum_append,
    Bool.and_comm, decide_not]
  abel

theorem held_eq (hw : WellFormed db) :
    db.held u a = (db.postedEntries.map (db.legQty u a)).sum + db.moved u a := by
  have hsum : ∀ xs : List JournalEntry, (xs.map fun e => db.legQty u a e + db.movedBy u a e).sum =
      (xs.map (db.legQty u a)).sum + (xs.map (db.movedBy u a)).sum := fun xs => List.sum_map_add
  rw [Db.held, sum_filter_eq_ite, sum_livePostings hw, Db.moved, ← hsum]
  congr 1
  refine List.map_congr_left fun e _ => ?_
  rw [← sum_filter_eq_ite, sum_lines]

theorem mem_lotsOf {l : Lot} : l ∈ db.lotsOf (some u) a ↔ l ∈ db.lots ∧ l.Of (some u) a := by
  simp [Db.lotsOf]

theorem lotsOf_nodup (hw : WellFormed db) : ((db.lotsOf (some u) a).map (·.id)).Nodup :=
  hw.lotIds.sublist (List.filter_sublist.map _)

/-- The sum over the live lots, by the entry that opened them. -/
theorem sum_opened (hw : WellFormed db) :
    ((db.lotsOf (some u) a).map fun l => if db.Posted l.openEntryId then l.qtyOpened else 0).sum =
      (db.postedEntries.map fun e => db.openedBy u a e.id).sum := by
  have hgroup := sum_group (postedEntries_nodup hw) (fun l : Lot => l.openEntryId) (·.qtyOpened)
    (db.lotsOf (some u) a)
  rw [sum_filter_eq_ite, List.map_map] at hgroup
  simp only [decide_eq_true_eq, ← posted_iff_mem] at hgroup
  exact hgroup

/-- The sum over the consumptions, by lot or by the entry that sold. -/
theorem sum_consumed (hw : WellFormed db) :
    ((db.lotsOf (some u) a).map fun l => db.consumed l.id).sum =
      (db.postedEntries.map fun e => db.consumedBy u a e.id).sum := by
  have hlot := sum_group (lotsOf_nodup (u := u) (a := a) hw) (fun c : LotConsumption => c.lotId)
    (·.quantity) db.lotConsumptions
  have hentry := sum_group (postedEntries_nodup hw) (fun c : LotConsumption => c.entryId)
    (·.quantity)
    (db.lotConsumptions.filter fun c => c.lotId ∈ (db.lotsOf (some u) a).map (·.id))
  have hall : (db.lotConsumptions.filter fun c =>
        c.lotId ∈ (db.lotsOf (some u) a).map (·.id)).filter
          (fun c => decide (c.entryId ∈ db.postedEntries.map (·.id))) =
      db.lotConsumptions.filter fun c => c.lotId ∈ (db.lotsOf (some u) a).map (·.id) := by
    refine List.filter_eq_self.mpr fun c hc => ?_
    rw [decide_eq_true_eq, ← posted_iff_mem]
    exact hw.consumptionEntry c (List.mem_of_mem_filter hc)
  rw [hall, hlot, List.map_map, List.map_map] at hentry
  refine hentry.trans (congrArg List.sum (List.map_congr_left fun e _ => ?_))
  simp only [Function.comp_apply, Db.consumedBy, Db.consumptionsOf, List.filter_filter,
    Bool.and_comm]

/-- What remains is what the posted entries opened less what they consumed. -/
theorem inLots_eq (hi : LedgerInv db) : db.inLots u a =
    (db.postedEntries.map fun e => db.openedBy u a e.id - db.consumedBy u a e.id).sum := by
  rw [sum_map_sub, ← sum_opened hi.toWellFormed, ← sum_consumed hi.toWellFormed, ← sum_map_sub,
    Db.inLots]
  refine congrArg List.sum (List.map_congr_left fun l hl => ?_)
  have hmem := (mem_lotsOf.mp hl).1
  by_cases hp : db.Posted l.openEntryId
  · rw [if_pos hp, hi.live l hmem hp]
    abel
  · obtain ⟨hrem, hnone⟩ := hi.void l hmem hp
    rw [if_neg hp, hrem, consumed_eq_taken, taken_eq_zero hnone, sub_zero]

/-- How far the lots of an entry are ahead of its asset leg: nothing, or what a sell asked
for beyond the lots. -/
def Db.excess (db : Db) (u a : Uuid) (e : JournalEntry) : Decimal :=
  db.openedBy u a e.id - db.consumedBy u a e.id - db.legQty u a e

structure LegMatched (db : Db) (u a : Uuid) (e : JournalEntry) : Prop where
  low : 0 ≤ db.excess u a e
  high : db.excess u a e ≤
    if e.type = .sell ∧ db.lotLegs u a e ≠ [] then UNMATCHED_TOLERANCE else 0

/-- The lots follow the asset legs of every posted entry. -/
def LotsFollow (u a : Uuid) (db : Db) : Prop := ∀ e ∈ db.postedEntries, LegMatched db u a e

theorem inLots_within (hi : LedgerInv db) (h : LotsFollow u a db) :
    0 ≤ db.inLots u a + db.moved u a - db.held u a ∧
      db.inLots u a + db.moved u a - db.held u a ≤ db.sells u a • UNMATCHED_TOLERANCE := by
  have hexcess : db.inLots u a + db.moved u a - db.held u a =
      (db.postedEntries.map (db.excess u a)).sum := by
    have hsum := sum_map_sub (fun e => db.openedBy u a e.id - db.consumedBy u a e.id)
      (db.legQty u a) db.postedEntries
    rw [inLots_eq hi, held_eq hi.toWellFormed]
    change _ = (db.postedEntries.map fun e => _ - _).sum
    rw [hsum]
    abel
  have hbound : (db.postedEntries.map fun e =>
        if e.type = .sell ∧ db.lotLegs u a e ≠ [] then UNMATCHED_TOLERANCE else 0).sum =
      db.sells u a • UNMATCHED_TOLERANCE := by
    have := sum_filter_eq_ite (fun e => decide (e.type = .sell ∧ db.lotLegs u a e ≠ []))
      (fun _ => UNMATCHED_TOLERANCE) db.postedEntries
    simp only [decide_eq_true_eq] at this
    rw [← this, Db.sells]
    simp
  rw [hexcess, ← hbound]
  refine ⟨List.sum_nonneg ?_, List.sum_le_sum fun e he => (h e he).high⟩
  intro q hq
  obtain ⟨e, he, rfl⟩ := List.mem_map.mp hq
  exact (h e he).low

end ByEntry

/-! ## Every step keeps the lots in step -/

section Steps
variable {db : Db} {u a : Uuid} {e : JournalEntry} {ps : List Posting} {ls : List Lot}
  {cs : List LotConsumption} {env : Env}

/-- What an entry did to the lots and its rows are the same in both databases. -/
structure SameEntry (u a : Uuid) (db db' : Db) (e : JournalEntry) : Prop where
  opened : db'.openedBy u a e.id = db.openedBy u a e.id
  consumed : db'.consumedBy u a e.id = db.consumedBy u a e.id
  lines : db'.postingsOf e.id = db.postingsOf e.id

theorem SameEntry.matched {db' : Db} (h : SameEntry u a db db' e) (hm : LegMatched db u a e) :
    LegMatched db' u a e := by
  have hlegs : db'.lotLegs u a e = db.lotLegs u a e := by rw [Db.lotLegs, h.lines, Db.lotLegs]
  have hexcess : db'.excess u a e = db.excess u a e := by
    rw [Db.excess, h.opened, h.consumed, Db.legQty, hlegs, Db.excess, Db.legQty]
  exact ⟨hexcess ▸ hm.low, hexcess ▸ hlegs ▸ hm.high⟩

theorem lotsOf_recorded : (db.recorded e ps ls cs).lotsOf (some u) a =
    ((db.lots ++ ls).filter fun l => l.Of (some u) a).map (Lot.adjust fun i => -taken cs i) := by
  simp only [Db.lotsOf, Db.recorded, List.filter_map]
  rfl

theorem openedBy_recorded (i : Uuid) : (db.recorded e ps ls cs).openedBy u a i =
    db.openedBy u a i +
      (((ls.filter fun l => l.Of (some u) a).filter (·.openEntryId = i)).map (·.qtyOpened)).sum := by
  rw [Db.openedBy, lotsOf_recorded, List.filter_map, List.map_map, List.filter_append,
    List.filter_append, List.map_append, List.sum_append]
  rfl

/-- An old consumption is of an old lot. -/
theorem consumptionsOf_recorded_old (hw : WellFormed db) (h : Recordable db e ps ls cs)
    {c : LotConsumption} (hc : c ∈ db.lotConsumptions) :
    c.lotId ∈ ((db.recorded e ps ls cs).lotsOf (some u) a).map (·.id) ↔
      c.lotId ∈ (db.lotsOf (some u) a).map (·.id) := by
  obtain ⟨l, hl, hid⟩ := hw.consumptionLot c hc
  have hnew : ∀ m ∈ ls, m.id ≠ c.lotId := fun m hm hmid => h.lots.fresh m hm l hl (hid.trans hmid.symm)
  rw [lotsOf_recorded, List.map_map, List.filter_append, List.map_append, List.mem_append,
    or_iff_left]
  · rfl
  · intro hm
    obtain ⟨m, hm, hmid⟩ := List.mem_map.mp hm
    exact hnew m (List.mem_of_mem_filter hm) hmid

theorem sameEntry_recorded (hw : WellFormed db) (h : Recordable db e ps ls cs) {f : JournalEntry}
    (hf : f ∈ db.journalEntries) : SameEntry u a db (db.recorded e ps ls cs) f where
  opened := by
    rw [openedBy_recorded, sum_filter_eq_zero, add_zero]
    intro l hl
    have hopen := (h.opened l (List.mem_of_mem_filter hl)).1
    simpa [hopen] using Ne.symm (h.insertable.1 f hf)
  consumed := by
    have hnone : cs.filter (·.entryId = f.id) = [] := by
      refine List.filter_eq_nil_iff.mpr fun c hc => ?_
      simpa [(h.consumptions c hc).1] using Ne.symm (h.insertable.1 f hf)
    have hrows : (db.recorded e ps ls cs).consumptionsOf f.id = db.consumptionsOf f.id := by
      simp only [Db.consumptionsOf, Db.recorded, List.filter_append, hnone, List.append_nil]
    rw [Db.consumedBy, hrows, Db.consumedBy]
    refine congrArg _ (congrArg _ (List.filter_congr fun c hc => decide_eq_decide.mpr ?_))
    exact consumptionsOf_recorded_old hw h (List.mem_of_mem_filter hc)
  lines := recorded_postingsOf_old h hf

theorem lotsOf_reversed : (db.reversed env e).lotsOf (some u) a =
    (db.lotsOf (some u) a).map (Lot.undone e.id (db.consumptionsOf e.id)) := by
  simp only [Db.lotsOf, Db.reversed, List.filter_map]
  rfl

theorem sameEntry_reversed (h : Reversible db env e) {f : JournalEntry}
    (hf : f ∈ db.journalEntries) (hne : f.id ≠ e.id) :
    SameEntry u a db (db.reversed env e) f where
  opened := by
    rw [Db.openedBy, lotsOf_reversed, List.filter_map, List.map_map]
    rfl
  consumed := by
    have hrows : (db.reversed env e).consumptionsOf f.id = db.consumptionsOf f.id := by
      rw [Db.consumptionsOf, Db.reversed, List.filter_filter, Db.consumptionsOf]
      refine List.filter_congr fun c _ => ?_
      by_cases hc : c.entryId = f.id <;> simp [hc, hne]
    rw [Db.consumedBy, hrows, lotsOf_reversed, List.map_map]
    rfl
  lines := reversed_postingsOf_old h hf

theorem LotsFollow.provision (hm : LotsFollow u a db) (accounts : List Account) :
    LotsFollow u a (db.withAccounts accounts) := by
  intro f hf
  have hsame : SameEntry u a db (db.withAccounts accounts) f := ⟨rfl, rfl, rfl⟩
  exact hsame.matched (hm f hf)

theorem LotsFollow.reverse (hm : LotsFollow u a db) (h : Reversible db env e) :
    LotsFollow u a (db.reversed env e) := by
  intro f hf
  obtain ⟨hf, hs⟩ := List.mem_filter.mp hf
  rw [decide_eq_true_eq] at hs
  rcases List.mem_append.mp hf with hf | hf
  · obtain ⟨g, hg, rfl⟩ := List.mem_map.mp hf
    obtain ⟨hgs, hne⟩ := (voided_status _ _).mp hs
    have hsame : g.voided e.id = g := by simp [JournalEntry.voided, hne]
    rw [hsame]
    exact (sameEntry_reversed h hg hne).matched
      (hm g (List.mem_filter.mpr ⟨hg, decide_eq_true hgs⟩))
  · rw [List.mem_singleton.mp hf] at hs
    cases hs

/-- Recording an entry is enough to look at. -/
theorem LotsFollow.record (hw : WellFormed db) (hm : LotsFollow u a db)
    (h : Recordable db e ps ls cs) (hnew : LegMatched (db.recorded e ps ls cs) u a e) :
    LotsFollow u a (db.recorded e ps ls cs) := by
  intro f hf
  obtain ⟨hf, hs⟩ := List.mem_filter.mp hf
  rcases List.mem_append.mp hf with hf | hf
  · exact (sameEntry_recorded hw h hf).matched (hm f (List.mem_filter.mpr ⟨hf, hs⟩))
  · rw [List.mem_singleton.mp hf]
    exact hnew

end Steps

/-! ## What a command records -/

section NewEntry
variable {db db' : Db} {u a : Uuid} {env : Env} {input : PostEntryInput} {userId : Option Uuid}

/-- What a new entry opened, in terms of its own lots. -/
theorem openedBy_new (hw : WellFormed db) {e : JournalEntry} {ps : List Posting} {ls : List Lot}
    {cs : List LotConsumption} (h : Recordable db e ps ls cs) :
    (db.recorded e ps ls cs).openedBy u a e.id =
      ((ls.filter fun l => l.Of (some u) a).map (·.qtyOpened)).sum := by
  have hold : db.openedBy u a e.id = 0 := by
    refine sum_filter_eq_zero (fun l hl => ?_) _
    simpa using ne_of_lot h hw (mem_lotsOf.mp hl).1
  have hopen : (ls.filter fun l => l.Of (some u) a).filter (·.openEntryId = e.id) =
      ls.filter fun l => l.Of (some u) a := by
    refine List.filter_eq_self.mpr fun l hl => ?_
    simpa using (h.opened l (List.mem_of_mem_filter hl)).1
  rw [openedBy_recorded, hold, zero_add, hopen]

theorem lotLegs_new (hw : WellFormed db) {e : JournalEntry} {ps : List Posting} {ls : List Lot}
    {cs : List LotConsumption} (h : Recordable db e ps ls cs) :
    (db.recorded e ps ls cs).lotLegs u a e = (ps.take 1).filter (IsLotLeg u a e ·) := by
  rw [Db.lotLegs, recorded_postingsOf_new hw h]

/-- An entry that is no trade opens and consumes nothing. -/
theorem matched_plain (hw : WellFormed db) {e : JournalEntry} {ps : List Posting}
    (h : Recordable db e ps [] []) (hbuy : e.type ≠ .buy) (hsell : e.type ≠ .sell) :
    LegMatched (db.recorded e ps [] []) u a e := by
  have hlegs : (db.recorded e ps [] []).lotLegs u a e = [] := by
    rw [lotLegs_new hw h]
    exact List.filter_eq_nil_iff.mpr fun p _ => by simp [IsLotLeg, hbuy, hsell]
  have hexcess : (db.recorded e ps [] []).excess u a e = 0 := by
    rw [Db.excess, openedBy_new hw h, Db.consumedBy, recorded_consumptionsOf_new hw h, Db.legQty, hlegs]
    rfl
  exact ⟨hexcess.ge, by rw [hexcess, if_neg fun hs => hsell hs.1]⟩

theorem matched_noLots (hi : LedgerInv db) (hp : Posted env input userId db db')
    (hlots : input.lotList = []) (hclose : input.closeLot = none) (hbuy : input.type ≠ .buy)
    (hsell : input.type ≠ .sell) : LegMatched db' u a (input.entryRow env.entryId userId) := by
  have h := hp.recordable hi.lotIds
  rw [hp.written.result]
  rw [newLots_nil hlots, consumptions_nil hclose] at h ⊢
  exact matched_plain hi.toWellFormed h hbuy hsell

theorem matched_buy {cmd : TradeCmd} {feeLines : List DraftPosting} (hi : LedgerInv db)
    (hp : Posted env (cmd.buyInput feeLines) userId db db') :
    LegMatched db' u a ((cmd.buyInput feeLines).entryRow env.entryId userId) := by
  have h := hp.recordable hi.lotIds
  rw [hp.written.result]
  have hcs : (cmd.buyInput feeLines).consumptions env userId db = [] := consumptions_nil rfl
  rw [hcs] at h ⊢
  set e := (cmd.buyInput feeLines).entryRow env.entryId userId with he
  have hexcess : (db.recorded e ((cmd.buyInput feeLines).postings.map (DraftPosting.row env.entryId))
      ((cmd.buyInput feeLines).newLots env userId) []).excess u a e = 0 := by
    rw [Db.excess, openedBy_new hi.toWellFormed h, Db.consumedBy,
      recorded_consumptionsOf_new hi.toWellFormed h, Db.legQty, lotLegs_new hi.toWellFormed h]
    have hlots : (cmd.buyInput feeLines).newLots env userId =
        lotRows env (cmd.buyInput feeLines) userId
          [({ accountId := cmd.assetAccountId, assetId := cmd.assetId
              quantity := cmd.quantity, costBase := cmd.baseValue }, 0)] := rfl
    have hfirst : ((cmd.buyInput feeLines).postings.map (DraftPosting.row env.entryId)).take 1 =
        [cmd.buyAssetLine.row env.entryId] := rfl
    have hleg : IsLotLeg u a e (cmd.buyAssetLine.row env.entryId) ↔
        userId = some u ∧ cmd.assetId = a ∧ 0 < cmd.quantity := by
      simp [IsLotLeg, he, PostEntryInput.entryRow, TradeCmd.buyInput, DraftPosting.row,
        TradeCmd.buyAssetLine]
    have hquantity : (cmd.buyAssetLine.row env.entryId).quantity = cmd.quantity := rfl
    rw [hlots, lotRows_single, hfirst, sum_filter_single, hquantity]
    simp only [decide_eq_true_eq, hleg]
    by_cases hq : 0 < cmd.quantity
    · rw [if_pos hq, sum_filter_single]
      simp [hq, LotInput.row, Lot.Of, Lot.OwnedBy]
    · simp [hq]
  refine ⟨hexcess.ge, hexcess.trans_le ?_⟩
  rw [if_neg]
  rintro ⟨htype, -⟩
  cases htype

/-- Only a database without users has entries that belong to nobody. -/
theorem users_of_tenantless {explicitUserId : Option Uuid} {accountIds : List Uuid}
    (h : (resolveServiceUserId env explicitUserId accountIds).answer db = .ok none) :
    db.users = [] := by
  unfold resolveServiceUserId Tx.answer at h
  cases explicitUserId with
  | some v => cases h
  | none =>
    simp only [Tx.run_read_bind] at h
    split at h
    · cases h
    split at h
    · cases h
    simp only [Tx.run_read_bind] at h
    split at h
    · rename_i hnil
      simpa using hnil
    · cases h
    · cases h

/-- The lots a sale may take from are the user's of the asset, or none of them is. -/
theorem of_sellable (hw : WellFormed db) {assetId : Uuid} (hnone : userId = none → db.users = [])
    {l : Lot} (hl : l ∈ db.lots) (hs : l.Sellable assetId userId) :
    l.Of (some u) a ↔ userId = some u ∧ assetId = a := by
  obtain ⟨rfl, huser, -⟩ := hs
  cases userId with
  | none =>
    have hnot : l.userId ≠ some u := by
      intro hu
      obtain ⟨e, he, -, heu⟩ := hw.lotEntry l hl
      have := hw.entryUser e he u (heu.trans hu)
      rw [hnone rfl] at this
      cases this
    simp [Lot.Of, Lot.OwnedBy, hnot]
  | some v =>
    have hv : l.userId = some v := huser.resolve_left nofun
    simp [Lot.Of, Lot.OwnedBy, hv]

theorem allocations_sell {cmd : TradeCmd} {cost : Decimal} {pnlLines : List DraftPosting}
    (hq : 0 < cmd.quantity) (t : Db) :
    allocated ((cmd.sellInput cost pnlLines).allocations env userId t) ≤ cmd.quantity := by
  have hc : (cmd.sellInput cost pnlLines).allocations env userId t =
      (consumeFifo (t.sellableLots cmd.assetId userId env.lotOrder) cmd.quantity
        cmd.netProceeds).allocations := if_pos hq
  rw [hc, consumeFifo_eq]
  exact allocated_le _ hq.le

section Sell
variable {cmd : TradeCmd} {cost : Decimal} {pnlLines : List DraftPosting}

/-- A sell opens no lots, so it allocates from those that are there. -/
theorem newLots_sell : (cmd.sellInput cost pnlLines).newLots env userId = [] := newLots_nil rfl

theorem consumptions_sell : (cmd.sellInput cost pnlLines).consumptions env userId db =
    ((cmd.sellInput cost pnlLines).allocations env userId db).map
      (LotAllocation.row env.entryId) := by
  rw [PostEntryInput.consumptions, newLots_sell]
  simp [Db.withLots]

/-- The entry a sell records, over the database it was recorded in. -/
theorem posted_sell (hi : LedgerInv db) (hp : Posted env (cmd.sellInput cost pnlLines) userId db db') :
    Recordable db ((cmd.sellInput cost pnlLines).entryRow env.entryId userId)
      ((cmd.sellInput cost pnlLines).postings.map (DraftPosting.row env.entryId)) []
      ((cmd.sellInput cost pnlLines).consumptions env userId db) ∧
    db' = db.recorded ((cmd.sellInput cost pnlLines).entryRow env.entryId userId)
      ((cmd.sellInput cost pnlLines).postings.map (DraftPosting.row env.entryId)) []
      ((cmd.sellInput cost pnlLines).consumptions env userId db) := by
  have h := hp.recordable hi.lotIds
  have hresult := hp.written.result
  rw [newLots_sell] at h hresult
  exact ⟨h, hresult⟩

/-- Every lot a sell took from is of its user and asset. -/
theorem sold_lot_iff (hi : LedgerInv db) (hp : Posted env (cmd.sellInput cost pnlLines) userId db db')
    {c : LotConsumption} (hc : c ∈ (cmd.sellInput cost pnlLines).consumptions env userId db) :
    c.lotId ∈ (db'.lotsOf (some u) a).map (·.id) ↔ userId = some u ∧ cmd.assetId = a := by
  have hnone : userId = none → db.users = [] := by
    rintro rfl
    exact users_of_tenantless hp.user
  have hdrawn := hp.written.drawn _ rfl
  have hwith : db.withLots [] = db := by simp [Db.withLots]
  rw [newLots_sell, hwith] at hdrawn
  rw [consumptions_sell] at hc
  obtain ⟨x, hx, rfl⟩ := List.mem_map.mp hc
  obtain ⟨l, hl, hid, hs, -⟩ := hdrawn.lot x hx
  rw [← of_sellable hi.toWellFormed hnone hl hs, (posted_sell hi hp).2, lotsOf_recorded,
    List.append_nil, List.map_map]
  constructor
  · intro hm
    obtain ⟨m, hm, hmid⟩ := List.mem_map.mp hm
    obtain ⟨hm, hof⟩ := List.mem_filter.mp hm
    rw [← List.inj_on_of_nodup_map hi.lotIds hm hl (hmid.trans hid.symm)]
    exact of_decide_eq_true hof
  · intro hof
    exact List.mem_map.mpr ⟨l, List.mem_filter.mpr ⟨hl, decide_eq_true hof⟩, hid⟩

theorem consumedBy_sell (hi : LedgerInv db)
    (hp : Posted env (cmd.sellInput cost pnlLines) userId db db') :
    db'.consumedBy u a env.entryId =
      if userId = some u ∧ cmd.assetId = a then
        allocated ((cmd.sellInput cost pnlLines).allocations env userId db)
      else 0 := by
  have hcs : db'.consumptionsOf env.entryId =
      (cmd.sellInput cost pnlLines).consumptions env userId db := by
    obtain ⟨h, rfl⟩ := posted_sell hi hp
    exact recorded_consumptionsOf_new hi.toWellFormed h
  rw [Db.consumedBy, hcs]
  split
  · rename_i hmine
    rw [List.filter_eq_self.mpr fun c hc => decide_eq_true ((sold_lot_iff hi hp hc).mpr hmine),
      consumptions_sell, List.map_map]
    rfl
  · rename_i hmine
    exact sum_filter_eq_zero
      (fun c hc => decide_eq_false fun hc' => hmine ((sold_lot_iff hi hp hc).mp hc')) _

theorem isLotLeg_sell {p : Posting} (hp : p = (cmd.sellAssetLine cost).row env.entryId) :
    IsLotLeg u a ((cmd.sellInput cost pnlLines).entryRow env.entryId userId) p ↔
      (userId = some u ∧ cmd.assetId = a) ∧ 0 < cmd.quantity := by
  subst hp
  simp [IsLotLeg, PostEntryInput.entryRow, TradeCmd.sellInput, DraftPosting.row,
    TradeCmd.sellAssetLine, and_assoc]

theorem lotLegs_sell (hi : LedgerInv db)
    (hp : Posted env (cmd.sellInput cost pnlLines) userId db db') :
    db'.lotLegs u a ((cmd.sellInput cost pnlLines).entryRow env.entryId userId) =
      [(cmd.sellAssetLine cost).row env.entryId].filter
        (IsLotLeg u a ((cmd.sellInput cost pnlLines).entryRow env.entryId userId) ·) := by
  obtain ⟨h, rfl⟩ := posted_sell hi hp
  exact lotLegs_new hi.toWellFormed h

theorem excess_sell (hi : LedgerInv db)
    (hp : Posted env (cmd.sellInput cost pnlLines) userId db db') :
    db'.excess u a ((cmd.sellInput cost pnlLines).entryRow env.entryId userId) =
      if (userId = some u ∧ cmd.assetId = a) ∧ 0 < cmd.quantity then
        cmd.quantity - allocated ((cmd.sellInput cost pnlLines).allocations env userId db)
      else 0 := by
  have hopened : db'.openedBy u a env.entryId = 0 := by
    obtain ⟨h, rfl⟩ := posted_sell hi hp
    exact openedBy_new hi.toWellFormed h
  have hleg : db'.legQty u a ((cmd.sellInput cost pnlLines).entryRow env.entryId userId) =
      if (userId = some u ∧ cmd.assetId = a) ∧ 0 < cmd.quantity then -cmd.quantity else 0 := by
    rw [Db.legQty, lotLegs_sell hi hp, sum_filter_single]
    simp only [decide_eq_true_eq, isLotLeg_sell rfl]
    rfl
  rw [Db.excess, hleg]
  change db'.openedBy u a env.entryId - db'.consumedBy u a env.entryId - _ = _
  rw [hopened, consumedBy_sell hi hp]
  by_cases hmine : userId = some u ∧ cmd.assetId = a
  · by_cases hq : 0 < cmd.quantity
    · simp only [hmine, hq, and_self, if_true]
      abel
    · have hnil : (cmd.sellInput cost pnlLines).allocations env userId db = [] := if_neg hq
      simp [hq, hnil]
  · simp [hmine]

theorem matched_sell (hi : LedgerInv db)
    (hp : Posted env (cmd.sellInput cost pnlLines) userId db db') :
    LegMatched db' u a ((cmd.sellInput cost pnlLines).entryRow env.entryId userId) := by
  have hexcess := excess_sell (u := u) (a := a) hi hp
  by_cases hmine : (userId = some u ∧ cmd.assetId = a) ∧ 0 < cmd.quantity
  · have hmatched := hp.written.matched _ rfl hmine.2
    have hwith : db.withLots [] = db := by simp [Db.withLots]
    rw [newLots_sell, hwith] at hmatched
    rw [if_pos hmine] at hexcess
    refine ⟨hexcess ▸ sub_nonneg.mpr (allocations_sell hmine.2 db), hexcess.trans_le ?_⟩
    rw [if_pos]
    · exact hmatched
    · refine ⟨rfl, ?_⟩
      rw [lotLegs_sell hi hp]
      exact List.ne_nil_of_mem
        (List.mem_filter.mpr ⟨List.mem_singleton_self _, decide_eq_true ((isLotLeg_sell rfl).mpr hmine)⟩)
  · rw [if_neg hmine] at hexcess
    refine ⟨hexcess.ge, hexcess.trans_le ?_⟩
    split
    · decide
    · exact le_rfl

end Sell

end NewEntry

/-- What a command asks for is an entry whose lots follow its asset leg. -/
theorem matched_asks {db db' : Db} {u a : Uuid} {env : Env} {input : PostEntryInput}
    {userId : Option Uuid} {cmd : Command} (hi : LedgerInv db) (asks : cmd.Asks input)
    (hp : Posted env input userId db db') :
    LegMatched db' u a (input.entryRow env.entryId userId) := by
  cases asks with
  | transfer cmd => exact matched_noLots hi hp rfl rfl nofun nofun
  | fx cmd => exact matched_noLots hi hp rfl rfl nofun nofun
  | buy cmd _ => exact matched_buy hi hp
  | sell cmd cost _ => exact matched_sell hi hp
  | income cmd => exact matched_noLots hi hp rfl rfl nofun nofun
  | expense cmd => exact matched_noLots hi hp rfl rfl nofun nofun

theorem LotsFollow.outcome {u a : Uuid} (env : Env) (db : Db) (cmd : Command) (r : PostResult)
    (db' : Db) (hi : LedgerInv db) (hm : LotsFollow u a db) (h : cmd.Outcome env db r db') :
    LotsFollow u a db' := by
  cases h with
  | replayed id accounts => exact hm.provision accounts
  | posted accounts asks hp =>
    have hi' := hi.step (.provision accounts)
    have hnew := matched_asks (u := u) (a := a) hi' asks hp
    rw [hp.written.result] at hnew ⊢
    exact LotsFollow.record hi'.toWellFormed (hm.provision accounts) (hp.recordable hi'.lotIds) hnew
  | reversed he => exact hm.reverse he

/-- After every run of commands, the lots and the ledger differ by what lines other than
the asset legs of trades moved, up to 1e-9 for each sell. -/
theorem runCalls_inLots {db : Db} (h : db.EmptyLedger) (calls : List Call) (u a : Uuid) :
    let s := runCalls calls db
    0 ≤ s.inLots u a + s.moved u a - s.held u a ∧
      s.inLots u a + s.moved u a - s.held u a ≤ s.sells u a • UNMATCHED_TOLERANCE := by
  have hstart : LotsFollow u a db := by
    intro e he
    simp [Db.postedEntries, h.journalEntries] at he
  obtain ⟨hi, hm⟩ := runCalls_keeps (LotsFollow.outcome (u := u) (a := a)) calls h.inv hstart
  exact inLots_within hi hm

/-- Four coins to the other wallet, with a fee of one coin. -/
def demoMove : TransferCmd :=
  { entryDate := 2, description := "انتقال", fromAccountId := 12, toAccountId := 16, assetId := 3
    quantity := .ofInt 4, unitPrice := some (.ofInt 100), feeBase := .ofInt 100
    feeAccountId := some 14, userId := some 1 }

theorem demo_inLots :
    let s := runCalls [⟨{ entryId := 1 }, .buy (demoTrade 10 1000)⟩] demo
    0 ≤ s.inLots 1 3 + s.moved 1 3 - s.held 1 3 ∧
      s.inLots 1 3 + s.moved 1 3 - s.held 1 3 ≤ s.sells 1 3 • UNMATCHED_TOLERANCE :=
  runCalls_inLots demo_empty _ 1 3

/-- Buy ten coins and move four: the fee leaves the accounts, not the lots. -/
theorem lots_keep_transfer_fee :
    let s := runCalls [⟨{ entryId := 1 }, .buy (demoTrade 10 1000)⟩,
      ⟨{ entryId := 2 }, .transfer demoMove⟩] demo
    s.inLots 1 3 = .ofInt 10 ∧ s.held 1 3 = .ofInt 9 ∧
      ¬ (s.inLots 1 3 - s.held 1 3).abs ≤ s.sells 1 3 • UNMATCHED_TOLERANCE := by
  refine ⟨?_, ?_, ?_⟩ <;> decide

end Pwos
