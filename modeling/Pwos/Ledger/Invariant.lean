import Pwos.Ledger.Recorded

/-!
# The ledger as a transition system

Above the code: the ledger changes by recording an entry or by reversing a posted one
(`LedgerStep`). Every accepted call of the code is such a step. What holds of the tables
after any number of steps is proved here once, for every kind of run.
-/

namespace Pwos

/-- An entry with its rows that may be recorded. -/
structure Recordable (db : Db) (e : JournalEntry) (ps : List Posting) (ls : List Lot)
    (cs : List LotConsumption) : Prop where
  insertable : db.EntryInsertable e
  posted : e.status = .posted
  original : e.reversalOf = none
  postings : ∀ p ∈ ps, p.entryId = e.id
  two : 2 ≤ ps.length
  nonzero : ∀ p ∈ ps, p.quantity ≠ 0
  balanced : (ps.map Posting.baseValue).sum.abs ≤ TOLERANCE
  lots : db.LotsInsertable ls
  opened : ∀ l ∈ ls, l.openEntryId = e.id ∧ l.userId = e.userId ∧
    l.qtyRemaining = l.qtyOpened ∧ 0 < l.qtyOpened
  consumptions : ∀ c ∈ cs, c.entryId = e.id ∧ 0 < c.quantity ∧ ∃ l ∈ db.lots ++ ls, l.id = c.lotId
  covered : ∀ l ∈ db.lots ++ ls, ∀ c ∈ cs, c.lotId = l.id → taken cs l.id ≤ l.qtyRemaining

/-- An entry that may be reversed now. -/
structure Reversible (db : Db) (env : Env) (e : JournalEntry) : Prop where
  entry : db.findEntry e.id = some e
  posted : e.status = .posted
  untouched : ∀ l ∈ db.lotsOpenedBy e.id, l.qtyOpened ≤ l.qtyRemaining
  insertable : db.EntryInsertable (e.reversalRow env.entryId env.today)

/-- Accounts are added for counter-legs; nothing else of the ledger changes. -/
def Db.withAccounts (db : Db) (accounts : List Account) : Db :=
  { db with accounts := db.accounts ++ accounts }

inductive LedgerStep : Db → Db → Prop where
  | provision {db : Db} (accounts : List Account) : LedgerStep db (db.withAccounts accounts)
  | record {db : Db} {e : JournalEntry} {ps : List Posting} {ls : List Lot}
      {cs : List LotConsumption} (h : Recordable db e ps ls cs) :
      LedgerStep db (db.recorded e ps ls cs)
  | reverse {db : Db} {env : Env} {e : JournalEntry} (h : Reversible db env e) :
      LedgerStep db (db.reversed env e)

/-! ## The code takes such steps -/

theorem taken_of_nodup {cs : List LotConsumption} (hnd : (cs.map (·.lotId)).Nodup)
    {c : LotConsumption} (hc : c ∈ cs) : taken cs c.lotId = c.quantity := by
  induction cs with
  | nil => cases hc
  | cons d ds ih =>
    obtain ⟨hd, hnd⟩ := List.nodup_cons.mp hnd
    rw [taken_cons]
    rcases List.mem_cons.mp hc with rfl | hc
    · rw [if_pos rfl, taken_eq_zero, add_zero]
      exact fun x hx h => hd (List.mem_map.mpr ⟨x, hx, h⟩)
    · rw [if_neg, zero_add, ih hnd hc]
      exact fun h => hd (List.mem_map.mpr ⟨c, hc, h.symm⟩)

theorem Posted.recordable {env : Env} {input : PostEntryInput} {userId : Option Uuid}
    {db db' : Db} (hnd : (db.lots.map (·.id)).Nodup) (h : Posted env input userId db db') :
    Recordable db (input.entryRow env.entryId userId)
      (input.postings.map (DraftPosting.row env.entryId)) (input.newLots env userId)
      (input.consumptions env userId db) := by
  have hw := h.written
  have hnd' := withLots_nodup hnd hw.lots
  set as := input.allocations env userId (db.withLots (input.newLots env userId)) with has
  -- without a sale nothing is allocated, so facts about allocations come with their sale
  have hclose : ∀ a ∈ as, ∃ c, input.closeLot = some c := by
    intro a ha
    cases hc : input.closeLot with
    | none => simp [has, PostEntryInput.allocations, hc] at ha
    | some c => exact ⟨c, rfl⟩
  refine ⟨hw.entry, rfl, rfl, ?_, ?_, ?_, ?_, hw.lots, ?_, ?_, ?_⟩
  · intro p hp
    obtain ⟨q, _, rfl⟩ := List.mem_map.mp hp
    rfl
  · simpa using h.balanced.two
  · intro p hp
    obtain ⟨q, hq, rfl⟩ := List.mem_map.mp hp
    exact h.balanced.nonzero q hq
  · rw [List.map_map]
    exact h.balanced.sum
  · exact fun l hl => mem_lotRows hl
  · intro c hc
    obtain ⟨a, ha, rfl⟩ := List.mem_map.mp hc
    obtain ⟨k, hk⟩ := hclose a ha
    obtain ⟨l, hl, hid, -, hpos, -⟩ := (hw.drawn k hk).lot a ha
    exact ⟨rfl, hpos, l, hl, hid⟩
  · intro l hl c hc hid
    obtain ⟨a, ha, rfl⟩ := List.mem_map.mp hc
    obtain ⟨k, hk⟩ := hclose a ha
    obtain ⟨m, hm, hmid, -, -, hle⟩ := (hw.drawn k hk).lot a ha
    have hml : m = l := List.inj_on_of_nodup_map hnd' hm hl (hmid.trans hid)
    have hids : ((as.map (LotAllocation.row env.entryId)).map (·.lotId)).Nodup := by
      rw [List.map_map]; exact (hw.drawn k hk).nodup
    rw [← hid]
    exact (taken_of_nodup hids hc).trans_le (hml ▸ hle)

theorem Posted.step {env : Env} {input : PostEntryInput} {userId : Option Uuid} {db db' : Db}
    (hnd : (db.lots.map (·.id)).Nodup) (h : Posted env input userId db db') :
    LedgerStep db db' := by
  rw [h.written.result]
  exact .record (h.recordable hnd)

theorem reverseEntry_ok {env : Env} {entryId : Uuid} {db db' : Db} {r : PostResult}
    (hnd : (db.lots.map (·.id)).Nodup) :
    (reverseEntry env entryId).run db = .ok (r, db') ↔
      ∃ e, e.id = entryId ∧ Reversible db env e ∧ db' = db.reversed env e ∧
        r = ⟨env.entryId, false⟩ := by
  rw [reverseEntry_run hnd]
  constructor
  · intro h
    split at h
    · cases h
    rename_i e hf
    have hid : e.id = entryId := by simpa using List.find?_some hf
    subst hid
    split at h
    · cases h
    rename_i hvoid
    split at h
    · cases h
    rename_i hsold
    split at h <;> cases h
    refine ⟨e, rfl, ⟨hf, ?_, ?_, ‹_›⟩, rfl, rfl⟩
    · cases hs : e.status <;> simp_all
    · exact fun l hl => not_lt.mp fun hlt => hsold ⟨l, hl, hlt⟩
  · rintro ⟨e, rfl, h, rfl, rfl⟩
    have hsold : ¬ ∃ l ∈ db.lotsOpenedBy e.id, l.qtyRemaining < l.qtyOpened :=
      fun ⟨l, hl, hlt⟩ => not_lt.mpr (h.untouched l hl) hlt
    simp only [h.entry, h.posted, reduceCtorEq, if_false, if_neg hsold, if_pos h.insertable]

/-! ## Identities and references -/

structure WellFormed (db : Db) : Prop where
  entryIds : (db.journalEntries.map (·.id)).Nodup
  lotIds : (db.lots.map (·.id)).Nodup
  entryUser : ∀ e ∈ db.journalEntries, ∀ u ∈ e.userId, u ∈ db.users
  postingEntry : ∀ p ∈ db.postings, ∃ e ∈ db.journalEntries, e.id = p.entryId
  lotEntry : ∀ l ∈ db.lots, ∃ e ∈ db.journalEntries, e.id = l.openEntryId ∧ e.userId = l.userId
  lotAsset : ∀ l ∈ db.lots, ∃ a ∈ db.assets, a.id = l.assetId
  consumptionEntry : ∀ c ∈ db.lotConsumptions, db.Posted c.entryId
  consumptionLot : ∀ c ∈ db.lotConsumptions, ∃ l ∈ db.lots, l.id = c.lotId
  consumptionPos : ∀ c ∈ db.lotConsumptions, 0 < c.quantity

theorem Db.EmptyLedger.wellFormed {db : Db} (h : db.EmptyLedger) : WellFormed db := by
  obtain ⟨h₁, h₂, h₃, h₄⟩ := h
  constructor <;> simp [h₁, h₂, h₃, h₄]

section Steps
variable {db : Db} {e : JournalEntry} {ps : List Posting} {ls : List Lot}
  {cs : List LotConsumption} {env : Env}

theorem recorded_posted (h : Recordable db e ps ls cs) (i : Uuid) :
    (db.recorded e ps ls cs).Posted i ↔ db.Posted i ∨ i = e.id := by
  simp only [Db.Posted, Db.recorded, List.mem_append, List.mem_singleton]
  constructor
  · rintro ⟨f, hf | rfl, hid, hs⟩
    · exact .inl ⟨f, hf, hid, hs⟩
    · exact .inr hid.symm
  · rintro (⟨f, hf, hid, hs⟩ | rfl)
    · exact ⟨f, .inl hf, hid, hs⟩
    · exact ⟨e, .inr rfl, rfl, h.posted⟩

theorem reversed_posted (i : Uuid) :
    (db.reversed env e).Posted i ↔ db.Posted i ∧ i ≠ e.id := by
  simp only [Db.Posted, Db.reversed, List.mem_append, List.mem_map, List.mem_singleton]
  constructor
  · rintro ⟨f, ⟨g, hg, rfl⟩ | rfl, hid, hs⟩
    · rw [voided_status] at hs
      rw [voided_id] at hid
      exact ⟨⟨g, hg, hid, hs.1⟩, hid ▸ hs.2⟩
    · cases hs
  · rintro ⟨⟨f, hf, hid, hs⟩, hne⟩
    exact ⟨f.voided e.id, .inl ⟨f, hf, rfl⟩, by rw [voided_id, hid],
      (voided_status _ _).mpr ⟨hs, hid ▸ hne⟩⟩

theorem mem_recorded_lots {l : Lot} (h : l ∈ (db.recorded e ps ls cs).lots) :
    ∃ m ∈ db.lots ++ ls, l = m.adjust fun i => -taken cs i := by
  obtain ⟨m, hm, rfl⟩ := List.mem_map.mp h
  exact ⟨m, hm, rfl⟩

theorem mem_reversed_lots {l : Lot} (h : l ∈ (db.reversed env e).lots) :
    ∃ m ∈ db.lots, l = m.undone e.id (db.consumptionsOf e.id) := by
  obtain ⟨m, hm, rfl⟩ := List.mem_map.mp h
  exact ⟨m, hm, rfl⟩

/-- Whoever refers to an entry refers to an old one. -/
theorem ne_of_entry_exists (h : Recordable db e ps ls cs) {i : Uuid}
    (hi : ∃ f ∈ db.journalEntries, f.id = i) : i ≠ e.id := by
  obtain ⟨f, hf, rfl⟩ := hi
  exact h.insertable.1 f hf

theorem WellFormed.record (hw : WellFormed db) (h : Recordable db e ps ls cs) :
    WellFormed (db.recorded e ps ls cs) where
  entryIds := by
    simp only [Db.recorded, List.map_append, List.map_cons, List.map_nil]
    refine List.nodup_append.mpr ⟨hw.entryIds, by simp, ?_⟩
    rintro i hi j hj rfl
    obtain ⟨f, hf, hfi⟩ := List.mem_map.mp hi
    exact h.insertable.1 f hf (hfi.trans (List.mem_singleton.mp hj))
  lotIds := by
    simpa [Db.recorded, Function.comp_def, Db.withLots] using withLots_nodup hw.lotIds h.lots
  entryUser f hf := by
    rcases List.mem_append.mp hf with hf | hf
    · exact hw.entryUser f hf
    · exact List.mem_singleton.mp hf ▸ h.insertable.2.2
  postingEntry p hp := by
    rcases List.mem_append.mp hp with hp | hp
    · obtain ⟨f, hf, hid⟩ := hw.postingEntry p hp
      exact ⟨f, List.mem_append_left _ hf, hid⟩
    · exact ⟨e, List.mem_append_right _ (by simp), (h.postings p hp).symm⟩
  lotEntry l hl := by
    obtain ⟨m, hm, rfl⟩ := mem_recorded_lots hl
    rcases List.mem_append.mp hm with hm | hm
    · obtain ⟨f, hf, hid⟩ := hw.lotEntry m hm
      exact ⟨f, List.mem_append_left _ hf, hid⟩
    · obtain ⟨hid, huser, -⟩ := h.opened m hm
      exact ⟨e, List.mem_append_right _ (by simp), hid.symm, huser.symm⟩
  lotAsset l hl := by
    obtain ⟨m, hm, rfl⟩ := mem_recorded_lots hl
    rcases List.mem_append.mp hm with hm | hm
    · exact hw.lotAsset m hm
    · exact h.lots.asset m hm
  consumptionEntry c hc := by
    rw [recorded_posted h]
    rcases List.mem_append.mp hc with hc | hc
    · exact .inl (hw.consumptionEntry c hc)
    · exact .inr (h.consumptions c hc).1
  consumptionLot c hc := by
    have hlot : ∃ l ∈ db.lots ++ ls, l.id = c.lotId := by
      rcases List.mem_append.mp hc with hc | hc
      · obtain ⟨l, hl, hid⟩ := hw.consumptionLot c hc
        exact ⟨l, List.mem_append_left _ hl, hid⟩
      · exact (h.consumptions c hc).2.2
    obtain ⟨l, hl, hid⟩ := hlot
    exact ⟨_, List.mem_map_of_mem hl, hid⟩
  consumptionPos c hc := by
    rcases List.mem_append.mp hc with hc | hc
    · exact hw.consumptionPos c hc
    · exact (h.consumptions c hc).2.1

/-- An old lot was opened by an old entry. -/
theorem ne_of_lot (h : Recordable db e ps ls cs) (hw : WellFormed db) {l : Lot}
    (hl : l ∈ db.lots) : l.openEntryId ≠ e.id := by
  obtain ⟨f, hf, hid, -⟩ := hw.lotEntry l hl
  exact ne_of_entry_exists h ⟨f, hf, hid⟩

theorem WellFormed.reverse (hw : WellFormed db) (h : Reversible db env e) :
    WellFormed (db.reversed env e) where
  entryIds := by
    simp only [Db.reversed, List.map_append, List.map_map, Function.comp_def, voided_id,
      List.map_cons, List.map_nil]
    refine List.nodup_append.mpr ⟨hw.entryIds, by simp, ?_⟩
    rintro i hi j hj rfl
    obtain ⟨f, hf, hfi⟩ := List.mem_map.mp hi
    exact h.insertable.1 f hf (hfi.trans (List.mem_singleton.mp hj))
  lotIds := by simpa [Db.reversed, Function.comp_def] using hw.lotIds
  entryUser f hf := by
    rcases List.mem_append.mp hf with hf | hf
    · obtain ⟨g, hg, rfl⟩ := List.mem_map.mp hf
      rw [voided_userId]
      exact hw.entryUser g hg
    · exact List.mem_singleton.mp hf ▸ h.insertable.2.2
  postingEntry p hp := by
    rcases List.mem_append.mp hp with hp | hp
    · obtain ⟨f, hf, hid⟩ := hw.postingEntry p hp
      exact ⟨_, List.mem_append_left _ (List.mem_map_of_mem hf), by rw [voided_id, hid]⟩
    · obtain ⟨q, _, rfl⟩ := List.mem_map.mp hp
      exact ⟨_, List.mem_append_right _ (List.mem_singleton_self _), rfl⟩
  lotEntry l hl := by
    obtain ⟨m, hm, rfl⟩ := mem_reversed_lots hl
    obtain ⟨f, hf, hid, huser⟩ := hw.lotEntry m hm
    refine ⟨_, List.mem_append_left _ (List.mem_map_of_mem hf), ?_, ?_⟩
    · rw [voided_id, hid]; rfl
    · rw [voided_userId, huser]; rfl
  lotAsset l hl := by
    obtain ⟨m, hm, rfl⟩ := mem_reversed_lots hl
    exact hw.lotAsset m hm
  consumptionEntry c hc := by
    obtain ⟨hc, hne⟩ := List.mem_filter.mp hc
    rw [reversed_posted]
    exact ⟨hw.consumptionEntry c hc, by simpa using hne⟩
  consumptionLot c hc := by
    obtain ⟨l, hl, hid⟩ := hw.consumptionLot c (List.mem_of_mem_filter hc)
    exact ⟨_, List.mem_map_of_mem hl, hid⟩
  consumptionPos c hc := hw.consumptionPos c (List.mem_of_mem_filter hc)

theorem WellFormed.provision (hw : WellFormed db) (accounts : List Account) :
    WellFormed (db.withAccounts accounts) :=
  ⟨hw.entryIds, hw.lotIds, hw.entryUser, hw.postingEntry, hw.lotEntry, hw.lotAsset,
    hw.consumptionEntry, hw.consumptionLot, hw.consumptionPos⟩

theorem WellFormed.step {db' : Db} (hw : WellFormed db) (h : LedgerStep db db') :
    WellFormed db' := by
  cases h with
  | provision accounts => exact hw.provision accounts
  | record h => exact hw.record h
  | reverse h => exact hw.reverse h

end Steps

/-! ## Lots -/

/-- What is opened is either still there or was sold; a lot of a void entry is empty. -/
structure LotBook (db : Db) : Prop where
  live : ∀ l ∈ db.lots, db.Posted l.openEntryId →
    l.qtyOpened = l.qtyRemaining + db.consumed l.id
  void : ∀ l ∈ db.lots, ¬ db.Posted l.openEntryId →
    l.qtyRemaining = 0 ∧ ∀ c ∈ db.lotConsumptions, c.lotId ≠ l.id
  nonneg : ∀ l ∈ db.lots, 0 ≤ l.qtyRemaining
  opened : ∀ l ∈ db.lots, 0 < l.qtyOpened

theorem Db.EmptyLedger.lotBook {db : Db} (h : db.EmptyLedger) : LotBook db := by
  constructor <;> simp [h.lots]

section LotSteps
variable {db : Db} {e : JournalEntry} {ps : List Posting} {ls : List Lot}
  {cs : List LotConsumption} {env : Env}

theorem consumed_recorded (i : Uuid) :
    (db.recorded e ps ls cs).consumed i = db.consumed i + taken cs i :=
  taken_append db.lotConsumptions cs i

/-- The consumptions of an entry and those of the others. -/
theorem consumed_reversed (i : Uuid) :
    db.consumed i = taken (db.consumptionsOf e.id) i + (db.reversed env e).consumed i := by
  simp only [consumed_eq_taken, Db.reversed, Db.consumptionsOf]
  induction db.lotConsumptions with
  | nil => simp
  | cons c cs ih =>
    by_cases h : c.entryId = e.id
    · simp only [List.filter_cons, h, decide_true, if_true, ne_eq, not_true_eq_false, decide_false,
        Bool.false_eq_true, if_false, taken_cons, ih, add_assoc]
    · simp only [List.filter_cons, h, decide_false, Bool.false_eq_true, if_false, ne_eq,
        not_false_eq_true, decide_true, if_true, taken_cons, ih]
      exact add_left_comm _ _ _

theorem consumed_nonneg (hw : WellFormed db) (i : Uuid) : 0 ≤ db.consumed i :=
  taken_nonneg hw.consumptionPos i

/-- A sale never takes more than remains. -/
theorem taken_le (hb : LotBook db) (h : Recordable db e ps ls cs) {m : Lot}
    (hm : m ∈ db.lots ++ ls) : taken cs m.id ≤ m.qtyRemaining := by
  by_cases hc : ∃ c ∈ cs, c.lotId = m.id
  · obtain ⟨c, hc, hid⟩ := hc
    exact h.covered m hm c hc hid
  · rw [taken_eq_zero fun c hcs hid => hc ⟨c, hcs, hid⟩]
    rcases List.mem_append.mp hm with hm | hm
    · exact hb.nonneg m hm
    · rw [(h.opened m hm).2.2.1]
      exact (h.opened m hm).2.2.2.le

/-- Nothing was sold yet from a lot that is being opened. -/
theorem consumed_new (hw : WellFormed db) (h : Recordable db e ps ls cs) {m : Lot}
    (hm : m ∈ ls) : db.consumed m.id = 0 := by
  refine taken_eq_zero fun c hc hid => ?_
  obtain ⟨l, hl, hlid⟩ := hw.consumptionLot c hc
  exact h.lots.fresh m hm l hl (hlid.trans hid)

theorem LotBook.record (hw : WellFormed db) (hb : LotBook db) (h : Recordable db e ps ls cs) :
    LotBook (db.recorded e ps ls cs) where
  live l hl hposted := by
    obtain ⟨m, hm, rfl⟩ := mem_recorded_lots hl
    have hopened : m.qtyOpened = m.qtyRemaining + db.consumed m.id := by
      rcases List.mem_append.mp hm with hm | hm
      · refine hb.live m hm (((recorded_posted h _).mp hposted).resolve_right ?_)
        rw [adjust_openEntryId]
        exact ne_of_lot h hw hm
      · rw [consumed_new hw h hm, add_zero, (h.opened m hm).2.2.1]
    rw [consumed_recorded, adjust_qtyOpened, adjust_qtyRemaining, adjust_id, hopened]
    abel
  void l hl hvoid := by
    obtain ⟨m, hm, rfl⟩ := mem_recorded_lots hl
    rw [recorded_posted h, not_or] at hvoid
    have hold : m ∈ db.lots :=
      (List.mem_append.mp hm).resolve_right fun hm => hvoid.2 (h.opened m hm).1
    obtain ⟨hzero, hnone⟩ := hb.void m hold hvoid.1
    have hsold := lotId_ne_of_taken_eq_zero (fun c hc => (h.consumptions c hc).2.1)
      ((taken_le hb h hm).trans_eq hzero)
    refine ⟨?_, fun c hc => ?_⟩
    · rw [adjust_qtyRemaining, taken_eq_zero hsold, hzero, neg_zero, add_zero]
    · rcases List.mem_append.mp hc with hc | hc
      · exact hnone c hc
      · exact hsold c hc
  nonneg l hl := by
    obtain ⟨m, hm, rfl⟩ := mem_recorded_lots hl
    rw [adjust_qtyRemaining, ← sub_eq_add_neg]
    exact sub_nonneg.mpr (taken_le hb h hm)
  opened l hl := by
    obtain ⟨m, hm, rfl⟩ := mem_recorded_lots hl
    rcases List.mem_append.mp hm with hm | hm
    · exact hb.opened m hm
    · exact (h.opened m hm).2.2.2

/-- The lots of an entry that may be reversed have no consumption. -/
theorem lotId_ne_of_reversible (hw : WellFormed db) (hb : LotBook db) (h : Reversible db env e)
    {m : Lot} (hm : m ∈ db.lots) (hopen : m.openEntryId = e.id) :
    ∀ c ∈ db.lotConsumptions, c.lotId ≠ m.id := by
  have he : db.Posted m.openEntryId :=
    ⟨e, List.mem_of_find?_eq_some h.entry, hopen.symm, h.posted⟩
  have huntouched := h.untouched m (List.mem_filter.mpr ⟨hm, by simpa using hopen⟩)
  rw [hb.live m hm he, add_le_iff_nonpos_right] at huntouched
  exact lotId_ne_of_taken_eq_zero hw.consumptionPos huntouched

theorem LotBook.reverse (hw : WellFormed db) (hb : LotBook db) (h : Reversible db env e) :
    LotBook (db.reversed env e) where
  live l hl hposted := by
    obtain ⟨m, hm, rfl⟩ := mem_reversed_lots hl
    rw [reversed_posted, undone_openEntryId] at hposted
    have hsplit : db.consumed m.id = taken (db.consumptionsOf e.id) m.id +
        (db.reversed env e).consumed m.id := consumed_reversed m.id
    rw [undone_qtyRemaining, if_neg hposted.2, undone_qtyOpened, undone_id,
      hb.live m hm hposted.1, hsplit, add_assoc]
  void l hl hvoid := by
    obtain ⟨m, hm, rfl⟩ := mem_reversed_lots hl
    have hempty : (if m.openEntryId = e.id then 0 else m.qtyRemaining) = 0 ∧
        ∀ c ∈ db.lotConsumptions, c.lotId ≠ m.id := by
      by_cases hopen : m.openEntryId = e.id
      · exact ⟨if_pos hopen, lotId_ne_of_reversible hw hb h hm hopen⟩
      · rw [if_neg hopen]
        exact hb.void m hm fun hp => hvoid ((reversed_posted _).mpr ⟨hp, hopen⟩)
    refine ⟨?_, fun c hc => hempty.2 c (List.mem_of_mem_filter hc)⟩
    rw [undone_qtyRemaining, hempty.1, zero_add]
    exact taken_eq_zero fun c hc => hempty.2 c (List.mem_of_mem_filter hc)
  nonneg l hl := by
    obtain ⟨m, hm, rfl⟩ := mem_reversed_lots hl
    rw [undone_qtyRemaining]
    refine add_nonneg ?_ (taken_nonneg (fun c hc => hw.consumptionPos c (List.mem_of_mem_filter hc)) _)
    split
    · exact le_rfl
    · exact hb.nonneg m hm
  opened l hl := by
    obtain ⟨m, hm, rfl⟩ := mem_reversed_lots hl
    exact hb.opened m hm

end LotSteps

theorem LotBook.provision {db : Db} (hb : LotBook db) (accounts : List Account) :
    LotBook (db.withAccounts accounts) := ⟨hb.live, hb.void, hb.nonneg, hb.opened⟩

/-- The tables are well formed and the lots add up. -/
structure LedgerInv (db : Db) : Prop extends WellFormed db, LotBook db

theorem Db.EmptyLedger.inv {db : Db} (h : db.EmptyLedger) : LedgerInv db :=
  ⟨h.wellFormed, h.lotBook⟩

/-- The tables the books are made of are the same. -/
structure SameBooks (db db' : Db) : Prop where
  users : db'.users = db.users
  assets : db'.assets = db.assets
  journalEntries : db'.journalEntries = db.journalEntries
  postings : db'.postings = db.postings
  lots : db'.lots = db.lots
  lotConsumptions : db'.lotConsumptions = db.lotConsumptions

theorem LedgerInv.same {db db' : Db} (h : LedgerInv db) (hs : SameBooks db db') :
    LedgerInv db' := by
  cases db'
  obtain ⟨rfl, rfl, rfl, rfl, rfl, rfl⟩ := hs
  exact ⟨⟨h.entryIds, h.lotIds, h.entryUser, h.postingEntry, h.lotEntry, h.lotAsset,
    h.consumptionEntry, h.consumptionLot, h.consumptionPos⟩,
    ⟨h.live, h.void, h.nonneg, h.opened⟩⟩

theorem LedgerInv.step {db db' : Db} (hi : LedgerInv db) (h : LedgerStep db db') :
    LedgerInv db' := by
  refine ⟨hi.toWellFormed.step h, ?_⟩
  cases h with
  | provision accounts => exact hi.toLotBook.provision accounts
  | record h => exact hi.toLotBook.record hi.toWellFormed h
  | reverse h => exact hi.toLotBook.reverse hi.toWellFormed h

/-! ## Lots of void entries -/

/-- Some lot that `sel` selects was opened by an entry that is void now. -/
def Db.HasVoidLot (sel : Lot → Prop) (db : Db) : Prop :=
  ∃ l ∈ db.lots, sel l ∧ ¬ db.Posted l.openEntryId

section VoidLots
variable {sel : Lot → Prop} (hsel : ∀ l qty, sel (l.setRemaining qty) ↔ sel l)
  {db : Db} {e : JournalEntry} {ps : List Posting} {ls : List Lot}
  {cs : List LotConsumption} {env : Env}
include hsel

/-- Recording an entry voids no lot. -/
theorem hasVoidLot_recorded (hw : WellFormed db) (h : Recordable db e ps ls cs) :
    (db.recorded e ps ls cs).HasVoidLot sel ↔ db.HasVoidLot sel := by
  have hadjust : ∀ l δ, sel (Lot.adjust δ l) ↔ sel l := fun l δ => hsel l (l.qtyRemaining + δ l.id)
  constructor
  · rintro ⟨l, hl, hs, hv⟩
    obtain ⟨m, hm, rfl⟩ := mem_recorded_lots hl
    rw [recorded_posted h, not_or] at hv
    have hold := (List.mem_append.mp hm).resolve_right fun hm => hv.2 (h.opened m hm).1
    exact ⟨m, hold, (hadjust _ _).mp hs, hv.1⟩
  · rintro ⟨l, hl, hs, hv⟩
    refine ⟨_, List.mem_map_of_mem (List.mem_append_left _ hl), (hadjust _ _).mpr hs, ?_⟩
    rw [recorded_posted h, not_or]
    rw [adjust_openEntryId]
    exact ⟨hv, ne_of_lot h hw hl⟩

/-- A reversal voids the lots its entry opened. -/
theorem hasVoidLot_reversed :
    (db.reversed env e).HasVoidLot sel ↔
      db.HasVoidLot sel ∨ ∃ l ∈ db.lotsOpenedBy e.id, sel l := by
  have hundone : ∀ l, sel (Lot.undone e.id (db.consumptionsOf e.id) l) ↔ sel l := fun l => hsel l _
  constructor
  · rintro ⟨l, hl, hs, hv⟩
    obtain ⟨m, hm, rfl⟩ := mem_reversed_lots hl
    rw [reversed_posted, not_and_not_right] at hv
    rw [hundone] at hs
    by_cases hp : db.Posted m.openEntryId
    · exact .inr ⟨m, List.mem_filter.mpr ⟨hm, by simpa using hv hp⟩, hs⟩
    · exact .inl ⟨m, hm, hs, hp⟩
  · rintro (⟨l, hl, hs, hv⟩ | ⟨l, hl, hs⟩)
    · exact ⟨_, List.mem_map_of_mem hl, (hundone l).mpr hs,
        fun hp => hv ((reversed_posted _).mp hp).1⟩
    · obtain ⟨hl, hopen⟩ := List.mem_filter.mp hl
      refine ⟨_, List.mem_map_of_mem hl, (hundone l).mpr hs, fun hp => ?_⟩
      exact ((reversed_posted _).mp hp).2 (by simpa using hopen)

end VoidLots

end Pwos
