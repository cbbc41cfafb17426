import Pwos.Ledger.Journal

/-!
# Undoing an entry

A reversal takes back what its entry did and nothing else. The run with the entry is
compared with the run of the same calls without it (`Db.without`): as long as the later
calls are independent of the entry, one is the other with the entry struck out, and the
reversal strikes it out for every reader of live rows.
-/

namespace Pwos

/-- The database as if the entry had not been recorded. -/
def Db.without (db : Db) (i : Uuid) : Db :=
  { db with
    journalEntries := db.journalEntries.filter (·.id ≠ i)
    postings := db.postings.filter (·.entryId ≠ i)
    lots := (db.lots.filter (·.openEntryId ≠ i)).map (Lot.adjust (taken (db.consumptionsOf i)))
    lotConsumptions := db.lotConsumptions.filter (·.entryId ≠ i) }

/-- The lots the entry opened and those it sold from. -/
def Db.entryLots (db : Db) (i : Uuid) : List Uuid :=
  (db.lotsOpenedBy i).map (·.id) ++ (db.consumptionsOf i).map (·.lotId)

/-- The call changes none of these lots. -/
def LedgerOp.Leaves (op : LedgerOp) (ids : List Uuid) (db : Db) : Prop :=
  ∀ j ∈ ids, (op.exec db).findLot j = db.findLot j

instance (op : LedgerOp) (ids : List Uuid) (db : Db) : Decidable (op.Leaves ids db) :=
  inferInstanceAs (Decidable (∀ j ∈ ids, _))

/-- A call that is accepted with the entry (in `a`) and without it (in `b`), is not a retry
of the entry, and changes the lots of the entry in neither run. -/
structure Independent (i : Uuid) (op : LedgerOp) (a b : Db) : Prop where
  accepted : ¬ op.program.Refused a
  acceptedWithout : ¬ op.program.Refused b
  noRetry : op.program.answer a ≠ .ok ⟨i, true⟩
  leaves : op.Leaves (a.entryLots i) a
  leavesWithout : op.Leaves (a.entryLots i) b

/-- Each call is independent of the entry when its turn comes. -/
def IndependentRun (i : Uuid) : List LedgerOp → Db → Db → Prop
  | [], _, _ => True
  | op :: ops, a, b => Independent i op a b ∧ IndependentRun i ops (op.exec a) (op.exec b)

/-- After the reversal of entry `i` the live figures are those of `b`. -/
structure Undone (i : Uuid) (db b : Db) : Prop where
  quantity : ∀ userId accountId assetId,
    db.nativeBalance userId accountId assetId = b.nativeBalance userId accountId assetId
  baseValue : ∀ userId accountId, db.bookBalance userId accountId = b.bookBalance userId accountId
  lots : db.lots.filter (·.openEntryId ≠ i) = b.lots
  opened : ∀ l ∈ db.lotsOpenedBy i, l.qtyRemaining = 0
  consumptions : db.lotConsumptions = b.lotConsumptions

/-! ## Striking out an entry -/

theorem filter_append_nil {α : Type} {p : α → Bool} {xs ys : List α} (hy : ∀ y ∈ ys, ¬ p y) :
    (xs ++ ys).filter p = xs.filter p := by
  rw [List.filter_append, List.filter_eq_nil_iff.mpr hy, List.append_nil]

theorem filter_append_left {α : Type} {p : α → Bool} {xs ys : List α} (hx : ∀ x ∈ xs, p x)
    (hy : ∀ y ∈ ys, ¬ p y) : (xs ++ ys).filter p = xs := by
  rw [filter_append_nil hy, List.filter_eq_self.mpr hx]

theorem filter_append_keep {α : Type} {p : α → Bool} {xs ys : List α} (hy : ∀ y ∈ ys, p y) :
    (xs ++ ys).filter p = xs.filter p ++ ys := by
  rw [List.filter_append, List.filter_eq_self.mpr hy]

theorem adjust_adjust (δ ε : Uuid → Decimal) (l : Lot) :
    (l.adjust δ).adjust ε = l.adjust fun i => δ i + ε i := by
  simp [Lot.adjust, add_assoc]

section Without
variable {db : Db} {e : JournalEntry} {ps : List Posting} {ls : List Lot}
  {cs : List LotConsumption} {env : Env} {i : Uuid}

theorem consumptionsOf_without {j : Uuid} (h : j ≠ i) :
    (db.without i).consumptionsOf j = db.consumptionsOf j := by
  simp only [Db.consumptionsOf, Db.without, List.filter_filter]
  exact List.filter_congr fun c _ => by grind

theorem postingsOf_without {j : Uuid} (h : j ≠ i) :
    (db.without i).postingsOf j = db.postingsOf j := by
  simp only [Db.postingsOf, Db.without, List.filter_filter]
  exact List.filter_congr fun p _ => by grind

theorem findEntry_without {j : Uuid} (h : j ≠ i) :
    (db.without i).findEntry j = db.findEntry j := by
  simp only [Db.findEntry, Db.without, List.find?_filter]
  congr 1
  funext f
  grind

/-- Striking out the entry just recorded leads back. -/
theorem without_recorded_self (hw : WellFormed db) (h : Recordable db e ps ls cs) :
    (db.recorded e ps ls cs).without e.id = db := by
  have hentries : (db.journalEntries ++ [e]).filter (·.id ≠ e.id) = db.journalEntries :=
    filter_append_left (by simpa using h.insertable.1) (by simp)
  have hpostings : (db.postings ++ ps).filter (·.entryId ≠ e.id) = db.postings := by
    refine filter_append_left (fun p hp => ?_) fun p hp => by simp [h.postings p hp]
    obtain ⟨f, hf, hid⟩ := hw.postingEntry p hp
    simpa using ne_of_entry_exists h ⟨f, hf, hid⟩
  have hcons : (db.lotConsumptions ++ cs).filter (·.entryId ≠ e.id) = db.lotConsumptions := by
    refine filter_append_left (fun c hc => ?_) fun c hc => by simp [(h.consumptions c hc).1]
    obtain ⟨f, hf, hid, -⟩ := hw.consumptionEntry c hc
    simpa using ne_of_entry_exists h ⟨f, hf, hid⟩
  have hlots : (db.lots ++ ls).filter (·.openEntryId ≠ e.id) = db.lots :=
    filter_append_left (fun l hl => by simpa using ne_of_lot h hw hl)
      fun l hl => by simp [(h.opened l hl).1]
  have hback : ((db.recorded e ps ls cs).lots.filter (·.openEntryId ≠ e.id)).map
      (Lot.adjust (taken cs)) = db.lots := by
    simp only [Db.recorded, List.filter_map, List.map_map]
    change ((db.lots ++ ls).filter (·.openEntryId ≠ e.id)).map _ = _
    rw [hlots]
    refine (List.map_congr_left fun l _ => ?_).trans (List.map_id' _)
    rw [Function.comp_apply, adjust_adjust]
    exact adjust_of_eq_zero _ _ (neg_add_cancel _)
  rw [Db.without, recorded_consumptionsOf_new hw h, hback]
  simp only [Db.recorded, hentries, hpostings, hcons]

theorem adjust_comm (δ ε : Uuid → Decimal) (l : Lot) :
    (l.adjust δ).adjust ε = (l.adjust ε).adjust δ := by
  simp only [adjust_adjust, add_comm]

/-- Nothing was sold yet from lots that are being opened. -/
theorem taken_new_lot (hw : WellFormed db) (h : Recordable db e ps ls cs) (i : Uuid) :
    ∀ l ∈ ls, taken (db.consumptionsOf i) l.id = 0 := by
  refine fun l hl => taken_eq_zero fun c hc hid => ?_
  obtain ⟨m, hm, hmid⟩ := hw.consumptionLot c (List.mem_of_mem_filter hc)
  exact h.lots.fresh l hl m hm (hmid.trans hid)

/-- Another entry may be recorded before or after striking out. -/
theorem without_recorded (hw : WellFormed db) (h : Recordable db e ps ls cs) (hne : e.id ≠ i) :
    (db.recorded e ps ls cs).without i = (db.without i).recorded e ps ls cs := by
  have hcons : (db.recorded e ps ls cs).consumptionsOf i = db.consumptionsOf i :=
    filter_append_nil fun c hc => by simp [(h.consumptions c hc).1, hne]
  have hlots : ((db.recorded e ps ls cs).lots.filter (·.openEntryId ≠ i)).map
      (Lot.adjust (taken (db.consumptionsOf i))) =
        ((db.without i).lots ++ ls).map (Lot.adjust fun j => -taken cs j) := by
    have hkeep : ((db.lots ++ ls).map (Lot.adjust fun j => -taken cs j)).filter
        (·.openEntryId ≠ i) =
          (db.lots.filter (·.openEntryId ≠ i) ++ ls).map (Lot.adjust fun j => -taken cs j) := by
      rw [List.filter_map, ← filter_append_keep fun l hl => ?new]
      · rfl
      case new => simpa [(h.opened l hl).1] using hne
    rw [Db.recorded, hkeep, List.map_map, ← map_adjust_of_eq_zero (taken_new_lot hw h i),
      Db.without, ← List.map_append, List.map_map, map_adjust_of_eq_zero (taken_new_lot hw h i)]
    exact List.map_congr_left fun l _ => adjust_comm _ _ l
  rw [Db.without, hcons, hlots]
  simp only [Db.recorded, Db.without]
  rw [filter_append_keep (by simpa using hne),
    filter_append_keep fun p hp => by simpa [h.postings p hp] using hne,
    filter_append_keep fun c hc => by simpa [(h.consumptions c hc).1] using hne]

/-- Another entry may be reversed before or after striking out. -/
theorem without_reversed (hi : LedgerInv db) (h : Reversible db env e) (hne : e.id ≠ i)
    (hid : ∃ f ∈ db.journalEntries, f.id = i) :
    (db.reversed env e).without i = (db.without i).reversed env e := by
  have hnew : env.entryId ≠ i := by
    obtain ⟨f, hf, rfl⟩ := hid
    exact Ne.symm (h.insertable.1 f hf)
  have hentries : (db.journalEntries.map (JournalEntry.voided e.id) ++
      [e.reversalRow env.entryId env.today]).filter (·.id ≠ i) =
        (db.journalEntries.filter (·.id ≠ i)).map (JournalEntry.voided e.id) ++
          [e.reversalRow env.entryId env.today] := by
    rw [filter_append_keep (by simpa [JournalEntry.reversalRow] using hnew), List.filter_map]
    simp only [Function.comp_def, voided_id]
  have hpostings : (db.postings ++ (db.postingsOf e.id).map (Posting.mirrored env.entryId)).filter
      (·.entryId ≠ i) = db.postings.filter (·.entryId ≠ i) ++
        (db.postingsOf e.id).map (Posting.mirrored env.entryId) :=
    filter_append_keep fun p hp => by simpa [mirrored_entryId p hp] using hnew
  have hcons : (db.reversed env e).consumptionsOf i = db.consumptionsOf i := by
    simp only [Db.consumptionsOf, Db.reversed, List.filter_filter]
    exact List.filter_congr fun c _ => by grind
  have hlots : ((db.lots.map (Lot.undone e.id (db.consumptionsOf e.id))).filter
      (·.openEntryId ≠ i)).map (Lot.adjust (taken (db.consumptionsOf i))) =
        ((db.lots.filter (·.openEntryId ≠ i)).map
          (Lot.adjust (taken (db.consumptionsOf i)))).map
            (Lot.undone e.id (db.consumptionsOf e.id)) := by
    rw [List.filter_map, List.map_map, List.map_map]
    refine List.map_congr_left fun l hl => ?_
    -- nothing was sold from the lots that the reversed entry opened
    have hzero : l.openEntryId = e.id → taken (db.consumptionsOf i) l.id = 0 := fun hopen =>
      taken_eq_zero fun c hc => lotId_ne_of_reversible hi.toWellFormed hi.toLotBook h
        (List.mem_of_mem_filter hl) hopen c (List.mem_of_mem_filter hc)
    by_cases hopen : l.openEntryId = e.id
    · simp [Lot.adjust, Lot.undone, hopen, hzero hopen]
    · simp [Lot.adjust, Lot.undone, hopen, add_right_comm]
  have hdeleted : (db.lotConsumptions.filter (·.entryId ≠ e.id)).filter (·.entryId ≠ i) =
      (db.lotConsumptions.filter (·.entryId ≠ i)).filter (·.entryId ≠ e.id) := by
    rw [List.filter_comm]
  rw [Db.without, hcons]
  simp only [Db.reversed, hentries, hpostings, hlots, hdeleted, postingsOf_without hne,
    consumptionsOf_without hne]
  rfl

end Without

/-! ## The reversal strikes the entry out -/

section Reversed
variable {db : Db} {e : JournalEntry} {env : Env}

theorem voided_of_ne {f : JournalEntry} {i : Uuid} (h : f.id ≠ i) : f.voided i = f := by
  simp [JournalEntry.voided, h]

/-- The entry is posted, and `userId` sees it. -/
def LiveIn (db : Db) (userId : Option Uuid) (i : Uuid) : Prop :=
  ∃ f ∈ db.journalEntries, f.id = i ∧ f.status = .posted ∧ InTenantScope userId f

instance (db : Db) (userId : Option Uuid) (i : Uuid) : Decidable (LiveIn db userId i) :=
  inferInstanceAs (Decidable (∃ f ∈ db.journalEntries, _))

omit e env in
theorem livePostings_eq (userId : Option Uuid) :
    db.livePostings userId = db.postings.filter fun p => LiveIn db userId p.entryId :=
  rfl

theorem liveIn_reversed {userId : Option Uuid} {i : Uuid} :
    LiveIn (db.reversed env e) userId i ↔ i ≠ e.id ∧ LiveIn db userId i := by
  constructor
  · rintro ⟨f, hf, rfl, hposted, hscope⟩
    rcases List.mem_append.mp hf with hf | hf
    · obtain ⟨g, hg, rfl⟩ := List.mem_map.mp hf
      obtain ⟨hlive, hne⟩ := (voided_status _ _).mp hposted
      rw [voided_of_ne hne] at hscope ⊢
      exact ⟨hne, g, hg, rfl, hlive, hscope⟩
    · rw [List.mem_singleton.mp hf] at hposted
      cases hposted
  · rintro ⟨hne, f, hf, rfl, hlive⟩
    refine ⟨f.voided e.id, List.mem_append_left _ (List.mem_map_of_mem hf), ?_⟩
    rw [voided_of_ne hne]
    exact ⟨rfl, hlive⟩

theorem liveIn_without {userId : Option Uuid} {i j : Uuid} :
    LiveIn (db.without j) userId i ↔ i ≠ j ∧ LiveIn db userId i := by
  simp only [LiveIn, Db.without, List.mem_filter, decide_eq_true_eq]
  constructor
  · rintro ⟨f, ⟨hf, hne⟩, rfl, hlive⟩
    exact ⟨hne, f, hf, rfl, hlive⟩
  · rintro ⟨hne, f, hf, rfl, hlive⟩
    exact ⟨f, ⟨hf, hne⟩, rfl, hlive⟩

/-- Readers of live rows see a reversed entry as little as one that was never there. -/
theorem reversed_livePostings (h : Reversible db env e) (userId : Option Uuid) :
    (db.reversed env e).livePostings userId = (db.without e.id).livePostings userId := by
  have hmirror : ∀ p ∈ (db.postingsOf e.id).map (Posting.mirrored env.entryId),
      ¬ LiveIn (db.reversed env e) userId p.entryId := by
    rintro p hp hlive
    obtain ⟨-, f, hf, hid, -⟩ := liveIn_reversed.mp hlive
    exact h.insertable.1 f hf (hid.trans (mirrored_entryId p hp))
  have hold : ∀ p ∈ db.postings, LiveIn (db.reversed env e) userId p.entryId ↔
      p.entryId ≠ e.id ∧ LiveIn (db.without e.id) userId p.entryId := by
    intro p _
    rw [liveIn_reversed, liveIn_without, and_self_left]
  have hpostings : (db.without e.id).postings = db.postings.filter (·.entryId ≠ e.id) := rfl
  rw [livePostings_eq, livePostings_eq, hpostings, List.filter_filter]
  refine (filter_append_nil fun p hp => by simpa using hmirror p hp).trans ?_
  exact List.filter_congr fun p hp => by simp [hold p hp, Bool.and_comm]

/-- The reversal of an entry undoes it. -/
theorem undone_reversed (hi : LedgerInv db) (h : Reversible db env e) :
    Undone e.id (db.reversed env e) (db.without e.id) where
  quantity userId accountId assetId := by
    rw [Db.nativeBalance, reversed_livePostings h]
    rfl
  baseValue userId accountId := by
    rw [Db.bookBalance, reversed_livePostings h]
    rfl
  lots := by
    simp only [Db.reversed, Db.without, List.filter_map]
    refine List.map_congr_left fun l hl => ?_
    have hne : l.openEntryId ≠ e.id := of_decide_eq_true (List.mem_filter.mp hl).2
    simp [Lot.undone, Lot.adjust, hne]
  opened l hl := by
    obtain ⟨hl, hopen⟩ := List.mem_filter.mp hl
    obtain ⟨m, hm, rfl⟩ := mem_reversed_lots hl
    have hopen : m.openEntryId = e.id := of_decide_eq_true hopen
    rw [undone_qtyRemaining, if_pos hopen, zero_add]
    exact taken_eq_zero fun c hc => lotId_ne_of_reversible hi.toWellFormed hi.toLotBook h hm hopen
      c (List.mem_of_mem_filter hc)
  consumptions := rfl

end Reversed

/-! ## Calls that are independent of the entry -/

section Calls
variable {a : Db} {i : Uuid}

theorem find?_filter_of_some {α : Type} {p q : α → Bool} {xs : List α} {x : α}
    (h : xs.find? p = some x) (hq : q x) : (xs.filter q).find? p = some x := by
  induction xs with
  | nil => cases h
  | cons y ys ih =>
    by_cases hp : p y
    · rw [List.find?_cons_of_pos hp] at h
      cases h
      rw [List.filter_cons_of_pos hq, List.find?_cons_of_pos hp]
    · rw [List.find?_cons_of_neg hp] at h
      by_cases hqy : q y
      · rw [List.filter_cons_of_pos hqy, List.find?_cons_of_neg hp, ih h]
      · rw [List.filter_cons_of_neg hqy, ih h]

/-- A look-up by key that finds another entry finds it without the entry too. -/
theorem findByIdempotencyKey_without {userId : Option Uuid} {k : String} {f : JournalEntry}
    (h : a.findByIdempotencyKey userId k = some f) (hne : f.id ≠ i) :
    (a.without i).findByIdempotencyKey userId k = some f :=
  find?_filter_of_some h (by simpa using hne)

theorem findByIdempotencyKey_without_none {userId : Option Uuid} {k : String}
    (h : a.findByIdempotencyKey userId k = none) :
    (a.without i).findByIdempotencyKey userId k = none := by
  refine List.find?_eq_none.mpr fun f hf => ?_
  exact List.find?_eq_none.mp h f (List.mem_of_mem_filter hf)

/-- The lots a sale may consume, less some: the order of the others stays. -/
theorem filter_sellableLots (db : Db) (assetId : Uuid) (userId : Option Uuid) (order : Uuid → Nat)
    (keep : Uuid → Bool) : (db.sellableLots assetId userId order).filter (fun o => keep o.id) =
      sortByOpened ((((db.lots.filter fun l => keep l.id).filter
        fun l => l.Sellable assetId userId).map Lot.toOpenLot).insertionSort
          fun a b => order a.id ≤ order b.id) := by
  rw [Db.sellableLots, filter_sortByOpened, filter_sortOn fun o : OpenLot => order o.id,
    List.filter_map, List.filter_comm]
  rfl

/-- Sales that take only lots which `s` and `t` share take the same from both. -/
theorem allocations_eq {assetId : Uuid} {userId : Option Uuid} {order : Uuid → Nat}
    {qty proceeds : Decimal} {s t : Db} (keep : Uuid → Bool)
    (hlots : s.lots.filter (fun l => keep l.id) = t.lots.filter (fun l => keep l.id))
    (hs : ∀ x ∈ (consumeFifo (s.sellableLots assetId userId order) qty proceeds).allocations,
      keep x.lotId)
    (ht : ∀ x ∈ (consumeFifo (t.sellableLots assetId userId order) qty proceeds).allocations,
      keep x.lotId) :
    (consumeFifo (s.sellableLots assetId userId order) qty proceeds).allocations =
      (consumeFifo (t.sellableLots assetId userId order) qty proceeds).allocations := by
  have hkept : ∀ db : Db,
      (∀ x ∈ (consumeFifo (db.sellableLots assetId userId order) qty proceeds).allocations,
        keep x.lotId) →
      (consumeFifo (db.sellableLots assetId userId order) qty proceeds).allocations =
        allocate (unitProceeds qty proceeds) qty (sortByOpened
          ((db.sellableLots assetId userId order).filter fun o => keep o.id)) := by
    intro db h
    rw [consumeFifo_eq] at h ⊢
    rw [← filter_sortByOpened, allocate_filter fun o : OpenLot => keep o.id]
    exact fun x hx lot _ hid => hid ▸ h x hx
  rw [hkept s hs, hkept t ht, filter_sellableLots, filter_sellableLots, hlots]

/-- The lots of an entry are lots. -/
theorem entryLots_exists (hw : WellFormed a) {j : Uuid} (hj : j ∈ a.entryLots i) :
    ∃ l ∈ a.lots, l.id = j := by
  rcases List.mem_append.mp hj with hj | hj
  · obtain ⟨l, hl, rfl⟩ := List.mem_map.mp hj
    exact ⟨l, List.mem_of_mem_filter hl, rfl⟩
  · obtain ⟨c, hc, rfl⟩ := List.mem_map.mp hj
    exact hw.consumptionLot c (List.mem_of_mem_filter hc)

/-- The other lots are the same with and without the entry. -/
theorem lots_without : (a.without i).lots.filter (fun l => l.id ∉ a.entryLots i) =
    a.lots.filter fun l => l.id ∉ a.entryLots i := by
  have hopen : ∀ l ∈ a.lots, l.id ∉ a.entryLots i → l.openEntryId ≠ i := by
    intro l hl hkeep hopen
    refine hkeep (List.mem_append_left _ (List.mem_map_of_mem (List.mem_filter.mpr ⟨hl, ?_⟩)))
    exact decide_eq_true hopen
  have hzero : ∀ l : Lot, l.id ∉ a.entryLots i → taken (a.consumptionsOf i) l.id = 0 :=
    fun l hkeep => taken_eq_zero fun c hc hid =>
      hkeep (List.mem_append_right _ (List.mem_map.mpr ⟨c, hc, hid⟩))
  have hkept : (a.lots.filter (·.openEntryId ≠ i)).filter (fun l => l.id ∉ a.entryLots i) =
      a.lots.filter fun l => l.id ∉ a.entryLots i := by
    rw [List.filter_filter]
    refine List.filter_congr fun l hl => ?_
    by_cases hkeep : l.id ∈ a.entryLots i
    · simp [hkeep]
    · simp [hkeep, hopen l hl hkeep]
  calc (a.without i).lots.filter (fun l => l.id ∉ a.entryLots i)
      = ((a.lots.filter (·.openEntryId ≠ i)).filter fun l => l.id ∉ a.entryLots i).map
          (Lot.adjust (taken (a.consumptionsOf i))) := List.filter_map
    _ = (a.lots.filter fun l => l.id ∉ a.entryLots i).map
          (Lot.adjust (taken (a.consumptionsOf i))) := by rw [hkept]
    _ = a.lots.filter fun l => l.id ∉ a.entryLots i :=
        map_adjust_of_eq_zero fun l hl => hzero l (of_decide_eq_true (List.mem_filter.mp hl).2)

/-- An entry that leaves an old lot as it was has not sold from it. -/
theorem not_sold_of_leaves {db : Db} {e : JournalEntry} {ps : List Posting} {ls : List Lot}
    {cs : List LotConsumption} (h : Recordable db e ps ls cs) {j : Uuid}
    (hnew : ∀ l ∈ ls, l.id ≠ j) (hleaves : (db.recorded e ps ls cs).findLot j = db.findLot j) :
    ∀ c ∈ cs, c.lotId ≠ j := by
  intro c hc hcj
  obtain ⟨l, hl, hid⟩ := (h.consumptions c hc).2.2
  have hold : l ∈ db.lots :=
    (List.mem_append.mp hl).resolve_right fun hl => hnew l hl (hid.trans hcj)
  obtain ⟨m, hm⟩ : ∃ m, db.findLot j = some m :=
    Option.isSome_iff_exists.mp (List.find?_isSome.mpr ⟨l, hold, by simpa using hid.trans hcj⟩)
  have hafter : (db.recorded e ps ls cs).findLot j = some (m.adjust fun i => -taken cs i) := by
    rw [Db.findLot]
    simp only [Db.recorded, List.find?_map, Function.comp_def, adjust_id, List.find?_append]
    change ((db.findLot j).or _).map _ = _
    rw [hm]
    rfl
  rw [hafter, hm] at hleaves
  have hzero : m.qtyRemaining + -taken cs m.id = m.qtyRemaining :=
    congrArg Lot.qtyRemaining (Option.some.inj hleaves)
  have hmid : m.id = j := by simpa using List.find?_some hm
  rw [add_eq_left, neg_eq_zero, hmid] at hzero
  exact lotId_ne_of_taken_eq_zero (fun c hc => (h.consumptions c hc).2.1) hzero.le c hc hcj

/-- An entry posted with and without another one sells the same, if it sells from none of
the lots of the other. -/
theorem consumptions_without {env : Env} {input : PostEntryInput} {userId : Option Uuid}
    (hw : WellFormed a) {a' b' : Db} (ha : Posted env input userId a a')
    (hb : Posted env input userId (a.without i) b') (hnd : ((a.without i).lots.map (·.id)).Nodup)
    (hla : ∀ j ∈ a.entryLots i, a'.findLot j = a.findLot j)
    (hlb : ∀ j ∈ a.entryLots i, b'.findLot j = (a.without i).findLot j) :
    input.consumptions env userId a = input.consumptions env userId (a.without i) := by
  have hnew : ∀ j ∈ a.entryLots i, ∀ l ∈ input.newLots env userId, l.id ≠ j := by
    intro j hj l hl hid
    obtain ⟨m, hm, rfl⟩ := entryLots_exists hw hj
    exact ha.written.lots.fresh l hl m hm hid.symm
  have hsa : ∀ x ∈ input.allocations env userId (a.withLots (input.newLots env userId)),
      x.lotId ∉ a.entryLots i := fun x hx hj =>
    not_sold_of_leaves (ha.recordable hw.lotIds) (hnew _ hj)
      (ha.written.result ▸ hla _ hj) _ (List.mem_map_of_mem hx) rfl
  have hsb : ∀ x ∈ input.allocations env userId ((a.without i).withLots (input.newLots env userId)),
      x.lotId ∉ a.entryLots i := fun x hx hj =>
    not_sold_of_leaves (hb.recordable hnd) (hnew _ hj)
      (hb.written.result ▸ hlb _ hj) _ (List.mem_map_of_mem hx) rfl
  have hlots : (a.withLots (input.newLots env userId)).lots.filter
      (fun l => l.id ∉ a.entryLots i) =
        ((a.without i).withLots (input.newLots env userId)).lots.filter
          fun l => l.id ∉ a.entryLots i := by
    simp only [Db.withLots, List.filter_append, lots_without]
  rw [PostEntryInput.consumptions, PostEntryInput.consumptions]
  unfold PostEntryInput.allocations at hsa hsb ⊢
  cases hc : input.closeLot with
  | none => rfl
  | some c =>
    simp only [hc] at hsa hsb ⊢
    split
    · rename_i hq
      rw [if_pos hq] at hsa hsb
      rw [allocations_eq (fun j => j ∉ a.entryLots i) hlots (by simpa using hsa)
        (by simpa using hsb)]
    · rfl

/-- An independent entry is recorded alike with and without entry `i`. -/
theorem post_without {env : Env} {input : PostEntryInput} (hi : LedgerInv a)
    (hib : LedgerInv (a.without i)) (hid : ∃ f ∈ a.journalEntries, f.id = i)
    (h : Independent i (.post env input) a (a.without i)) :
    ((LedgerOp.post env input).exec a).without i = (LedgerOp.post env input).exec (a.without i) := by
  obtain ⟨r, a', hra⟩ := ((postEntry env input).ok_or_refused a).resolve_right h.accepted
  obtain ⟨s, b', hsb⟩ := ((postEntry env input).ok_or_refused _).resolve_right h.acceptedWithout
  have hxa : (LedgerOp.post env input).exec a = a' := Tx.exec_of_ok hra
  have hxb : (LedgerOp.post env input).exec (a.without i) = b' := Tx.exec_of_ok hsb
  have huser : ∀ u v, (resolveServiceUserId env input.userId
      (input.postings.map (·.accountId))).answer a = .ok u →
        (resolveServiceUserId env input.userId
          (input.postings.map (·.accountId))).answer (a.without i) = .ok v → u = v := by
    intro u v hu hv
    have hsame : a.accounts = (a.without i).accounts ∧ a.users = (a.without i).users := ⟨rfl, rfl⟩
    rw [← resolveServiceUserId_congr hsame.1 hsame.2, hu] at hv
    exact Except.ok.inj hv
  rcases postEntryPriced_ok hi.lotIds hra with ⟨⟨u, k, f, hu, hk, hf, rfl, -⟩, rfl⟩ | ⟨-, u, hpa⟩
  · -- a replay: the entry found is another one, so it is found without entry `i` too
    have hne : f.id ≠ i := by
      rintro rfl
      exact h.noRetry (by rw [Tx.answer, LedgerOp.program, hra]; rfl)
    rcases postEntryPriced_ok hib.lotIds hsb with ⟨-, rfl⟩ | ⟨-, v, hpb⟩
    · rw [hxa, hxb]
    · have hnone := hpb.newKey k hk
      rw [← huser u v hu hpb.user, findByIdempotencyKey_without hf hne] at hnone
      cases hnone
  · rcases postEntryPriced_ok hib.lotIds hsb with ⟨⟨v, k, f, hv, hk, hf, -, -⟩, -⟩ | ⟨-, v, hpb⟩
    · rw [← huser u v hpa.user hv, findByIdempotencyKey_without_none (hpa.newKey k hk)] at hf
      cases hf
    · obtain rfl := huser u v hpa.user hpb.user
      have hne : env.entryId ≠ i := by
        obtain ⟨f, hf, rfl⟩ := hid
        exact Ne.symm (hpa.written.entry.1 f hf)
      have hcs := consumptions_without hi.toWellFormed hpa hpb hib.lotIds
        (fun j hj => hxa ▸ h.leaves j hj) (fun j hj => hxb ▸ h.leavesWithout j hj)
      rw [hxa, hxb, hpa.written.result, hpb.written.result, ← hcs]
      exact without_recorded hi.toWellFormed (hpa.recordable hi.lotIds) hne

/-- An independent reversal does the same with and without entry `i`. -/
theorem reverse_without {env : Env} {id : Uuid} (hi : LedgerInv a)
    (hib : LedgerInv (a.without i)) (hid : ∃ f ∈ a.journalEntries, f.id = i)
    (h : Independent i (.reverse env id) a (a.without i)) :
    ((LedgerOp.reverse env id).exec a).without i =
      (LedgerOp.reverse env id).exec (a.without i) := by
  obtain ⟨r, a', hra⟩ := ((reverseEntry env id).ok_or_refused a).resolve_right h.accepted
  obtain ⟨s, b', hsb⟩ := ((reverseEntry env id).ok_or_refused _).resolve_right h.acceptedWithout
  obtain ⟨e, rfl, he, rfl, -⟩ := (reverseEntry_ok hi.lotIds).mp hra
  obtain ⟨f, hfid, hf, rfl, -⟩ := (reverseEntry_ok hib.lotIds).mp hsb
  have hne : e.id ≠ i := by
    rw [← hfid]
    simpa using (List.mem_filter.mp (List.mem_of_find?_eq_some hf.entry)).2
  have hfe : f = e := by
    have hfind := hf.entry
    rw [hfid, findEntry_without hne, he.entry] at hfind
    exact (Option.some.inj hfind).symm
  rw [LedgerOp.exec, LedgerOp.program, Tx.exec_of_ok hra, LedgerOp.exec, LedgerOp.program,
    Tx.exec_of_ok hsb, hfe]
  exact without_reversed hi he hne hid

theorem exec_without {op : LedgerOp} (hi : LedgerInv a) (hib : LedgerInv (a.without i))
    (hid : ∃ f ∈ a.journalEntries, f.id = i) (h : Independent i op a (a.without i)) :
    (op.exec a).without i = op.exec (a.without i) := by
  cases op with
  | post env input => exact post_without hi hib hid h
  | reverse env id => exact reverse_without hi hib hid h

/-- Entries stay. -/
theorem LedgerStep.keeps_entry {db db' : Db} (h : LedgerStep db db')
    (hid : ∃ f ∈ db.journalEntries, f.id = i) : ∃ f ∈ db'.journalEntries, f.id = i := by
  obtain ⟨f, hf, rfl⟩ := hid
  cases h with
  | provision accounts => exact ⟨f, hf, rfl⟩
  | record h => exact ⟨f, List.mem_append_left _ hf, rfl⟩
  | reverse h => exact ⟨_, List.mem_append_left _ (List.mem_map_of_mem hf), voided_id _ _⟩

theorem LedgerOp.keeps_entry (op : LedgerOp) (hi : LedgerInv a)
    (hid : ∃ f ∈ a.journalEntries, f.id = i) : ∃ f ∈ (op.exec a).journalEntries, f.id = i := by
  rcases op.exec_step hi.lotIds with h | h
  · rwa [h]
  · exact h.keeps_entry hid

/-- The run with the entry is the run without it, once the entry is struck out. -/
theorem run_without {ops : List LedgerOp} (hi : LedgerInv a) (hib : LedgerInv (a.without i))
    (hid : ∃ f ∈ a.journalEntries, f.id = i) (h : IndependentRun i ops a (a.without i)) :
    (runOps ops a).without i = runOps ops (a.without i) := by
  induction ops generalizing a with
  | nil => rfl
  | cons op ops ih =>
    obtain ⟨hop, hops⟩ := h
    have hstep := exec_without hi hib hid hop
    have hib' := op.exec_inv hib
    rw [← hstep] at hops hib'
    have := ih (op.exec_inv hi) hib' (op.keeps_entry hi hid) hops
    rw [hstep] at this
    exact this

end Calls

/-! ## The laws of a reversal -/

/-- Some of what the entry opened was sold. -/
def Db.PartlyConsumed (db : Db) (id : Uuid) : Prop :=
  ∃ l ∈ db.lotsOpenedBy id, ∃ c ∈ db.lotConsumptions, c.lotId = l.id

/-- The reversal is refused for three reasons. The id of the new entry is not among them:
the database draws a new one. -/
theorem reverseEntry_refused_iff {db : Db} (hi : LedgerInv db) {env : Env} {id : Uuid}
    (hfresh : ∀ e ∈ db.journalEntries, e.id ≠ env.entryId) :
    (reverseEntry env id).Refused db ↔ db.findEntry id = none ∨
      (∃ e ∈ db.findEntry id, e.status = .void) ∨ db.PartlyConsumed id := by
  unfold Tx.Refused
  rw [reverseEntry_run hi.lotIds]
  cases hf : db.findEntry id with
  | none => simp
  | some e =>
    have he := List.mem_of_find?_eq_some hf
    have hid : e.id = id := by simpa using List.find?_some hf
    by_cases hvoid : e.status = .void
    · simp [hvoid]
    have hposted : db.Posted id := ⟨e, he, hid, by cases h : e.status <;> simp_all⟩
    have hsold : (∃ l ∈ db.lotsOpenedBy id, l.qtyRemaining < l.qtyOpened) ↔
        db.PartlyConsumed id := by
      refine exists_congr fun l => and_congr_right fun hl => ?_
      obtain ⟨hl, hopen⟩ := List.mem_filter.mp hl
      rw [hi.live l hl (of_decide_eq_true hopen ▸ hposted), lt_add_iff_pos_right]
      constructor
      · intro hpos
        by_contra hnone
        exact hpos.ne' (taken_eq_zero fun c hc hcl => hnone ⟨c, hc, hcl⟩)
      · rintro ⟨c, hc, hcl⟩
        exact not_le.mp fun hle => lotId_ne_of_taken_eq_zero hi.consumptionPos hle c hc hcl
    have hins : db.EntryInsertable (e.reversalRow env.entryId env.today) :=
      ⟨hfresh, .inr (.inl rfl), hi.entryUser e he⟩
    simp only [if_neg hvoid, if_pos hins, ← hsold]
    by_cases hs : ∃ l ∈ db.lotsOpenedBy id, l.qtyRemaining < l.qtyOpened <;> simp [hs, hvoid]

/-- What a caller of `reverseEntry` may rely on. -/
structure ReversalLaws (s : Db) : Prop where
  undone : ∀ env input ops env', (postEntry env input).answer s = .ok ⟨env.entryId, false⟩ →
    IndependentRun env.entryId ops ((postEntry env input).exec s) s →
    ¬ (reverseEntry env' env.entryId).Refused (runOps ops ((postEntry env input).exec s)) →
    Undone env.entryId
      ((reverseEntry env' env.entryId).exec (runOps ops ((postEntry env input).exec s)))
      (runOps ops s)
  refused : ∀ env id, (∀ e ∈ s.journalEntries, e.id ≠ env.entryId) →
    ((reverseEntry env id).Refused s ↔ s.findEntry id = none ∨
      (∃ e ∈ s.findEntry id, e.status = .void) ∨ s.PartlyConsumed id)
  unchanged : ∀ env id, (reverseEntry env id).Refused s → (reverseEntry env id).exec s = s

theorem undone_of_independent {s : Db} (hs : LedgerInv s) {env env' : Env}
    {input : PostEntryInput} {ops : List LedgerOp}
    (hpost : (postEntry env input).answer s = .ok ⟨env.entryId, false⟩)
    (hops : IndependentRun env.entryId ops ((postEntry env input).exec s) s)
    (hacc : ¬ (reverseEntry env' env.entryId).Refused (runOps ops ((postEntry env input).exec s))) :
    Undone env.entryId
      ((reverseEntry env' env.entryId).exec (runOps ops ((postEntry env input).exec s)))
      (runOps ops s) := by
  obtain ⟨u, hp⟩ : ∃ u, Posted env input u s ((postEntry env input).exec s) := by
    rcases (postEntry env input).ok_or_refused s with ⟨r, t, h⟩ | ⟨err, h⟩
    · rw [Tx.answer, h] at hpost
      obtain rfl : r = _ := Except.ok.inj hpost
      rw [Tx.exec_of_ok h]
      rcases postEntryPriced_ok hs.lotIds h with ⟨⟨_, _, _, _, _, _, hr, _⟩, _⟩ | ⟨-, hp⟩
      · exact absurd (congrArg PostResult.idempotentReplay hr) (by simp)
      · exact hp
    · rw [Tx.answer, h] at hpost
      cases hpost
  have hrec := hp.recordable hs.lotIds
  set a := (postEntry env input).exec s with ha
  have hia : LedgerInv a := hs.step (hp.step hs.lotIds)
  have hid : ∃ f ∈ a.journalEntries, f.id = env.entryId := by
    rw [hp.written.result]
    exact ⟨_, List.mem_append_right _ (List.mem_singleton_self _), rfl⟩
  have hback : a.without env.entryId = s := by
    rw [hp.written.result]
    exact without_recorded_self hs.toWellFormed hrec
  have hrun : (runOps ops a).without env.entryId = runOps ops s := by
    rw [run_without hia (hback ▸ hs) hid (hback ▸ hops), hback]
  rcases exec_reverseEntry env' env.entryId (runOps_inv ops hia).lotIds with
    ⟨href, -⟩ | ⟨e, heid, he, h⟩
  · exact absurd href hacc
  · rw [h, ← hrun, ← heid]
    exact undone_reversed (runOps_inv ops hia) he

/-- The laws hold of every ledger that calls of the write path have built. -/
theorem runOps_reversalLaws {db : Db} (h : db.EmptyLedger) (before : List LedgerOp) :
    ReversalLaws (runOps before db) :=
  have hi := runOps_inv before h.inv
  ⟨fun _ _ _ _ => undone_of_independent hi, fun _ _ => reverseEntry_refused_iff hi,
    fun _ _ href => href.exec⟩

/-- Sell `quantity` coins at cost, for `value` dollars. -/
def demoSell (quantity value : Int) : PostEntryInput :=
  { entryDate := 1, type := .sell, description := "فروش"
    postings := [demoLine 12 3 (-quantity) (-value), demoLine 10 1 value value]
    closeLot := some { assetId := 3, quantity := .ofInt quantity, proceedsBase := .ofInt value } }

/-- Two lots of two coins. -/
def demoLots : List LedgerOp :=
  [.post { entryId := 1, lotIds := fun _ => 101 } (demoBuy 2 100),
    .post { entryId := 2, lotIds := fun _ => 102 } (demoBuy 2 100)]

theorem demo_undone :
    ReversalLaws (runOps demoLots demo) ∧
    Undone 3 ((reverseEntry { entryId := 5 } 3).exec (runOps
        [.post { entryId := 4, lotIds := fun _ => 104 } (demoBuy 1 60)]
        ((postEntry { entryId := 3 } (demoSell 3 150)).exec (runOps demoLots demo))))
      (runOps [.post { entryId := 4, lotIds := fun _ => 104 } (demoBuy 1 60)]
        (runOps demoLots demo)) :=
  have laws := runOps_reversalLaws demo_empty demoLots
  ⟨laws, laws.undone { entryId := 3 } (demoSell 3 150) _ { entryId := 5 } (by decide)
    ⟨⟨by decide, by decide, by decide, by decide, by decide⟩, trivial⟩ (by decide)⟩

/-- A sale after the entry leaves its lot alone only because the entry had used it up.
Without the entry it would have sold from there. -/
theorem reversal_keeps_later_choice :
    let s := runOps demoLots demo
    let a := (postEntry { entryId := 3 } (demoSell 2 100)).exec s
    let op : LedgerOp := .post { entryId := 4 } (demoSell 1 50)
    (postEntry { entryId := 3 } (demoSell 2 100)).answer s = .ok ⟨3, false⟩ ∧
      ¬ op.program.Refused a ∧ op.program.answer a ≠ .ok ⟨3, true⟩ ∧
      op.Leaves (a.entryLots 3) a ∧
      ¬ (reverseEntry { entryId := 5 } 3).Refused (op.exec a) ∧
      ¬ Undone 3 ((reverseEntry { entryId := 5 } 3).exec (op.exec a)) (op.exec s) :=
  ⟨by decide, by decide, by decide, by decide, by decide,
    fun h => absurd (congrArg (List.map Lot.qtyRemaining) h.lots) (by decide)⟩

end Pwos
