import Pwos.Portfolio.Snapshots

/-!
# The tables of stored valuations

What each statement does to them. The first of `takeSnapshotAction` sets the totals of the day
(`upserts`), the others its lines (`Snapshot.Relined`); `createPortfolioSnapshot` sets total and
lines at once (`creates`) and leaves the `stale` lines of the day. Nothing else changes.
-/

namespace Pwos

def Db.linesOf (db : Db) (snapshotId : Uuid) : List SnapshotLine :=
  db.snapshotLines.filter (·.snapshotId = snapshotId)

def PortfolioSnapshot.IsOf (userId : Uuid) (date : IsoDate) (s : PortfolioSnapshot) : Prop :=
  s.userId = some userId ∧ s.snapshotDate = date

instance (userId : Uuid) (date : IsoDate) : DecidablePred (PortfolioSnapshot.IsOf userId date) :=
  fun _ => inferInstanceAs (Decidable (_ ∧ _))

def PortfolioValuation.IsOf (userId : Uuid) (date : IsoDate) (l : PortfolioValuation) : Prop :=
  l.userId = some userId ∧ l.valuationDate = date

instance (userId : Uuid) (date : IsoDate) : DecidablePred (PortfolioValuation.IsOf userId date) :=
  fun _ => inferInstanceAs (Decidable (_ ∧ _))

def Db.dayValuations (db : Db) (userId : Uuid) (date : IsoDate) : List PortfolioValuation :=
  db.portfolioValuations.filter fun l => l.IsOf userId date

theorem portfolioSnapshots_keyed :
    Keyed (fun s t : PortfolioSnapshot => decide (s.Conflicts t)) PortfolioSnapshot.set where
  symm h := by
    obtain ⟨hs, hu, hd⟩ := of_decide_eq_true h
    exact decide_eq_true ⟨hu ▸ hs, hu.symm, hd.symm⟩
  trans h k := by
    obtain ⟨hs, hu, hd⟩ := of_decide_eq_true h
    obtain ⟨-, hu', hd'⟩ := of_decide_eq_true k
    exact decide_eq_true ⟨hs, hu.trans hu', hd.trans hd'⟩
  update h := h

theorem portfolioValuations_keyed :
    Keyed (fun l m : PortfolioValuation => decide (l.Conflicts m)) PortfolioValuation.set where
  symm h := by
    obtain ⟨hs, hu, ha, hd⟩ := of_decide_eq_true h
    exact decide_eq_true ⟨hu ▸ hs, hu.symm, ha.symm, hd.symm⟩
  trans h k := by
    obtain ⟨hs, hu, ha, hd⟩ := of_decide_eq_true h
    obtain ⟨-, hu', ha', hd'⟩ := of_decide_eq_true k
    exact decide_eq_true ⟨hs, hu.trans hu', ha.trans ha', hd.trans hd'⟩
  update h := h

/-- The unique indexes, and the lines refer to a row. -/
structure Db.SnapshotKeys (db : Db) : Prop where
  ids : (db.snapshots.map (·.id)).Nodup
  days : ∀ s ∈ db.snapshots, ∀ t ∈ db.snapshots, ∀ u d, s.IsOf u d → t.IsOf u d → s = t
  lines : ∀ l ∈ db.snapshotLines, ∃ s ∈ db.snapshots, s.id = l.snapshotId
  portfolioDays : Distinct (fun s t : PortfolioSnapshot => decide (s.Conflicts t))
    db.portfolioSnapshots
  valuations : Distinct (fun l m : PortfolioValuation => decide (l.Conflicts m))
    db.portfolioValuations

/-- Nothing of the day has changed in the tables of the snapshots. -/
structure Db.SameDay (userId : Uuid) (asOf : IsoDate) (db db' : Db) : Prop where
  rows : ∀ s : Snapshot, s.IsOf userId asOf → (s ∈ db'.snapshots ↔ s ∈ db.snapshots)
  lines : ∀ s ∈ db.snapshots, s.IsOf userId asOf → db'.linesOf s.id = db.linesOf s.id

theorem Snapshot.IsOf.unique {s : Snapshot} {u v : Uuid} {d e : IsoDate} (h : s.IsOf u d)
    (k : s.IsOf v e) : u = v ∧ d = e :=
  ⟨Option.some.inj (h.1.symm.trans k.1), h.2.symm.trans k.2⟩

namespace TakeSnapshot
variable {k : TakeSnapshot} {db : Db}

theorem mem_daySnapshot {userId : Uuid} {asOf : IsoDate} {s : Snapshot}
    (h : db.daySnapshot userId asOf = some s) : s ∈ db.snapshots ∧ s.IsOf userId asOf := by
  have hof := List.find?_some h
  exact ⟨List.mem_of_find?_eq_some h, of_decide_eq_true hof⟩

theorem daySnapshot_none {userId : Uuid} {asOf : IsoDate}
    (h : db.daySnapshot userId asOf = none) : ∀ s ∈ db.snapshots, ¬ s.IsOf userId asOf := by
  intro s hs hof
  exact List.find?_eq_none.mp h s hs (decide_eq_true hof)

/-- The snapshot of the day after its first statement. -/
structure Upserted (k : TakeSnapshot) (db : Db) (s : Snapshot) : Prop where
  mem : s ∈ db.snapshots
  day : s.IsOf k.userId k.env.today
  total : s.totalAssets = k.netWorth.totalAssets.toFixed 6

/-- What the first statement does. -/
structure Upserts (k : TakeSnapshot) (id : Uuid) (db db' : Db) : Prop where
  keys : db'.SnapshotKeys
  row : ∃ s, Upserted k db' s ∧ s.id = id
  others : ∀ u d, ¬ (k.userId = u ∧ k.env.today = d) → db.SameDay u d db'
  /-- The row was there, or its id is new. -/
  before : (∃ s ∈ db.snapshots, s.id = id ∧ s.IsOf k.userId k.env.today) ∨ db.linesOf id = []
  lines : db'.snapshotLines = db.snapshotLines
  portfolio : db'.portfolioSnapshots = db.portfolioSnapshots
  valuations : db'.portfolioValuations = db.portfolioValuations

theorem upserts_existing (hkeys : db.SnapshotKeys) {s : Snapshot}
    (hday : db.daySnapshot k.userId k.env.today = some s) :
    Upserts k s.id db (applyAll [.setSnapshot (s.set k.netWorth)] db) := by
  obtain ⟨hs, hof⟩ := mem_daySnapshot hday
  set g : Snapshot → Snapshot := fun r => if r.id = s.id then s.set k.netWorth else r with hg
  have hrows : (applyAll [.setSnapshot (s.set k.netWorth)] db).snapshots = db.snapshots.map g := rfl
  have hid : ∀ r, (g r).id = r.id := by
    intro r
    rw [hg]
    dsimp only
    split
    · exact (by assumption : r.id = s.id).symm
    · rfl
  have hsame : ∀ r ∈ db.snapshots, r.id = s.id → r = s := fun r hr heq =>
    List.inj_on_of_nodup_map hkeys.ids hr hs heq
  have hisOf : ∀ r ∈ db.snapshots, ∀ u d, (g r).IsOf u d ↔ r.IsOf u d := by
    intro r hr u d
    rw [hg]
    dsimp only
    split
    · rw [hsame r hr (by assumption)]
      rfl
    · rfl
  refine { keys := { hkeys with ids := ?_, days := ?_, lines := ?_ }
           row := ⟨s.set k.netWorth, ⟨?_, hof, rfl⟩, rfl⟩, others := ?_
           before := .inl ⟨s, hs, rfl, hof⟩
           lines := rfl, portfolio := rfl, valuations := rfl }
  · rw [hrows, List.map_map]
    refine (congrArg List.Nodup (List.map_congr_left fun r _ => ?_)).mpr hkeys.ids
    exact hid r
  · rw [hrows]
    intro a ha b hb u d hau hbu
    obtain ⟨r, hr, rfl⟩ := List.mem_map.mp ha
    obtain ⟨t, ht, rfl⟩ := List.mem_map.mp hb
    rw [hkeys.days r hr t ht u d ((hisOf r hr u d).mp hau) ((hisOf t ht u d).mp hbu)]
  · intro l hl
    obtain ⟨r, hr, hrl⟩ := hkeys.lines l hl
    exact ⟨g r, List.mem_map_of_mem hr, (hid r).trans hrl⟩
  · rw [hrows]
    exact List.mem_map.mpr ⟨s, hs, if_pos rfl⟩
  · intro u d hne
    refine ⟨fun a ha => ?_, fun _ _ _ => rfl⟩
    rw [hrows]
    constructor
    · intro hmem
      obtain ⟨r, hr, rfl⟩ := List.mem_map.mp hmem
      by_cases heq : r.id = s.id
      · obtain rfl := hsame r hr heq
        exact absurd (hof.unique ((hisOf r hr u d).mp ha)) hne
      · rw [hg]
        dsimp only
        rwa [if_neg heq]
    · intro hmem
      refine List.mem_map.mpr ⟨a, hmem, if_neg fun heq => ?_⟩
      obtain rfl := hsame a hmem heq
      exact hne (hof.unique ha)

theorem upserts_new (hkeys : db.SnapshotKeys) (hday : db.daySnapshot k.userId k.env.today = none)
    (hfresh : ¬ ∃ s ∈ db.snapshots, s.id = k.env.snapshotId) :
    Upserts k k.env.snapshotId db (applyAll [.insertSnapshot k.row] db) := by
  have hrows : (applyAll [.insertSnapshot k.row] db).snapshots = db.snapshots ++ [k.row] := rfl
  have hrow : k.row.IsOf k.userId k.env.today := ⟨rfl, rfl⟩
  have hnone := daySnapshot_none hday
  have hold : ∀ r ∈ db.snapshots, ∀ u d, k.row.IsOf u d → ¬ r.IsOf u d := by
    intro r hr u d hu hru
    obtain ⟨rfl, rfl⟩ := hrow.unique hu
    exact hnone r hr hru
  refine { keys := { hkeys with ids := ?_, days := ?_, lines := ?_ }
           row := ⟨k.row, ⟨?_, hrow, rfl⟩, rfl⟩, others := ?_, before := .inr ?_
           lines := rfl, portfolio := rfl, valuations := rfl }
  · rw [hrows, List.map_append, List.map_singleton, List.nodup_append]
    refine ⟨hkeys.ids, List.nodup_singleton _, fun i hi j hj => ?_⟩
    obtain ⟨r, hr, rfl⟩ := List.mem_map.mp hi
    rw [List.mem_singleton.mp hj]
    exact fun heq => hfresh ⟨r, hr, heq⟩
  · rw [hrows]
    intro a ha b hb u d hau hbu
    rcases List.mem_append.mp ha with ha | ha <;> rcases List.mem_append.mp hb with hb | hb
    · exact hkeys.days a ha b hb u d hau hbu
    · rw [List.mem_singleton.mp hb] at hbu
      exact absurd hau (hold a ha u d hbu)
    · rw [List.mem_singleton.mp ha] at hau
      exact absurd hbu (hold b hb u d hau)
    · rw [List.mem_singleton.mp ha, List.mem_singleton.mp hb]
  · intro l hl
    obtain ⟨r, hr, hrl⟩ := hkeys.lines l hl
    exact ⟨r, List.mem_append_left _ hr, hrl⟩
  · rw [hrows]
    exact List.mem_append_right _ (List.mem_singleton_self _)
  · intro u d hne
    refine ⟨fun a ha => ?_, fun _ _ _ => rfl⟩
    rw [hrows]
    refine ⟨fun hmem => ?_, fun hmem => List.mem_append_left _ hmem⟩
    rcases List.mem_append.mp hmem with hmem | hmem
    · exact hmem
    · rw [List.mem_singleton.mp hmem] at ha
      exact absurd (hrow.unique ha) hne
  · apply List.filter_eq_nil_iff.mpr
    intro l hl hid
    obtain ⟨r, hr, hrl⟩ := hkeys.lines l hl
    exact hfresh ⟨r, hr, hrl.trans (of_decide_eq_true hid)⟩

theorem upserts (hkeys : db.SnapshotKeys) {id : Uuid} (h : k.upsertedId db = some id) :
    Upserts k id db (applyAll (k.upsert db) db) := by
  unfold upsertedId at h
  unfold upsert
  cases hday : db.daySnapshot k.userId k.env.today with
  | some s =>
    rw [hday] at h
    obtain rfl : s.id = id := Option.some.inj h
    exact upserts_existing hkeys hday
  | none =>
    rw [hday] at h
    dsimp only at h ⊢
    by_cases hfresh : ∃ s ∈ db.snapshots, s.id = k.env.snapshotId
    · rw [if_pos hfresh] at h
      cases h
    · rw [if_neg hfresh] at h ⊢
      obtain rfl := Option.some.inj h
      exact upserts_new hkeys hday hfresh

/-- A refused first statement writes nothing; the day has no row. -/
theorem upsert_refused (h : k.upsertedId db = none) :
    k.upsert db = [] ∧ ∀ s ∈ db.snapshots, ¬ s.IsOf k.userId k.env.today := by
  unfold upsertedId at h
  unfold upsert
  cases hday : db.daySnapshot k.userId k.env.today with
  | some s =>
    rw [hday] at h
    cases h
  | none =>
    rw [hday] at h
    dsimp only at h ⊢
    by_cases hfresh : ∃ s ∈ db.snapshots, s.id = k.env.snapshotId
    · exact ⟨if_pos hfresh, daySnapshot_none hday⟩
    · rw [if_neg hfresh] at h
      cases h

end TakeSnapshot

/-! ## The lines of a snapshot -/

/-- The lines of the snapshot are set, and nothing else. -/
structure Snapshot.Relined (s : Snapshot) (ls : List SnapshotLine) (db db' : Db) : Prop where
  rows : db'.snapshots = db.snapshots
  own : db'.linesOf s.id = ls
  others : ∀ i, i ≠ s.id → db'.linesOf i = db.linesOf i
  portfolio : db'.portfolioSnapshots = db.portfolioSnapshots
  valuations : db'.portfolioValuations = db.portfolioValuations

/-- The lines have each asset once. -/
def Snapshot.Listed (db : Db) (s : Snapshot) : Prop := ((db.linesOf s.id).map (·.assetId)).Nodup

instance Snapshot.decidableListed (db : Db) (s : Snapshot) : Decidable (s.Listed db) :=
  inferInstanceAs (Decidable (List.Nodup _))

def Snapshot.AddsUp (db : Db) (s : Snapshot) : Prop :=
  s.totalAssets = Decimal.toFixed 6 ((db.linesOf s.id).map (·.valueBase)).sum

section Lines
variable {db db' : Db} {s : Snapshot} {ls : List SnapshotLine}

theorem Snapshot.Relined.keys (h : s.Relined ls db db') (hkeys : db.SnapshotKeys)
    (hs : s ∈ db.snapshots) : db'.SnapshotKeys where
  ids := h.rows ▸ hkeys.ids
  days := h.rows ▸ hkeys.days
  portfolioDays := h.portfolio ▸ hkeys.portfolioDays
  valuations := h.valuations ▸ hkeys.valuations
  lines := by
    intro l hl
    rw [h.rows]
    by_cases hid : l.snapshotId = s.id
    · exact ⟨s, hs, hid.symm⟩
    · have hmem : l ∈ db'.linesOf l.snapshotId := List.mem_filter.mpr ⟨hl, decide_eq_true rfl⟩
      rw [h.others _ hid] at hmem
      exact hkeys.lines l (List.mem_filter.mp hmem).1

theorem Snapshot.Relined.sameDay (h : s.Relined ls db db') (hkeys : db.SnapshotKeys)
    (hs : s ∈ db.snapshots) {u v : Uuid} {d e : IsoDate} (hday : s.IsOf u d)
    (hne : ¬ (u = v ∧ d = e)) : db.SameDay v e db' where
  rows t _ := by rw [h.rows]
  lines t ht hof := by
    apply h.others
    intro hid
    obtain rfl : t = s := List.inj_on_of_nodup_map hkeys.ids ht hs hid
    exact hne (hday.unique hof)

theorem relined_delete : s.Relined [] db (applyAll [.deleteSnapshotLines s.id] db) where
  rows := rfl
  own := by
    apply List.filter_eq_nil_iff.mpr
    intro l hl
    have hkept := (List.mem_filter.mp hl).2
    simpa using hkept
  others i hi := by
    refine (List.filter_filter ..).trans (List.filter_congr fun l _ => ?_)
    grind
  portfolio := rfl
  valuations := rfl

theorem relined_insert (hnone : db.linesOf s.id = []) (hls : ∀ l ∈ ls, l.snapshotId = s.id) :
    s.Relined ls db (applyAll [.insertSnapshotLines ls] db) where
  rows := rfl
  own := by
    refine (List.filter_append ..).trans ?_
    rw [show List.filter _ db.snapshotLines = [] from hnone, List.nil_append]
    exact List.filter_eq_self.mpr fun l hl => decide_eq_true (hls l hl)
  others i hi := by
    refine (List.filter_append ..).trans ?_
    have hno : ls.filter (fun l => l.snapshotId = i) = [] := by
      apply List.filter_eq_nil_iff.mpr
      intro l hl
      rw [hls l hl]
      simpa using Ne.symm hi
    rw [hno, List.append_nil]
    rfl
  portfolio := rfl
  valuations := rfl

end Lines

namespace TakeSnapshot
variable {k : TakeSnapshot} {db : Db} {s : Snapshot}

theorem lines_all (k : TakeSnapshot) : k.lines = k.netWorth.valuation.assetValuations := by
  apply List.filter_eq_self.mpr
  intro v hv
  simpa using k.valued.sound.held v hv

/-- With the lines of the call a snapshot is right. -/
theorem Upserted.right (h : Upserted k db s)
    (hlines : db.linesOf s.id = k.lines.map (·.line s.id)) : s.Listed db ∧ s.AddsUp db := by
  have hsound := k.valued.sound
  constructor
  · unfold Snapshot.Listed
    rw [hlines, lines_all, List.map_map]
    exact hsound.distinct
  · unfold Snapshot.AddsUp
    rw [h.total, hlines, lines_all, List.map_map]
    exact congrArg (Decimal.toFixed 6) hsound.total

end TakeSnapshot

/-! ## The valuations of a day -/

/-- The rows of the day are worth the total of its snapshot. -/
def PortfolioSnapshot.AddsUp (db : Db) (s : PortfolioSnapshot) : Prop :=
  ∀ u, s.userId = some u →
    s.totalPortfolioValue = ((db.dayValuations u s.snapshotDate).map (·.totalValue)).sum

namespace CreateSnapshot
variable (k : CreateSnapshot) (db : Db)

/-- All that the transaction writes. -/
def writes : List Write :=
  .upsertPortfolioSnapshot k.row :: k.valuations.map .upsertPortfolioValuation

/-- What is left of the day of assets that are not valued now. -/
def stale : List PortfolioValuation :=
  (db.dayValuations k.userId k.snapshotDate).filter fun l =>
    !k.valuations.any fun m => l.assetId = m.assetId

variable {k db}

theorem applyAll_valuations (ms : List PortfolioValuation) (db : Db) :
    applyAll (ms.map Write.upsertPortfolioValuation) db =
      { db with
        portfolioValuations := upsertAll (fun l m => decide (l.Conflicts m)) PortfolioValuation.set
          ms db.portfolioValuations } := by
  induction ms generalizing db with
  | nil => rfl
  | cons m ms ih => exact ih _

theorem mem_valuations {m : PortfolioValuation} (h : m ∈ k.valuations) :
    m.userId = some k.userId ∧ m.valuationDate = k.snapshotDate := by
  obtain ⟨v, -, rfl⟩ := List.mem_map.mp h
  exact ⟨rfl, rfl⟩

theorem self_conflicts {m : PortfolioValuation} (h : m ∈ k.valuations) :
    decide (m.Conflicts m) = true := by
  apply decide_eq_true
  exact ⟨by rw [(mem_valuations h).1]; rfl, rfl, rfl, rfl⟩

theorem valuations_distinct (k : CreateSnapshot) :
    Distinct (fun l m : PortfolioValuation => decide (l.Conflicts m)) k.valuations := by
  have hassets : (k.valuations.map (·.assetId)).Nodup := by
    unfold valuations
    rw [List.map_map]
    exact k.valued.sound.distinct
  refine (List.pairwise_map.mp hassets).imp fun hne => ?_
  apply decide_eq_false
  exact fun hconf => hne hconf.2.2.1

/-- What the transaction does. -/
structure Creates (k : CreateSnapshot) (db db' : Db) : Prop where
  keys : db'.SnapshotKeys
  snapshots : db'.snapshots = db.snapshots
  lines : db'.snapshotLines = db.snapshotLines
  rows : ∀ s ∈ db'.portfolioSnapshots,
    s.IsOf k.userId k.snapshotDate ∧
        s.totalPortfolioValue = k.valued.summary.totalNetWorth ∨
      s ∈ db.portfolioSnapshots ∧ ¬ s.IsOf k.userId k.snapshotDate
  own : ((db'.dayValuations k.userId k.snapshotDate).map (·.totalValue)).sum =
    ((k.stale db).map (·.totalValue)).sum + k.valued.summary.totalNetWorth
  others : ∀ u d, ¬ (k.userId = u ∧ k.snapshotDate = d) →
    ((db'.dayValuations u d).map (·.totalValue)).sum =
      ((db.dayValuations u d).map (·.totalValue)).sum

theorem creates (hkeys : db.SnapshotKeys) : Creates k db (applyAll k.writes db) := by
  have hwrites : applyAll k.writes db =
      applyAll (k.valuations.map Write.upsertPortfolioValuation)
        (applyAll [.upsertPortfolioSnapshot k.row] db) := rfl
  rw [hwrites, applyAll_valuations]
  have hrow : decide (k.row.Conflicts k.row) = true := decide_eq_true ⟨rfl, rfl, rfl⟩
  have hsum := fun u d => @Keyed.sum_upsertAll _ _ _ db.portfolioValuations k.valuations Decimal _
    portfolioValuations_keyed (fun l => decide (l.IsOf u d)) (·.totalValue)
    (by
      intro l m hconf
      obtain ⟨-, hu, -, hd⟩ := of_decide_eq_true hconf
      apply decide_eq_decide.mpr
      unfold PortfolioValuation.IsOf
      rw [hu, hd])
    (fun _ _ => rfl) (fun m hm => self_conflicts hm) k.valuations_distinct hkeys.valuations
  refine { keys := { hkeys with
             portfolioDays := ?_, valuations := ?_ }
           snapshots := rfl, lines := rfl, rows := ?_, own := ?_, others := ?_ }
  · exact portfolioSnapshots_keyed.distinct_upserted hkeys.portfolioDays hrow
  · exact portfolioValuations_keyed.distinct_upsertAll (fun m hm => self_conflicts hm)
      hkeys.valuations
  · intro s hs
    obtain ⟨x, hperm, hx⟩ := @Keyed.upserted_perm _ _ _ _ k.row portfolioSnapshots_keyed
      hkeys.portfolioDays
    rcases List.mem_cons.mp (hperm.mem_iff.mp hs) with rfl | hold
    · left
      rcases hx with rfl | ⟨r, -, hconf, rfl⟩
      · exact ⟨⟨rfl, rfl⟩, rfl⟩
      · obtain ⟨-, hu, hd⟩ := of_decide_eq_true hconf
        exact ⟨⟨hu, hd⟩, rfl⟩
    · right
      obtain ⟨hmem, hno⟩ := List.mem_filter.mp hold
      refine ⟨hmem, fun hof => ?_⟩
      have hconf : s.Conflicts k.row := ⟨by rw [hof.1]; rfl, hof.1, hof.2⟩
      simp [hconf] at hno
  · refine (hsum k.userId k.snapshotDate).trans ?_
    have hall : k.valuations.filter (fun m => m.IsOf k.userId k.snapshotDate) = k.valuations :=
      List.filter_eq_self.mpr fun m hm => decide_eq_true (mem_valuations hm)
    have hnew : (k.valuations.map (·.totalValue)).sum = k.valued.summary.totalNetWorth := by
      rw [k.valued.sound.total, valuations, List.map_map]
      rfl
    rw [hall, hnew]
    unfold stale Db.dayValuations
    rw [List.filter_filter]
    congr 3
    apply List.filter_congr
    intro l _
    by_cases hof : l.IsOf k.userId k.snapshotDate
    · have hany : (k.valuations.any fun m => decide (l.Conflicts m)) =
          k.valuations.any fun m => decide (l.assetId = m.assetId) := by
        apply Bool.eq_iff_iff.mpr
        simp only [List.any_eq_true, decide_eq_true_eq]
        constructor
        · rintro ⟨m, hm, hconf⟩
          exact ⟨m, hm, hconf.2.2.1⟩
        · rintro ⟨m, hm, hasset⟩
          obtain ⟨hu, hd⟩ := mem_valuations hm
          have hsome : l.userId.isSome = true := by rw [hof.1]; rfl
          exact ⟨m, hm, hsome, hof.1.trans hu.symm, hasset, hof.2.trans hd.symm⟩
      rw [hany, Bool.and_comm]
    · simp [hof]
  · intro u d hne
    refine (hsum u d).trans ?_
    have hno : ∀ m ∈ k.valuations, ¬ m.IsOf u d := by
      rintro m hm ⟨hu, hd⟩
      obtain ⟨hku, hkd⟩ := mem_valuations hm
      exact hne ⟨Option.some.inj (hku.symm.trans hu), hkd.symm.trans hd⟩
    have hnone : k.valuations.filter (fun m => m.IsOf u d) = [] :=
      List.filter_eq_nil_iff.mpr fun m hm => by simpa using hno m hm
    rw [hnone, List.map_nil, List.sum_nil, add_zero]
    congr 2
    apply List.filter_congr
    intro l _
    by_cases hof : l.IsOf u d
    · have hany : (k.valuations.any fun m => decide (l.Conflicts m)) = false := by
        apply Bool.eq_false_iff.mpr
        intro hany
        obtain ⟨m, hm, hconf⟩ := List.any_eq_true.mp hany
        obtain ⟨-, hu, -, hd⟩ := of_decide_eq_true hconf
        exact hno m hm ⟨hu ▸ hof.1, hd ▸ hof.2⟩
      simp [hof, hany]
    · simp [hof]

theorem Creates.addsUp {db' : Db} (h : Creates k db db')
    (hstale : ((k.stale db).map (·.totalValue)).sum = 0)
    (hold : ∀ s ∈ db.portfolioSnapshots, s.AddsUp db) :
    ∀ s ∈ db'.portfolioSnapshots, s.AddsUp db' := by
  intro s hs u hu
  rcases h.rows s hs with ⟨⟨hku, hkd⟩, htotal⟩ | ⟨hmem, hother⟩
  · obtain rfl := Option.some.inj (hku.symm.trans hu)
    rw [htotal, hkd, h.own, hstale, zero_add]
  · rw [h.others u s.snapshotDate fun heq => hother ⟨by rw [hu, heq.1], heq.2.symm⟩]
    exact hold s hmem u hu

end CreateSnapshot

end Pwos
