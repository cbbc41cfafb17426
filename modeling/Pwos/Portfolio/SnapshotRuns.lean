import Pwos.Lib.Calls
import Pwos.Portfolio.SnapshotTables

/-!
# Stored valuations, call by call

Calls of `takeSnapshotAction` and `createPortfolioSnapshot` run interleaved, and may stop anywhere.
While the statements of one call come between those of another call of the same day, or a call
stops between its statements, or valuations of the day are left that the next call does not set,
what is stored of a day is not one valuation (`stored_mixed`). In every other run it is
(`stored_once`).
-/

namespace Pwos

inductive SnapshotCall where
  | take (k : TakeSnapshot)
  | create (k : CreateSnapshot)

def SnapshotCall.process :
    SnapshotCall → Process Db Write Row Assumption (Except AppError Unit)
  | .take k => .statements (takeSnapshotAction k)
  | .create k => .transaction (do
      let _ ← createPortfolioSnapshot k
      pure ())

abbrev SnapshotCalls :=
  Calls Db Write Row Assumption (Except AppError Unit) SnapshotCall

abbrev SnapshotRunning := Running Db Write Row Assumption (Except AppError Unit)

/-- The tables of the snapshots stay as they are; anything else may change. -/
structure SameSnapshots (db db' : Db) : Prop where
  snapshots : db'.snapshots = db.snapshots
  lines : db'.snapshotLines = db.snapshotLines
  portfolio : db'.portfolioSnapshots = db.portfolioSnapshots
  valuations : db'.portfolioValuations = db.portfolioValuations

/-- No call of `takeSnapshotAction` makes a statement while another one of its day is between two
of its own, and none stops there. What `createPortfolioSnapshot` leaves of the day is worth
nothing. -/
def oneByOne : Conduct Db Write Row Assumption (Except AppError Unit) SnapshotCall where
  turns c i :=
    (∀ k, c.call i = some (.take k) → ∀ j m, j ≠ i → c.Midway j (.take m) →
      ¬ (m.userId = k.userId ∧ m.env.today = k.env.today)) ∧
    ∀ k n ws ks, c.call i = some (.create k) → c.world.running i = some ⟨.commit n, ws, ks⟩ →
      ((k.stale c.world.committed).map (·.totalValue)).sum = 0
  leaves c i := ∀ k, ¬ c.Midway i (.take k)

/-- What is stored of a day is one valuation: at most one row, which has each asset once and adds
up, that of `takeSnapshotAction` when its call has `settled`. -/
structure Db.OneValuation (db : Db) (userId : Uuid) (date : IsoDate) (settled : Prop) : Prop where
  row : (db.snapshots.filter fun s => s.IsOf userId date).length ≤ 1
  lines : ∀ s ∈ db.snapshots, s.IsOf userId date → s.Listed db
  total : settled → ∀ s ∈ db.snapshots, s.IsOf userId date → s.AddsUp db
  portfolioRow : (db.portfolioSnapshots.filter fun s => s.IsOf userId date).length ≤ 1
  valuations : ((db.dayValuations userId date).map (·.assetId)).Nodup
  portfolioTotal : ∀ s ∈ db.portfolioSnapshots, s.IsOf userId date → s.AddsUp db

/-! ## Where a call stands -/

/-- `begun` says whether the call has made a statement. -/
inductive TakeSnapshot.At (k : TakeSnapshot) (db : Db) :
    SnapshotRunning → (begun : Bool) → Prop where
  | fresh : At k db ⟨.statements (takeSnapshotAction k), [], []⟩ false
  | upserted {s : Snapshot} : k.Upserted db s →
      At k db ⟨.statements (k.replaceLines s.id), [], []⟩ true
  | deleted {s : Snapshot} : k.Upserted db s → db.linesOf s.id = [] → k.lines ≠ [] →
      At k db ⟨.statements (k.insertLines s.id), [], []⟩ true
  | ended {r : Except AppError Unit} {begun : Bool} : At k db ⟨.done r, [], []⟩ begun

inductive CreateSnapshot.At (k : CreateSnapshot) : SnapshotRunning → Prop where
  | writing {p : Sql Unit} {ws rest : List Write} {ks : List Row} : k.writes = ws ++ rest →
      p.Adds rest → At k ⟨.transaction p, ws, ks⟩
  | ended {r : Except AppError Unit} : At k ⟨.done r, [], []⟩

/-- What holds between two steps. -/
structure Kept (c : SnapshotCalls) : Prop where
  keys : c.world.committed.SnapshotKeys
  listed : ∀ s ∈ c.world.committed.snapshots, ∀ u, s.userId = some u → s.Listed c.world.committed
  total : ∀ s ∈ c.world.committed.snapshots, ∀ u, s.userId = some u →
    s.AddsUp c.world.committed ∨ ∃ i k, c.Midway i (.take k) ∧ s.IsOf k.userId k.env.today
  portfolio : ∀ s ∈ c.world.committed.portfolioSnapshots, s.AddsUp c.world.committed
  called : ∀ i x, c.world.running i = some x → (c.call i).isSome
  take : ∀ i x k, c.world.running i = some x → c.call i = some (.take k) →
    k.At c.world.committed x (c.begun i)
  create : ∀ i x k, c.world.running i = some x → c.call i = some (.create k) → k.At x

section Frames
variable {db db' : Db}

theorem SameSnapshots.keys (h : SameSnapshots db db') (hkeys : db.SnapshotKeys) :
    db'.SnapshotKeys where
  ids := h.snapshots ▸ hkeys.ids
  days := h.snapshots ▸ hkeys.days
  lines := by
    rw [h.snapshots, h.lines]
    exact hkeys.lines
  portfolioDays := h.portfolio ▸ hkeys.portfolioDays
  valuations := h.valuations ▸ hkeys.valuations

theorem linesOf_congr (h : db'.snapshotLines = db.snapshotLines) (i : Uuid) :
    db'.linesOf i = db.linesOf i := by
  unfold Db.linesOf
  rw [h]

theorem Snapshot.listed_congr {s : Snapshot} (h : db'.linesOf s.id = db.linesOf s.id) :
    s.Listed db' ↔ s.Listed db := by
  unfold Snapshot.Listed
  rw [h]

theorem Snapshot.addsUp_congr {s : Snapshot} (h : db'.linesOf s.id = db.linesOf s.id) :
    s.AddsUp db' ↔ s.AddsUp db := by
  unfold Snapshot.AddsUp
  rw [h]

/-- A call stands where it stood, if nothing of its day has changed. -/
theorem TakeSnapshot.At.sameDay {k : TakeSnapshot} {x : SnapshotRunning} {begun : Bool}
    (h : k.At db x begun) (hday : db.SameDay k.userId k.env.today db') : k.At db' x begun := by
  have hrow : ∀ {s}, k.Upserted db s → k.Upserted db' s := fun hs =>
    ⟨(hday.rows _ hs.day).mpr hs.mem, hs.day, hs.total⟩
  cases h with
  | fresh => exact .fresh
  | upserted hs => exact .upserted (hrow hs)
  | deleted hs hnone hlines =>
    exact .deleted (hrow hs) ((hday.lines _ hs.mem hs.day).trans hnone) hlines
  | ended => exact .ended

/-- A call that has not begun or has ended needs nothing; any other is midway. -/
theorem TakeSnapshot.At.still_or_midway {k : TakeSnapshot} {x : SnapshotRunning} {begun : Bool}
    (h : k.At db x begun) :
    (∀ t, k.At t x begun) ∨ begun = true ∧ ∀ a, x.proc ≠ .done a := by
  cases h with
  | fresh => exact .inl fun _ => .fresh
  | upserted hs => exact .inr ⟨rfl, nofun⟩
  | deleted hs hnone hlines =>
    refine .inr ⟨rfl, ?_⟩
    rw [TakeSnapshot.insertLines, Tx.when, if_pos hlines]
    exact nofun
  | ended => exact .inl fun _ => .ended

theorem SameSnapshots.sameDay (h : SameSnapshots db db') (u : Uuid) (d : IsoDate) :
    db.SameDay u d db' where
  rows s _ := by rw [h.snapshots]
  lines s _ _ := linesOf_congr h.lines s.id

theorem SameSnapshots.addsUp (h : SameSnapshots db db') {s : PortfolioSnapshot}
    (hs : s.AddsUp db) : s.AddsUp db' := by
  intro u hu
  unfold Db.dayValuations
  rw [h.valuations]
  exact hs u hu

end Frames

/-! ## What a step keeps -/

theorem create_adds (k : CreateSnapshot) :
    (createPortfolioSnapshot k >>= fun _ => (pure () : Sql Unit)).Adds k.writes := by
  have hwrites : k.writes = ([Write.upsertPortfolioSnapshot k.row] ++
      (k.valuations.flatMap (fun l => [Write.upsertPortfolioValuation l]) ++ [])) ++ [] := by
    rw [List.append_nil, List.append_nil, ← List.map_eq_flatMap]
    rfl
  rw [hwrites]
  refine Tx.Adds.bind (Tx.Adds.bind ?_ fun _ => Tx.Adds.bind (Tx.Adds.each fun _ => ?_) ?_) ?_
  · exact fun _ => ⟨[], rfl, rfl⟩
  · exact fun _ => ⟨[], rfl, rfl⟩
  · exact fun _ => rfl
  · exact fun _ => rfl

section Steps
variable {c d : SnapshotCalls} {i : Nat}

/-- Steps that leave the snapshots and their lines alone. -/
theorem Kept.frame (h : Kept c)
    (hsame : ∀ u e, c.world.committed.SameDay u e d.world.committed)
    (hrows : d.world.committed.snapshots = c.world.committed.snapshots)
    (hkeys : d.world.committed.SnapshotKeys)
    (hportfolio : ∀ s ∈ d.world.committed.portfolioSnapshots, s.AddsUp d.world.committed)
    (hmidway : ∀ i k, c.Midway i (.take k) → d.Midway i (.take k))
    (hcalled : ∀ i x, d.world.running i = some x → (d.call i).isSome)
    (htake : ∀ i x k, d.world.running i = some x → d.call i = some (.take k) →
      k.At c.world.committed x (d.begun i))
    (hcreate : ∀ i x k, d.world.running i = some x → d.call i = some (.create k) → k.At x) :
    Kept d where
  keys := hkeys
  listed s hs u hu := by
    rw [hrows] at hs
    have hlines := (hsame u s.asOf).lines s hs ⟨hu, rfl⟩
    exact (Snapshot.listed_congr hlines).mpr (h.listed s hs u hu)
  total s hs u hu := by
    rw [hrows] at hs
    have hlines := (hsame u s.asOf).lines s hs ⟨hu, rfl⟩
    rcases h.total s hs u hu with hadds | ⟨j, k, hmid, hof⟩
    · exact .inl ((Snapshot.addsUp_congr hlines).mpr hadds)
    · exact .inr ⟨j, k, hmidway j k hmid, hof⟩
  portfolio := hportfolio
  called := hcalled
  take j x k hx hk := (htake j x k hx hk).sameDay (hsame _ _)
  create := hcreate

theorem Kept.start (h : Kept c) (hi : c.world.running i = none) (k : SnapshotCall) :
    Kept ⟨c.world.put i (some ⟨k.process, [], []⟩), Function.update c.call i (some k),
      Function.update c.begun i false⟩ := by
  have hold : ∀ {j x}, j ≠ i → (c.world.put i (some ⟨k.process, [], []⟩)).running j = some x →
      c.world.running j = some x := by
    intro j x hj hx
    rwa [World.put_other _ hj] at hx
  refine h.frame (fun _ _ => ⟨fun _ _ => Iff.rfl, fun _ _ _ => rfl⟩) rfl h.keys h.portfolio
    ?_ ?_ ?_ ?_
  all_goals dsimp -failIfUnchanged only
  · intro j m hmid
    have hj : j ≠ i := by
      rintro rfl
      exact hmid.running hi
    exact hmid.of_same (Function.update_of_ne hj _ _) (Function.update_of_ne hj _ _)
      (World.put_other _ hj _)
  · intro j x hx
    by_cases hj : j = i
    · rw [hj, Function.update_self]
      rfl
    · rw [Function.update_of_ne hj]
      exact h.called j x (hold hj hx)
  · intro j x m hx hm
    by_cases hj : j = i
    · subst hj
      rw [World.put_self] at hx
      rw [Function.update_self] at hm ⊢
      obtain rfl := Option.some.inj hx
      obtain rfl := Option.some.inj hm
      exact .fresh
    · rw [Function.update_of_ne hj] at hm ⊢
      exact h.take j x m (hold hj hx) hm
  · intro j x m hx hm
    by_cases hj : j = i
    · subst hj
      rw [World.put_self] at hx
      rw [Function.update_self] at hm
      obtain rfl := Option.some.inj hx
      obtain rfl := Option.some.inj hm
      exact .writing (List.nil_append _).symm (create_adds m)
    · rw [Function.update_of_ne hj] at hm
      exact h.create j x m (hold hj hx) hm

theorem Kept.leave (h : Kept c) (hi : oneByOne.leaves c i) :
    Kept { c with world := c.world.put i none } := by
  have hold : ∀ {j x}, (c.world.put i none).running j = some x → c.world.running j = some x := by
    intro j x hx
    by_cases hj : j = i
    · subst hj
      rw [World.put_self] at hx
      cases hx
    · rwa [World.put_other _ hj] at hx
  refine h.frame (fun _ _ => ⟨fun _ _ => Iff.rfl, fun _ _ _ => rfl⟩) rfl h.keys h.portfolio
    ?_ (fun j x hx => h.called j x (hold hx)) (fun j x k hx hk => h.take j x k (hold hx) hk)
    fun j x k hx hk => h.create j x k (hold hx) hk
  intro j k hmid
  have hj : j ≠ i := by
    rintro rfl
    exact hi k hmid
  exact hmid.of_same rfl rfl (World.put_other _ hj _)

theorem Kept.outside (h : Kept c) {t : Db} (ht : SameSnapshots c.world.committed t) :
    Kept { c with world := { c.world with committed := t } } := by
  refine h.frame ht.sameDay ht.snapshots (ht.keys h.keys) ?_ (fun _ _ hmid => hmid) h.called
    h.take h.create
  intro s hs
  rw [ht.portfolio] at hs
  exact ht.addsUp (h.portfolio s hs)

/-- A call of `createPortfolioSnapshot` makes a step. -/
theorem Kept.turn_create (h : Kept c) {k : CreateSnapshot} {w : World Db Write Row Assumption
    (Except AppError Unit)} {x : SnapshotRunning} (hk : c.call i = some (.create k))
    (hx : c.world.running i = some x) (hturn : c.world.Turn (fun _ => False) i w)
    (hconduct : oneByOne.turns c i) : Kept ⟨w, c.call, Function.update c.begun i true⟩ := by
  have hne : ∀ {j m}, c.call j = some (.take m) → j ≠ i := by
    rintro j m hj rfl
    rw [hk] at hj
    cases hj
  -- whatever `i` does, the others stand where they stood
  have hothers : ∀ (db : Db) (y : SnapshotRunning),
      (∀ u e, c.world.committed.SameDay u e db) → db.snapshots = c.world.committed.snapshots →
      db.SnapshotKeys → (∀ s ∈ db.portfolioSnapshots, s.AddsUp db) → k.At y →
      Kept ⟨{ c.world with committed := db }.put i (some y), c.call,
        Function.update c.begun i true⟩ := by
    intro db y hday hrows hkeys hadds hy
    refine h.frame hday hrows hkeys hadds ?_ ?_ ?_ ?_
    all_goals dsimp -failIfUnchanged only
    · intro j m hmid
      exact hmid.of_same rfl (Function.update_of_ne (hne hmid.1) _ _)
        (World.put_other _ (hne hmid.1) _)
    · intro j z hz
      by_cases hj : j = i
      · rw [hj, hk]
        rfl
      · rw [World.put_other _ hj] at hz
        exact h.called j z hz
    · intro j z m hz hm
      rw [World.put_other _ (hne hm)] at hz
      rw [Function.update_of_ne (hne hm)]
      exact h.take j z m hz hm
    · intro j z m hz hm
      by_cases hj : j = i
      · subst hj
        rw [World.put_self] at hz
        rw [hk] at hm
        obtain rfl := Option.some.inj hz
        cases hm
        exact hy
      · rw [World.put_other _ hj] at hz
        exact h.create j z m hz hm
  cases h.create i x k hx hk with
  | ended => exact absurd hturn (World.Turn.of_done hx)
  | writing hwrites hadds =>
    rcases hturn.of_adds hx hadds with ⟨rfl, ⟨n, hn⟩, r, rfl⟩ | ⟨q, us, rest, js, rfl, hq, rfl⟩
    · rw [List.append_nil] at hwrites
      rw [← hwrites]
      have hcreates := @CreateSnapshot.creates k c.world.committed h.keys
      refine hothers _ _ (fun u e => ⟨fun s _ => by rw [hcreates.snapshots],
        fun s _ _ => linesOf_congr hcreates.lines s.id⟩) hcreates.snapshots hcreates.keys ?_ .ended
      exact hcreates.addsUp (hconduct.2 k n _ _ hk hn) h.portfolio
    · refine hothers _ _ (fun _ _ => ⟨fun _ _ => Iff.rfl, fun _ _ _ => rfl⟩) rfl h.keys h.portfolio
        (.writing ?_ hq)
      rw [hwrites, List.append_assoc]

/-- A call of `takeSnapshotAction` makes a statement that is about its day only. -/
theorem Kept.turn_take (h : Kept c) {k : TakeSnapshot} {db : Db} {y : SnapshotRunning}
    (hk : c.call i = some (.take k)) (hconduct : oneByOne.turns c i) (hkeys : db.SnapshotKeys)
    (hdays : ∀ u e, ¬ (k.userId = u ∧ k.env.today = e) → c.world.committed.SameDay u e db)
    (hportfolio : db.portfolioSnapshots = c.world.committed.portfolioSnapshots)
    (hvaluations : db.portfolioValuations = c.world.committed.portfolioValuations)
    (hown : ∀ s ∈ db.snapshots, s.IsOf k.userId k.env.today →
      s.Listed db ∧ (s.AddsUp db ∨ ∀ a, y.proc ≠ .done a)) (hy : k.At db y true) :
    Kept ⟨{ c.world with committed := db }.put i (some y), c.call,
      Function.update c.begun i true⟩ := by
  -- a snapshot of another day is as it was
  have hother : ∀ s ∈ db.snapshots, ∀ u, s.userId = some u → ¬ s.IsOf k.userId k.env.today →
      s ∈ c.world.committed.snapshots ∧ db.linesOf s.id = c.world.committed.linesOf s.id := by
    intro s hs u hu hne
    have hday := hdays u s.asOf fun heq => hne ⟨by rw [hu, heq.1], heq.2.symm⟩
    have hmem := (hday.rows s ⟨hu, rfl⟩).mp hs
    exact ⟨hmem, hday.lines s hmem ⟨hu, rfl⟩⟩
  have hsame : ∀ {j m}, j ≠ i → c.Midway j m → Calls.Midway ⟨{ c.world with committed := db }.put i
      (some y), c.call, Function.update c.begun i true⟩ j m :=
    fun hj hmid => hmid.of_same rfl (Function.update_of_ne hj _ _) (World.put_other _ hj _)
  constructor
  · exact hkeys
  · intro s hs u hu
    by_cases hof : s.IsOf k.userId k.env.today
    · exact (hown s hs hof).1
    · obtain ⟨hmem, hlines⟩ := hother s hs u hu hof
      exact (Snapshot.listed_congr hlines).mpr (h.listed s hmem u hu)
  · intro s hs u hu
    by_cases hof : s.IsOf k.userId k.env.today
    · refine (hown s hs hof).2.imp_right fun hproc => ⟨i, k, ⟨hk, ?_, y, ?_, hproc⟩, hof⟩
      · exact Function.update_self ..
      · exact World.put_self ..
    · obtain ⟨hmem, hlines⟩ := hother s hs u hu hof
      rcases h.total s hmem u hu with hadds | ⟨j, m, hmid, hofm⟩
      · exact .inl ((Snapshot.addsUp_congr hlines).mpr hadds)
      · refine .inr ⟨j, m, hsame ?_ hmid, hofm⟩
        rintro rfl
        have hmk : m = k := by
          have hcall := hmid.1.symm.trans hk
          cases hcall
          rfl
        exact hof (hmk ▸ hofm)
  · intro s hs u hu
    have hold := h.portfolio s (hportfolio ▸ hs) u hu
    unfold Db.dayValuations at hold ⊢
    rwa [show (World.put { c.world with committed := db } i (some y)).committed.portfolioValuations
      = c.world.committed.portfolioValuations from hvaluations]
  · intro j z hz
    by_cases hj : j = i
    · subst hj
      exact hk ▸ rfl
    · exact h.called j z ((World.put_other _ hj _).symm.trans hz)
  · intro j z m hz hm
    by_cases hj : j = i
    · subst hj
      obtain rfl : y = z := Option.some.inj ((World.put_self ..).symm.trans hz)
      have hmk : m = k := by
        have hcall := (show c.call j = some (.take m) from hm).symm.trans hk
        cases hcall
        rfl
      subst hmk
      dsimp only
      rw [Function.update_self]
      exact hy
    · have hrun : c.world.running j = some z := (World.put_other _ hj _).symm.trans hz
      have hat := h.take j z m hrun hm
      dsimp only
      rw [Function.update_of_ne hj]
      rcases hat.still_or_midway with hstill | ⟨hbegun, hproc⟩
      · exact hstill _
      · refine hat.sameDay (hdays _ _ fun heq => ?_)
        exact hconduct.1 k hk j m hj ⟨hm, hbegun, z, hrun, hproc⟩ ⟨heq.1.symm, heq.2.symm⟩
  · intro j z m hz hm
    by_cases hj : j = i
    · subst hj
      have hcall := (show c.call j = some (.create m) from hm).symm.trans hk
      cases hcall
    · exact h.create j z m ((World.put_other _ hj _).symm.trans hz) hm

/-- The first statement. -/
theorem Kept.turn_upsert (h : Kept c) {k : TakeSnapshot}
    {w : World Db Write Row Assumption (Except AppError Unit)} (hk : c.call i = some (.take k))
    (hx : c.world.running i = some ⟨.statements (takeSnapshotAction k), [], []⟩)
    (hturn : c.world.Turn (fun _ => False) i w) (hconduct : oneByOne.turns c i) :
    Kept ⟨w, c.call, Function.update c.begun i true⟩ := by
  obtain rfl := hturn.of_auto hx
  cases hid : k.upsertedId c.world.committed with
  | none =>
    obtain ⟨hwrites, hnone⟩ := TakeSnapshot.upsert_refused hid
    simp only [hid, hwrites]
    exact h.turn_take hk hconduct h.keys (fun _ _ _ => ⟨fun _ _ => Iff.rfl, fun _ _ _ => rfl⟩) rfl
      rfl (fun s hs hof => absurd hof (hnone s hs)) .ended
  | some id =>
    have hups := TakeSnapshot.upserts h.keys hid
    obtain ⟨s, hs, rfl⟩ := hups.row
    simp only [hid]
    refine h.turn_take hk hconduct hups.keys hups.others hups.portfolio hups.valuations
      (fun t ht hof => ?_) (.upserted hs)
    obtain rfl := hups.keys.days t ht s hs.mem _ _ hof hs.day
    refine ⟨?_, .inr fun _ hdone => by cases hdone⟩
    have hlines := linesOf_congr hups.lines t.id
    rcases hups.before with ⟨r, hr, hrid, hrof⟩ | hnone
    · refine (Snapshot.listed_congr hlines).mpr ?_
      have hlisted := h.listed r hr _ hrof.1
      unfold Snapshot.Listed at hlisted ⊢
      rwa [hrid] at hlisted
    · unfold Snapshot.Listed
      rw [hlines, hnone]
      exact List.nodup_nil

/-- A statement on the lines. -/
theorem Kept.turn_lines (h : Kept c) {k : TakeSnapshot} {s : Snapshot} {ls : List SnapshotLine}
    {db : Db} {y : SnapshotRunning} (hk : c.call i = some (.take k))
    (hconduct : oneByOne.turns c i) (hs : k.Upserted c.world.committed s)
    (hlines : s.Relined ls c.world.committed db) (hnodup : (ls.map (·.assetId)).Nodup)
    (hright : s.AddsUp db ∨ ∀ a, y.proc ≠ .done a) (hy : k.Upserted db s → k.At db y true) :
    Kept ⟨{ c.world with committed := db }.put i (some y), c.call,
      Function.update c.begun i true⟩ := by
  have hkeys := hlines.keys h.keys hs.mem
  have hs' : k.Upserted db s := ⟨hlines.rows ▸ hs.mem, hs.day, hs.total⟩
  refine h.turn_take hk hconduct hkeys (fun u e hne => hlines.sameDay h.keys hs.mem hs.day hne)
    hlines.portfolio hlines.valuations (fun t ht hof => ?_) (hy hs')
  obtain rfl := hkeys.days t ht s hs'.mem _ _ hof hs.day
  refine ⟨?_, hright⟩
  unfold Snapshot.Listed
  rw [hlines.own]
  exact hnodup

theorem Kept.turn (h : Kept c) {w : World Db Write Row Assumption (Except AppError Unit)}
    (hturn : c.world.Turn (fun _ => False) i w) (hconduct : oneByOne.turns c i) :
    Kept ⟨w, c.call, Function.update c.begun i true⟩ := by
  obtain ⟨x, hx⟩ := hturn.running
  cases hcall : c.call i with
  | none =>
    have hcalled := h.called i x hx
    rw [hcall] at hcalled
    cases hcalled
  | some call =>
    cases call with
    | create k => exact h.turn_create hcall hx hturn hconduct
    | take k =>
      have hat := h.take i x k hx hcall
      generalize c.begun i = begun at hat
      cases hat with
      | fresh => exact h.turn_upsert hcall hx hturn hconduct
      | ended => exact absurd hturn (World.Turn.of_done hx)
      | @upserted s hs =>
        obtain rfl := hturn.of_auto hx
        by_cases hlines : k.lines = []
        · have hright : k.Upserted (applyAll [.deleteSnapshotLines s.id] c.world.committed) s →
              s.AddsUp (applyAll [.deleteSnapshotLines s.id] c.world.committed) := by
            intro hs'
            refine (hs'.right ?_).2
            rw [hlines]
            exact relined_delete.own
          refine h.turn_lines hcall hconduct hs relined_delete List.nodup_nil
            (.inl (hright ⟨hs.mem, hs.day, hs.total⟩)) fun _ => ?_
          simp only [TakeSnapshot.insertLines, Tx.when, hlines, ne_eq, not_true, if_false]
          exact .ended
        · refine h.turn_lines hcall hconduct hs relined_delete List.nodup_nil (.inr ?_)
            fun hs' => .deleted hs' relined_delete.own hlines
          simp only [TakeSnapshot.insertLines, Tx.when, ne_eq, hlines, not_false_eq_true, if_true]
          exact nofun
      | @deleted s hs hnone hlines =>
        have hproc : k.insertLines s.id = Tx.write (fun _ => []) fun _ =>
            [.insertSnapshotLines (k.lines.map (·.line s.id))] := if_pos hlines
        rw [hproc] at hx
        obtain rfl := hturn.of_auto hx
        have hinsert := @relined_insert c.world.committed s (k.lines.map (·.line s.id)) hnone
          (fun l hl => by obtain ⟨v, -, rfl⟩ := List.mem_map.mp hl; rfl)
        have hright := TakeSnapshot.Upserted.right
          (⟨hs.mem, hs.day, hs.total⟩ : k.Upserted (applyAll [.insertSnapshotLines
            (k.lines.map (·.line s.id))] c.world.committed) s) hinsert.own
        refine h.turn_lines hcall hconduct hs hinsert ?_ (.inl hright.2) fun _ => .ended
        have hlisted := hright.1
        unfold Snapshot.Listed at hlisted
        rwa [hinsert.own] at hlisted

end Steps

/-! ## Whole runs -/

theorem length_le_one {α : Type} {xs : List α} (hnd : xs.Pairwise fun _ _ => False) :
    xs.length ≤ 1 := by
  match xs, hnd with
  | [], _ => exact Nat.zero_le 1
  | [_], _ => exact le_refl 1
  | a :: b :: _, hnd => exact absurd ((List.pairwise_cons.mp hnd).1 b List.mem_cons_self) id

/-- What the keys say of a day. -/
theorem Db.SnapshotKeys.day {db : Db} (h : db.SnapshotKeys) (u : Uuid) (d : IsoDate) :
    (db.snapshots.filter fun s => s.IsOf u d).length ≤ 1 ∧
      (db.portfolioSnapshots.filter fun s => s.IsOf u d).length ≤ 1 ∧
      ((db.dayValuations u d).map (·.assetId)).Nodup := by
  refine ⟨length_le_one ?_, length_le_one ?_, ?_⟩
  · have hids := (List.pairwise_map.mp h.ids).filter fun s => s.IsOf u d
    refine hids.imp_of_mem fun {s t} hs ht hne => ?_
    obtain ⟨hs, hsof⟩ := List.mem_filter.mp hs
    obtain ⟨ht, htof⟩ := List.mem_filter.mp ht
    exact hne (congrArg _ (h.days s hs t ht u d (of_decide_eq_true hsof) (of_decide_eq_true htof)))
  · refine (h.portfolioDays.filter fun s => s.IsOf u d).imp_of_mem fun {s t} hs ht hne => ?_
    have hsof : s.IsOf u d := of_decide_eq_true (List.mem_filter.mp hs).2
    have htof : t.IsOf u d := of_decide_eq_true (List.mem_filter.mp ht).2
    exact of_decide_eq_false hne ⟨by rw [hsof.1]; rfl, hsof.1.trans htof.1.symm,
      hsof.2.trans htof.2.symm⟩
  · refine List.pairwise_map.mpr ?_
    refine (h.valuations.filter fun l => l.IsOf u d).imp_of_mem fun {l m} hl hm hne hasset => ?_
    have hlof : l.IsOf u d := of_decide_eq_true (List.mem_filter.mp hl).2
    have hmof : m.IsOf u d := of_decide_eq_true (List.mem_filter.mp hm).2
    exact of_decide_eq_false hne ⟨by rw [hlof.1]; rfl, hlof.1.trans hmof.1.symm, hasset,
      hlof.2.trans hmof.2.symm⟩

/-- In every run of calls that are in turn each day has one valuation. -/
theorem stored_once {s : Db} {c : SnapshotCalls} (hkeys : s.SnapshotKeys)
    (hs : ∀ u d, s.OneValuation u d True)
    (h : Calls.Reaches SnapshotCall.process SameSnapshots (fun _ => False) oneByOne s c) (u : Uuid)
    (d : IsoDate) : c.world.committed.OneValuation u d
      (∀ i k, c.Midway i (.take k) → ¬ (k.userId = u ∧ k.env.today = d)) := by
  have hkept : Kept c := by
    refine h.keeps ⟨hkeys, ?_, ?_, ?_, nofun, nofun, nofun⟩ fun c d hc hstep => ?_
    · exact fun t ht u hu => (hs u t.asOf).lines t ht ⟨hu, rfl⟩
    · exact fun t ht u hu => .inl ((hs u t.asOf).total trivial t ht ⟨hu, rfl⟩)
    · exact fun t ht u hu => (hs u t.snapshotDate).portfolioTotal t ht ⟨hu, rfl⟩ u hu
    · cases hstep with
      | start i k hi => exact hc.start hi k
      | turn i hconduct hturn => exact hc.turn hturn hconduct
      | leave i hi => exact hc.leave hi
      | outside ht => exact hc.outside ht
  obtain ⟨hrow, hportfolioRow, hvaluations⟩ := hkept.keys.day u d
  refine ⟨hrow, fun t ht hof => hkept.listed t ht u hof.1, fun hsettled t ht hof => ?_,
    hportfolioRow, hvaluations, fun t ht _ => hkept.portfolio t ht⟩
  rcases hkept.total t ht u hof.1 with hadds | ⟨i, k, hmid, hofk⟩
  · exact hadds
  · exact absurd (hofk.unique hof) (hsettled i k hmid)

/-- What of the two coins is held: each is worth ten dollars. -/
def holding (coins : List Held) (hdistinct : (coins.map (·.assetId)).Nodup)
    (hactive : ∀ h ∈ coins, DUST < h.quantity.abs) : Valued :=
  { input := { rate := .ofInt 100000, held := coins, distinct := hdistinct, registered := [] }
    marks := [], active := hactive }

theorem both_distinct : ([tenOf 1 "USDT", tenOf 2 "USDC"].map (·.assetId)).Nodup := by decide

theorem both_active : ∀ h ∈ [tenOf 1 "USDT", tenOf 2 "USDC"], DUST < h.quantity.abs := by decide

theorem one_distinct : ([tenOf 1 "USDT"].map (·.assetId)).Nodup := by decide

theorem one_active : ∀ h ∈ [tenOf 1 "USDT"], DUST < h.quantity.abs := by decide

def bothCoins : Valued := holding [tenOf 1 "USDT", tenOf 2 "USDC"] both_distinct both_active

def oneCoin : Valued := holding [tenOf 1 "USDT"] one_distinct one_active

def demoTaking (snapshotId : Uuid) (v : Valued) : TakeSnapshot :=
  { env := { entryId := 0, today := 20261025, snapshotId }, userId := 1, valued := v
    liabilities := [] }

def demoStoring (v : Valued) : CreateSnapshot :=
  { env := { entryId := 0, snapshotId := 50 }, userId := 1, snapshotDate := 20261025, valued := v }

theorem empty_keys : ({} : Db).SnapshotKeys where
  ids := .nil
  days _ hs := absurd hs List.not_mem_nil
  lines _ hl := absurd hl List.not_mem_nil
  portfolioDays := .nil
  valuations := .nil

theorem empty_oneValuation (u : Uuid) (d : IsoDate) : ({} : Db).OneValuation u d True where
  row := Nat.zero_le 1
  lines _ hs := absurd hs List.not_mem_nil
  total _ _ hs := absurd hs List.not_mem_nil
  portfolioRow := Nat.zero_le 1
  valuations := .nil
  portfolioTotal _ hs := absurd hs List.not_mem_nil

theorem taken_once : ∃ c : SnapshotCalls,
    c.world.committed.snapshots.map (·.totalAssets) = [.ofInt 20] ∧
      c.world.committed.OneValuation 1 20261025 (∀ i k, c.Midway i (.take k) →
        ¬ (k.userId = 1 ∧ k.env.today = 20261025)) := by
  obtain ⟨c, hc, hcommitted⟩ := @Calls.Reaches.alone _ _ _ _ _ _ _ SnapshotCall.process
    SameSnapshots (fun _ => False) oneByOne {} (.take (demoTaking 40 bothCoins))
    (fun d hk hothers => ⟨fun k _ j m hj hmid => absurd (hothers j hj) hmid.running,
      fun k n ws ks hcall => by rw [hk] at hcall; cases hcall⟩)
    ⟨fun _ => False.elim, fun _ => False.elim, fun _ => False.elim, trivial⟩
  refine ⟨c, ?_, stored_once empty_keys empty_oneValuation hc 1 20261025⟩
  rw [hcommitted]
  decide

/-- The second call comes between the statements of the first. Both coins are valued, then the
second is no longer held. -/
def mixedSchedule : List (Cue Db Write Row Assumption (Except AppError Unit)) :=
  [.start 0 (SnapshotCall.process (.take (demoTaking 40 bothCoins))),
    .start 1 (SnapshotCall.process (.take (demoTaking 41 oneCoin))),
    .go 0, .go 1, .go 0, .go 1, .go 0, .go 1,
    .start 2 (SnapshotCall.process (.create (demoStoring bothCoins))), .go 2, .go 2, .go 2, .go 2,
    .start 3 (SnapshotCall.process (.create (demoStoring oneCoin))), .go 3, .go 3, .go 3]

/-- The snapshot has the first coin twice, and the lines of the portfolio are worth twice its
total. -/
theorem stored_mixed : ∃ c : World Db Write Row Assumption (Except AppError Unit),
    World.Reaches (fun p => ∃ k, p = SnapshotCall.process k) SameSnapshots (fun _ => False) {} c ∧
      c.committed.snapshotLines.map (·.assetId) = [1, 2, 1] ∧
      c.committed.portfolioSnapshots.map (·.totalPortfolioValue) = [.ofInt 10] ∧
      c.committed.portfolioValuations.map (·.totalValue) = [.ofInt 10, .ofInt 10] ∧
      ¬ c.committed.OneValuation 1 20261025 True := by
  obtain ⟨c, hc, hcheck⟩ := @Stage.exists_reaches _ _ _ _ _ _ _
    (fun p => ∃ k, p = SnapshotCall.process k) SameSnapshots {} 4 mixedSchedule
    (fun db => decide (db.snapshotLines.map (·.assetId) = [1, 2, 1] ∧
      db.portfolioSnapshots.map (·.totalPortfolioValue) = [.ofInt 10] ∧
      db.portfolioValuations.map (·.totalValue) = [.ofInt 10, .ofInt 10]) &&
      db.snapshots.any fun s => decide (s.IsOf 1 20261025 ∧ ¬ s.Listed db)) (fun p hp => by
        simp only [mixedSchedule, Stage.started, List.filterMap_cons, List.filterMap_nil,
          List.mem_cons, List.not_mem_nil, or_false] at hp
        rcases hp with rfl | rfl | rfl | rfl <;> exact ⟨_, rfl⟩) (by decide)
  obtain ⟨htables, hlisted⟩ := Bool.and_eq_true_iff.mp hcheck
  obtain ⟨hlines, htotal, hvalues⟩ := of_decide_eq_true htables
  refine ⟨c, hc, hlines, htotal, hvalues, fun hone => ?_⟩
  obtain ⟨s, hs, hday⟩ := List.any_eq_true.mp hlisted
  obtain ⟨hof, hno⟩ := of_decide_eq_true hday
  exact hno (hone.lines s hs hof)

end Pwos
