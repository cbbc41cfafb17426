import Pwos.Ledger.Among
import Pwos.Reconcile.Runs
import Pwos.Rwa.Booked

/-!
# A vehicle is sold once

Any number of sales of vehicles run at once, with an account for the proceeds or without one.
Where every update finds its vehicle unsold, the registry shows the sale that is frozen with the
entry, and what is sold stays as it is (`vehicles_sold_once`). Nothing in the code makes them
find it so: the update asks for the id alone.
-/

namespace Pwos

/-! ## The key of a sale -/

theorem trimmedKey_vehicleSaleKey (i : Uuid) :
    trimmedKey (some (vehicleSaleKey i)) = some (vehicleSaleKey i) :=
  trimmedKey_numbered i (by decide) (by decide)

theorem vehicleSaleKey_injective {i j : Uuid} (h : vehicleSaleKey i = vehicleSaleKey j) : i = j :=
  numberedKey_injective h

/-! ## What a disposal adds -/

/-- Snapshots belong to entries: the foreign key. -/
def Db.SnapshotsKnown (db : Db) : Prop :=
  ∀ f ∈ db.entryFxSnapshots, ∃ e ∈ db.journalEntries, e.id = f.entryId

/-- What a disposal has come to at `t`: it adds the writes `us`, and holds the rows `ks`. -/
inductive RegistryDisposalCmd.Adds (env : Env) (cmd : RegistryDisposalCmd) (t : Db) :
    List Write → List Row → Prop
  | replayed {us : List Write} {ks : List Row} {fs : List EntryFxSnapshot} (adds : Pwos.Adds us [] fs)
    (known : ∀ f ∈ fs, ∃ e ∈ t.journalEntries, e.id = f.entryId) : Adds env cmd t us ks
  | posted {us : List Write} {ks : List Row} {e : JournalEntry}
    (adds : Pwos.Adds us [e] (cmd.frozen env.entryId).toList) (id : e.id = env.entryId)
    (date : e.entryDate = cmd.entryDate) (key : e.idempotencyKey = trimmedKey cmd.idempotencyKey)
    (held : Row.entry env.entryId ∈ ks)
    (unused : ∀ f ∈ t.journalEntries, f.id ≠ env.entryId) : Adds env cmd t us ks

section Disposal
variable {P : Promise Db Row Assumption} {env : Env} {cmd : RegistryDisposalCmd}
  {ws us : List Write} {ks : List Row} {s t : Db}

theorem frozen_entryId {f : EntryFxSnapshot} {i : Uuid} (h : f ∈ cmd.frozen i) : f.entryId = i := by
  unfold RegistryDisposalCmd.frozen at h
  split at h
  · cases h; rfl
  · cases h

/-- A snapshot that may be there already. -/
theorem freezeRate_ok {f : EntryFxSnapshot} {vs : List Write} :
    P.Ok (fun _ xs ls t => ks ⊆ ls ∧ P.Rely ks s t ∧ (xs = vs ∨ xs = vs ++ [Write.insertFxSnapshot f]))
      (freezeRate f) vs ks s := by
  unfold freezeRate
  refine .write ?_
  intro t _ hst u _ htu
  have hsub : ks ⊆ ks ++ [Row.fxSnapshot f.entryId] := List.subset_append_left _ _
  refine ⟨hsub, P.trans hst (P.mono hsub htu), ?_⟩
  split
  · exact .inl (List.append_nil _)
  · exact .inr rfl

/-- A snapshot that cannot be there. -/
theorem freezeRate_inserts {f : EntryFxSnapshot} {vs : List Write}
    (h : ∀ t, P.Inv t → P.Rely ks s t → ∀ g ∈ (applyAll vs t).entryFxSnapshots, g.entryId ≠ f.entryId) :
    P.Ok (fun _ xs ls t => ks ⊆ ls ∧ P.Rely ks s t ∧ xs = vs ++ [Write.insertFxSnapshot f])
      (freezeRate f) vs ks s := by
  unfold freezeRate
  refine .write ?_
  intro t ht hst u _ htu
  have hsub : ks ⊆ ks ++ [Row.fxSnapshot f.entryId] := List.subset_append_left _ _
  refine ⟨hsub, P.trans hst (P.mono hsub htu), ?_⟩
  rw [if_neg]
  rintro ⟨g, hg, hid⟩
  exact h t ht hst g hg hid

/-- The snapshot is frozen with the entry that was posted, or with the one that was there. -/
theorem freezeSale_adds (hP : P.KeepsEntries) (hknown : ∀ t, P.Inv t → t.SnapshotsKnown)
    {input : PostEntryInput} {r : PostResult} {js : List Row} (hinput : input.entryDate = cmd.entryDate)
    (hkey : input.idempotencyKey = cmd.idempotencyKey) (hus : ∀ w ∈ us, w.AddsAccount)
    (hws : ∀ db : Db, (applyAll ws db).entryFxSnapshots = db.entryFxSnapshots) {vs : List Write}
    (h : input.Among env (ws ++ us) ks s r vs js) :
    P.Ok (fun _ xs ls t => ∃ more, xs = ws ++ more ∧ js ⊆ ls ∧ cmd.Adds env t more ls)
      (freezeSale (cmd.frozen r.id)) vs js s := by
  unfold freezeSale
  cases h with
  | @replayed e k mem _ _ =>
    have hmem : ∀ {t}, P.Rely ks s t → ∃ e' ∈ t.journalEntries, e'.id = e.id := by
      intro t hst
      obtain ⟨e', he', hid, -⟩ := hP.kept hst e mem
      exact ⟨e', he', hid⟩
    cases hf : cmd.frozen e.id with
    | none =>
      intro t _ _
      exact ⟨us, rfl, List.Subset.refl _, .replayed (.accounts hus) (by simp)⟩
    | some f =>
      refine freezeRate_ok.mono ?_
      rintro _ xs ls t _ ⟨hls, hst, rfl | rfl⟩
      · exact ⟨us, rfl, hls, .replayed (.accounts hus) (by simp)⟩
      · refine ⟨us ++ [Write.insertFxSnapshot f], by simp, hls,
          .replayed ((Pwos.Adds.accounts hus).append (.snapshot f)) ?_⟩
        intro g hg
        obtain rfl : g = f := by simpa using hg
        rw [frozen_entryId hf]
        exact hmem hst
  | posted userId lots _ onLots sub held unused =>
    set new := Write.insertEntry (input.entryRow env.entryId userId) ::
      .insertPostings (input.postings.map (DraftPosting.row env.entryId)) :: lots with hnew
    have hadds : Pwos.Adds (us ++ new) [input.entryRow env.entryId userId] [] :=
      (Pwos.Adds.accounts hus).append (.posting _ _ onLots)
    have hends : ∀ {t more ls}, P.Rely js s t → js ⊆ ls →
        Pwos.Adds more [input.entryRow env.entryId userId] (cmd.frozen env.entryId).toList →
        cmd.Adds env t more ls := by
      intro t more ls hst hls hmore
      refine .posted hmore rfl hinput ?_ (hls held) (hP.unused hst held unused)
      exact congrArg trimmedKey hkey
    cases hf : cmd.frozen env.entryId with
    | none =>
      rw [hf] at hends
      intro t _ hst
      exact ⟨us ++ new, by rw [List.append_assoc], List.Subset.refl _,
        hends hst (List.Subset.refl _) hadds⟩
    | some f =>
      rw [hf] at hends
      refine (freezeRate_inserts fun t ht hst g hg hid => ?_).mono ?_
      · rw [List.append_assoc, applyAll_append, hadds.snapshots, hws, List.append_nil] at hg
        obtain ⟨e, he, heq⟩ := hknown t ht g hg
        exact hP.unused hst held unused e he (heq.trans (hid.trans (frozen_entryId hf)))
      · rintro _ xs ls t _ ⟨hls, hst, rfl⟩
        refine ⟨us ++ new ++ [Write.insertFxSnapshot f], by simp, hls, hends hst hls ?_⟩
        exact hadds.append (.snapshot f)

theorem recordRegistryDisposal_adds (hP : P.KeepsEntries)
    (hknown : ∀ t, P.Inv t → t.SnapshotsKnown) (cmd : RegistryDisposalCmd)
    (hes : ∀ db : Db, (applyAll ws db).journalEntries = db.journalEntries)
    (hfs : ∀ db : Db, (applyAll ws db).entryFxSnapshots = db.entryFxSnapshots) :
    P.Ok (fun _ xs ls t => ∃ more, xs = ws ++ more ∧ ks ⊆ ls ∧ cmd.Adds env t more ls)
      (recordRegistryDisposal env cmd) ws ks s := by
  unfold recordRegistryDisposal
  refine .bind (.require fun _ t₀ _ _ => ?_)
  refine .bind (.of_readOnly (readOnly_resolveServiceUserId _ _ _) fun userId t₁ _ _ => ?_)
  refine .bind (.of_readOnly (readOnly_carriedPosition _ _) fun position t₂ _ _ => ?_)
  obtain ⟨account, carrying⟩ := position
  refine .bind (.yields ((resultLines_writesOnly env cmd userId carrying).yields (by simp)) ?_)
  intro result us js t₃ _ _ hus
  have hws : ∀ db : Db, (applyAll (ws ++ us) db).journalEntries = db.journalEntries := by
    intro db
    rw [applyAll_append, (Pwos.Adds.accounts hus).entries, hes, List.append_nil]
  refine .bind ((postEntry_among hP _ hws).frame.mono ?_)
  rintro r vs ls t₄ _ ⟨h, hsub, -⟩
  refine .map ((freezeSale_adds hP hknown rfl rfl hus hfs h).mono ?_)
  rintro _ xs ms t₅ _ ⟨more, rfl, hms, hadds⟩
  exact ⟨more, rfl, fun k hk => hms (hsub (List.mem_append_left _ hk)), hadds⟩

end Disposal

/-! ## The invariant -/

/-- The snapshot of an entry. -/
def Db.snapshotOf (db : Db) (entryId : Uuid) : Option EntryFxSnapshot :=
  db.entryFxSnapshots.find? (·.entryId = entryId)

/-- The row shows the day of the entry, and the price, the rate and the dollars frozen with it. -/
def VehicleAsset.ShowsSale (v : VehicleAsset) (e : JournalEntry) (f : EntryFxSnapshot) : Prop :=
  v.status = .sold ∧ v.saleDate = some e.entryDate ∧ v.saleUsdRate = some f.fxRate ∧
    ∃ a ∈ f.amounts, v.salePriceToman = some a.irtAmount ∧ v.saleValueUsd = some a.usdAmount

instance (v : VehicleAsset) (e : JournalEntry) (f : EntryFxSnapshot) : Decidable (v.ShowsSale e f) :=
  inferInstanceAs (Decidable (_ ∧ _ ∧ _ ∧ ∃ a ∈ f.amounts, _))

/-- The entry of a sale of the vehicle. -/
def JournalEntry.Sells (e : JournalEntry) (v : VehicleAsset) : Prop :=
  e.idempotencyKey = some (vehicleSaleKey v.id)

instance (e : JournalEntry) (v : VehicleAsset) : Decidable (e.Sells v) :=
  inferInstanceAs (Decidable (_ = _))

/-- The registry shows every sale the ledger has. -/
def Db.SalesShown (db : Db) : Prop :=
  ∀ e ∈ db.journalEntries, ∀ v ∈ db.vehicleAssets, e.Sells v →
    ∃ f ∈ db.snapshotOf e.id, v.ShowsSale e f

instance (db : Db) : Decidable db.SalesShown :=
  inferInstanceAs (Decidable (∀ e ∈ db.journalEntries, ∀ v ∈ db.vehicleAssets, e.Sells v →
    ∃ f ∈ db.snapshotOf e.id, v.ShowsSale e f))

/-- What is sold stays as it is, and no further entry sells it. -/
def SoldKept (s t : Db) : Prop :=
  ∀ v ∈ s.vehicleAssets, v.status = .sold → v ∈ t.vehicleAssets ∧
    ∀ e ∈ t.journalEntries, e.Sells v → e ∈ s.journalEntries

/-- Entries are only added. What is held, a vehicle or an unused id, stays as it is. -/
structure SalesKept (ks : List Row) (s t : Db) : Prop where
  entries : s.journalEntries ⊆ t.journalEntries
  sold : SoldKept s t
  vehicle : ∀ i, Row.vehicle i ∈ ks → ∀ v : VehicleAsset, v.id = i →
    (v ∈ t.vehicleAssets ↔ v ∈ s.vehicleAssets)
  entry : ∀ i, Row.entry i ∈ ks → ∀ e ∈ t.journalEntries, e.id = i → e ∈ s.journalEntries

theorem SoldKept.trans {s t u : Db} (h : SoldKept s t) (h' : SoldKept t u) : SoldKept s u := by
  intro v hv hsold
  obtain ⟨hvt, hst⟩ := h v hv hsold
  obtain ⟨hvu, htu⟩ := h' v hvt hsold
  exact ⟨hvu, fun e he hsells => hst e (htu e he hsells) hsells⟩

def vehiclePromise : Promise Db Row Assumption where
  Assumes := (· = .vehicleUnsold)
  Inv db := db.SnapshotsKnown ∧ db.SalesShown
  Rely := SalesKept
  refl _ _ := ⟨List.Subset.refl _, fun _ hv _ => ⟨hv, fun _ he _ => he⟩, fun _ _ _ _ => Iff.rfl,
    fun _ _ _ he _ => he⟩
  trans h h' :=
    { entries := List.Subset.trans h.entries h'.entries
      sold := h.sold.trans h'.sold
      vehicle := fun i hi v hv => (h'.vehicle i hi v hv).trans (h.vehicle i hi v hv)
      entry := fun i hi e he hid => h.entry i hi e (h'.entry i hi e he hid) hid }
  mono hsub h := ⟨h.entries, h.sold, fun i hi => h.vehicle i (hsub hi), fun i hi => h.entry i (hsub hi)⟩

theorem vehiclePromise_keepsEntries : vehiclePromise.KeepsEntries where
  kept h e he := ⟨e, h.entries he, rfl, rfl, rfl⟩
  unused h hi hs e he hid := hs e (h.entry _ hi e he hid) hid

section Commits
variable {env : Env} {cmd : RegistryDisposalCmd} {i : Uuid} {c : SaleColumns} {us : List Write}
  {es : List JournalEntry} {fs : List EntryFxSnapshot} {ks : List Row} {t : Db}

/-- A sale about to commit: the vehicle is held, and unsold. -/
structure Selling (i : Uuid) (ks : List Row) (t : Db) : Prop where
  held : Row.vehicle i ∈ ks
  unsold : ∀ v ∈ t.vehicleAssets, v.id = i → v.status = .active

theorem Selling.stable {u : Db} (h : Selling i ks t) (htu : SalesKept ks t u) : Selling i ks u :=
  ⟨h.held, fun v hv hid => h.unsold v ((htu.vehicle i h.held v hid).mp hv) hid⟩

/-- The vehicles after a sale. -/
theorem mem_sold {l : List VehicleAsset} {v : VehicleAsset} :
    v ∈ l.map (fun w => if w.id = i then w.sell c else w) ↔
      (v ∈ l ∧ v.id ≠ i) ∨ ∃ w ∈ l, w.id = i ∧ v = w.sell c := by
  rw [List.mem_map]
  constructor
  · rintro ⟨w, hw, rfl⟩
    split
    · rename_i hid
      exact .inr ⟨w, hw, hid, rfl⟩
    · rename_i hid
      exact .inl ⟨hw, hid⟩
  · rintro (⟨hv, hid⟩ | ⟨w, hw, hid, rfl⟩)
    · exact ⟨v, hv, if_neg hid⟩
    · exact ⟨w, hw, if_pos hid⟩

/-- What a sale writes: the columns of its vehicle, and at most one entry, with the columns as
its snapshot. -/
theorem commits_sale (hinv : vehiclePromise.Inv t) (hs : Selling i ks t) (ha : Adds us es fs)
    (hes : ∀ e ∈ es, e.entryDate = c.saleDate ∧ e.idempotencyKey = some (vehicleSaleKey i) ∧
      Row.entry e.id ∈ ks ∧ (∀ f ∈ t.journalEntries, f.id ≠ e.id) ∧
      ∃ f, fs = [f] ∧ f.entryId = e.id ∧ f.fxRate = c.saleUsdRate ∧
        f.amounts = some ⟨c.salePriceToman, c.saleValueUsd, c.saleDate⟩)
    (hfs : ∀ f ∈ fs, ∃ e ∈ t.journalEntries ++ es, e.id = f.entryId) :
    vehiclePromise.Commits (.sellVehicle i c :: us) ks t := by
  obtain ⟨hknown, hshown⟩ := hinv
  set u := applyAll (.sellVehicle i c :: us) t with hu
  have hvehicles : u.vehicleAssets =
      t.vehicleAssets.map fun w => if w.id = i then w.sell c else w := by
    rw [hu, applyAll_cons, ha.vehicles]
    rfl
  have hentries : u.journalEntries = t.journalEntries ++ es := by
    rw [hu, applyAll_cons, ha.entries]
    rfl
  have hsnapshots : u.entryFxSnapshots = t.entryFxSnapshots ++ fs := by
    rw [hu, applyAll_cons, ha.snapshots]
    rfl
  -- Nothing of the ledger sells the vehicle yet.
  have hnone : ∀ e ∈ t.journalEntries, ∀ w ∈ t.vehicleAssets, w.id = i → ¬ e.Sells w := by
    intro e he w hw hid hsells
    obtain ⟨f, -, hsold, -⟩ := hshown e he w hw hsells
    rw [hs.unsold w hw hid] at hsold
    cases hsold
  have hother : ∀ e ∈ es, ∀ w : VehicleAsset, w.id ≠ i → ¬ e.Sells w := by
    intro e he w hne hsells
    have hsame := (hes e he).2.1.symm.trans hsells
    exact hne (vehicleSaleKey_injective (Option.some.inj hsame)).symm
  refine ⟨⟨?_, ?_⟩, fun others hfree => ⟨?_, ?_, ?_, ?_⟩⟩
  · intro f hf
    rw [hsnapshots, List.mem_append] at hf
    rw [hentries]
    rcases hf with hf | hf
    · obtain ⟨e, he, hid⟩ := hknown f hf
      exact ⟨e, List.mem_append_left _ he, hid⟩
    · exact hfs f hf
  · intro e he v hv hsells
    rw [hentries, List.mem_append] at he
    rw [hvehicles, mem_sold] at hv
    rw [Db.snapshotOf, hsnapshots, List.find?_append]
    rcases hv with ⟨hv, hne⟩ | ⟨w, hw, hid, rfl⟩
    · rcases he with he | he
      · obtain ⟨f, hf, hshows⟩ := hshown e he v hv hsells
        have hf : t.entryFxSnapshots.find? (·.entryId = e.id) = some f := hf
        exact ⟨f, by rw [hf]; rfl, hshows⟩
      · exact absurd hsells (hother e he v hne)
    · rcases he with he | he
      · exact absurd hsells (hnone e he w hw hid)
      · obtain ⟨hdate, -, -, hnew, f, rfl, hf, hrate, hamounts⟩ := hes e he
        have hbefore : t.entryFxSnapshots.find? (·.entryId = e.id) = none := by
          rw [List.find?_eq_none]
          intro g hg hgid
          obtain ⟨d, hd, hid⟩ := hknown g hg
          exact hnew d hd (hid.trans (by simpa using hgid))
        refine ⟨f, by simp [hbefore, hf], rfl, ?_, ?_, _, hamounts, rfl, rfl⟩
        · rw [hdate]; rfl
        · rw [hrate]; rfl
  · rw [hentries]
    exact List.subset_append_left _ _
  · intro v hv hsold
    have hne : v.id ≠ i := by
      intro hid
      rw [hs.unsold v hv hid] at hsold
      cases hsold
    refine ⟨?_, fun e he hsells => ?_⟩
    · rw [hvehicles]
      exact mem_sold.mpr (.inl ⟨hv, hne⟩)
    · rw [hentries, List.mem_append] at he
      exact he.resolve_right fun he => hother e he v hne hsells
  · intro j hj v hid
    have hne : v.id ≠ i := by
      rintro h
      exact hfree _ hj (by rw [← hid, h]; exact hs.held)
    rw [hvehicles, mem_sold]
    constructor
    · rintro (⟨hv, -⟩ | ⟨w, -, hw, rfl⟩)
      · exact hv
      · exact absurd hw hne
    · exact fun hv => .inl ⟨hv, hne⟩
  · intro j hj e he hid
    rw [hentries, List.mem_append] at he
    refine he.resolve_right fun he => hfree _ hj ?_
    rw [← hid]
    exact (hes e he).2.2.1

end Commits

/-! ## One sale -/

section Programs
variable {history : IsoDate → Option DatedRate} {env : Env} {input : SellVehicleInput}
  {ks : List Row} {s : Db}

/-- The entry and the snapshot of a sale are those of its columns. -/
theorem commits_disposal {t : Db} {row : VehicleAsset} {saleDate : IsoDate} {rate : Decimal}
    {cash : PayoutAccount} {unitPriceUsd : Decimal} {more : List Write}
    (hinv : vehiclePromise.Inv t) (hs : Selling input.vehicleId ks t)
    (h : (input.disposal row (input.columns saleDate rate) cash unitPriceUsd).Adds env t more ks) :
    vehiclePromise.Commits
      (.sellVehicle input.vehicleId (input.columns saleDate rate) :: more) ks t := by
  cases h with
  | replayed adds known =>
    refine commits_sale hinv hs adds (by simp) fun f hf => ?_
    obtain ⟨e, he, hid⟩ := known f hf
    exact ⟨e, List.mem_append_left _ he, hid⟩
  | @posted e adds id date key held unused =>
    refine commits_sale hinv hs adds ?_ ?_
    · intro e' he'
      obtain rfl : e' = e := by simpa using he'
      refine ⟨date, key.trans (trimmedKey_vehicleSaleKey _), id ▸ held, id ▸ unused, _, rfl,
        id.symm, rfl, ?_⟩
      have hprice := (Decimal.Whole.toFixed input.salePriceToman).toFixed_eq
      simp only [SellVehicleInput.disposal, SellVehicleInput.columns, hprice]
    · intro f hf
      exact ⟨e, by simp, id.trans (frozen_entryId (Option.mem_toList.mp hf)).symm⟩

theorem bookVehicleSale_commits {row : VehicleAsset} {saleDate : IsoDate} {rate : Decimal}
    {cash : Option PayoutAccount} (hs : Selling input.vehicleId ks s) :
    vehiclePromise.Ok (fun _ ws js t => vehiclePromise.Commits ws js t)
      (bookVehicleSale env input row (input.columns saleDate rate) cash)
      [.sellVehicle input.vehicleId (input.columns saleDate rate)] ks s := by
  unfold bookVehicleSale
  split
  · intro t ht hst
    exact commits_sale ht (hs.stable hst) .nil (by simp) (by simp)
  · refine .bind (.ofExcept fun cash _ t₀ _ hst₀ => ?_)
    have hprice := readOnly_nativeUnitPriceUsd cash.assetId input.userId
    generalize nativeUnitPriceUsd cash.assetId input.userId = price at hprice ⊢
    refine .bind (.of_readOnly hprice fun unitPriceUsd t₁ _ hst₁ => ?_)
    have hs₁ : Selling input.vehicleId ks t₁ := (hs.stable hst₀).stable hst₁
    have hknown : ∀ t, vehiclePromise.Inv t → t.SnapshotsKnown := fun t ht => ht.1
    have hadds : vehiclePromise.Ok (fun _ xs ls t => ∃ more,
        xs = [Write.sellVehicle input.vehicleId (input.columns saleDate rate)] ++ more ∧ ks ⊆ ls ∧
          (input.disposal row (input.columns saleDate rate) cash unitPriceUsd).Adds env t more ls)
        (recordRegistryDisposal env
          (input.disposal row (input.columns saleDate rate) cash unitPriceUsd))
        [.sellVehicle input.vehicleId (input.columns saleDate rate)] ks t₁ :=
      recordRegistryDisposal_adds vehiclePromise_keepsEntries hknown _ (fun _ => rfl) (fun _ => rfl)
    refine .map (hadds.frame.mono ?_)
    rintro _ _ js t ht ⟨⟨more, rfl, hjs, hends⟩, -, hrely⟩
    refine commits_disposal ht ?_ hends
    have hst := hs₁.stable hrely
    exact ⟨hjs hst.held, hst.unsold⟩

theorem sellVehicle_honours (history : IsoDate → Option DatedRate) (env : Env)
    (input : SellVehicleInput) : vehiclePromise.Honours (fun _ _ _ _ => True)
      (sellVehicle history env input) := by
  intro s _
  unfold sellVehicle
  refine .bind (.of_readOnly (readOnly_ownVehicle _) fun row t₀ _ _ => ?_)
  refine .bind (.ofExcept fun saleDate _ t₁ _ _ => ?_)
  refine .bind (.require fun _ t₂ _ _ => ?_)
  refine .bind (.of_readOnly (readOnly_vehicleSaleRate history env input _) fun rate t₃ _ _ => ?_)
  refine .bind (.of_readOnly (readOnly_vehiclePayout _) fun cash t₄ _ _ => ?_)
  refine .bind (.writeExpecting ?_)
  intro t _ _ hunsold u _ htu
  have hs : Selling input.vehicleId [.vehicle input.vehicleId] t :=
    ⟨by simp, hunsold _ rfl rfl⟩
  exact (bookVehicleSale_commits (hs.stable htu)).mono fun _ _ _ _ _ h => ⟨h, trivial⟩

end Programs

/-! ## Runs -/

/-- A call of `sellVehicle`. -/
def VehicleSale (p : Sql (Option Uuid)) : Prop :=
  ∃ history env input, p = sellVehicle history env input

/-- Where every update of a vehicle finds it unsold, in every interleaving of sales the registry
shows every sale of the ledger, and no step changes what is sold. -/
theorem vehicles_sold_once {db : Db} (hknown : db.SnapshotsKnown) (hdb : db.SalesShown)
    {sys : System Db Write Row Assumption AppError (Option Uuid)}
    (h : System.Reaches VehicleSale (· = .vehicleUnsold) db sys) :
    sys.committed.SalesShown ∧ ∀ next, System.Step VehicleSale (· = .vehicleUnsold) sys next →
      SoldKept sys.committed next.committed := by
  have hsafe : System.Safe vehiclePromise (fun _ _ _ _ => True) sys := by
    refine System.Reaches.safe ⟨hknown, hdb⟩ ?_ h
    rintro _ ⟨history, env, input, rfl⟩
    exact sellVehicle_honours history env input
  exact ⟨hsafe.inv.2, fun _ hstep => (hsafe.step_rely hstep).sold⟩

/-- A car, a bank account and the accounts that are needed beside them. -/
def demoGarage : Db :=
  { users := [1]
    assets := [⟨1, "USD", "CASH", false⟩, ⟨2, "001", "RWA", false⟩]
    accounts := [⟨11, 0, some 1, "1010", "بانک", .asset, some 1, false⟩,
      ⟨12, 0, some 1, OPENING_EQUITY_CODE, "سرمایه افتتاحیه", .equity, some 1, false⟩]
    vehicleAssets := [{ id := 5, userId := some 1, assetId := 2, brand := "پژو", model := "۲۰۶" }] }

/-- A sale at a rate of 100000 Toman. -/
def demoVehicleSale (entryId : Uuid) (saleDate : IsoDate) (price : Int)
    (saleAccountId : Option Uuid) : Sql (Option Uuid) :=
  sellVehicle (fun _ => none) { entryId }
    { vehicleId := 5, saleDate := some saleDate, salePriceToman := .ofInt price
      saleUsdRate := some (.ofInt 100000), saleAccountId, userId := some 1 }

theorem demoVehicleSale_sale (entryId : Uuid) (saleDate : IsoDate) (price : Int)
    (saleAccountId : Option Uuid) : VehicleSale (demoVehicleSale entryId saleDate price saleAccountId) :=
  ⟨_, _, _, rfl⟩

theorem demoGarage_known : demoGarage.SnapshotsKnown := by
  simp [Db.SnapshotsKnown, demoGarage]

/-- The car is sold into the account, and its entry shows. -/
theorem car_sold_once : ∃ sys : System Db Write Row Assumption AppError (Option Uuid),
    System.Reaches VehicleSale (· = .vehicleUnsold) demoGarage sys ∧
      sys.committed.journalEntries.map (·.idempotencyKey) = [some (vehicleSaleKey 5)] ∧
      sys.committed.SalesShown := by
  have hmet : (demoVehicleSale 1 20260501 500000000 (some 11)).Met (· = .vehicleUnsold)
      demoGarage := by
    repeat first
      | exact trivial
      | refine ⟨fun _ _ => trivial, ?_⟩
      | refine ⟨fun _ _ _ => by decide, ?_⟩
  have hidle : System.Reaches VehicleSale (· = .vehicleUnsold) demoGarage
      (System.idle (demoGarage : Db)) := .idle
  obtain ⟨sys, hreach, -, hsys⟩ := hidle.alone (fun _ => rfl) (demoVehicleSale_sale _ _ _ _) hmet rfl
  have hall := vehicles_sold_once demoGarage_known (by decide) hreach
  refine ⟨sys, hreach, ?_, hall.1⟩
  rw [hsys]
  decide

/-- First into the account, then without one, at another price on another day. -/
def soldAgain : List (Move Db Write Row Assumption AppError (Option Uuid)) :=
  [Move.begin 0 (demoVehicleSale 1 20260501 500000000 (some 11))] ++
    List.replicate 12 (Move.go 0) ++
    [Move.commit 0, Move.begin 0 (demoVehicleSale 2 20260601 700000000 none)] ++
    List.replicate 2 (Move.go 0) ++ [Move.commit 0]

theorem begun_soldAgain : Board.begun soldAgain =
    [demoVehicleSale 1 20260501 500000000 (some 11),
      demoVehicleSale 2 20260601 700000000 none] := rfl

def HidesSale (db : Db) : Bool := decide (¬ db.SalesShown)

/-- The row shows the second sale, the entry is of the first. -/
theorem car_sold_again : demoGarage.SnapshotsKnown ∧ demoGarage.SalesShown ∧
    ∃ sys : System Db Write Row Assumption AppError (Option Uuid),
      System.Reaches VehicleSale (fun _ => False) demoGarage sys ∧
      ¬ sys.committed.SalesShown := by
  have hreplay : ((Board.idle 1 demoGarage).replay soldAgain).any
      (fun b => HidesSale b.committed) = true := by decide
  have hsales : ∀ p ∈ Board.begun soldAgain, VehicleSale p := by
    rw [begun_soldAgain]
    intro p hp
    rcases List.mem_pair.mp hp with rfl | rfl <;> exact demoVehicleSale_sale _ _ _ _
  obtain ⟨sys, hreach, hcheck⟩ := Board.exists_reaches hsales hreplay
  exact ⟨demoGarage_known, by decide, sys, hreach, of_decide_eq_true hcheck⟩

end Pwos
