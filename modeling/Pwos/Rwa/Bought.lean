import Pwos.Reconcile.Runs
import Pwos.Rwa.Booked
import Pwos.Rwa.Purchase

/-!
# What a purchase books

A vehicle that is paid for, or a property, comes into the ledger as one posting of one unit, at
the purchase value its row shows.
-/

namespace Pwos

/-! ## The position of an asset -/

namespace Db
variable (db : Db) (assetId : Uuid)

def postingsIn : List Posting := db.postings.filter (·.assetId = assetId)

/-- A column of the live postings of an asset, summed up over all accounts. -/
def postedSum (column : Posting → Decimal) : Decimal :=
  (((db.postingsIn assetId).filter fun p => db.Posted p.entryId).map column).sum

def unitsOf : Decimal := db.postedSum assetId (·.quantity)
def bookOf : Decimal := db.postedSum assetId (·.baseValue)

/-- The asset has one posting, live, of one unit. -/
structure HoldsOne (value : Decimal) (p : Posting) : Prop where
  rows : db.postingsIn assetId = [p]
  live : db.Posted p.entryId
  units : p.quantity = .ofInt 1
  base : p.baseValue = value

/-- Ids that new rows are given are nobody's. -/
structure Fresh (env : Env) : Prop where
  entry : db.Unused env.entryId
  postings : ∀ p ∈ db.postings, p.assetId ≠ env.rwaAssetId
  accounts : ∀ a ∈ db.accounts, a.assetId ≠ some env.rwaAssetId
  vehicle : ∀ e ∈ db.journalEntries, e.idempotencyKey ≠ some (vehiclePurchaseKey env.vehicleId)
  property : ∀ e ∈ db.journalEntries,
    e.idempotencyKey ≠ some (realEstateAcquisitionKey env.rwaAssetId)

end Db

theorem Db.Fresh.of_tables {env : Env} {db db' : Db} (h : db.Fresh env)
    (haccounts : db'.accounts = db.accounts) (hentries : db'.journalEntries = db.journalEntries)
    (hpostings : db'.postings = db.postings)
    (hsnapshots : db'.entryFxSnapshots = db.entryFxSnapshots) : db'.Fresh env where
  entry := ⟨hentries ▸ h.entry.entry, hpostings ▸ h.entry.posting, hsnapshots ▸ h.entry.snapshot⟩
  postings := hpostings ▸ h.postings
  accounts := haccounts ▸ h.accounts
  vehicle := hentries ▸ h.vehicle
  property := hentries ▸ h.property

section Position
variable {db : Db} {assetId : Uuid}

theorem postedSum_withEntry {column : Posting → Decimal} {drafted : DraftPosting → Decimal}
    {e : JournalEntry} {lines : List DraftPosting}
    (hcolumn : ∀ l, column (DraftPosting.row e.id l) = drafted l)
    (hnew : db.Unused e.id) (hposted : e.status = .posted) :
    (db.withEntry e (lines.map (DraftPosting.row e.id))).postedSum assetId column =
      db.postedSum assetId column + ((lines.filter (·.assetId = assetId)).map drafted).sum := by
  have hlive : (db.withEntry e (lines.map (DraftPosting.row e.id))).Posted e.id :=
    ⟨e, List.mem_append_right _ (List.mem_singleton_self e), rfl, hposted⟩
  have hold : ∀ p ∈ db.postings, (db.withEntry e (lines.map (DraftPosting.row e.id))).Posted
      p.entryId ↔ db.Posted p.entryId := by
    intro p hp
    simp only [Db.Posted, Db.withEntry, List.mem_append, List.mem_singleton]
    constructor
    · rintro ⟨f, hf | rfl, hid, hstatus⟩
      · exact ⟨f, hf, hid, hstatus⟩
      · exact absurd hid.symm (hnew.posting p hp)
    · rintro ⟨f, hf, h⟩
      exact ⟨f, .inl hf, h⟩
  have hrows : (db.withEntry e (lines.map (DraftPosting.row e.id))).postings =
      db.postings ++ lines.map (DraftPosting.row e.id) := rfl
  unfold Db.postedSum Db.postingsIn
  rw [hrows, List.filter_append, List.filter_append, List.map_append, List.sum_append]
  congr 1
  · congr 2
    apply List.filter_congr
    intro p hp
    simp only [hold p (List.mem_of_mem_filter hp)]
  · have hmap : (lines.map (DraftPosting.row e.id)).filter (·.assetId = assetId) =
        (lines.filter (·.assetId = assetId)).map (DraftPosting.row e.id) := by
      rw [List.filter_map]
      rfl
    have hall : ((lines.filter (·.assetId = assetId)).map (DraftPosting.row e.id)).filter
        (fun p => (db.withEntry e (lines.map (DraftPosting.row e.id))).Posted p.entryId) =
          (lines.filter (·.assetId = assetId)).map (DraftPosting.row e.id) := by
      rw [List.filter_eq_self]
      intro p hp
      obtain ⟨l, -, rfl⟩ := List.mem_map.mp hp
      exact decide_eq_true hlive
    rw [hmap, hall, List.map_map]
    congr 1
    apply List.map_congr_left
    exact fun l _ => hcolumn l

theorem Db.HoldsOne.sum {value : Decimal} {p : Posting} (h : db.HoldsOne assetId value p)
    (column : Posting → Decimal) : db.postedSum assetId column = column p := by
  simp [Db.postedSum, h.rows, h.live]

/-- An entry whose first line is the one unit. -/
theorem holdsOne_withEntry {e : JournalEntry} {first : DraftPosting} {others : List DraftPosting}
    (hnew : ∀ p ∈ db.postings, p.assetId ≠ assetId) (hposted : e.status = .posted)
    (hfirst : first.assetId = assetId) (hunits : first.quantity = .ofInt 1)
    (hothers : ∀ l ∈ others, l.assetId ≠ assetId) :
    (db.withEntry e ((first :: others).map (DraftPosting.row e.id))).HoldsOne assetId
      first.baseValue (first.row e.id) := by
  refine ⟨?_, ⟨e, by simp [Db.withEntry], rfl, hposted⟩, hunits, rfl⟩
  have hold : db.postings.filter (·.assetId = assetId) = [] := by
    simpa [List.filter_eq_nil_iff] using hnew
  have hrest : (others.map (DraftPosting.row e.id)).filter (·.assetId = assetId) = [] := by
    simpa [List.filter_eq_nil_iff, DraftPosting.row] using hothers
  simp [Db.postingsIn, Db.withEntry, hold, hrest, DraftPosting.row, hfirst]

theorem Db.HoldsOne.congr {db' : Db} {value : Decimal} {p : Posting} (h : db.HoldsOne assetId value p)
    (hpostings : db'.postings = db.postings) (hentries : db'.journalEntries = db.journalEntries) :
    db'.HoldsOne assetId value p := by
  refine ⟨?_, ?_, h.units, h.base⟩
  · rw [Db.postingsIn, hpostings]
    exact h.rows
  · rw [Db.Posted, hentries]
    exact h.live

end Position

/-! ## An entry under a new key -/

theorem postEntry_newKey {env : Env} {input : PostEntryInput} {db db' : Db} {r : PostResult}
    (hopen : input.lotList = []) (hclose : input.closeLot = none)
    (hkey : ∀ k ∈ trimmedKey input.idempotencyKey, ∀ e ∈ db.journalEntries,
      e.idempotencyKey ≠ some k)
    (h : (postEntry env input).run db = .ok (r, db')) :
    r.id = env.entryId ∧ ∃ userId, db' = db.withEntry (input.entryRow env.entryId userId)
      (input.postings.map (DraftPosting.row env.entryId)) := by
  obtain ⟨⟨_, k, found, -, hk, hfound, -, -⟩, -⟩ | ⟨rfl, userId, -, -, hdb'⟩ :=
    postEntry_plain_ok hopen hclose h
  · have hheld := List.find?_some hfound
    simp only [decide_eq_true_eq] at hheld
    exact absurd hheld.2 (hkey k hk found (List.mem_of_find?_eq_some hfound))
  · exact ⟨rfl, userId, hdb'⟩

/-! ## Vehicles -/

section Vehicle
variable {rules : RegistryRules} {env : Env} {input : CreateUserVehicleInput} {db db' : Db}

theorem readOnly_currentPurchaseRate (env : Env) (date : IsoDate) (userId : Option Uuid) :
    (currentPurchaseRate env date userId).ReadOnly := by
  unfold currentPurchaseRate
  split
  · exact (readOnly_getLatestUsdIrtRateForUser _).bind fun _ => Tx.readOnly_done _
  · trivial

theorem readOnly_resolveAutomaticPurchaseRate (history : IsoDate → Option DatedRate) (env : Env)
    (date : IsoDate) (userId : Option Uuid) :
    (resolveAutomaticPurchaseRate history env date userId).ReadOnly := by
  refine (Tx.readOnly_require _ _).bind fun _ => ?_
  refine (readOnly_currentPurchaseRate _ _ _).bind fun current => ?_
  split
  · trivial
  · refine (readOnly_resolveUsdRateForDateToFreeze _ _ _ _).bind fun result => ?_
    exact (Tx.readOnly_require _ _).bind fun _ => Tx.readOnly_done _

theorem readOnly_vehicleTerms (rules : RegistryRules) (env : Env)
    (input : CreateUserVehicleInput) : (vehicleTerms rules env input).ReadOnly := by
  unfold vehicleTerms
  refine (Tx.readOnly_ofExcept _).bind fun catalogId => ?_
  refine (Tx.readOnly_ofExcept _).bind fun model => ?_
  refine (Tx.readOnly_require _ _).bind fun _ => ?_
  refine (Tx.readOnly_ofExcept _).bind fun ownershipDate => ?_
  refine (Tx.readOnly_require _ _).bind fun _ => ?_
  refine (readOnly_resolveAutomaticPurchaseRate _ _ _ _).bind fun resolved => ?_
  refine Tx.ReadOnly.bind ?_ fun currentRate => ?_
  · unfold currentVehicleRate
    dsimp only
    split
    · exact (readOnly_resolveUsdRateForDateToFreeze _ _ _ _).bind fun _ => Tx.readOnly_done _
    · trivial
  · exact (Tx.readOnly_ofExcept _).bind fun _ => Tx.readOnly_done _

/-- The paying account is one of the accounts, with its unit. -/
theorem requireTomanBankAccount_ok {isBank : Account → Option Asset → Bool} {accountId : Uuid}
    {userId : Option Uuid} {bank : TomanBankAccount}
    (h : (requireTomanBankAccount isBank accountId userId).run db = .ok (bank, db')) :
    db' = db ∧ ∃ a ∈ db.accounts, a.assetId = some bank.assetId := by
  unfold requireTomanBankAccount at h
  rw [Tx.run_read_bind] at h
  obtain ⟨⟨a, asset, assetId⟩, _, h₁, k₁⟩ := Tx.run_bind_ok.mp h
  obtain ⟨hrow, rfl⟩ := Tx.run_ofExcept_ok.mp h₁
  obtain ⟨b, hb, hrest⟩ := Option.bind_eq_some_iff.mp (orComplain_ok.mp hrow)
  obtain ⟨unit, hunit, hrest⟩ := Option.bind_eq_some_iff.mp hrest
  split at hrest
  · cases hrest
    rw [Tx.run_require_bind] at k₁
    split at k₁
    · cases k₁
      exact ⟨rfl, a, List.mem_of_find?_eq_some hb, hunit⟩
    · cases k₁
  · cases hrest

/-- Providing the account of a vehicle adds an account at most. -/
theorem ensureVehicleAccount_writesOnly (env : Env) (input : CreateUserVehicleInput)
    (symbol label : String) :
    (ensureVehicleAccount env input symbol label).WritesOnly Write.AddsAccount := by
  unfold ensureVehicleAccount
  refine (insertAccount_writesOnly _).bind fun created => ?_
  split
  · trivial
  · exact ((Tx.readOnly_read _).bind fun _ => Tx.readOnly_ofExcept _).writesOnly

theorem payVehicle_ok {t : VehicleTerms} {symbol : String} {userSeq : Nat} {accountId : Uuid}
    (hfresh : db.Fresh env) (hpaid : input.paymentAccountId = some accountId)
    (h : (payVehicle rules env input t symbol userSeq).run db = .ok ((), db')) :
    (∃ p, db'.HoldsOne env.rwaAssetId t.purchaseValueUsd p) ∧
      db'.vehicleAssets = db.vehicleAssets := by
  unfold payVehicle at h
  rw [hpaid] at h
  obtain ⟨bank, db₁, h₁, k₁⟩ := Tx.run_bind_ok.mp h
  obtain ⟨hsame, a, ha, hunit⟩ := requireTomanBankAccount_ok h₁
  subst db₁
  obtain ⟨account, _, h₂, k₂⟩ := Tx.run_bind_ok.mp k₁
  obtain ⟨accounts, assets, rfl⟩ := extendsChart_run
    (extendsChart_of_accounts (ensureVehicleAccount_writesOnly _ _ _ _)) h₂
  obtain ⟨entry, db₂, h₃, k₃⟩ := Tx.run_bind_ok.mp k₂
  set drafted := t.entry env input (buildRwaLabel .vehicle (some userSeq)) account.id bank
  have hkey : ∀ k ∈ trimmedKey drafted.idempotencyKey,
      ∀ e ∈ (db.withChart accounts assets).journalEntries, e.idempotencyKey ≠ some k := by
    intro k hk e he
    obtain rfl : vehiclePurchaseKey env.vehicleId = k :=
      Option.some.inj ((trimmedKey_numbered _ (by decide) (by decide)).symm.trans hk)
    exact hfresh.vehicle e he
  obtain ⟨-, userId, rfl⟩ := postEntry_newKey (by rfl) (by rfl) hkey h₃
  unfold insertFxSnapshot at k₃
  rw [Tx.run_insert] at k₃
  split at k₃
  · cases k₃
    have hbank : bank.assetId ≠ env.rwaAssetId := fun hx => hfresh.accounts a ha (hx ▸ hunit)
    have hothers : ∀ l ∈ drafted.postings.tail, l.assetId ≠ env.rwaAssetId := by
      intro l hl
      rw [List.mem_singleton.mp hl]
      exact hbank
    have hheld : ((db.withChart accounts assets).withEntry (drafted.entryRow env.entryId userId)
        (drafted.postings.map (DraftPosting.row env.entryId))).HoldsOne env.rwaAssetId
          t.purchaseValueUsd _ := holdsOne_withEntry hfresh.postings rfl rfl rfl hothers
    exact ⟨⟨_, hheld.congr rfl rfl⟩, rfl⟩
  · cases k₃

/-- A vehicle that is paid for is one unit at the purchase value of its row. -/
theorem createUserVehicle_ok {created : CreatedVehicle} {accountId : Uuid} (hfresh : db.Fresh env)
    (hpaid : input.paymentAccountId = some accountId)
    (h : (createUserVehicle rules env input).run db = .ok (created, db')) :
    created.assetId = env.rwaAssetId ∧ ∃ (t : VehicleTerms) (p : Posting),
      db'.HoldsOne env.rwaAssetId t.purchaseValueUsd p ∧
      db'.findVehicle created.id = some (t.row env input created.userSeq) := by
  unfold createUserVehicle at h
  obtain ⟨t, db₁, h₁, k₁⟩ := Tx.run_bind_ok.mp h
  obtain ⟨-, hsame⟩ := (readOnly_vehicleTerms _ _ _).run_ok.mp h₁
  subst db₁
  unfold registerVehicle nextRwaSymbol nextUserRwaSeq insertRwaAsset insertVehicleRow at k₁
  simp only [Tx.bind_assoc, Tx.pure_eq, Tx.done_bind, Tx.run_lock_bind, Tx.run_read_bind,
    Tx.run_insert_bind] at k₁
  split at k₁
  · split at k₁
    · rename_i hunused
      obtain ⟨_, db₂, h₂, k₂⟩ := Tx.run_bind_ok.mp k₁
      cases k₂
      obtain ⟨⟨p, hp⟩, hrows⟩ := payVehicle_ok (by exact hfresh.of_tables rfl rfl rfl rfl) hpaid h₂
      refine ⟨rfl, t, p, hp, ?_⟩
      have hnone : ∀ v ∈ db.vehicleAssets, v.id ≠ env.vehicleId := fun v hv => (hunused v hv).1
      have hfind : db.vehicleAssets.find? (·.id = env.vehicleId) = none := by
        simpa [List.find?_eq_none] using hnone
      simp [Db.findVehicle, hrows, Writable.apply, Write.apply, List.find?_append, hfind,
        VehicleTerms.row]
    · cases k₁
  · cases k₁

end Vehicle

/-! ## Numbered assets -/

/-- A real asset is known by a number, and is no currency. -/
structure Db.Numbered (db : Db) (assetId : Uuid) : Prop where
  known : ∃ a ∈ db.assets, a.id = assetId
  symbol : ∀ a ∈ db.assets, a.id = assetId → a.symbol ≠ "USD" ∧ a.symbol ≠ "IRT"

theorem buildRwaSymbol_isDigit {n : Nat} : ∀ c ∈ (buildRwaSymbol n).toList, c.isDigit = true := by
  intro c hc
  simp only [buildRwaSymbol, String.toList_ofList, List.leftpad, List.mem_append,
    List.mem_replicate] at hc
  rcases hc with ⟨-, rfl⟩ | hc
  · decide
  · exact Nat.isDigit_of_mem_toDigits (by decide) (by decide) hc

theorem buildRwaSymbol_ne {n : Nat} {text : String} {c : Char} (hc : c ∈ text.toList)
    (hdigit : c.isDigit = false) : buildRwaSymbol n ≠ text := by
  rintro rfl
  rw [buildRwaSymbol_isDigit c hc] at hdigit
  cases hdigit

section Dollar
variable {env : Env} {db db' : Db} {assetId : Uuid}

theorem numbered_newAsset {n : Nat} (h : ∀ a ∈ db.assets, a.id ≠ assetId) :
    Db.Numbered { db with assets := db.assets ++
      [{ id := assetId, symbol := buildRwaSymbol n, classCode := "RWA" }] } assetId := by
  refine ⟨⟨_, List.mem_append_right _ (List.mem_singleton_self _), rfl⟩, fun a ha hid => ?_⟩
  rcases List.mem_append.mp ha with ha | ha
  · exact absurd hid (h a ha)
  · rw [List.mem_singleton.mp ha]
    have husd : 'U' ∈ "USD".toList := by decide
    have hirt : 'I' ∈ "IRT".toList := by decide
    exact ⟨buildRwaSymbol_ne husd (by decide), buildRwaSymbol_ne hirt (by decide)⟩

theorem usdAsset_ne {a : Asset} (hx : db.Numbered assetId) (h : db.usdAsset = some a) :
    a.id ≠ assetId := by
  intro hid
  have hsymbol := List.find?_some h
  simp only [decide_eq_true_eq] at hsymbol
  exact (hx.symbol a (List.mem_of_find?_eq_some h) hid).1 hsymbol

theorem Db.Numbered.withChart {accounts : List Account} {assets : List Asset}
    (hx : db.Numbered assetId) (h : ∀ a ∈ assets, a.id ≠ assetId) :
    (db.withChart accounts assets).Numbered assetId := by
  refine ⟨?_, fun a ha hid => ?_⟩
  · obtain ⟨a, ha, hid⟩ := hx.known
    exact ⟨a, List.mem_append_left _ ha, hid⟩
  · rcases List.mem_append.mp ha with ha | ha
    · exact hx.symbol a ha hid
    · exact absurd hid (h a ha)

/-- The dollar is another asset. -/
theorem ensureUsdAssetId_ok {usdAssetId : Uuid} (hx : db.Numbered assetId)
    (h : (ensureUsdAssetId env).run db = .ok (usdAssetId, db')) :
    usdAssetId ≠ assetId ∧ db'.Numbered assetId ∧ ∃ assets, db' = db.withChart [] assets := by
  unfold ensureUsdAssetId at h
  rw [Tx.run_read_bind] at h
  have hsame : db = db.withChart [] [] := by simp [Db.withChart]
  split at h
  · rename_i a hfind
    cases h
    exact ⟨usdAsset_ne hx hfind, hx, [], hsame⟩
  · unfold insertUsdAsset at h
    rw [Tx.run_write_bind, Tx.run_read_bind] at h
    obtain ⟨husd, rfl⟩ := Tx.run_ofExcept_ok.mp h
    -- The asset is there, so no dollar is made under its id.
    have hgrown : ∃ assets, applyAll (if ∃ a ∈ db.assets, a.id = env.assetId ∨
        a.symbol = "USD" ∧ a.deleted = false then [] else
          [Write.insertAsset { id := env.assetId, symbol := "USD", classCode := "RWA" }]) db =
            db.withChart [] assets ∧ ∀ a ∈ assets, a.id ≠ assetId := by
      split
      · exact ⟨[], hsame, by simp⟩
      · rename_i hnone
        refine ⟨[_], by simp [Db.withChart, Writable.apply, Write.apply]; rfl, ?_⟩
        simp only [List.mem_singleton, forall_eq]
        rintro rfl
        obtain ⟨a, ha, hid⟩ := hx.known
        exact hnone ⟨a, ha, .inl hid⟩
    obtain ⟨assets, hdb, hassets⟩ := hgrown
    rw [hdb] at husd ⊢
    have hnumbered : (db.withChart [] assets).Numbered assetId := hx.withChart hassets
    refine ⟨?_, hnumbered, assets, rfl⟩
    split at husd
    · rename_i a hfind
      cases husd
      exact usdAsset_ne hnumbered hfind
    · cases husd

end Dollar

/-! ## Properties -/

section Property
variable {rules : RegistryRules} {env : Env} {input : CreateRealEstateAssetInput} {db db' : Db}

theorem readOnly_propertyTerms (rules : RegistryRules) (env : Env)
    (input : CreateRealEstateAssetInput) : (propertyTerms rules env input).ReadOnly := by
  unfold propertyTerms
  refine (Tx.readOnly_ofExcept _).bind fun place => ?_
  refine (Tx.readOnly_ofExcept _).bind fun acquisitionDate => ?_
  refine (Tx.readOnly_ofExcept _).bind fun valuationDate => ?_
  refine (Tx.readOnly_require _ _).bind fun _ => ?_
  refine (Tx.readOnly_require _ _).bind fun _ => ?_
  refine (Tx.readOnly_require _ _).bind fun _ => ?_
  refine (readOnly_resolveAutomaticPurchaseRate _ _ _ _).bind fun purchaseFx => ?_
  refine (Tx.readOnly_require _ _).bind fun _ => ?_
  refine Tx.ReadOnly.bind ?_ fun valuationFx => ?_
  · unfold initialValuationRate
    split
    · trivial
    · exact readOnly_resolveUsdRateForDateToFreeze _ _ _ _
  · refine (Tx.readOnly_require _ _).bind fun _ => ?_
    exact (Tx.readOnly_ofExcept _).bind fun _ => Tx.readOnly_done _

theorem payingBank_ok {bank : Option TomanBankAccount}
    (h : (payingBank rules input).run db = .ok (bank, db')) :
    db' = db ∧ ∀ b ∈ bank, ∃ a ∈ db.accounts, a.assetId = some b.assetId := by
  unfold payingBank at h
  split at h
  · cases h
    exact ⟨rfl, by simp⟩
  · obtain ⟨b, db₁, h₁, k₁⟩ := Tx.run_bind_ok.mp h
    cases k₁
    obtain ⟨hsame, hunit⟩ := requireTomanBankAccount_ok h₁
    exact ⟨hsame, by simpa using hunit⟩

theorem freezeRate_tables {f : EntryFxSnapshot} (h : (freezeRate f).run db = .ok ((), db')) :
    db'.postings = db.postings ∧ db'.journalEntries = db.journalEntries ∧
      db'.realEstateProperties = db.realEstateProperties ∧ db'.accounts = db.accounts := by
  unfold freezeRate at h
  rw [Tx.run_write] at h
  cases h
  split <;> exact ⟨rfl, rfl, rfl, rfl⟩

theorem insertValuationSnapshot_ok {s : RealEstateValuationSnapshot}
    (h : (insertValuationSnapshot s).run db = .ok ((), db')) :
    db' = Write.apply (.insertValuation s) db := by
  unfold insertValuationSnapshot at h
  rw [Tx.run_read_bind, Tx.run_require_bind] at h
  split at h
  · rw [Tx.run_insert] at h
    split at h
    · cases h
      rfl
    · cases h
  · cases h

theorem recordCurrentPrice_tables {assetId : Uuid} {valueUsd : Decimal} {date : IsoDate}
    (h : (recordCurrentPrice assetId valueUsd date).run db = .ok ((), db')) :
    db'.postings = db.postings ∧ db'.journalEntries = db.journalEntries ∧
      db'.realEstateProperties = db.realEstateProperties := by
  unfold recordCurrentPrice Tx.when at h
  split at h
  · rw [Tx.run_write] at h
    cases h
    exact ⟨rfl, rfl, rfl⟩
  · cases h
    exact ⟨rfl, rfl, rfl⟩

/-- The acquisition is one unit at the purchase value, against other assets. -/
theorem postRealEstateOpeningEntry_ok {t : PropertyTerms} {label symbol : String}
    {payment : Option TomanBankAccount} {entryId : Uuid} (hfresh : db.Fresh env)
    (hnumbered : db.Numbered env.rwaAssetId) (hbank : ∀ b ∈ payment, b.assetId ≠ env.rwaAssetId)
    (h : (postRealEstateOpeningEntry rules env input t label symbol payment).run db =
      .ok (entryId, db')) :
    (∃ p, db'.HoldsOne env.rwaAssetId t.purchaseValueUsd p) ∧
      db'.realEstateProperties = db.realEstateProperties := by
  unfold postRealEstateOpeningEntry at h
  obtain ⟨accounts, db₁, h₁, k₁⟩ := Tx.run_bind_ok.mp h
  obtain ⟨as, rfl⟩ := addsAccount_run (ensureRealEstateLedgerAccounts_writesOnly env) h₁
  obtain ⟨usdAssetId, db₂, h₂, k₂⟩ := Tx.run_bind_ok.mp k₁
  obtain ⟨husd, -, bs, rfl⟩ := ensureUsdAssetId_ok (hnumbered.withChart (by simp)) h₂
  obtain ⟨posted, db₃, h₃, k₃⟩ := Tx.run_bind_ok.mp k₂
  obtain ⟨_, db₄, h₄, k₄⟩ := Tx.run_bind_ok.mp k₃
  cases k₄
  set drafted := t.entry rules env input label symbol accounts usdAssetId payment
  have hkey : ∀ k ∈ trimmedKey drafted.idempotencyKey, ∀ e ∈
      ((db.withChart as []).withChart [] bs).journalEntries, e.idempotencyKey ≠ some k := by
    intro k hk e he
    obtain rfl : realEstateAcquisitionKey env.rwaAssetId = k :=
      Option.some.inj ((trimmedKey_numbered _ (by decide) (by decide)).symm.trans hk)
    exact hfresh.property e he
  obtain ⟨-, userId, rfl⟩ := postEntry_newKey (by rfl) (by rfl) hkey h₃
  obtain ⟨hpostings, hentries, hrows, -⟩ := freezeRate_tables h₄
  have hothers : ∀ l ∈ drafted.postings.tail, l.assetId ≠ env.rwaAssetId := by
    intro l hl
    rw [List.mem_singleton.mp hl]
    cases payment with
    | none => exact husd
    | some bank => exact hbank bank rfl
  have hheld : (((db.withChart as []).withChart [] bs).withEntry
      (drafted.entryRow env.entryId userId)
      (drafted.postings.map (DraftPosting.row env.entryId))).HoldsOne env.rwaAssetId
        t.purchaseValueUsd _ := holdsOne_withEntry hfresh.postings rfl rfl rfl hothers
  exact ⟨⟨_, hheld.congr hpostings hentries⟩, hrows⟩

/-- A property is one unit at the purchase value of its row. -/
theorem createRealEstateAsset_ok {created : CreatedProperty} (hfresh : db.Fresh env)
    (h : (createRealEstateAsset rules env input).run db = .ok (created, db')) :
    created.assetId = env.rwaAssetId ∧ ∃ (t : PropertyTerms) (p : Posting),
      db'.HoldsOne env.rwaAssetId t.purchaseValueUsd p ∧
      ∀ q ∈ db'.realEstateProperties, q.id = created.id → q.assetId = env.rwaAssetId ∧
        q.purchaseValueUsd = some t.purchaseValueUsd := by
  unfold createRealEstateAsset at h
  obtain ⟨t, db₁, h₁, k₁⟩ := Tx.run_bind_ok.mp h
  obtain ⟨-, hsame⟩ := (readOnly_propertyTerms _ _ _).run_ok.mp h₁
  subst db₁
  unfold registerProperty nextRwaSymbol nextUserRwaSeq insertRwaAsset insertPropertyRow at k₁
  obtain ⟨payment, db₂, h₂, k₂⟩ := Tx.run_bind_ok.mp k₁
  obtain ⟨hsame, hpaying⟩ := payingBank_ok h₂
  subst db₂
  simp only [Tx.bind_assoc, Tx.pure_eq, Tx.done_bind, Tx.run_lock_bind, Tx.run_read_bind,
    Tx.run_insert_bind] at k₂
  split at k₂
  · rename_i hasset
    split at k₂
    · rename_i hunused
      obtain ⟨_, db₃, h₃, k₃⟩ := Tx.run_bind_ok.mp k₂
      obtain ⟨entryId, db₄, h₄, k₄⟩ := Tx.run_bind_ok.mp k₃
      have hvaluation := insertValuationSnapshot_ok h₃
      subst db₃
      have hnumbered := numbered_newAsset
        (n := firstFree (fun n => buildRwaSymbol n ∈ db.occupiedSymbols) db.occupiedSymbols.length 1)
        fun a ha => (hasset a ha).1
      have hbank : ∀ b ∈ payment, b.assetId ≠ env.rwaAssetId := by
        intro b hb hx
        obtain ⟨a, ha, hunit⟩ := hpaying b hb
        exact hfresh.accounts a ha (hx ▸ hunit)
      have hopening := fun hfresh hnumbered =>
        postRealEstateOpeningEntry_ok hfresh hnumbered hbank h₄
      obtain ⟨⟨p, hp⟩, hrows⟩ := hopening (hfresh.of_tables rfl rfl rfl rfl)
        ⟨hnumbered.known, hnumbered.symbol⟩
      rw [Tx.run_write_bind] at k₄
      obtain ⟨_, db₅, h₅, k₅⟩ := Tx.run_bind_ok.mp k₄
      cases k₅
      obtain ⟨hpostings, hentries, hproperties⟩ := recordCurrentPrice_tables h₅
      refine ⟨rfl, t, p, hp.congr hpostings hentries, fun q hq hid => ?_⟩
      rw [hproperties] at hq
      obtain ⟨q', hq', rfl⟩ := List.mem_map.mp hq
      rw [hrows] at hq'
      have hid' : q'.id = env.propertyId := by
        split at hid <;> exact hid
      rcases List.mem_append.mp hq' with hq' | hq'
      · exact absurd hid' (hunused q' hq').1
      · rw [List.mem_singleton.mp hq']
        simp [PropertyTerms.row]
    · cases k₂
  · cases k₂

end Property

end Pwos
