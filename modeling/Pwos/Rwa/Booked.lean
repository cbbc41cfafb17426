import Pwos.Planning.Schedules
import Pwos.Rwa.Sale

/-!
# What an accepted sale books

The steps of an accepted `sellVehicle` with an account for the proceeds, and of an accepted
`sellRealEstateAsset`. Both book one new entry over a chart that may have grown.
-/

namespace Pwos

theorem orComplain_ok {α : Type} {value : Option α} {text : String} {a : α} :
    orComplain value text = .ok a ↔ value = some a := by
  cases value <;> simp [orComplain]

/-! ## A new entry -/

/-- The id is nobody's, as the random ids of new rows are. -/
structure Db.Unused (db : Db) (id : Uuid) : Prop where
  entry : ∀ e ∈ db.journalEntries, e.id ≠ id
  posting : ∀ p ∈ db.postings, p.entryId ≠ id
  snapshot : ∀ f ∈ db.entryFxSnapshots, f.entryId ≠ id

/-- The database with more accounts and more assets. -/
def Db.withChart (db : Db) (accounts : List Account) (assets : List Asset) : Db :=
  { db with accounts := db.accounts ++ accounts, assets := db.assets ++ assets }

def Write.ExtendsChart (w : Write) : Prop :=
  (∃ a, w = .insertAccount a) ∨ ∃ a, w = .insertAsset a

section Entry
variable {env : Env} {input : PostEntryInput} {db db' : Db}

theorem applyAll_extendsChart {ws : List Write} (h : ∀ w ∈ ws, w.ExtendsChart) :
    ∃ accounts assets, ∀ db : Db, applyAll ws db = db.withChart accounts assets := by
  induction ws with
  | nil => exact ⟨[], [], fun db => by simp [Db.withChart]⟩
  | cons w ws ih =>
    obtain ⟨as, bs, hrest⟩ := ih fun v hv => h v (by simp [hv])
    rcases h w (by simp) with ⟨a, rfl⟩ | ⟨a, rfl⟩
    · refine ⟨a :: as, bs, fun db => (hrest _).trans ?_⟩
      simp [Db.withChart, Writable.apply, Write.apply]
    · refine ⟨as, a :: bs, fun db => (hrest _).trans ?_⟩
      simp [Db.withChart, Writable.apply, Write.apply]

theorem extendsChart_run {α : Type} {p : Sql α} {a : α} (hp : p.WritesOnly Write.ExtendsChart)
    (h : p.run db = .ok (a, db')) : ∃ accounts assets, db' = db.withChart accounts assets := by
  obtain ⟨ws, hws, rfl⟩ := hp.run_ok h
  obtain ⟨as, bs, hall⟩ := applyAll_extendsChart hws
  exact ⟨as, bs, hall db⟩

theorem extendsChart_of_accounts {α : Type} {p : Sql α} (hp : p.WritesOnly Write.AddsAccount) :
    p.WritesOnly Write.ExtendsChart := hp.mono fun _ h => .inl h

theorem addsAccount_run {α : Type} {p : Sql α} {a : α} (hp : p.WritesOnly Write.AddsAccount)
    (h : p.run db = .ok (a, db')) : ∃ accounts, db' = db.withChart accounts [] := by
  obtain ⟨ws, hws, rfl⟩ := hp.run_ok h
  obtain ⟨accounts, hall⟩ := applyAll_addsAccount hws
  exact ⟨accounts, (hall db).trans (by simp [Db.withAccounts, Db.withChart])⟩

theorem withChart_unused {accounts : List Account} {assets : List Asset} {id : Uuid}
    (h : db.Unused id) : (db.withChart accounts assets).Unused id := ⟨h.entry, h.posting, h.snapshot⟩

/-- Under a new id nothing is replayed. -/
theorem postEntry_new {r : PostResult} (hopen : input.lotList = []) (hclose : input.closeLot = none)
    (hnew : db.Unused env.entryId) (hid : r.id = env.entryId)
    (h : (postEntry env input).run db = .ok (r, db')) :
    ∃ userId, PostChecks env input userId db ∧
      db' = db.withEntry (input.entryRow env.entryId userId)
        (input.postings.map (DraftPosting.row env.entryId)) := by
  obtain ⟨⟨_, k, found, -, -, hfound, rfl, -⟩, -⟩ | ⟨-, userId, hchecks, -, hdb'⟩ :=
    postEntry_plain_ok hopen hclose h
  · exact absurd hid (hnew.entry found (List.mem_of_find?_eq_some hfound))
  · exact ⟨userId, hchecks, hdb'⟩

theorem postingsOf_withEntry {e : JournalEntry} {lines : List DraftPosting} {id : Uuid}
    (h : db.Unused id) : (db.withEntry e (lines.map (DraftPosting.row id))).postingsOf id =
      lines.map (DraftPosting.row id) := by
  unfold Db.postingsOf Db.withEntry
  rw [List.filter_append, List.filter_eq_nil_iff.mpr (by simpa using h.posting), List.nil_append,
    List.filter_eq_self]
  intro p hp
  obtain ⟨l, -, rfl⟩ := List.mem_map.mp hp
  simp [DraftPosting.row]

theorem freezeRate_new {f : EntryFxSnapshot} (h : ∀ g ∈ db.entryFxSnapshots, g.entryId ≠ f.entryId) :
    (freezeRate f).run db = .ok ((), Write.apply (.insertFxSnapshot f) db) := by
  unfold freezeRate
  rw [Tx.run_write, if_neg (by simpa using h)]
  rfl

end Entry

/-! ## Vehicles -/

section Vehicle
variable {history : IsoDate → Option DatedRate} {env : Env} {input : SellVehicleInput} {db db' : Db}

theorem readOnly_ownVehicle (input : SellVehicleInput) : (ownVehicle input).ReadOnly := by
  unfold ownVehicle
  refine (Tx.readOnly_read _).bind fun row => ?_
  refine (Tx.readOnly_ofExcept _).bind fun row => ?_
  exact (Tx.readOnly_require _ _).bind fun _ => Tx.readOnly_done _

theorem readOnly_vehicleSaleRate (history : IsoDate → Option DatedRate) (env : Env)
    (input : SellVehicleInput) (saleDate : IsoDate) :
    (vehicleSaleRate history env input saleDate).ReadOnly := by
  unfold vehicleSaleRate
  split
  · trivial
  · exact (readOnly_resolveUsdRateForDateToFreeze history env _ _).bind fun _ => Tx.readOnly_done _

theorem readOnly_vehiclePayout (input : SellVehicleInput) : (vehiclePayout input).ReadOnly := by
  unfold vehiclePayout
  split
  · exact Tx.readOnly_read _
  · trivial

/-- An accepted sale with an account for the proceeds, step by step. -/
structure VehicleSold (history : IsoDate → Option DatedRate) (env : Env) (input : SellVehicleInput)
    (db : Db) (id : Uuid) (db' : Db) where
  row : VehicleAsset
  saleDate : IsoDate
  rate : Decimal
  cash : PayoutAccount
  unitPriceUsd : Decimal
  disposal : RegistryDisposal
  found : db.findVehicle input.vehicleId = some row
  date : input.saleDate = some saleDate
  price : 0 < input.salePriceToman
  rated : (vehicleSaleRate history env input saleDate).answer db = .ok rate
  payout : (vehiclePayout input).answer db = .ok (some cash)
  unit : (nativeUnitPriceUsd cash.assetId input.userId).answer
    (Write.apply (.sellVehicle input.vehicleId (input.columns saleDate rate)) db) = .ok unitPriceUsd
  steps : (input.disposal row (input.columns saleDate rate) cash unitPriceUsd).Steps env
    (Write.apply (.sellVehicle input.vehicleId (input.columns saleDate rate)) db) disposal db'
  entry : disposal.entry.id = id

theorem ownVehicle_ok {row : VehicleAsset} (h : (ownVehicle input).answer db = .ok row) :
    db.findVehicle input.vehicleId = some row := by
  have hrun := (readOnly_ownVehicle input).run_ok.mpr ⟨h, rfl⟩
  unfold ownVehicle at hrun
  rw [Tx.run_read_bind] at hrun
  cases hfind : db.findVehicle input.vehicleId with
  | none => rw [hfind] at hrun; cases hrun
  | some v =>
    rw [hfind] at hrun
    obtain ⟨w, _, h₁, k₁⟩ := Tx.run_bind_ok.mp hrun
    cases h₁
    rw [Tx.run_require_bind] at k₁
    split at k₁
    · cases k₁; rfl
    · cases k₁

theorem sellVehicle_ok {id : Uuid} (h : (sellVehicle history env input).run db = .ok (some id, db')) :
    Nonempty (VehicleSold history env input db id db') := by
  unfold sellVehicle at h
  obtain ⟨row, _, h₁, k₁⟩ := Tx.run_bind_ok.mp h
  obtain ⟨hrow, rfl⟩ := (readOnly_ownVehicle _).run_ok.mp h₁
  obtain ⟨saleDate, _, h₂, k₂⟩ := Tx.run_bind_ok.mp k₁
  obtain ⟨hdate, rfl⟩ := Tx.run_ofExcept_ok.mp h₂
  rw [Tx.run_require_bind] at k₂
  split at k₂
  · rename_i hprice
    obtain ⟨rate, _, h₃, k₃⟩ := Tx.run_bind_ok.mp k₂
    obtain ⟨hrate, rfl⟩ := (readOnly_vehicleSaleRate _ _ _ _).run_ok.mp h₃
    obtain ⟨cash, _, h₄, k₄⟩ := Tx.run_bind_ok.mp k₃
    obtain ⟨hcash, rfl⟩ := (readOnly_vehiclePayout _).run_ok.mp h₄
    obtain ⟨_, _, h₅, k₅⟩ := Tx.run_bind_ok.mp k₄
    unfold updateSold at h₅
    rw [Tx.run_writeExpecting] at h₅
    cases h₅
    unfold bookVehicleSale at k₅
    split at k₅
    · cases k₅
    · obtain ⟨payout, _, h₆, k₆⟩ := Tx.run_bind_ok.mp k₅
      obtain ⟨hpayout, rfl⟩ := Tx.run_ofExcept_ok.mp h₆
      obtain ⟨unit, _, h₇, k₇⟩ := Tx.run_bind_ok.mp k₆
      obtain ⟨hunit, rfl⟩ := (readOnly_nativeUnitPriceUsd _ _).run_ok.mp h₇
      obtain ⟨disposal, _, h₈, k₈⟩ := Tx.run_bind_ok.mp k₇
      cases k₈
      obtain ⟨steps⟩ := recordRegistryDisposal_ok h₈
      obtain rfl := orComplain_ok.mp hpayout
      exact ⟨⟨row, saleDate, rate, payout, unit, disposal, ownVehicle_ok hrow,
        orComplain_ok.mp hdate, hprice, hrate, hcash, hunit, steps, rfl⟩⟩
  · cases k₂

end Vehicle

/-! ## The result of a disposal -/

section Result
variable {env : Env} {cmd : RegistryDisposalCmd} {userId : Option Uuid} {carrying : Decimal}
  {result : List DraftPosting} {db db' : Db}

theorem resultLines_ok (h : (resultLines env cmd userId carrying).run db = .ok (result, db')) :
    (cmd.net - carrying = 0 ∧ result = [] ∧ db' = db) ∨
      (cmd.net - carrying ≠ 0 ∧ ∃ counter,
        (disposalCounter env userId carrying).run db = .ok (counter, db') ∧
        result = [cmd.resultLine counter carrying]) := by
  unfold resultLines at h
  split at h
  · rename_i hzero
    cases h
    exact .inl ⟨hzero, rfl, rfl⟩
  · rename_i hne
    obtain ⟨counter, _, h₁, k₁⟩ := Tx.run_bind_ok.mp h
    cases k₁
    exact .inr ⟨hne, counter, h₁, rfl⟩

theorem resultLines_chart (h : (resultLines env cmd userId carrying).run db = .ok (result, db')) :
    ∃ accounts assets, db' = db.withChart accounts assets :=
  extendsChart_run (extendsChart_of_accounts (resultLines_writesOnly _ _ _ _)) h

end Result

/-! ## Properties -/

section Property
variable {history : IsoDate → Option DatedRate} {formatMoney : Decimal → String} {env : Env}
  {input : SellRealEstateInput} {db db' : Db}

theorem ensureChartAccount_writesOnly (a : Account) :
    (ensureChartAccount a).WritesOnly Write.AddsAccount := by
  unfold ensureChartAccount
  refine (Tx.readOnly_read _).writesOnly.bind fun found => ?_
  split
  · trivial
  · refine (insertAccount_writesOnly _).bind fun created => ?_
    split
    · trivial
    · exact (Tx.readOnly_read _).writesOnly

theorem ensureRealEstateLedgerAccounts_writesOnly (env : Env) :
    (ensureRealEstateLedgerAccounts env).WritesOnly Write.AddsAccount := by
  unfold ensureRealEstateLedgerAccounts
  refine (ensureChartAccount_writesOnly _).bind fun asset => ?_
  refine (ensureChartAccount_writesOnly _).bind fun equity => ?_
  exact (Tx.readOnly_ofExcept _).writesOnly

theorem ensureUsdAssetId_writesOnly (env : Env) :
    (ensureUsdAssetId env).WritesOnly Write.ExtendsChart := by
  unfold ensureUsdAssetId
  refine (Tx.readOnly_read _).writesOnly.bind fun found => ?_
  split
  · trivial
  · refine Tx.WritesOnly.bind (fun s => ⟨?_, trivial⟩) fun _ => ?_
    · intro w hw
      simp only at hw
      split at hw
      · cases hw
      · exact .inr ⟨_, List.mem_singleton.mp hw⟩
    · exact ((Tx.readOnly_read _).bind fun _ => Tx.readOnly_ofExcept _).writesOnly

theorem propertyResultLines_writesOnly (env : Env) (input : SellRealEstateInput)
    (sale : PropertySale) (usdAssetId : Uuid) :
    (propertyResultLines env input sale usdAssetId).WritesOnly Write.AddsAccount := by
  unfold propertyResultLines
  split
  · trivial
  · refine (ensureRealizedPnlAccount_writesOnly _ _).bind fun account => ?_
    refine (Tx.readOnly_ofExcept _).writesOnly.bind fun account => ?_
    exact (readOnly_nativeUnitPriceUsd _ _).writesOnly.bind fun _ => trivial

theorem readOnly_propertySaleRate (history : IsoDate → Option DatedRate) (env : Env)
    (input : SellRealEstateInput) (saleDate : IsoDate) :
    (propertySaleRate history env input saleDate).ReadOnly := by
  unfold propertySaleRate
  split
  · trivial
  · exact readOnly_resolveUsdRateForDateToFreeze history env _ _

theorem readOnly_resolvePayoutAccount (accountId : Uuid) (userId : Option Uuid) :
    (resolvePayoutAccount accountId userId).ReadOnly := Tx.readOnly_read _

theorem readOnly_ownPropertyAsset (input : SellRealEstateInput) :
    (ownPropertyAsset input).ReadOnly :=
  (Tx.readOnly_read _).bind fun _ => Tx.readOnly_ofExcept _

/-- A sale that was priced. -/
structure PropertySale.Priced (history : IsoDate → Option DatedRate) (env : Env)
    (input : SellRealEstateInput) (db : Db) (sale : PropertySale) : Prop where
  found : (ownPropertyAsset input).answer db = .ok (sale.prop, sale.symbol)
  date : input.saleDate = some sale.saleDate
  price : 0 < input.salePriceToman
  asked : sale.salePrice = input.salePriceToman
  carried : sale.carrying = sale.prop.purchaseValueUsd.getD 0
  carrying : 0 < sale.carrying
  rated : (propertySaleRate history env input sale.saleDate).answer db = .ok sale.fx
  rate : 0 < sale.fx.rate
  payout : (resolvePayoutAccount input.saleAccountId input.userId).answer db = .ok (some sale.cash)

theorem priceProperty_ok {sale : PropertySale}
    (h : (priceProperty history env input).run db = .ok (sale, db')) :
    sale.Priced history env input db ∧ db' = db := by
  unfold priceProperty at h
  obtain ⟨⟨prop, symbol⟩, _, h₁, k₁⟩ := Tx.run_bind_ok.mp h
  obtain ⟨hfound, rfl⟩ := (readOnly_ownPropertyAsset _).run_ok.mp h₁
  obtain ⟨saleDate, _, h₂, k₂⟩ := Tx.run_bind_ok.mp k₁
  obtain ⟨hdate, rfl⟩ := Tx.run_ofExcept_ok.mp h₂
  rw [Tx.run_require_bind] at k₂
  split at k₂
  · rename_i hprice
    rw [Tx.run_require_bind] at k₂
    split at k₂
    · rename_i hcarrying
      obtain ⟨fx, _, h₃, k₃⟩ := Tx.run_bind_ok.mp k₂
      obtain ⟨hfx, rfl⟩ := (readOnly_propertySaleRate _ _ _ _).run_ok.mp h₃
      rw [Tx.run_require_bind] at k₃
      split at k₃
      · rename_i hrate
        obtain ⟨cash, _, h₄, k₄⟩ := Tx.run_bind_ok.mp k₃
        obtain ⟨hcash, rfl⟩ := (readOnly_resolvePayoutAccount _ _).run_ok.mp h₄
        obtain ⟨payout, _, h₅, k₅⟩ := Tx.run_bind_ok.mp k₄
        obtain ⟨hpayout, rfl⟩ := Tx.run_ofExcept_ok.mp h₅
        obtain rfl := orComplain_ok.mp hpayout
        cases k₅
        exact ⟨⟨hfound, orComplain_ok.mp hdate, hprice, rfl, rfl, hcarrying, hfx, hrate, hcash⟩, rfl⟩
      · cases k₃
    · cases k₂
  · cases k₂

/-- An accepted sale of a property, step by step. -/
structure PropertySold (history : IsoDate → Option DatedRate) (formatMoney : Decimal → String)
    (env : Env) (input : SellRealEstateInput) (db : Db) (id : Uuid) (db' : Db) where
  sale : PropertySale
  accounts : RealEstateAccounts
  usdAssetId : Uuid
  unitPriceUsd : Decimal
  result : List DraftPosting
  posted : PostResult
  /-- After the accounts, the dollar and the account of the result. -/
  db₁ : Db
  db₂ : Db
  db₃ : Db
  /-- After the entry and its snapshot. -/
  db₄ : Db
  db₅ : Db
  priced : sale.Priced history env input db
  chart : (ensureRealEstateLedgerAccounts env).run db = .ok (accounts, db₁)
  dollar : (ensureUsdAssetId env).run db₁ = .ok (usdAssetId, db₂)
  unit : (nativeUnitPriceUsd sale.cash.assetId input.userId).answer db₂ = .ok unitPriceUsd
  counter : (propertyResultLines env input sale usdAssetId).run db₂ = .ok (result, db₃)
  entry : (postEntry env (sale.entry input (sale.assetLine formatMoney accounts.assetAccountId ::
    sale.cashLine unitPriceUsd :: result))).run db₃ = .ok (posted, db₄)
  frozen : (freezeRate (sale.snapshot posted.id)).run db₄ = .ok ((), db₅)
  removed : (removeProperty sale.prop).run db₅ = .ok ((), db')
  posted_id : posted.id = id

theorem bookPropertySale_ok {sale : PropertySale} {id : Uuid}
    (hpriced : sale.Priced history env input db)
    (h : (bookPropertySale formatMoney env input sale).run db = .ok (id, db')) :
    Nonempty (PropertySold history formatMoney env input db id db') := by
  unfold bookPropertySale at h
  obtain ⟨accounts, db₁, h₁, k₁⟩ := Tx.run_bind_ok.mp h
  obtain ⟨usdAssetId, db₂, h₂, k₂⟩ := Tx.run_bind_ok.mp k₁
  obtain ⟨unit, _, h₃, k₃⟩ := Tx.run_bind_ok.mp k₂
  obtain ⟨hunit, rfl⟩ := (readOnly_nativeUnitPriceUsd _ _).run_ok.mp h₃
  obtain ⟨result, db₃, h₄, k₄⟩ := Tx.run_bind_ok.mp k₃
  obtain ⟨posted, db₄, h₅, k₅⟩ := Tx.run_bind_ok.mp k₄
  obtain ⟨_, db₅, h₆, k₆⟩ := Tx.run_bind_ok.mp k₅
  obtain ⟨_, db₆, h₇, k₇⟩ := Tx.run_bind_ok.mp k₆
  cases k₇
  exact ⟨⟨sale, accounts, usdAssetId, unit, result, posted, db₁, _, db₃, db₄, db₅, hpriced, h₁, h₂,
    hunit, h₄, h₅, h₆, h₇, rfl⟩⟩

theorem sellRealEstateAsset_ok {sold : SoldRealEstate}
    (h : (sellRealEstateAsset history formatMoney env input).run db = .ok (sold, db')) :
    Nonempty (PropertySold history formatMoney env input db sold.ledgerEntryId db') := by
  unfold sellRealEstateAsset at h
  obtain ⟨sale, _, h₁, k₁⟩ := Tx.run_bind_ok.mp h
  obtain ⟨hpriced, rfl⟩ := priceProperty_ok h₁
  obtain ⟨id, _, h₂, k₂⟩ := Tx.run_bind_ok.mp k₁
  cases k₂
  exact bookPropertySale_ok hpriced h₂

end Property

end Pwos
