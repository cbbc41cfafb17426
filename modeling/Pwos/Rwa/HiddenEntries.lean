import Pwos.Ledger.Balances
import Pwos.Lib.Triple
import Pwos.Rwa.Bought

/-!
# Entries that the balances hide

`deleteRealEstateAsset` and `sellRealEstateAsset` of `features/rwa/realEstate/service.ts`
soft-delete the asset of a property, and with it every entry that names the asset disappears from
the balances of the accounts: that of a sale in the transaction that books it. As long as no
such entry moved money of the user, the views of a cash balance agree (`Visible`).
-/

namespace Pwos

/-! ## Deletion -/

structure DeleteRealEstateInput where
  propertyId : Uuid
  userId : Option Uuid := none

structure DeletedRealEstate where
  assetId : Uuid
  symbol : String
  label : String

/-- The caller's property with the symbol of its asset. -/
def Db.deletableProperty (db : Db) (input : DeleteRealEstateInput) :
    Option (RealEstateProperty × String) :=
  (db.realEstateProperties.find? fun p =>
    p.id = input.propertyId ∧ (input.userId = none ∨ p.userId = input.userId)).bind fun p =>
      (db.findAsset p.assetId).map fun a => (p, a.symbol)

def deleteRealEstateAsset (input : DeleteRealEstateInput) : Sql DeletedRealEstate := do
  let row ← Tx.read (·.deletableProperty input)
  let (prop, symbol) ← Tx.ofExcept (orComplain row "ملک یافت نشد یا متعلق به شما نیست.")
  removeProperty prop
  pure { assetId := prop.assetId, symbol, label := buildRwaLabel .property prop.userSeq }

/-! ## What is hidden -/

section Visible
variable (db : Db) (u : Uuid)

def Db.goneAsset (x : Uuid) : Prop :=
  ∃ a ∈ db.assets, a.id = x ∧ db.isInactiveOrOrphanedRwaAsset a

instance (x : Uuid) : Decidable (db.goneAsset x) :=
  inferInstanceAs (Decidable (∃ a ∈ db.assets, _))

/-- A line there moves an asset that is not gone on an asset account of the user. -/
def Db.movesOwn (accountId assetId : Uuid) : Prop :=
  (∃ a ∈ db.accounts, a.id = accountId ∧ a.type = .asset ∧ a.userId = some u) ∧
    ¬ db.goneAsset assetId

instance (accountId assetId : Uuid) : Decidable (db.movesOwn u accountId assetId) :=
  inferInstanceAs (Decidable ((∃ a ∈ db.accounts, _) ∧ _))

/-- No hidden entry moves what the user owns. The ids are primary keys, every account of the user
is live and every entry is somebody's. -/
structure Visible : Prop where
  users : u ∈ db.users
  lotIds : (db.lots.map (·.id)).Nodup
  accountIds : (db.accounts.map (·.id)).Nodup
  assetIds : (db.assets.map (·.id)).Nodup
  propertyIds : (db.realEstateProperties.map (·.id)).Nodup
  live : ∀ a ∈ db.accounts, a.userId = some u → a.deleted = false
  named : ∀ e ∈ db.journalEntries, e.userId ≠ none
  lineEntry : ∀ p ∈ db.postings, ∃ e ∈ db.journalEntries, e.id = p.entryId
  lineAccount : ∀ p ∈ db.postings, ∃ a ∈ db.accounts, a.id = p.accountId
  shown : ∀ p ∈ db.postings, db.Posted p.entryId → db.entryReferencesInactiveRwa p.entryId →
    ¬ db.movesOwn u p.accountId p.assetId

end Visible

section Steps
variable {db db' : Db} {u : Uuid}

theorem Db.LiveAsset.not_gone {x : Uuid} (h : db.LiveAsset x)
    (hids : (db.assets.map (·.id)).Nodup) : ¬ db.goneAsset x := by
  obtain ⟨a, ha, rfl, hlive⟩ := h
  rintro ⟨b, hb, hid, hgone⟩
  rw [List.inj_on_of_nodup_map hids hb ha hid] at hgone
  exact hlive hgone

theorem Visible.views (h : Visible db u) : ViewsOfCashAgree db u := by
  apply viewsOfCash_agree h.accountIds h.assetIds h.live h.named
  rintro p hp ⟨e, he, hid, hposted, -⟩ ⟨a, ha, haid, htype, huser⟩ hlive hhidden
  have huser : a.userId = some u := by simpa using huser
  exact h.shown p hp ⟨e, he, hid, hposted⟩ hhidden
    ⟨⟨a, ha, haid, htype, huser⟩, hlive.not_gone h.assetIds⟩

/-- Other tables may change, and assets as long as the same ones are gone. -/
theorem Visible.same (h : Visible db u) (husers : db'.users = db.users)
    (hlots : db'.lots.map (·.id) = db.lots.map (·.id)) (haccounts : db'.accounts = db.accounts)
    (hassets : (db'.assets.map (·.id)).Nodup)
    (hproperties : (db'.realEstateProperties.map (·.id)).Nodup)
    (hentries : db'.journalEntries = db.journalEntries) (hpostings : db'.postings = db.postings)
    (hgone : ∀ p ∈ db.postings, db'.goneAsset p.assetId ↔ db.goneAsset p.assetId) :
    Visible db' u where
  users := husers ▸ h.users
  lotIds := hlots ▸ h.lotIds
  accountIds := haccounts ▸ h.accountIds
  assetIds := hassets
  propertyIds := hproperties
  live := haccounts ▸ h.live
  named := hentries ▸ h.named
  lineEntry := hpostings ▸ hentries ▸ h.lineEntry
  lineAccount := hpostings ▸ haccounts ▸ h.lineAccount
  shown := by
    rw [hpostings]
    rintro p hp ⟨e, he, hid, hposted⟩ ⟨q, hq, hqid, hqgone⟩ ⟨hown, hlive⟩
    rw [hpostings] at hq
    rw [hentries] at he
    rw [haccounts] at hown
    exact h.shown p hp ⟨e, he, hid, hposted⟩ ⟨q, hq, hqid, (hgone q hq).mp hqgone⟩
      ⟨hown, fun hp' => hlive ((hgone p hp).mpr hp')⟩

/-- A new account. -/
theorem Visible.account (h : Visible db u) {a : Account} (hnew : ∀ b ∈ db.accounts, b.id ≠ a.id)
    (hlive : a.userId = some u → a.deleted = false) : Visible (db.withAccounts [a]) u where
  users := h.users
  lotIds := h.lotIds
  accountIds := by
    simp only [Db.withAccounts, List.map_append, List.nodup_append, List.map_cons, List.map_nil]
    refine ⟨h.accountIds, by simp, ?_⟩
    rintro i hi j hj rfl
    obtain ⟨b, hb, hid⟩ := List.mem_map.mp hi
    exact hnew b hb (hid.trans (List.mem_singleton.mp hj))
  assetIds := h.assetIds
  propertyIds := h.propertyIds
  live b hb := by
    rcases List.mem_append.mp hb with hb | hb
    · exact h.live b hb
    · rw [List.mem_singleton.mp hb]
      exact hlive
  named := h.named
  lineEntry := h.lineEntry
  lineAccount p hp := by
    obtain ⟨b, hb, hid⟩ := h.lineAccount p hp
    exact ⟨b, List.mem_append_left _ hb, hid⟩
  shown := by
    rintro p hp hposted hhidden ⟨⟨b, hb, hid, hown⟩, hlive⟩
    rcases List.mem_append.mp hb with hb | hb
    · exact h.shown p hp hposted hhidden ⟨⟨b, hb, hid, hown⟩, hlive⟩
    · obtain ⟨c, hc, hcid⟩ := h.lineAccount p hp
      rw [List.mem_singleton.mp hb] at hid
      exact hnew c hc (hcid.trans hid.symm)

/-- The entry is hidden from the start only if it moves nothing of the user's. -/
def Db.EntryFits (db : Db) (u : Uuid) (lines : List DraftPosting) : Prop :=
  (∃ l ∈ lines, db.goneAsset l.assetId) → ∀ l ∈ lines, ¬ db.movesOwn u l.accountId l.assetId

instance (lines : List DraftPosting) : Decidable (db.EntryFits u lines) :=
  inferInstanceAs (Decidable (_ → _))

theorem resolved_user {env : Env} {tenant userId : Option Uuid} {ids : List Uuid}
    (hu : u ∈ db.users) (h : (resolveServiceUserId env tenant ids).answer db = .ok userId) :
    userId ≠ none := by
  have hsome {v : Uuid} (h : Except.ok (some v) = (.ok userId : Except AppError _)) :
      userId ≠ none := by
    cases h
    exact Option.some_ne_none v
  unfold resolveServiceUserId Tx.answer at h
  split at h
  · exact hsome h
  · rw [Tx.run_read_bind] at h
    split at h
    · exact hsome h
    · split at h
      · exact hsome h
      · rw [Tx.run_read_bind] at h
        split at h
        · rename_i hnone
          cases husers : db.users <;> simp_all
        · exact hsome h
        · cases h

theorem Visible.posted (h : Visible db u) {env : Env} {input : PostEntryInput}
    {userId : Option Uuid} (hfits : db.EntryFits u input.postings)
    (hp : Posted env input userId db db') : Visible db' u := by
  have hnew := hp.written.entry.1
  rw [hp.written.result]
  refine ⟨h.users, ?_, h.accountIds, h.assetIds, h.propertyIds, h.live, ?_, ?_, ?_, ?_⟩
  · have hids := withLots_nodup h.lotIds hp.written.lots
    simpa only [Db.recorded, Db.withLots, List.map_map, Function.comp_def, adjust_id] using hids
  · intro e he
    rcases List.mem_append.mp he with he | he
    · exact h.named e he
    · rw [List.mem_singleton.mp he]
      exact resolved_user h.users hp.user
  · intro p hp'
    rcases List.mem_append.mp hp' with hp' | hp'
    · obtain ⟨e, he, hid⟩ := h.lineEntry p hp'
      exact ⟨e, List.mem_append_left _ he, hid⟩
    · obtain ⟨l, -, rfl⟩ := List.mem_map.mp hp'
      exact ⟨_, List.mem_append_right _ (List.mem_singleton_self _), rfl⟩
  · intro p hp'
    rcases List.mem_append.mp hp' with hp' | hp'
    · exact h.lineAccount p hp'
    · obtain ⟨l, hl, rfl⟩ := List.mem_map.mp hp'
      exact hp.accounts l hl
  · rintro p hp' ⟨e, he, hid, hposted⟩ ⟨q, hq, hqid, hgone⟩ hmoves
    rcases List.mem_append.mp hp' with hp' | hp'
    · -- an old line: its entry is an old one, and so are the lines of that
      obtain ⟨f, hf, hfid⟩ := h.lineEntry p hp'
      have hold : e ∈ db.journalEntries := by
        rcases List.mem_append.mp he with he | he
        · exact he
        · rw [List.mem_singleton.mp he] at hid
          exact absurd (hfid.trans hid.symm) (hnew f hf)
      have hqold : q ∈ db.postings := by
        rcases List.mem_append.mp hq with hq | hq
        · exact hq
        · obtain ⟨l, -, rfl⟩ := List.mem_map.mp hq
          exact absurd (hfid.trans hqid.symm) (hnew f hf)
      exact h.shown p hp' ⟨e, hold, hid, hposted⟩ ⟨q, hqold, hqid, hgone⟩ hmoves
    · obtain ⟨l, hl, rfl⟩ := List.mem_map.mp hp'
      rcases List.mem_append.mp hq with hq | hq
      · obtain ⟨f, hf, hfid⟩ := h.lineEntry q hq
        exact hnew f hf (hfid.trans hqid)
      · obtain ⟨k, hk, rfl⟩ := List.mem_map.mp hq
        exact hfits ⟨k, hk, hgone⟩ l hl hmoves

/-- A reversal posts nothing. -/
theorem Visible.reversed (h : Visible db u) {env : Env} {e : JournalEntry}
    (he : Reversible db env e) : Visible (db.reversed env e) u := by
  have hnew := he.insertable.1
  refine ⟨h.users, ?_, h.accountIds, h.assetIds, h.propertyIds, h.live, ?_, ?_, ?_, ?_⟩
  · simpa only [Db.reversed, List.map_map, Function.comp_def, undone_id] using h.lotIds
  · intro f hf
    rcases List.mem_append.mp hf with hf | hf
    · obtain ⟨g, hg, rfl⟩ := List.mem_map.mp hf
      rw [voided_userId]
      exact h.named g hg
    · rw [List.mem_singleton.mp hf]
      exact h.named e (List.mem_of_find?_eq_some he.entry)
  · intro p hp
    rcases List.mem_append.mp hp with hp | hp
    · obtain ⟨f, hf, hid⟩ := h.lineEntry p hp
      exact ⟨_, List.mem_append_left _ (List.mem_map_of_mem hf), by rw [voided_id, hid]⟩
    · obtain ⟨q, -, rfl⟩ := List.mem_map.mp hp
      exact ⟨_, List.mem_append_right _ (List.mem_singleton_self _), rfl⟩
  · intro p hp
    rcases List.mem_append.mp hp with hp | hp
    · exact h.lineAccount p hp
    · obtain ⟨q, hq, rfl⟩ := List.mem_map.mp hp
      exact h.lineAccount q (List.mem_of_mem_filter hq)
  · rintro p hp hposted ⟨q, hq, hqid, hgone⟩ hmoves
    obtain ⟨⟨f, hf, hid, hlive⟩, -⟩ := (reversed_posted p.entryId).mp hposted
    have hold : ∀ k : Posting, k.entryId = p.entryId → k ∈ (db.reversed env e).postings →
        k ∈ db.postings := by
      intro k hk hmem
      rcases List.mem_append.mp hmem with hmem | hmem
      · exact hmem
      · obtain ⟨l, -, rfl⟩ := List.mem_map.mp hmem
        exact absurd (hid.trans hk.symm) (hnew f hf)
    exact h.shown p (hold p rfl hp) ⟨f, hf, hid, hlive⟩ ⟨q, hold q hqid hq, hqid, hgone⟩ hmoves

/-! ## Statement by statement -/

theorem postEntry_visible {env : Env} {input : PostEntryInput} {P : Db → Prop}
    (hP : ∀ db, P db → Visible db u ∧ db.EntryFits u input.postings) :
    (postEntry env input).Triple P fun _ db => Visible db u := by
  intro db r db' hpre hrun
  obtain ⟨hvisible, hfits⟩ := hP db hpre
  rcases postEntryPriced_ok hvisible.lotIds hrun with ⟨-, rfl⟩ | ⟨-, userId, hposted⟩
  · exact hvisible
  · exact hvisible.posted hfits hposted

theorem reverseEntry_visible {env : Env} {entryId : Uuid} :
    (reverseEntry env entryId).Keeps (Visible · u) := by
  intro db r db' hvisible hrun
  obtain ⟨e, -, he, rfl, -⟩ := (reverseEntry_ok hvisible.lotIds).mp hrun
  exact hvisible.reversed he

/-- The account is there already, or is added under a new id. -/
theorem insertAccount_triple {P : Db → Prop} {a : Account}
    (hP : ∀ db, P db → (∀ b ∈ db.accounts, b.id ≠ a.id) → P (db.withAccounts [a])) :
    (insertAccountOnConflictDoNothing a).Triple P fun found db =>
      P db ∧ ∀ b ∈ found, b ∈ db.accounts ∧ b.userId = a.userId := by
  intro db found db' hpre hrun
  unfold insertAccountOnConflictDoNothing at hrun
  rw [Tx.run_stmt] at hrun
  by_cases htaken : db.CodeTaken a.userId a.code
  · simp only [htaken, true_or, if_true, applyAll_nil, Tx.run_done] at hrun
    cases hrun
    exact ⟨hpre, by simp⟩
  · by_cases hid : ∃ b ∈ db.accounts, b.id = a.id
    · simp only [htaken, hid, or_true, if_true, if_false] at hrun
      cases hrun
    · simp only [htaken, hid, or_false, if_false] at hrun
      cases hrun
      refine ⟨hP db hpre fun b hb hsame => hid ⟨b, hb, hsame⟩, ?_⟩
      rintro b ⟨⟩
      exact ⟨List.mem_append_right _ (List.mem_singleton_self _), rfl⟩

theorem ensureSystemAccount_visible {env : Env} {code name : String} {type : AccountType}
    {tenant : Option Uuid} :
    (ensureSystemAccount env code name type tenant).Keeps (Visible · u) := by
  unfold ensureSystemAccount
  refine (readOnly_resolveSystemAccount _ _).keeps.bind fun own => ?_
  split
  · exact Tx.triple_done fun _ h => h
  refine readOnly_findBaseAssetId.keeps.bind fun base => ?_
  refine Tx.Triple.bind (insertAccount_triple fun db h hnew => h.account hnew fun _ => rfl)
    fun created => ?_
  split
  · exact Tx.triple_done fun _ h => h.1
  · exact (readOnly_resolveSystemAccount _ _).keeps.mono (fun _ h => h.1) fun _ _ h => h

/-! ## A property is registered -/

/-- An account of the shared chart. -/
def Db.SharedId (db : Db) (accountId : Uuid) : Prop :=
  ∃ a ∈ db.accounts, a.id = accountId ∧ a.userId = none

theorem Visible.shared_stays (h : Visible db u) {accountId : Uuid} (hshared : db.SharedId accountId)
    (x : Uuid) : ¬ db.movesOwn u accountId x := by
  obtain ⟨a, ha, rfl, hnone⟩ := hshared
  rintro ⟨⟨b, hb, hid, -, huser⟩, -⟩
  rw [List.inj_on_of_nodup_map h.accountIds hb ha hid, hnone] at huser
  cases huser

/-- The asset of the property is in the tables, and is not gone. -/
structure Registering (u x : Uuid) (ids : List Uuid) (db : Db) : Prop where
  visible : Visible db u
  known : ∃ a ∈ db.assets, a.id = x
  live : ¬ db.goneAsset x
  shared : ∀ i ∈ ids, db.SharedId i

theorem Registering.account {x : Uuid} {ids : List Uuid} (h : Registering u x ids db) {a : Account}
    (hnew : ∀ b ∈ db.accounts, b.id ≠ a.id) (hshared : a.userId = none) :
    Registering u x ids (db.withAccounts [a]) where
  visible := h.visible.account hnew (by simp [hshared])
  known := h.known
  live := h.live
  shared i hi := by
    obtain ⟨b, hb, hid⟩ := h.shared i hi
    exact ⟨b, List.mem_append_left _ hb, hid⟩

theorem ensureChartAccount_shared {x : Uuid} {ids : List Uuid} {a : Account}
    (hshared : a.userId = none) :
    (ensureChartAccount a).Triple (Registering u x ids) fun found db =>
      ∀ b ∈ found, Registering u x (b.id :: ids) db := by
  have hadd {b : Account} {db : Db} (h : Registering u x ids db) (hb : b ∈ db.accounts)
      (hnone : b.userId = none) : Registering u x (b.id :: ids) db := by
    refine ⟨h.visible, h.known, h.live, fun i hi => ?_⟩
    rcases List.mem_cons.mp hi with rfl | hi
    · exact ⟨b, hb, rfl, hnone⟩
    · exact h.shared i hi
  have hchart {code : String} {db : Db} (h : Registering u x ids db) :
      ∀ b ∈ db.chartAccount code, Registering u x (b.id :: ids) db := by
    intro b hb
    have hfound := List.find?_some hb
    simp only [decide_eq_true_eq] at hfound
    exact hadd h (List.mem_of_find?_eq_some hb) hfound.2
  unfold ensureChartAccount
  refine Tx.Triple.bind (Q := fun found db => Registering u x ids db ∧
    ∀ b ∈ found, Registering u x (b.id :: ids) db) ?_ fun found => ?_
  · exact Tx.triple_read fun db h => ⟨h, hchart h⟩
  split
  · exact Tx.triple_done fun db h => h.2
  refine Tx.Triple.bind (Tx.Triple.mono (insertAccount_triple fun db h hnew =>
    h.account hnew hshared) (fun _ h => h.1) fun _ _ h => h) fun created => ?_
  split
  · rename_i b
    refine Tx.triple_done fun db h => ?_
    rintro _ ⟨⟩
    obtain ⟨hmem, hown⟩ := h.2 b rfl
    exact hadd h.1 hmem (hown.trans hshared)
  · exact Tx.triple_read fun db h => hchart h.1

theorem ensureRealEstateLedgerAccounts_shared {env : Env} {x : Uuid} :
    (ensureRealEstateLedgerAccounts env).Triple (Registering u x []) fun accounts db =>
      Registering u x [accounts.openingEquityAccountId, accounts.assetAccountId] db := by
  unfold ensureRealEstateLedgerAccounts
  refine Tx.Triple.bind (ensureChartAccount_shared rfl) fun asset => ?_
  cases asset with
  | none =>
    refine Tx.Triple.bind (Q := fun _ _ => True) (fun _ _ _ _ _ => trivial) fun equity => ?_
    exact Tx.triple_ofExcept nofun
  | some a =>
    refine Tx.Triple.bind (Tx.Triple.mono (ensureChartAccount_shared rfl) (fun _ h => h a rfl)
      fun _ _ h => h) fun equity => ?_
    refine Tx.triple_ofExcept fun db accounts h hok => ?_
    cases equity with
    | none => cases hok
    | some e =>
      cases hok
      exact h e rfl

/-- An asset that is not gone is added under a new id. -/
theorem goneAsset_append {a : Asset} (hlive : ¬ db.isInactiveOrOrphanedRwaAsset a)
    (h : db' = { db with assets := db.assets ++ [a] }) (x : Uuid) :
    db'.goneAsset x ↔ db.goneAsset x := by
  subst h
  constructor
  · rintro ⟨b, hb, hid, hgone⟩
    rcases List.mem_append.mp hb with hb | hb
    · exact ⟨b, hb, hid, hgone⟩
    · rw [List.mem_singleton.mp hb] at hgone
      exact absurd hgone hlive
  · rintro ⟨b, hb, hid, hgone⟩
    exact ⟨b, List.mem_append_left _ hb, hid, hgone⟩

theorem nodup_assets_append {a : Asset} (h : (db.assets.map (·.id)).Nodup)
    (hnew : ∀ b ∈ db.assets, b.id ≠ a.id) : ((db.assets ++ [a]).map (·.id)).Nodup := by
  simp only [List.map_append, List.nodup_append, List.map_cons, List.map_nil]
  refine ⟨h, by simp, ?_⟩
  rintro i hi j hj rfl
  obtain ⟨b, hb, hid⟩ := List.mem_map.mp hi
  exact hnew b hb (hid.trans (List.mem_singleton.mp hj))

theorem ensureUsdAssetId_registering {env : Env} {x : Uuid} {ids : List Uuid} :
    (ensureUsdAssetId env).Keeps (Registering u x ids) := by
  have hread : (Tx.read Db.usdAsset : Sql (Option Asset)).Keeps (Registering u x ids) :=
    (Tx.readOnly_read _).keeps
  unfold ensureUsdAssetId
  refine hread.bind fun found => ?_
  split
  · exact Tx.triple_done fun db h => h
  refine Tx.Triple.bind (Q := fun _ => Registering u x ids) ?_ fun _ =>
    hread.bind fun _ => Tx.triple_ofExcept fun db _ h _ => h
  refine Tx.triple_write fun db h => ?_
  split
  · exact h
  · rename_i hnew
    have hfresh : ∀ b ∈ db.assets, b.id ≠ env.assetId := fun b hb hid => hnew ⟨b, hb, .inl hid⟩
    have hlive : ¬ db.isInactiveOrOrphanedRwaAsset
        { id := env.assetId, symbol := "USD", classCode := "RWA" } := by
      rintro (hdel | ⟨-, hsymbol, -⟩)
      · cases hdel
      · have husd : ¬ (("USD" : String) ≠ "" ∧ "USD".toList.all Char.isDigit = true ∨
            ['R', 'E', '-'].isPrefixOf "USD".toList = true) := by decide
        exact husd hsymbol
    refine ⟨?_, ?_, ?_, h.shared⟩
    · exact h.visible.same rfl rfl rfl (nodup_assets_append h.visible.assetIds hfresh)
        h.visible.propertyIds rfl rfl fun p _ => goneAsset_append hlive rfl p.assetId
    · obtain ⟨a, ha, hid⟩ := h.known
      exact ⟨a, List.mem_append_left _ ha, hid⟩
    · exact fun hgone => h.live ((goneAsset_append hlive rfl x).mp hgone)

theorem freezeRate_visible {f : EntryFxSnapshot} : (freezeRate f).Keeps (Visible · u) := by
  unfold freezeRate
  refine Tx.triple_write fun db h => ?_
  split
  · exact h
  · exact h.same rfl rfl rfl h.assetIds h.propertyIds rfl rfl fun _ _ => Iff.rfl

section Opening
variable {rules : RegistryRules} {env : Env} {input : CreateRealEstateAssetInput}
  {t : PropertyTerms}

/-- The acquisition is on the shared chart, but for a bank that pays for it. -/
theorem opening_fits {label symbol : String} {accounts : RealEstateAccounts} {usdAssetId : Uuid}
    {payment : Option TomanBankAccount}
    (h : Registering u env.rwaAssetId [accounts.openingEquityAccountId, accounts.assetAccountId] db) :
    db.EntryFits u (t.entry rules env input label symbol accounts usdAssetId payment).postings := by
  have hasset : ∀ x, ¬ db.movesOwn u accounts.assetAccountId x :=
    h.visible.shared_stays (h.shared _ (by simp))
  have hequity : ∀ x, ¬ db.movesOwn u accounts.openingEquityAccountId x :=
    h.visible.shared_stays (h.shared _ (by simp))
  rintro ⟨l, hl, hgone⟩ k hk
  simp only [PropertyTerms.entry, List.mem_cons, List.not_mem_nil, or_false] at hl hk
  rcases hk with rfl | rfl
  · exact hasset _
  · cases payment with
    | none => exact hequity _
    | some bank =>
      rcases hl with rfl | rfl
      · exact absurd hgone h.live
      · exact fun hmoves => hmoves.2 hgone

theorem postRealEstateOpeningEntry_visible {label symbol : String}
    {payment : Option TomanBankAccount} :
    (postRealEstateOpeningEntry rules env input t label symbol payment).Triple
      (Registering u env.rwaAssetId []) fun _ db => Visible db u := by
  unfold postRealEstateOpeningEntry
  refine ensureRealEstateLedgerAccounts_shared.bind fun accounts => ?_
  refine ensureUsdAssetId_registering.bind fun usdAssetId => ?_
  refine Tx.Triple.bind (postEntry_visible fun db h => ⟨h.visible, opening_fits h⟩) fun posted => ?_
  exact freezeRate_visible.bind fun _ => Tx.triple_done fun _ h => h

/-- With its property the asset of a registration is live, and nothing that was gone comes back. -/
theorem Visible.register (h : Visible db u) {q : RealEstateProperty} {a : Asset}
    (hdeleted : a.deleted = false) (hnew : ∀ b ∈ db.assets, b.id ≠ a.id)
    (hproperty : ∀ p ∈ db.realEstateProperties, p.id ≠ q.id) (hasset : q.assetId = a.id)
    (hdb : db' = { db with
      assets := db.assets ++ [a], realEstateProperties := db.realEstateProperties ++ [q] }) :
    Registering u a.id [] db' := by
  have hgone (x : Uuid) : db'.goneAsset x ↔ db.goneAsset x := by
    subst hdb
    simp only [Db.goneAsset, Db.isInactiveOrOrphanedRwaAsset, Db.isOrphanedRwaAsset,
      List.mem_append, List.mem_singleton]
    grind
  refine ⟨?_, ⟨a, ?_, rfl⟩, ?_, by simp⟩
  · have hids : ((db.realEstateProperties ++ [q]).map (·.id)).Nodup := by
      simp only [List.map_append, List.nodup_append, List.map_cons, List.map_nil]
      refine ⟨h.propertyIds, by simp, ?_⟩
      rintro i hi j hj rfl
      obtain ⟨p, hp, hid⟩ := List.mem_map.mp hi
      exact hproperty p hp (hid.trans (List.mem_singleton.mp hj))
    subst hdb
    exact h.same rfl rfl rfl (nodup_assets_append h.assetIds hnew) hids rfl rfl
      fun p _ => hgone p.assetId
  · subst hdb
    exact List.mem_append_right _ (List.mem_singleton_self _)
  · rw [hgone]
    rintro ⟨b, hb, hid, -⟩
    exact hnew b hb hid

theorem insertValuationSnapshot_registering {s : RealEstateValuationSnapshot} {x : Uuid}
    {ids : List Uuid} : (insertValuationSnapshot s).Keeps (Registering u x ids) := by
  intro db _ db' h hrun
  rw [insertValuationSnapshot_ok hrun]
  exact ⟨h.visible.same rfl rfl rfl h.visible.assetIds h.visible.propertyIds rfl rfl
    fun _ _ => Iff.rfl, h.known, h.live, h.shared⟩

theorem setPropertyEntry_visible {propertyId entryId : Uuid} :
    (Tx.write (fun _ => [.property propertyId])
      (fun _ => [.setPropertyEntry propertyId entryId]) : Sql Unit).Keeps (Visible · u) := by
  refine Tx.triple_write fun db h => ?_
  have hids : (db.realEstateProperties.map fun p =>
      if p.id = propertyId then { p with ledgerEntryId := some entryId } else p).map (·.id) =
      db.realEstateProperties.map (·.id) := by
    rw [List.map_map]
    apply List.map_congr_left
    intro p _
    simp only [Function.comp_apply]
    split <;> rfl
  refine h.same rfl rfl rfl h.assetIds (hids ▸ h.propertyIds) rfl rfl fun p _ => ?_
  have hassets : ∀ x : Uuid, (∀ q ∈ db.realEstateProperties.map fun p =>
      if p.id = propertyId then { p with ledgerEntryId := some entryId } else p, q.assetId ≠ x) ↔
      ∀ q ∈ db.realEstateProperties, q.assetId ≠ x := by
    intro x
    simp only [List.mem_map, forall_exists_index, and_imp, forall_apply_eq_imp_iff₂]
    refine forall₂_congr fun q _ => ?_
    split <;> rfl
  exact exists_congr fun a => and_congr_right fun _ => and_congr_right fun _ =>
    or_congr_right (and_congr_right fun _ => and_congr_right fun _ =>
      and_congr_left fun _ => hassets a.id)

theorem recordCurrentPrice_visible {assetId : Uuid} {valueUsd : Decimal} {date : IsoDate} :
    (recordCurrentPrice assetId valueUsd date).Keeps (Visible · u) := by
  refine Tx.Triple.when (fun _ => Tx.triple_write fun db h => ?_) fun _ h _ => h
  exact h.same rfl rfl rfl h.assetIds h.propertyIds rfl rfl fun _ _ => Iff.rfl

theorem createRealEstateAsset_visible :
    (createRealEstateAsset rules env input).Keeps (Visible · u) := by
  unfold createRealEstateAsset
  refine (readOnly_propertyTerms _ _ _).keeps.bind fun t => ?_
  unfold registerProperty
  have hbank : (payingBank rules input).Keeps (Visible · u) := by
    intro db _ db' h hrun
    rw [(payingBank_ok hrun).1]
    exact h
  refine hbank.bind fun payment => ?_
  refine Tx.Triple.bind (Q := fun _ => (Visible · u)) ?_ fun symbol => ?_
  · exact Tx.Triple.bind (Tx.triple_lock fun _ h => h) fun _ =>
      Tx.Triple.bind (Tx.triple_read fun _ h => h) fun _ => Tx.triple_done fun _ h => h
  refine Tx.Triple.bind (Q := fun _ => (Visible · u)) ?_ fun userSeq => ?_
  · exact Tx.Triple.bind (Tx.triple_lock fun _ h => h) fun _ =>
      Tx.Triple.bind (Tx.triple_read fun _ h => h) fun _ => Tx.triple_done fun _ h => h
  -- without its property the new asset is an orphan
  refine Tx.Triple.bind (Q := fun _ db => ∃ old, Visible old u ∧
    (∀ a ∈ old.assets, a.id ≠ env.rwaAssetId) ∧ db = { old with
      assets := old.assets ++ [{ id := env.rwaAssetId, symbol, classCode := "RWA" }] }) ?_
    fun _ => ?_
  · exact Tx.triple_insert fun db h hnew => ⟨db, h, fun a ha => (hnew a ha).1, rfl⟩
  refine Tx.Triple.bind (Q := fun _ => Registering u env.rwaAssetId []) ?_ fun _ => ?_
  · refine Tx.triple_insert fun db h hnew => ?_
    obtain ⟨old, hold, hasset, rfl⟩ := h
    exact hold.register (a := { id := env.rwaAssetId, symbol, classCode := "RWA" })
      (q := t.row env input userSeq) rfl hasset (fun p hp => (hnew p hp).1) rfl rfl
  refine insertValuationSnapshot_registering.bind fun _ => ?_
  refine postRealEstateOpeningEntry_visible.bind fun entryId => ?_
  refine setPropertyEntry_visible.bind fun _ => ?_
  exact recordCurrentPrice_visible.bind fun _ => Tx.triple_done fun _ h => h

end Opening

/-! ## A property is deleted -/

/-- No posted entry about the asset moved anything else of the user's. -/
def Db.DeletionFits (db : Db) (u assetId : Uuid) : Prop :=
  ∀ p ∈ db.postings, db.Posted p.entryId →
    (∃ q ∈ db.postings, q.entryId = p.entryId ∧ q.assetId = assetId) →
    db.movesOwn u p.accountId p.assetId → p.assetId = assetId

instance (assetId : Uuid) : Decidable (db.DeletionFits u assetId) :=
  inferInstanceAs (Decidable (∀ p ∈ db.postings, _))

/-- What is gone when a property was removed: what was, and its asset. -/
theorem goneAsset_removed {prop : RealEstateProperty} (hprop : prop ∈ db.realEstateProperties)
    (hids : (db.realEstateProperties.map (·.id)).Nodup)
    (hasset : ∃ a ∈ db.assets, a.id = prop.assetId)
    (hassets : db'.assets = db.assets.map fun a =>
      if a.id = prop.assetId then { a with deleted := true } else a)
    (hproperties : db'.realEstateProperties = db.realEstateProperties.filter (·.id ≠ prop.id))
    (hvehicles : db'.vehicleAssets = db.vehicleAssets)
    (hregistry : db'.rwaRegistry = db.rwaRegistry) (x : Uuid) :
    db'.goneAsset x ↔ db.goneAsset x ∨ x = prop.assetId := by
  have horphan (b : Asset) (hb : b.id ≠ prop.assetId) :
      db'.isOrphanedRwaAsset b ↔ db.isOrphanedRwaAsset b := by
    have hrows : (∀ q ∈ db'.realEstateProperties, q.assetId ≠ b.id) ↔
        ∀ q ∈ db.realEstateProperties, q.assetId ≠ b.id := by
      rw [hproperties]
      constructor
      · intro h q hq hid
        by_cases hsame : q.id = prop.id
        · rw [List.inj_on_of_nodup_map hids hq hprop hsame] at hid
          exact hb hid.symm
        · exact h q (List.mem_filter.mpr ⟨hq, by simpa using hsame⟩) hid
      · exact fun h q hq => h q (List.mem_of_mem_filter hq)
    unfold Db.isOrphanedRwaAsset
    rw [hrows, hvehicles, hregistry]
  constructor
  · rintro ⟨a, ha, rfl, hgone⟩
    rw [hassets] at ha
    obtain ⟨b, hb, rfl⟩ := List.mem_map.mp ha
    by_cases hid : b.id = prop.assetId
    · rw [if_pos hid]
      exact .inr hid
    · rw [if_neg hid] at hgone ⊢
      exact .inl ⟨b, hb, rfl, hgone.imp_right (horphan b hid).mp⟩
  · intro h
    obtain ⟨b, hb, hid, hgone⟩ : ∃ b ∈ db.assets, b.id = x ∧
        (b.id = prop.assetId ∨ db.isInactiveOrOrphanedRwaAsset b) := by
      rcases h with ⟨b, hb, hid, hgone⟩ | rfl
      · exact ⟨b, hb, hid, .inr hgone⟩
      · obtain ⟨b, hb, hid⟩ := hasset
        exact ⟨b, hb, hid, .inl hid⟩
    refine ⟨_, hassets ▸ List.mem_map_of_mem hb, ?_⟩
    by_cases hsame : b.id = prop.assetId
    · rw [if_pos hsame]
      exact ⟨hid, .inl rfl⟩
    · rw [if_neg hsame]
      exact ⟨hid, (hgone.resolve_left hsame).imp_right (horphan b hsame).mpr⟩

theorem removeProperty_visible {prop : RealEstateProperty} :
    (removeProperty prop).Triple (fun db => Visible db u ∧ prop ∈ db.realEstateProperties ∧
      (∃ a ∈ db.assets, a.id = prop.assetId) ∧ db.DeletionFits u prop.assetId)
      fun _ db => Visible db u := by
  rintro db _ db' ⟨h, hprop, hasset, hfits⟩ hrun
  unfold removeProperty at hrun
  rw [Tx.run_write_bind, Tx.run_write_bind, Tx.run_write] at hrun
  have hgone := fun hassets hproperties hvehicles hregistry => @goneAsset_removed db db' prop hprop
    h.propertyIds hasset hassets hproperties hvehicles hregistry
  cases hrun
  have hgone := hgone rfl rfl rfl rfl
  have hassets : (db.assets.map fun a => if a.id = prop.assetId
      then { a with deleted := true } else a).map (·.id) = db.assets.map (·.id) := by
    rw [List.map_map]
    apply List.map_congr_left
    intro a _
    simp only [Function.comp_apply]
    split <;> rfl
  refine ⟨h.users, h.lotIds, h.accountIds, hassets ▸ h.assetIds,
    h.propertyIds.sublist (List.filter_sublist.map _), h.live, h.named, h.lineEntry,
    h.lineAccount, ?_⟩
  rintro p hp hposted ⟨q, hq, hqid, hqgone⟩ ⟨hown, hlive⟩
  have hmoves : db.movesOwn u p.accountId p.assetId :=
    ⟨hown, fun hp' => hlive ((hgone p.assetId).mpr (.inl hp'))⟩
  rcases (hgone q.assetId).mp hqgone with hqgone | hsame
  · exact h.shown p hp hposted ⟨q, hq, hqid, hqgone⟩ hmoves
  · exact hlive ((hgone p.assetId).mpr (.inr (hfits p hp hposted ⟨q, hq, hqid, hsame⟩ hmoves)))

end Steps

/-! ## Runs -/

/-- A request: any entry, the counter-account of one, a reversal, or a property that is registered,
sold or deleted. -/
inductive HoldingOp where
  | entry (env : Env) (input : PostEntryInput)
  | account (env : Env) (code name : String) (type : AccountType) (userId : Option Uuid)
  | reverse (env : Env) (entryId : Uuid)
  | register (rules : RegistryRules) (env : Env) (input : CreateRealEstateAssetInput)
  | sell (history : IsoDate → Option DatedRate) (formatMoney : Decimal → String) (env : Env)
      (input : SellRealEstateInput)
  | delete (input : DeleteRealEstateInput)

namespace HoldingOp

def exec : HoldingOp → Db → Db
  | .entry env input, db => (postEntry env input).exec db
  | .account env code name type userId, db =>
    (ensureSystemAccount env code name type userId).exec db
  | .reverse env entryId, db => (reverseEntry env entryId).exec db
  | .register rules env input, db => (createRealEstateAsset rules env input).exec db
  | .sell history formatMoney env input, db =>
    (sellRealEstateAsset history formatMoney env input).exec db
  | .delete input, db => (deleteRealEstateAsset input).exec db

/-- No entry about an asset that is gone, or is to be gone, moves anything of the user's: not one
that is posted, and not one about a property that is deleted. No sale goes through. -/
def Fits (u : Uuid) : HoldingOp → Db → Prop
  | .entry _ input, db => db.EntryFits u input.postings
  | .sell history formatMoney env input, db =>
    (sellRealEstateAsset history formatMoney env input).Refused db
  | .delete input, db => ∀ found ∈ db.deletableProperty input, db.DeletionFits u found.1.assetId
  | _, _ => True

variable {u : Uuid} {db : Db}

instance : (op : HoldingOp) → Decidable (op.Fits u db)
  | .entry _ input => inferInstanceAs (Decidable (db.EntryFits u input.postings))
  | .account .. => .isTrue trivial
  | .reverse .. => .isTrue trivial
  | .register .. => .isTrue trivial
  | .sell history formatMoney env input =>
    inferInstanceAs (Decidable ((sellRealEstateAsset history formatMoney env input).Refused db))
  | .delete input => inferInstanceAs (Decidable (∀ found ∈ db.deletableProperty input, _))

theorem deletableProperty_mem {input : DeleteRealEstateInput} {prop : RealEstateProperty}
    {symbol : String} (h : db.deletableProperty input = some (prop, symbol)) :
    prop ∈ db.realEstateProperties ∧ ∃ a ∈ db.assets, a.id = prop.assetId := by
  obtain ⟨q, hq, ha⟩ := Option.bind_eq_some_iff.mp h
  obtain ⟨a, hfind, hpair⟩ := Option.map_eq_some_iff.mp ha
  cases hpair
  have hid := List.find?_some hfind
  simp only [decide_eq_true_eq] at hid
  exact ⟨List.mem_of_find?_eq_some hq, a, List.mem_of_find?_eq_some hfind, hid⟩

theorem deleteRealEstateAsset_visible {input : DeleteRealEstateInput} :
    (deleteRealEstateAsset input).Triple (fun db => Visible db u ∧
      ∀ found ∈ db.deletableProperty input, db.DeletionFits u found.1.assetId)
      fun _ db => Visible db u := by
  unfold deleteRealEstateAsset
  refine Tx.Triple.bind (Q := fun row db => Visible db u ∧ row = db.deletableProperty input ∧
    ∀ found ∈ row, db.DeletionFits u found.1.assetId) ?_ fun row => ?_
  · exact Tx.triple_read fun db h => ⟨h.1, rfl, h.2⟩
  refine Tx.Triple.bind (Q := fun found db => Visible db u ∧
    found.1 ∈ db.realEstateProperties ∧ (∃ a ∈ db.assets, a.id = found.1.assetId) ∧
      db.DeletionFits u found.1.assetId) ?_ fun found => ?_
  · refine Tx.triple_ofExcept fun db found h hok => ?_
    obtain ⟨hvisible, hrow, hfits⟩ := h
    obtain rfl : row = some found := orComplain_ok.mp hok
    obtain ⟨hprop, hasset⟩ := deletableProperty_mem hrow.symm
    exact ⟨hvisible, hprop, hasset, hfits found rfl⟩
  · exact removeProperty_visible.bind fun _ => Tx.triple_done fun _ h => h

/-- A request keeps every entry that moves something of the user's visible. -/
theorem exec_visible (op : HoldingOp) (h : Visible db u) (hfits : op.Fits u db) :
    Visible (op.exec db) u := by
  cases op with
  | entry env input => exact (postEntry_visible fun _ h => h).exec ⟨h, hfits⟩ h
  | account env code name type userId => exact ensureSystemAccount_visible.exec h h
  | reverse env entryId => exact reverseEntry_visible.exec h h
  | register rules env input => exact createRealEstateAsset_visible.exec h h
  | sell history formatMoney env input =>
    have hsame : (HoldingOp.sell history formatMoney env input).exec db = db := hfits.exec
    rwa [hsame]
  | delete input => exact deleteRealEstateAsset_visible.exec ⟨h, hfits⟩ h

end HoldingOp

/-- The user is known, the ids are primary keys, every account of the user is live, no entry has
been recorded. -/
structure Db.OpensFor (db : Db) (u : Uuid) : Prop extends db.EmptyLedger where
  users : u ∈ db.users
  accountIds : (db.accounts.map (·.id)).Nodup
  assetIds : (db.assets.map (·.id)).Nodup
  propertyIds : (db.realEstateProperties.map (·.id)).Nodup
  live : ∀ a ∈ db.accounts, a.userId = some u → a.deleted = false

theorem Db.OpensFor.visible {db : Db} {u : Uuid} (h : db.OpensFor u) : Visible db u where
  users := h.users
  lotIds := by simp [h.lots]
  accountIds := h.accountIds
  assetIds := h.assetIds
  propertyIds := h.propertyIds
  live := h.live
  named := by simp [h.journalEntries]
  lineEntry := by simp [h.postings]
  lineAccount := by simp [h.postings]
  shown := by simp [h.postings]

/-- As long as no property is sold, and no entry about an asset that is gone or goes moves
anything of the user's, the views agree in every state. -/
theorem cash_views_agree {db : Db} {u : Uuid} (h : db.OpensFor u) (ops : List HoldingOp)
    (hfits : EveryCall HoldingOp.exec (HoldingOp.Fits u) ops db) :
    ViewsOfCashAgree (runAll HoldingOp.exec ops db) u :=
  (runAll_keeps_of (I := (Visible · u)) (fun op _ hs => op.exec_visible hs) ops h.visible
    hfits).views

/-! ## A home that is bought without an account, then deleted or sold -/

/-- A user with a Toman bank account and a rate of 100 000. -/
def demoHome : Db :=
  { users := [1]
    assets := [⟨1, "USD", "CASH", false⟩, ⟨2, "IRT", "CASH", false⟩]
    accounts := [⟨11, 0, some 1, "1010", "بانک", .asset, some 2, false⟩,
      ⟨12, 0, some 1, OPENING_EQUITY_CODE, "سرمایه افتتاحیه", .equity, some 1, false⟩]
    userFxSettings := [⟨1, .ofInt 100000⟩] }

def homeRules : RegistryRules where
  history _ := none
  formatMoney _ := ""
  isTomanBankAccount _ asset := asset.any (·.symbol = "IRT")
  catalogModel _ := none
  blockedVehicle _ := none
  city id := some { id }
  neighborhood id := some { id, cityId := 1 }
  propertyType id := some { id }
  blockedProperty _ := none

def homeBought : HoldingOp :=
  .register homeRules
    { entryId := 1, today := 20260501, propertyId := 5, rwaAssetId := 9,
      accountIds := fun n => 20 + n }
    { cityId := some 1, neighborhoodId := some 1, propertyTypeId := some 1
      acquisitionDate := some 20260501, valuationDate := some 20260501
      purchasePriceToman := .ofInt 5000000, currentValueToman := .ofInt 5000000
      valuationFxRate := some (.ofInt 100000)
      sizeSqm := .ofInt 80, userId := some 1 }

/-- 700 000 Toman into the bank account. -/
def salaryPaid : HoldingOp :=
  .entry { entryId := 3, today := 20260515 }
    { entryDate := 20260515, type := .income, description := "حقوق", userId := some 1
      postings :=
        [{ accountId := 11, assetId := 2, quantity := .ofInt 700000, baseValue := .ofInt 7 },
         { accountId := 12, assetId := 1, quantity := .ofInt (-7), baseValue := .ofInt (-7) }] }

def homeDeleted : HoldingOp :=
  .delete { propertyId := 5, userId := some 1 }

/-- Sold for 6 000 000 Toman into the bank account. -/
def homeSold : HoldingOp :=
  .sell (fun _ => none) (fun _ => "") { entryId := 2, today := 20260601, accountId := 30 }
    { propertyId := 5, saleDate := some 20260601, salePriceToman := .ofInt 6000000
      saleFxRate := some (.ofInt 100000), saleAccountId := 11, userId := some 1 }

theorem cash_views_agree_deleted :
    ViewsOfCashAgree (runAll HoldingOp.exec [homeBought, salaryPaid, homeDeleted] demoHome) 1 :=
  cash_views_agree
    { journalEntries := rfl, postings := rfl, lots := rfl, lotConsumptions := rfl
      users := by decide, accountIds := by decide, assetIds := by decide
      propertyIds := by decide, live := by decide }
    [homeBought, salaryPaid, homeDeleted]
    ⟨trivial, by decide, by decide, trivial⟩

/-- The balances hide the proceeds of the sale; the guard and the holdings count them. -/
theorem cash_views_differ :
    let db := runAll HoldingOp.exec [homeBought, homeSold] demoHome
    demoHome.OpensFor 1 ∧ (∃ entry ∈ db.journalEntries, entry.id = 2 ∧ entry.status = .posted) ∧
      db.LiveAsset 2 ∧ (∃ a ∈ db.ownAccounts 1, a.id = 11) ∧
      db.shownQuantity ⟨some 1, false⟩ 11 2 = 0 ∧
      db.nativeBalance (some 1) 11 2 = .ofInt 6000000 ∧
      db.holdingQuantity ⟨some 1, false⟩ 2 = .ofInt 6000000 ∧ ¬ ViewsOfCashAgree db 1 := by
  have shown : (runAll HoldingOp.exec [homeBought, homeSold] demoHome).shownQuantity
      ⟨some 1, false⟩ 11 2 = 0 := by decide
  have guard : (runAll HoldingOp.exec [homeBought, homeSold] demoHome).nativeBalance (some 1) 11 2
      = .ofInt 6000000 := by decide
  have cash : (runAll HoldingOp.exec [homeBought, homeSold] demoHome).LiveAsset 2 := by
    decide
  have bank : ∃ a ∈ (runAll HoldingOp.exec [homeBought, homeSold] demoHome).ownAccounts 1,
      a.id = 11 := by decide
  refine ⟨⟨⟨rfl, rfl, rfl, rfl⟩, ?_, ?_, ?_, ?_, ?_⟩, ?_, cash, bank, shown, guard, ?_, ?_⟩
  iterate 7 decide
  intro hviews
  obtain ⟨a, ha, hid⟩ := bank
  have hsame := hviews.guard a ha 2 cash
  rw [hid, shown, guard] at hsame
  exact absurd hsame (by decide)

end Pwos
