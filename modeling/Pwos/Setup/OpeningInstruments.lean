import Pwos.Setup.OpeningLines

/-!
# The lines of the instruments

A fund, a share or a listed asset is registered inside the transaction: its asset is found or
inserted, and an account is found or opened under a code made of the asset's id. Where such codes
tell the assets apart, every instrument has an account, and a positive one its line.
-/

namespace Pwos

/-- The ids that assets have or may get. -/
def SetupIds.Known (ids : SetupIds) (db : Db) (i : Uuid) : Prop :=
  (∃ a ∈ db.assets, a.id = i) ∨ ∃ symbol, ids.asset symbol = i

/-- An account of the user with the code of an instrument is the account of this instrument. -/
def Db.InstrumentsCoded (db : Db) (rules : SetupRules) (userId : Uuid) : Prop :=
  ∀ a ∈ db.accounts, a.userId = some userId → "INS-".toList <+: a.code.toList →
    a.type = .asset ∧ ∃ s ∈ db.assets, a.assetId = some s.id ∧ a.code = rules.instrumentCode s.id

instance (db : Db) (rules : SetupRules) (userId : Uuid) :
    Decidable (db.InstrumentsCoded rules userId) :=
  inferInstanceAs (Decidable (∀ a ∈ db.accounts, a.userId = some userId →
    "INS-".toList <+: a.code.toList → a.type = .asset ∧
      ∃ s ∈ db.assets, a.assetId = some s.id ∧ a.code = rules.instrumentCode s.id))

section Codes
variable {rules : SetupRules}

theorem instrumentCode_ne_toString (n : Nat) : ¬ "INS-".toList <+: (toString n : String).toList := by
  intro h
  have hmem : 'I' ∈ (toString n : String).toList := h.subset (by decide)
  rw [Nat.toString_eq_repr, Nat.toList_repr] at hmem
  have hdigit := Nat.isDigit_of_mem_toDigits (by decide : 0 < 10) le_rfl hmem
  exact absurd hdigit (by decide)

theorem instrumentCode_ne_wallexCode (symbol : String) :
    ¬ "INS-".toList <+: (wallexCode symbol).toList := by
  rintro ⟨rest, hrest⟩
  unfold wallexCode at hrest
  rw [String.toList_append] at hrest
  simp only [String.toList_ofList] at hrest
  exact absurd (List.head_eq_of_cons_eq hrest) (by decide)

/-- The code of an instrument starts as such codes do, and goes on with the digits of its id. -/
theorem instrumentCode_prefix (i : Uuid) : "INS-".toList <+: (rules.instrumentCode i).toList := by
  unfold SetupRules.instrumentCode
  rw [String.toList_append]
  exact List.prefix_append _ _

theorem instrumentCode_digits {i j : Uuid} (h : rules.instrumentCode i = rules.instrumentCode j) :
    rules.idDigits i = rules.idDigits j := by
  have hchars := congrArg String.toList h
  unfold SetupRules.instrumentCode at hchars
  rw [String.toList_append, String.toList_append] at hchars
  exact String.toList_inj.mp (List.append_cancel_left hchars)

end Codes

/-! ## Registration -/

/-- What the registrations rely on: the ids are among the known ones, and the accounts fit. -/
structure Registrable (rules : SetupRules) (ids : SetupIds) (userId : Uuid) (S : Set Uuid)
    (db : Db) : Prop where
  drawn : ∀ symbol, ids.asset symbol ∈ S
  known : ∀ a ∈ db.assets, a.id ∈ S
  coded : db.InstrumentsCoded rules userId

section Register
variable {rules : SetupRules} {env : Env} {ids : SetupIds} {userId : Uuid} {S : Set Uuid}
  {db db' : Db}

theorem Db.InstrumentsCoded.grown (h : db.InstrumentsCoded rules userId)
    (haccounts : db'.accounts = db.accounts) (hgrown : db.Grown ids db') :
    db'.InstrumentsCoded rules userId := by
  intro a ha hown hcode
  rw [haccounts] at ha
  obtain ⟨htype, s, hs, hasset, hacode⟩ := h a ha hown hcode
  obtain ⟨s', hs', hident⟩ := List.mem_map.mp (hgrown.asset (List.mem_map_of_mem hs))
  obtain ⟨hid, -⟩ := Prod.mk.inj hident
  exact ⟨htype, s', hs', by rw [hid]; exact hasset, by rw [hid]; exact hacode⟩

theorem Db.InstrumentsCoded.snoc (h : db.InstrumentsCoded rules userId) {a : Account}
    (ha : "INS-".toList <+: a.code.toList → a.type = .asset ∧
      ∃ s ∈ db.assets, a.assetId = some s.id ∧ a.code = rules.instrumentCode s.id) :
    ({ db with accounts := db.accounts ++ [a] } : Db).InstrumentsCoded rules userId := by
  intro b hb hown hcode
  rcases List.mem_append.mp hb with hb | hb
  · exact h b hb hown hcode
  · rw [List.mem_singleton.mp hb] at hcode ⊢
    exact ha hcode

theorem keeps_instrumentsCoded_fillChartRow {assetMap : String → Option Uuid} (row : ChartRow) :
    (fillChartRow env ids userId assetMap row).Keeps (·.InstrumentsCoded rules userId) := by
  intro db u db' h hrun
  rcases fillChartRow_ok hrun with ⟨rfl, -⟩ | ⟨b, rfl, -, -, hcode, -⟩
  · exact h
  · exact h.snoc fun hprefix => absurd (hcode ▸ hprefix) (instrumentCode_ne_toString row.code)

theorem Registrable.grown (h : Registrable rules ids userId S db)
    (haccounts : db'.accounts = db.accounts) (hgrown : db.Grown ids db') :
    Registrable rules ids userId S db' where
  drawn := h.drawn
  known a ha := by
    rcases hgrown.drawn a ha with hold | hnew
    · obtain ⟨b, hb, hident⟩ := List.mem_map.mp hold
      exact (Prod.mk.inj hident).1 ▸ h.known b hb
    · exact hnew ▸ h.drawn a.symbol
  coded := h.coded.grown haccounts hgrown

theorem mem_accountHolding {assetId : Uuid} {a : Account}
    (h : db.accountHolding userId assetId = some a) :
    a ∈ db.accounts ∧ a.userId = some userId ∧ a.assetId = some assetId := by
  have hkey := List.find?_some h
  simp only [decide_eq_true_eq] at hkey
  exact ⟨List.mem_of_find?_eq_some h, hkey.2.2, hkey.1⟩

/-- The account was there, or was opened, or its code is taken. -/
theorem ensureHoldingAccount_ok {code name : String} {assetId : Uuid} {found : Option Account}
    (h : (ensureHoldingAccount env ids userId code name assetId).run db = .ok (found, db')) :
    (∃ a ∈ db.accounts, found = some a ∧ db' = db ∧ a.userId = some userId ∧
        a.assetId = some assetId) ∨
      (∃ a, found = some a ∧ db' = { db with accounts := db.accounts ++ [a] } ∧ db.Grown ids db' ∧
        a.userId = some userId ∧ a.code = code ∧ a.type = .asset ∧ a.assetId = some assetId) ∨
      (found = none ∧ db.accountHolding userId assetId = none ∧
        ∃ b ∈ db.accounts, b.userId = some userId ∧ b.code = code) := by
  unfold ensureHoldingAccount at h
  rw [Tx.run_read_bind] at h
  cases hexisting : db.accountHolding userId assetId with
  | some a =>
    rw [hexisting] at h
    cases h
    obtain ⟨ha, hown, hheld⟩ := mem_accountHolding hexisting
    exact .inl ⟨a, ha, rfl, rfl, hown, hheld⟩
  | none =>
    rw [hexisting] at h
    obtain ⟨created, db₁, h₁, k₁⟩ := Tx.run_bind_ok.mp h
    rcases insertAccountOnConflictDoNothing_ok ids h₁ with
      ⟨rfl, rfl, htaken⟩ | ⟨rfl, hdb₁, hgrown⟩
    · dsimp only at k₁
      rw [Tx.run_read, hexisting] at k₁
      cases k₁
      exact .inr (.inr ⟨rfl, rfl, htaken.2⟩)
    · cases k₁
      exact .inr (.inl ⟨_, rfl, hdb₁, hgrown, rfl, rfl, rfl, rfl⟩)

/-- The asset of the symbol, and an account of the user that holds it. -/
structure InstrumentOpened (userId : Uuid) (symbol : String) (r : RegisteredInstrument) (db : Db) :
    Prop where
  asset : (r.assetId, symbol) ∈ db.assets.map Asset.ident
  account : ∃ a ∈ db.accounts, r.accountId = some a.id ∧ a.userId = some userId ∧
    a.assetId = some r.assetId

/-- Codes that tell the assets apart leave the code of an instrument free, or on its account. -/
theorem ensureInstrumentAccount_ok (hdigits : Set.InjOn rules.idDigits S)
    (hreg : Registrable rules ids userId S db) {assetId : Uuid} {name symbol : String}
    (hident : (assetId, symbol) ∈ db.assets.map Asset.ident) {accountId : Option Uuid}
    (h : (ensureInstrumentAccount rules env ids userId assetId name symbol).run db =
      .ok (accountId, db')) :
    Registrable rules ids userId S db' ∧ db.Grown ids db' ∧
      InstrumentOpened userId symbol ⟨assetId, name, accountId⟩ db' := by
  unfold ensureInstrumentAccount at h
  obtain ⟨found, db₁, h₁, k₁⟩ := Tx.run_bind_ok.mp h
  cases k₁
  obtain ⟨s, hs, hsident⟩ := List.mem_map.mp hident
  obtain ⟨rfl, rfl⟩ := Prod.mk.inj hsident
  rcases ensureHoldingAccount_ok h₁ with ⟨a, ha, rfl, rfl, hown, hheld⟩ |
    ⟨a, rfl, rfl, hgrown, hown, hcode, htype, hheld⟩ | ⟨rfl, hnone, b, hb, hown, hcode⟩
  · exact ⟨hreg, .refl _, hident, a, ha, rfl, hown, hheld⟩
  · refine ⟨⟨hreg.drawn, hreg.known, ?_⟩, hgrown, hident, a, ?_, rfl, hown, hheld⟩
    · exact hreg.coded.snoc fun _ => ⟨htype, s, hs, hheld, hcode⟩
    · exact List.mem_append_right _ (List.mem_singleton.mpr rfl)
  · -- the account of the code holds this very asset, so it would have been found
    obtain ⟨hbtype, s', hs', hbasset, hbcode⟩ :=
      hreg.coded b hb hown (hcode ▸ instrumentCode_prefix s.id)
    have hsame : s'.id = s.id := hdigits (hreg.known s' hs') (hreg.known s hs)
      (instrumentCode_digits (hbcode.symm.trans hcode))
    rw [hsame] at hbasset
    exact absurd (List.find?_eq_none.mp hnone b hb) (by simp [hbasset, hbtype, hown])

theorem reviveAsset_ok {asset : Asset} {u : Unit} (hmem : asset ∈ db.assets)
    (h : (reviveAsset asset).run db = .ok (u, db')) :
    db'.accounts = db.accounts ∧ db.Grown ids db' ∧
      (asset.id, asset.symbol) ∈ db'.assets.map Asset.ident := by
  have hgrown : db.Grown ids db' := grows_reviveAsset asset db u db' h
  refine ⟨?_, hgrown, hgrown.asset (List.mem_map_of_mem hmem)⟩
  unfold reviveAsset at h
  rw [Tx.run_insert] at h
  split at h <;> cases h
  rfl

theorem insertNewAsset_ok {symbol classCode : String} {u : Unit}
    (h : (insertNewAsset { id := ids.asset symbol, symbol, classCode }).run db = .ok (u, db')) :
    db'.accounts = db.accounts ∧ db.Grown ids db' ∧
      (ids.asset symbol, symbol) ∈ db'.assets.map Asset.ident := by
  have hgrown : db.Grown ids db' := grows_insertNewAsset symbol classCode db u db' h
  refine ⟨?_, hgrown, ?_⟩ <;> unfold insertNewAsset at h <;> rw [Tx.run_insert] at h <;>
    split at h <;> cases h
  · rfl
  · refine List.mem_map.mpr ⟨_, List.mem_append_right _ (List.mem_singleton.mpr rfl), rfl⟩

theorem registerInstrument_ok (hdigits : Set.InjOn rules.idDigits S)
    (hreg : Registrable rules ids userId S db) {kind : InstrumentKind} {symbol : String}
    {name : Option String} {r : RegisteredInstrument}
    (h : (registerInstrument rules env ids userId kind symbol name).run db = .ok (r, db')) :
    Registrable rules ids userId S db' ∧ db.Grown ids db' ∧ InstrumentOpened userId symbol r db' := by
  unfold registerInstrument at h
  dsimp only at h
  rw [Tx.run_read_bind] at h
  cases hexisting : db.assets.find? (·.symbol = symbol) with
  | some asset =>
    rw [hexisting] at h
    obtain ⟨u, db₁, h₁, k₁⟩ := Tx.run_bind_ok.mp h
    obtain ⟨accountId, db₂, h₂, k₂⟩ := Tx.run_bind_ok.mp k₁
    cases k₂
    have hsymbol := List.find?_some hexisting
    simp only [decide_eq_true_eq] at hsymbol
    obtain ⟨haccounts, hgrown, hident⟩ :=
      reviveAsset_ok (List.mem_of_find?_eq_some hexisting) h₁
    rw [hsymbol] at hident
    obtain ⟨hreg₂, hgrown₂, hregistered⟩ :=
      ensureInstrumentAccount_ok hdigits (hreg.grown haccounts hgrown) hident h₂
    exact ⟨hreg₂, hgrown.trans hgrown₂, hregistered⟩
  | none =>
    rw [hexisting] at h
    obtain ⟨u, db₁, h₁, k₁⟩ := Tx.run_bind_ok.mp h
    obtain ⟨accountId, db₂, h₂, k₂⟩ := Tx.run_bind_ok.mp k₁
    cases k₂
    obtain ⟨haccounts, hgrown, hident⟩ := insertNewAsset_ok h₁
    obtain ⟨hreg₂, hgrown₂, hregistered⟩ :=
      ensureInstrumentAccount_ok hdigits (hreg.grown haccounts hgrown) hident h₂
    exact ⟨hreg₂, hgrown.trans hgrown₂, hregistered⟩

theorem ensureWallexAsset_ok {symbol : String} {assetId : Uuid}
    (h : (ensureWallexAsset rules ids symbol).run db = .ok (assetId, db')) :
    db'.accounts = db.accounts ∧ db.Grown ids db' ∧
      (assetId, symbol) ∈ db'.assets.map Asset.ident := by
  unfold ensureWallexAsset at h
  rw [Tx.run_read_bind] at h
  cases hexisting : db.assets.find? (·.symbol = symbol) with
  | some asset =>
    rw [hexisting] at h
    obtain ⟨u, db₁, h₁, k₁⟩ := Tx.run_bind_ok.mp h
    cases k₁
    have hsymbol := List.find?_some hexisting
    simp only [decide_eq_true_eq] at hsymbol
    rw [← hsymbol]
    exact reviveAsset_ok (List.mem_of_find?_eq_some hexisting) h₁
  | none =>
    rw [hexisting] at h
    obtain ⟨classCode, db₁, h₁, k₁⟩ := Tx.run_bind_ok.mp h
    obtain ⟨-, rfl⟩ := Tx.run_ofExcept_ok.mp h₁
    obtain ⟨u, db₂, h₂, k₂⟩ := Tx.run_bind_ok.mp k₁
    cases k₂
    exact insertNewAsset_ok h₂

/-- A listed asset that has no account stops the setup. -/
theorem registerWallexAsset_ok (hreg : Registrable rules ids userId S db) {symbol : String}
    {r : RegisteredInstrument}
    (h : (registerWallexAsset rules env ids userId symbol).run db = .ok (r, db')) :
    Registrable rules ids userId S db' ∧ db.Grown ids db' ∧
      InstrumentOpened userId (upper (trimText symbol)) r db' := by
  unfold registerWallexAsset at h
  dsimp only at h
  rw [Tx.run_read_bind, Tx.run_require_bind] at h
  split at h
  swap
  · cases h
  obtain ⟨assetId, db₁, h₁, k₁⟩ := Tx.run_bind_ok.mp h
  obtain ⟨haccounts, hgrown, hident⟩ := ensureWallexAsset_ok h₁
  have hreg₁ := hreg.grown haccounts hgrown
  obtain ⟨found, db₂, h₂, k₂⟩ := Tx.run_bind_ok.mp k₁
  rcases ensureHoldingAccount_ok h₂ with ⟨a, ha, rfl, rfl, hown, hheld⟩ |
    ⟨a, rfl, rfl, hgrown₂, hown, hcode, htype, hheld⟩ | ⟨rfl, -, -⟩
  · cases k₂
    exact ⟨hreg₁, hgrown, hident, a, ha, rfl, hown, hheld⟩
  · cases k₂
    refine ⟨⟨hreg₁.drawn, hreg₁.known, ?_⟩, hgrown.trans hgrown₂, hident, a, ?_, rfl, hown, hheld⟩
    · exact hreg₁.coded.snoc fun hprefix =>
        absurd (hcode ▸ hprefix) (instrumentCode_ne_wallexCode _)
    · exact List.mem_append_right _ (List.mem_singleton.mpr rfl)
  · cases k₂

theorem registerSetupInstrument_ok (hdigits : Set.InjOn rules.idDigits S)
    (hreg : Registrable rules ids userId S db) {instrument : SetupInstrument}
    {r : RegisteredInstrument}
    (h : (registerSetupInstrument rules env ids userId instrument).run db = .ok (r, db')) :
    Registrable rules ids userId S db' ∧ db.Grown ids db' ∧ InstrumentOpened userId
      (if instrument.kind = .wallex then upper (trimText (trimText instrument.symbol))
        else trimText instrument.symbol) r db' := by
  unfold registerSetupInstrument at h
  cases hkind : instrument.kind with
  | wallex =>
    rw [hkind] at h
    exact registerWallexAsset_ok hreg h
  | fund =>
    rw [hkind] at h
    exact registerInstrument_ok hdigits hreg h
  | stock =>
    rw [hkind] at h
    exact registerInstrument_ok hdigits hreg h

/-- An instrument with a symbol has an account, and a positive one its line and its lot. -/
theorem instrumentLine_opens (hdigits : Set.InjOn rules.idDigits S) {rates : SetupRates}
    (instrument : SetupInstrument) :
    OpensLine userId ids (Registrable rules ids userId S) (instrumentRow instrument)
      (instrumentLine rules env ids userId rates instrument) := by
  intro db line db' hreg h
  unfold instrumentLine at h
  unfold instrumentRow
  dsimp only at h ⊢
  split at h
  · rename_i hblank
    cases h
    rw [if_pos hblank]
    exact ⟨hreg, .refl _, .nil⟩
  rename_i hsymbol
  rw [if_neg hsymbol]
  obtain ⟨r, db₁, h₁, k₁⟩ := Tx.run_bind_ok.mp h
  obtain ⟨hreg₁, hgrown, hident, a, ha, haccount, hown, hheld⟩ :=
    registerSetupInstrument_ok hdigits hreg h₁
  rw [haccount] at k₁
  dsimp only at k₁
  obtain ⟨qty, db₂, h₂, k₂⟩ := Tx.run_bind_ok.mp k₁
  obtain ⟨hqty, rfl⟩ := Tx.run_ofExcept_ok.mp h₂
  rw [amountOf_ok hqty] at k₂
  split at k₂
  · rename_i hzero
    cases k₂
    exact ⟨hreg₁, hgrown, opens_skipped hzero⟩
  · rename_i hpos
    obtain ⟨unitPrice, db₃, h₃, k₃⟩ := Tx.run_bind_ok.mp k₂
    obtain ⟨-, rfl⟩ := Tx.run_ofExcept_ok.mp h₃
    obtain ⟨price, db₄, h₄, k₄⟩ := Tx.run_bind_ok.mp k₃
    obtain ⟨-, rfl⟩ := Tx.run_ofExcept_ok.mp h₄
    cases k₄
    exact ⟨hreg₁, hgrown, opens_line (holdingLine_for ha hown hheld hident (not_le.mp hpos))⟩

end Register

end Pwos
