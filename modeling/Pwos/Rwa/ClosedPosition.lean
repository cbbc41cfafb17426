import Pwos.Ledger.CounterLegs
import Pwos.Rwa.Bought
import Pwos.Rwa.SaleAmounts

/-!
# Selling closes the position

A vehicle or a property is bought as one unit at its purchase value and sold later. The entry of a
property takes the unit out; that of a vehicle takes out as many units as the dollars it is
carried at. So the position of a vehicle closes only at a purchase value of one dollar
(`sold_position_closes_iff`).
-/

namespace Pwos

/-! ## The account of the result -/

/-- An account of the result is found, or can be made. -/
def Db.OffersAccount (db : Db) (code : String) (owner : Option Uuid) : Prop :=
  (∃ a ∈ db.accounts, a.code = code ∧ (a.userId = owner ∨ a.userId = none) ∧ a.deleted = false) ∨
    ¬ db.CodeTaken owner code

instance (db : Db) (code : String) (owner : Option Uuid) : Decidable (db.OffersAccount code owner) :=
  inferInstanceAs (Decidable (_ ∨ _))

/-- What a result is booked against is money, and not the asset. -/
structure Db.MoneyApart (db : Db) (assetId : Uuid) : Prop where
  numbered : db.Numbered assetId
  money : ∃ a ∈ db.assets, (a.symbol = "USD" ∨ a.symbol = "IRT") ∧ a.deleted = false
  accounts : ∀ a ∈ db.accounts, a.code = REALIZED_PNL_CODE ∨ a.code = OPENING_EQUITY_CODE →
    a.assetId ≠ some assetId

section Counter
variable {env : Env} {db db' : Db} {assetId : Uuid} {code name : String} {type : AccountType}
  {owner : Option Uuid}

theorem findBaseAssetId_ne (hx : db.MoneyApart assetId) :
    findBaseAssetId.answer db ≠ .ok (some assetId) := by
  have hsymbol : ∀ a ∈ db.assets, a.symbol = "USD" ∨ a.symbol = "IRT" → a.id ≠ assetId := by
    intro a ha hs hid
    have := hx.numbered.symbol a ha hid
    tauto
  intro h
  have hrun := readOnly_findBaseAssetId.run_ok.mpr ⟨h, rfl⟩
  unfold findBaseAssetId at hrun
  rw [Tx.run_read_bind] at hrun
  split at hrun
  · rename_i a ha
    cases hrun
    have hs := List.find?_some ha
    simp only [Bool.decide_and, Bool.and_eq_true, decide_eq_true_eq] at hs
    exact hsymbol a (List.mem_of_find?_eq_some ha) (.inl hs.1) rfl
  · rename_i husd
    rw [Tx.run_read_bind] at hrun
    split at hrun
    · rename_i a ha
      cases hrun
      have hs := List.find?_some ha
      simp only [Bool.decide_and, Bool.and_eq_true, decide_eq_true_eq] at hs
      exact hsymbol a (List.mem_of_find?_eq_some ha) (.inr hs.1) rfl
    · rename_i hirt
      obtain ⟨a, ha, hs | hs, hlive⟩ := hx.money
      · simpa [hs, hlive] using List.find?_eq_none.mp husd a ha
      · simpa [hs, hlive] using List.find?_eq_none.mp hirt a ha

/-- The account is one of the old ones, or is kept in the base asset. -/
theorem ensureSystemAccount_unit {a : Account} (hx : db.MoneyApart assetId)
    (hcode : code = REALIZED_PNL_CODE ∨ code = OPENING_EQUITY_CODE)
    (h : (ensureSystemAccount env code name type owner).run db = .ok (some a, db')) :
    a.assetId ≠ some assetId := by
  have hfound : ∀ b ∈ db.accounts, b.code = code → b.assetId ≠ some assetId :=
    fun b hb hown => hx.accounts b hb (hown ▸ hcode)
  obtain ⟨own, _, hown, h⟩ := Tx.run_bind_ok.mp h
  obtain ⟨hsame, hmem⟩ := resolveSystemAccount_mem hown
  rw [hsame] at h
  cases own with
  | some b =>
    cases h
    exact hfound a (hmem a rfl).1 (hmem a rfl).2
  | none =>
    obtain ⟨base, db₁, h₁, k₁⟩ := Tx.run_bind_ok.mp h
    obtain ⟨hbase, hsame⟩ := readOnly_findBaseAssetId.run_ok.mp h₁
    subst db₁
    obtain ⟨created, db₂, h₂, k₂⟩ := Tx.run_bind_ok.mp k₁
    unfold insertAccountOnConflictDoNothing at h₂
    rw [Tx.run_stmt] at h₂
    by_cases htaken : db.CodeTaken owner code
    · simp only [htaken, true_or, if_true, applyAll_nil, Tx.run_done] at h₂
      cases h₂
      obtain ⟨-, hmem⟩ := resolveSystemAccount_mem k₂
      exact hfound a (hmem a rfl).1 (hmem a rfl).2
    · simp only [htaken, if_false] at h₂
      split at h₂
      · cases h₂
      · cases h₂
        cases k₂
        intro hbad
        exact findBaseAssetId_ne hx (hbad ▸ hbase)

/-- An account of the owner, or of nobody. -/
def Db.LiveUnder (db : Db) (code : String) (owner : Option Uuid) (a : Account) : Prop :=
  a ∈ db.accounts ∧ a.code = code ∧ (a.userId = owner ∨ a.userId = none) ∧ a.deleted = false

theorem oldestAccount_eq_none {p : Account → Bool} (h : db.oldestAccount p = none) :
    ∀ a ∈ db.accounts, p a = false := by
  unfold Db.oldestAccount at h
  rw [List.head?_eq_none_iff] at h
  have hnil : db.accounts.filter p = [] :=
    List.perm_nil.mp (h ▸ (List.perm_insertionSort _ _).symm)
  intro a ha
  simpa using List.filter_eq_nil_iff.mp hnil a ha

/-- A live account under the code is found wherever there is one. -/
theorem resolveSystemAccount_ok {found : Option Account}
    (h : (resolveSystemAccount code owner).run db = .ok (found, db')) :
    db' = db ∧ (∀ a ∈ found, db.LiveUnder code owner a) ∧
      (found = none → ∀ a, ¬ db.LiveUnder code owner a) := by
  unfold resolveSystemAccount at h
  rw [Tx.run_read_bind] at h
  split at h
  · rename_i own hown
    cases h
    refine ⟨rfl, fun a ha => ?_, nofun⟩
    obtain rfl := Option.some.inj ha
    obtain ⟨u, rfl, hown⟩ := Option.bind_eq_some_iff.mp hown
    obtain ⟨hmem, hp⟩ := oldestAccount_spec hown
    simp only [Bool.decide_and, Bool.and_eq_true, decide_eq_true_eq, Bool.not_eq_true'] at hp
    exact ⟨hmem, hp.1, .inl hp.2.1, hp.2.2⟩
  · rename_i hnone
    cases h
    refine ⟨rfl, fun a ha => ?_, fun hshared a hlive => ?_⟩
    · obtain ⟨hmem, hp⟩ := oldestAccount_spec ha
      simp only [Bool.decide_and, Bool.and_eq_true, decide_eq_true_eq, Bool.not_eq_true'] at hp
      exact ⟨hmem, hp.1, .inr hp.2.1, hp.2.2⟩
    · obtain ⟨hmem, hcode, hown | hown, hdel⟩ := hlive
      · cases owner with
        | none =>
          simpa [hcode, hown, hdel] using oldestAccount_eq_none hshared a hmem
        | some u =>
          simpa [hcode, hown, hdel] using oldestAccount_eq_none hnone a hmem
      · simpa [hcode, hown, hdel] using oldestAccount_eq_none hshared a hmem

theorem ensureSystemAccount_isSome {found : Option Account}
    (h : (ensureSystemAccount env code name type owner).run db = .ok (found, db')) :
    found.isSome = true ↔ db.OffersAccount code owner := by
  obtain ⟨own, db₀, hown, h⟩ := Tx.run_bind_ok.mp h
  obtain ⟨hsame, hlive, hnone⟩ := resolveSystemAccount_ok hown
  subst db₀
  cases own with
  | some b =>
    cases h
    obtain ⟨hmem, hlive⟩ := hlive b rfl
    exact ⟨fun _ => .inl ⟨b, hmem, hlive⟩, fun _ => rfl⟩
  | none =>
    obtain ⟨base, db₁, h₁, k₁⟩ := Tx.run_bind_ok.mp h
    obtain ⟨-, hsame⟩ := readOnly_findBaseAssetId.run_ok.mp h₁
    subst db₁
    obtain ⟨created, db₂, h₂, k₂⟩ := Tx.run_bind_ok.mp k₁
    unfold insertAccountOnConflictDoNothing at h₂
    rw [Tx.run_stmt] at h₂
    by_cases htaken : db.CodeTaken owner code
    · simp only [htaken, true_or, if_true, applyAll_nil, Tx.run_done] at h₂
      cases h₂
      obtain ⟨-, hagain, -⟩ := resolveSystemAccount_ok k₂
      constructor
      · intro hsome
        obtain ⟨a, rfl⟩ := Option.isSome_iff_exists.mp hsome
        exact absurd (hagain a rfl) (hnone rfl a)
      · rintro (⟨a, ha, hlive⟩ | hfree)
        · exact absurd ⟨ha, hlive⟩ (hnone rfl a)
        · exact absurd htaken hfree
    · simp only [htaken, if_false] at h₂
      split at h₂
      · cases h₂
      · cases h₂
        cases k₂
        exact ⟨fun _ => .inr htaken, fun _ => rfl⟩

/-- What is known of an account that was asked for. -/
structure Ensured (code : String) (owner : Option Uuid) (assetId : Uuid) (db : Db)
    (found : Option Account) (db' : Db) : Prop where
  offered : found.isSome = true ↔ db.OffersAccount code owner
  same : found = none → db' = db
  mem : ∀ a ∈ found, a ∈ db'.accounts ∧ a.code = code ∧ a.assetId ≠ some assetId
  keys : (db.accounts.map (·.id)).Nodup → (db'.accounts.map (·.id)).Nodup

theorem ensureSystemAccount_ensured {found : Option Account} (hx : db.MoneyApart assetId)
    (hcode : code = REALIZED_PNL_CODE ∨ code = OPENING_EQUITY_CODE)
    (h : (ensureSystemAccount env code name type owner).run db = .ok (found, db')) :
    Ensured code owner assetId db found db' := by
  have hunit : ∀ a ∈ found, a.assetId ≠ some assetId := by
    rintro a rfl
    exact ensureSystemAccount_unit hx hcode h
  refine ⟨ensureSystemAccount_isSome h, ?_, fun a ha => ?_, ?_⟩
  all_goals obtain ⟨rfl, hmem⟩ | ⟨acct, rfl, hown, -, hnew, rfl⟩ := ensureSystemAccount_ok h
  · exact fun _ => rfl
  · nofun
  · exact ⟨(hmem a ha).1, (hmem a ha).2, hunit a ha⟩
  · obtain rfl := Option.some.inj ha
    exact ⟨List.mem_append_right _ (List.mem_singleton_self _), hown, hunit _ rfl⟩
  · exact id
  · intro hkeys
    rw [Db.withAccounts, List.map_append, List.nodup_append]
    refine ⟨hkeys, by simp, ?_⟩
    simpa using hnew

theorem ensureRealizedPnlAccount_ensured {found : Option Account} (hx : db.MoneyApart assetId)
    (h : (ensureRealizedPnlAccount env owner).run db = .ok (found, db')) :
    Ensured REALIZED_PNL_CODE owner assetId db found db' := by
  unfold ensureRealizedPnlAccount at h
  obtain ⟨own, db₁, h₁, k₁⟩ := Tx.run_bind_ok.mp h
  obtain ⟨hsame, hlive, -⟩ := resolveSystemAccount_ok h₁
  subst db₁
  cases own with
  | none => exact ensureSystemAccount_ensured hx (.inl rfl) k₁
  | some a =>
    cases k₁
    obtain ⟨hmem, hrest⟩ := hlive a rfl
    refine ⟨⟨fun _ => .inl ⟨a, hmem, hrest⟩, fun _ => rfl⟩, nofun, fun b hb => ?_, id⟩
    obtain rfl := Option.some.inj hb
    exact ⟨hmem, hrest.1, hx.accounts a hmem (.inl hrest.1)⟩

/-- The counter-account of a disposal. It is that of the results where one was carried and the
account is offered. -/
theorem disposalCounter_ok {carrying : Decimal} {counter : Account} (hx : db.MoneyApart assetId)
    (hkeys : (db.accounts.map (·.id)).Nodup)
    (h : (disposalCounter env owner carrying).run db = .ok (counter, db')) :
    counter ∈ db'.accounts ∧ counter.assetId ≠ some assetId ∧
      (db'.accounts.map (·.id)).Nodup ∧
      (carrying ≠ 0 → (counter.code = REALIZED_PNL_CODE ↔
        db.OffersAccount REALIZED_PNL_CODE owner)) := by
  unfold disposalCounter at h
  obtain ⟨first, db₁, h₁, k₁⟩ := Tx.run_bind_ok.mp h
  have hequity : ∀ {db db' : Db} {found : Option Account}, db.MoneyApart assetId →
      (ensureOpeningEquity env owner).run db = .ok (found, db') →
      Ensured OPENING_EQUITY_CODE owner assetId db found db' :=
    fun hx h => ensureSystemAccount_ensured hx (.inr rfl) h
  have hfirst : Ensured (if carrying = 0 then OPENING_EQUITY_CODE else REALIZED_PNL_CODE) owner
      assetId db first db₁ := by
    unfold ensureCounter at h₁
    split at h₁ <;> rename_i hz
    · rw [if_pos hz]
      exact hequity hx h₁
    · rw [if_neg hz]
      exact ensureRealizedPnlAccount_ensured hx h₁
  cases first with
  | some a =>
    cases k₁
    obtain ⟨hmem, hcode, hunit⟩ := hfirst.mem counter rfl
    refine ⟨hmem, hunit, hfirst.keys hkeys, fun hne => ?_⟩
    rw [if_neg hne] at hcode
    have hoffered := hfirst.offered
    rw [if_neg hne] at hoffered
    exact ⟨fun _ => hoffered.mp rfl, fun _ => hcode⟩
  | none =>
    obtain rfl := hfirst.same rfl
    obtain ⟨second, db₂, h₂, k₂⟩ := Tx.run_bind_ok.mp k₁
    have hsecond := hequity hx h₂
    cases second with
    | none => cases k₂
    | some a =>
      cases k₂
      obtain ⟨hmem, hcode, hunit⟩ := hsecond.mem counter rfl
      refine ⟨hmem, hunit, hsecond.keys hkeys, fun hne => ⟨fun h => ?_, fun h => ?_⟩⟩
      · rw [hcode] at h
        exact absurd h (by decide)
      · have hoffered := hfirst.offered
        rw [if_neg hne] at hoffered
        exact absurd (hoffered.mpr h) (by simp)

end Counter

/-! ## What a disposal finds -/

section Carried
variable {db db' : Db} {assetId : Uuid} {value : Decimal} {p : Posting} {owner : Option Uuid}

theorem positionBase_holdsOne (h : db.HoldsOne assetId value p) (accountId : Uuid) :
    db.positionBase assetId accountId = if p.accountId = accountId then value else 0 := by
  have hrows : db.postings.filter (fun q => q.accountId = accountId ∧ q.assetId = assetId) =
      (db.postingsIn assetId).filter (·.accountId = accountId) := by
    rw [Db.postingsIn, List.filter_filter]
    congr 1
    funext q
    simp
  rw [Db.positionBase, hrows, h.rows]
  split <;> rename_i hacct <;> simp [hacct, h.base]

/-- The greatest position comes first. -/
theorem positionAccount_max {a b : Account} (h : db.positionAccount assetId owner = some a)
    (hb : b ∈ db.accounts) (hholds : db.HoldsPosition assetId owner b) :
    (db.positionBase assetId b.id).abs ≤ (db.positionBase assetId a.id).abs := by
  let r (a b : Account) : Prop :=
    (db.positionBase assetId b.id).abs < (db.positionBase assetId a.id).abs ∨
      (db.positionBase assetId b.id).abs = (db.positionBase assetId a.id).abs ∧ a.code ≤ b.code
  have htotal : Std.Total r := by
    refine ⟨fun a b => ?_⟩
    rcases lt_trichotomy (db.positionBase assetId b.id).abs (db.positionBase assetId a.id).abs with
      hlt | heq | hgt
    · exact .inl (.inl hlt)
    · rcases String.le_total a.code b.code with hle | hle
      · exact .inl (.inr ⟨heq, hle⟩)
      · exact .inr (.inr ⟨heq.symm, hle⟩)
    · exact .inr (.inl hgt)
  have htrans : IsTrans Account r := by
    refine ⟨fun a b c => ?_⟩
    rintro (hab | ⟨hab, hcode⟩) (hbc | ⟨hbc, hcode'⟩)
    · exact .inl (hbc.trans hab)
    · exact .inl (hbc ▸ hab)
    · exact .inl (hab ▸ hbc)
    · exact .inr ⟨hbc.trans hab, String.le_trans hcode hcode'⟩
  have hsorted := List.pairwise_insertionSort r
    (db.accounts.filter fun a => db.HoldsPosition assetId owner a)
  have hmem : b ∈ (db.accounts.filter fun a => db.HoldsPosition assetId owner a).insertionSort r := by
    rw [List.mem_insertionSort, List.mem_filter]
    exact ⟨hb, decide_eq_true hholds⟩
  obtain ⟨rest, hrest⟩ := List.head?_eq_some_iff.mp h
  have hrest : (db.accounts.filter fun a => db.HoldsPosition assetId owner a).insertionSort r =
    a :: rest := hrest
  rw [hrest] at hsorted hmem
  rcases List.mem_cons.mp hmem with rfl | hmem
  · exact le_refl _
  · rcases (List.pairwise_cons.mp hsorted).1 b hmem with hlt | ⟨heq, -⟩
    · exact hlt.le
    · exact heq.le

/-- The account of the posting is seen by the owner. -/
def Db.Seen (db : Db) (owner : Option Uuid) (accountId : Uuid) : Prop :=
  ∃ a ∈ db.accounts, a.id = accountId ∧ a.type = .asset ∧ a.deleted = false ∧ a.InScope owner

instance (owner : Option Uuid) (accountId : Uuid) : Decidable (db.Seen owner accountId) :=
  inferInstanceAs (Decidable (∃ a ∈ db.accounts, _))

theorem carriedPosition_holdsOne {cmd : RegistryDisposalCmd} (h : db.HoldsOne cmd.assetId value p)
    (hseen : db.Seen owner p.accountId) (hany : cmd.assetAccountId = none) :
    (carriedPosition cmd owner).answer db =
      .ok (if POSITION_TOLERANCE < value.abs then (some p.accountId, value) else (none, 0)) := by
  obtain ⟨b, hb, hid, htype, hlive, hscope⟩ := hseen
  have hp : p ∈ db.postingsIn cmd.assetId := h.rows ▸ List.mem_singleton_self p
  have hmem := List.mem_filter.mp hp
  have hholds : db.HoldsPosition cmd.assetId owner b :=
    ⟨htype, hlive, hscope, .inl ⟨p, hmem.1, hid.symm, of_decide_eq_true hmem.2⟩⟩
  have hbase := positionBase_holdsOne h
  unfold carriedPosition Tx.answer
  simp only [hany, Tx.run_read_bind]
  cases hpos : db.positionAccount cmd.assetId owner with
  | none =>
    have hnil := List.head?_eq_none_iff.mp hpos
    have hbmem : b ∈ db.accounts.filter fun a => db.HoldsPosition cmd.assetId owner a :=
      List.mem_filter.mpr ⟨hb, decide_eq_true hholds⟩
    rw [← List.mem_insertionSort (r := fun a b =>
      (db.positionBase cmd.assetId b.id).abs < (db.positionBase cmd.assetId a.id).abs ∨
        (db.positionBase cmd.assetId b.id).abs = (db.positionBase cmd.assetId a.id).abs ∧
          a.code ≤ b.code), hnil] at hbmem
    cases hbmem
  | some a =>
    have hmax := positionAccount_max hpos hb hholds
    rw [hbase, hbase, hid, if_pos rfl] at hmax
    simp only [Option.map_some, hbase]
    by_cases htol : POSITION_TOLERANCE < value.abs
    · have hacct : p.accountId = a.id := by
        by_contra hne
        rw [if_neg hne] at hmax
        exact absurd (htol.trans_le hmax) (by decide)
      simp [hacct, htol, Option.filter, Except.map]
    · have hsmall : ¬ POSITION_TOLERANCE < (if p.accountId = a.id then value else 0).abs := by
        split
        · exact htol
        · decide
      simp [hsmall, htol, Option.filter, Except.map]

end Carried

/-! ## What a sale leaves -/

/-- The asset has left the ledger, the result is booked as one, and the entry balances. -/
structure Db.SaleCloses (db : Db) (assetId entryId : Uuid) (memo : String) (result : Decimal) :
    Prop where
  units : db.unitsOf assetId = 0
  book : db.bookOf assetId = 0
  booked : result ≠ 0 → ∃ p ∈ db.postingsOf entryId, p.memo = some memo ∧ p.baseValue = -result ∧
    ∃ a ∈ db.accounts, a.id = p.accountId ∧ a.code = REALIZED_PNL_CODE
  balanced : ((db.postingsOf entryId).map (·.baseValue)).sum = 0

section Closes
variable {db db' : Db} {assetId : Uuid}

theorem postedSum_congr {column : Posting → Decimal} (hpostings : db'.postings = db.postings)
    (hentries : db'.journalEntries = db.journalEntries) :
    db'.postedSum assetId column = db.postedSum assetId column := by
  have hposted : ∀ p : Posting, db'.Posted p.entryId ↔ db.Posted p.entryId := fun p => by
    rw [Db.Posted, hentries]
    rfl
  simp only [Db.postedSum, Db.postingsIn, hpostings, hposted]

/-- The sums of the asset after a new entry. -/
theorem postedSum_booked {env : Env} {input : PostEntryInput} {db₁ db₂ : Db} {r : PostResult}
    {column : Posting → Decimal} {drafted : DraftPosting → Decimal} {value : Decimal} {p : Posting}
    (hopen : input.lotList = []) (hclose : input.closeLot = none) (hnew : db₁.Unused env.entryId)
    (hid : r.id = env.entryId) (h : (postEntry env input).run db₁ = .ok (r, db₂))
    (hpostings : db'.postings = db₂.postings) (hentries : db'.journalEntries = db₂.journalEntries)
    (hheld : db₁.HoldsOne assetId value p)
    (hcolumn : ∀ l, column (DraftPosting.row env.entryId l) = drafted l) :
    db'.postedSum assetId column =
      column p + ((input.postings.filter (·.assetId = assetId)).map drafted).sum := by
  obtain ⟨userId, -, rfl⟩ := postEntry_new hopen hclose hnew hid h
  rw [postedSum_congr hpostings hentries, ← hheld.sum column]
  exact postedSum_withEntry hcolumn hnew rfl

theorem postingsOf_booked {env : Env} {input : PostEntryInput} {db₁ db₂ : Db} {r : PostResult}
    (hopen : input.lotList = []) (hclose : input.closeLot = none) (hnew : db₁.Unused env.entryId)
    (hid : r.id = env.entryId) (h : (postEntry env input).run db₁ = .ok (r, db₂))
    (hpostings : db'.postings = db₂.postings) :
    db'.postingsOf env.entryId = input.postings.map (DraftPosting.row env.entryId) := by
  obtain ⟨userId, -, rfl⟩ := postEntry_new hopen hclose hnew hid h
  rw [Db.postingsOf, hpostings]
  exact postingsOf_withEntry hnew

end Closes

/-! ## Vehicles -/

section Vehicle
variable {history : IsoDate → Option DatedRate} {env : Env} {input : SellVehicleInput} {db db' : Db}
  {assetId : Uuid} {value : Decimal} {p : Posting} {owner : Option Uuid}

theorem freezeSale_tables {f : Option EntryFxSnapshot} (h : (freezeSale f).run db = .ok ((), db')) :
    db'.postings = db.postings ∧ db'.journalEntries = db.journalEntries ∧
      db'.accounts = db.accounts := by
  unfold freezeSale at h
  split at h
  · obtain ⟨hpostings, hentries, -, haccounts⟩ := freezeRate_tables h
    exact ⟨hpostings, hentries, haccounts⟩
  · cases h
    exact ⟨rfl, rfl, rfl⟩

/-- The line of the result, where there is one. -/
theorem resultLines_spec {cmd : RegistryDisposalCmd} {carrying : Decimal}
    {result : List DraftPosting} (hmoney : db.MoneyApart assetId) (hcash : cmd.cashAssetId ≠ assetId)
    (hkeys : (db.accounts.map (·.id)).Nodup)
    (h : (resultLines env cmd owner carrying).run db = .ok (result, db')) :
    (∀ l ∈ result, l.assetId ≠ assetId) ∧ (result.map (·.baseValue)).sum = -(cmd.net - carrying) ∧
      (cmd.net - carrying = 0 ∧ result = [] ∨ cmd.net - carrying ≠ 0 ∧ ∃ counter ∈ db'.accounts,
        result = [cmd.resultLine counter carrying] ∧ (db'.accounts.map (·.id)).Nodup ∧
        (carrying ≠ 0 → (counter.code = REALIZED_PNL_CODE ↔
          db.OffersAccount REALIZED_PNL_CODE owner))) := by
  obtain ⟨hzero, rfl, rfl⟩ | ⟨hne, counter, hcounter, rfl⟩ := resultLines_ok h
  · simp [hzero]
  · obtain ⟨hmem, hunit, hkeys', hcode⟩ := disposalCounter_ok hmoney hkeys hcounter
    refine ⟨?_, by simp [RegistryDisposalCmd.resultLine], .inr ⟨hne, counter, hmem, rfl, hkeys', hcode⟩⟩
    intro l hl
    rw [List.mem_singleton.mp hl]
    unfold RegistryDisposalCmd.resultLine
    cases hasset : counter.assetId with
    | none => exact hcash
    | some unit => exact fun hbad => hunit (hasset.trans (congrArg some hbad))

/-- What a disposal of the one unit leaves. -/
theorem disposal_closes_iff {cmd : RegistryDisposalCmd} {r : RegistryDisposal}
    (steps : cmd.Steps env db r db') (hheld : db.HoldsOne cmd.assetId value p)
    (hseen : db.Seen steps.userId p.accountId) (hany : cmd.assetAccountId = none)
    (hmoney : db.MoneyApart cmd.assetId) (hcash : cmd.cashAssetId ≠ cmd.assetId)
    (hkeys : (db.accounts.map (·.id)).Nodup) (hnew : db.Unused env.entryId)
    (hid : r.entry.id = env.entryId)
    (hmemo : (cmd.assetLine p.accountId value).memo ≠
      some "سود/زیان تحقق‌یافته از فروش دارایی") (hfee : cmd.feeBase = 0) :
    db'.SaleCloses cmd.assetId env.entryId "سود/زیان تحقق‌یافته از فروش دارایی"
        (cmd.net - value) ↔
      value = .ofInt 1 ∧ (cmd.net = .ofInt 1 ∨
        db.OffersAccount REALIZED_PNL_CODE steps.userId) := by
  have hposition := steps.position.symm.trans (carriedPosition_holdsOne hheld hseen hany)
  obtain ⟨accounts, assets, hchart⟩ := resultLines_chart steps.counter
  obtain ⟨hpostings, hentries, haccounts⟩ := freezeSale_tables steps.frozen
  obtain ⟨hothers, hsum, hresult⟩ := resultLines_spec hmoney hcash hkeys steps.counter
  have hunused : steps.db₁.Unused env.entryId := by
    rw [hchart]
    exact withChart_unused ⟨hnew.entry, hnew.posting, hnew.snapshot⟩
  have hheld₁ : steps.db₁.HoldsOne cmd.assetId value p := by
    rw [hchart]
    exact hheld.congr rfl rfl
  set lines := cmd.assetLines steps.account r.carryingBase ++ cmd.cashLine :: steps.result with hlines
  have hasset : ∀ l ∈ cmd.assetLines steps.account r.carryingBase, l.assetId = cmd.assetId := by
    intro l hl
    unfold RegistryDisposalCmd.assetLines at hl
    split at hl
    · cases hl
    · obtain ⟨a, -, rfl⟩ := List.mem_map.mp hl
      rfl
  have hfilter : lines.filter (·.assetId = cmd.assetId) =
      cmd.assetLines steps.account r.carryingBase := by
    have h₁ : (cmd.assetLines steps.account r.carryingBase).filter (·.assetId = cmd.assetId) =
        cmd.assetLines steps.account r.carryingBase := by simpa [List.filter_eq_self] using hasset
    have h₂ : steps.result.filter (·.assetId = cmd.assetId) = [] := by
      simpa [List.filter_eq_nil_iff] using hothers
    have h₃ : cmd.cashLine.assetId ≠ cmd.assetId := hcash
    simp [hlines, h₁, h₂, h₃]
  have hunits : db'.unitsOf cmd.assetId = .ofInt 1 +
      ((cmd.assetLines steps.account r.carryingBase).map (·.quantity)).sum := by
    rw [← hfilter, ← hheld.units]
    exact postedSum_booked rfl rfl hunused hid steps.entry hpostings hentries hheld₁ fun _ => rfl
  have hbook : db'.bookOf cmd.assetId = value +
      ((cmd.assetLines steps.account r.carryingBase).map (·.baseValue)).sum := by
    rw [← hfilter, ← hheld.base]
    exact postedSum_booked rfl rfl hunused hid steps.entry hpostings hentries hheld₁ fun _ => rfl
  have hentry : db'.postingsOf env.entryId = lines.map (DraftPosting.row env.entryId) :=
    postingsOf_booked rfl rfl hunused hid steps.entry hpostings
  have haccounts : db'.accounts = steps.db₁.accounts := by
    obtain ⟨userId, -, hdb₂⟩ := postEntry_new rfl rfl hunused hid steps.entry
    have hsame : steps.db₂.accounts = _ := congrArg Db.accounts hdb₂
    exact haccounts.trans hsame
  by_cases htol : POSITION_TOLERANCE < value.abs
  · rw [if_pos htol] at hposition
    obtain ⟨haccount, hcarrying⟩ := Prod.mk.inj (Except.ok.inj hposition)
    have hne : value ≠ 0 := by
      rintro rfl
      exact absurd htol (by decide)
    have hline : cmd.assetLines steps.account r.carryingBase = [cmd.assetLine p.accountId value] := by
      rw [RegistryDisposalCmd.assetLines, hcarrying, haccount, if_neg hne]
      rfl
    rw [hline] at hunits hbook hlines
    rw [hcarrying] at hsum hresult
    have hlines' : lines = cmd.assetLine p.accountId value :: cmd.cashLine :: steps.result := hlines
    have hunits : db'.unitsOf cmd.assetId = .ofInt 1 - value := by
      rw [hunits]
      simp [RegistryDisposalCmd.assetLine, sub_eq_add_neg]
    have hbook : db'.bookOf cmd.assetId = 0 := by
      rw [hbook]
      simp [RegistryDisposalCmd.assetLine]
    have hbalanced : ((db'.postingsOf env.entryId).map (·.baseValue)).sum = 0 := by
      have hbase : (steps.result.map fun l => (l.row env.entryId).baseValue).sum =
        -(cmd.net - value) := hsum
      rw [hentry, hlines', List.map_map]
      simp only [List.map_cons, List.sum_cons, Function.comp_def, hbase]
      change -value + (cmd.net + -(cmd.net - value)) = 0
      abel
    constructor
    · intro h
      have hone : value = .ofInt 1 := (sub_eq_zero.mp (hunits.symm.trans h.units)).symm
      refine ⟨hone, ?_⟩
      rcases hresult with ⟨hzero, -⟩ | ⟨hnz, counter, hmem, hres, hkeys', hcode⟩
      · left
        rw [← hone]
        exact sub_eq_zero.mp hzero
      · -- The line under the memo of a result is the one of the counter-account.
        right
        rw [← hcode hne]
        obtain ⟨q, hq, hqmemo, -, a, ha, haid, hacode⟩ := h.booked hnz
        rw [hentry, hlines', hres] at hq
        obtain ⟨l, hl, rfl⟩ := List.mem_map.mp hq
        simp only [List.mem_cons, List.not_mem_nil, or_false] at hl
        rcases hl with rfl | rfl | rfl
        · exact absurd hqmemo hmemo
        · have hcashMemo : cmd.cashLine.memo = some "واریز وجه فروش" := by
            simp [RegistryDisposalCmd.cashLine, hfee]
          exact absurd (hcashMemo.symm.trans hqmemo) (by decide)
        · have heq : a = counter := List.inj_on_of_nodup_map hkeys' (haccounts ▸ ha) hmem haid
          exact heq ▸ hacode
    · rintro ⟨rfl, hor⟩
      refine ⟨hunits.trans (sub_self _), hbook, fun hnz => ?_, hbalanced⟩
      rcases hresult with ⟨hzero, -⟩ | ⟨-, counter, hmem, hres, -, hcode⟩
      · exact absurd hzero hnz
      · have hoffered := hor.resolve_left fun h => hnz (by rw [h, sub_self])
        refine ⟨(cmd.resultLine counter (.ofInt 1)).row env.entryId, ?_, ?_, rfl, counter, ?_, rfl,
          (hcode hne).mpr hoffered⟩
        · rw [hentry, hlines', hres]
          simp
        · unfold RegistryDisposalCmd.resultLine DraftPosting.row
          simp only [if_neg hne]
        · rw [haccounts]
          exact hmem
  · -- Nothing is found to be carried, and the unit stays.
    rw [if_neg htol] at hposition
    obtain ⟨haccount, hcarrying⟩ := Prod.mk.inj (Except.ok.inj hposition)
    constructor
    · intro h
      have hzero := h.units
      rw [hunits, RegistryDisposalCmd.assetLines, if_pos hcarrying] at hzero
      exact absurd hzero (by decide)
    · rintro ⟨rfl, -⟩
      exact absurd (by decide) htol

/-- The vehicle leaves with as many units as the dollars it is carried at. -/
theorem vehicle_closes_iff {cash : PayoutAccount} {rate : Decimal}
    (hheld : db.HoldsOne assetId value p)
    (howner : (resolveServiceUserId env input.userId [cash.id]).answer db = .ok owner)
    (hseen : db.Seen owner p.accountId)
    (hrow : ∀ w, db.findVehicle input.vehicleId = some w → w.assetId = assetId)
    (hpayout : (vehiclePayout input).answer db = .ok (some cash)) (hcash : cash.assetId ≠ assetId)
    (hrate : (RegistrySale.vehicle input).saleRate history env db = some rate)
    (hmoney : db.MoneyApart assetId) (hkeys : (db.accounts.map (·.id)).Nodup)
    (hnew : db.Unused env.entryId)
    (hok : (sellVehicle history env input).run db = .ok (some env.entryId, db')) :
    db'.SaleCloses assetId env.entryId "سود/زیان تحقق‌یافته از فروش دارایی"
        (tomanToUsd (input.salePriceToman.toFixed 0) rate - value) ↔
      value = .ofInt 1 ∧ (tomanToUsd (input.salePriceToman.toFixed 0) rate = .ofInt 1 ∨
        db.OffersAccount REALIZED_PNL_CODE owner) := by
  obtain ⟨v⟩ := sellVehicle_ok hok
  obtain rfl : v.rate = rate := by
    simp only [RegistrySale.saleRate, v.date, Option.bind_some, v.rated] at hrate
    exact Option.some.inj hrate
  obtain rfl : v.cash = cash := by
    have := v.payout.symm.trans hpayout
    simpa using this
  obtain rfl := hrow _ v.found
  have howner' : v.steps.userId = owner := by
    have haccounts : (Write.apply (.sellVehicle input.vehicleId
      (input.columns v.saleDate v.rate)) db).accounts = db.accounts := rfl
    have husers : (Write.apply (.sellVehicle input.vehicleId
      (input.columns v.saleDate v.rate)) db).users = db.users := rfl
    have hsame := (resolveServiceUserId_congr haccounts husers).trans howner
    exact Except.ok.inj (v.steps.user.symm.trans hsame)
  have hnet : (input.disposal v.row (input.columns v.saleDate v.rate) v.cash v.unitPriceUsd).net =
      tomanToUsd (input.salePriceToman.toFixed 0) v.rate := sub_zero _
  rw [← hnet, ← howner']
  refine disposal_closes_iff v.steps (hheld.congr rfl rfl) ?_ rfl ?_ hcash hkeys ?_ v.entry ?_ rfl
  · exact howner' ▸ hseen
  · exact ⟨⟨hmoney.numbered.known, hmoney.numbered.symbol⟩, hmoney.money, hmoney.accounts⟩
  · exact ⟨hnew.entry, hnew.posting, hnew.snapshot⟩
  · change some "فروش خودرو (بهای ثبت‌شده: صفر)" ≠ some "سود/زیان تحقق‌یافته از فروش دارایی"
    decide

end Vehicle

/-! ## Properties -/

section Property
variable {history : IsoDate → Option DatedRate} {formatMoney : Decimal → String} {env : Env}
  {input : SellRealEstateInput} {db db' : Db} {assetId : Uuid} {value : Decimal} {p : Posting}

/-- An account without a unit. -/
def Write.AddsUnitless (w : Write) : Prop := ∃ a, w = .insertAccount a ∧ a.assetId = none

theorem ensureChartAccount_unitless {a : Account} (ha : a.assetId = none) :
    (ensureChartAccount a).WritesOnly Write.AddsUnitless := by
  have hinsert : (insertAccountOnConflictDoNothing a).WritesOnly Write.AddsUnitless := by
    intro db
    constructor
    · intro w hw
      simp only at hw
      split at hw
      · cases hw
      · exact ⟨a, List.mem_singleton.mp hw, ha⟩
    · simp only
      split
      · trivial
      · split <;> trivial
  unfold ensureChartAccount
  refine (Tx.readOnly_read _).writesOnly.bind fun found => ?_
  split
  · trivial
  · refine hinsert.bind fun created => ?_
    split
    · trivial
    · exact (Tx.readOnly_read _).writesOnly

theorem applyAll_addsUnitless {ws : List Write} (h : ∀ w ∈ ws, w.AddsUnitless) :
    ∃ accounts, (∀ a ∈ accounts, a.assetId = none) ∧
      ∀ db : Db, applyAll ws db = db.withChart accounts [] := by
  induction ws with
  | nil => exact ⟨[], by simp, fun db => by simp [Db.withChart]⟩
  | cons w ws ih =>
    obtain ⟨as, hnone, hrest⟩ := ih fun v hv => h v (by simp [hv])
    obtain ⟨a, rfl, ha⟩ := h w (by simp)
    refine ⟨a :: as, by simpa [ha] using hnone, fun db => (hrest _).trans ?_⟩
    simp [Db.withChart, Writable.apply, Write.apply]

theorem Db.MoneyApart.withChart {accounts : List Account} {assets : List Asset}
    (hx : db.MoneyApart assetId) (haccounts : ∀ a ∈ accounts, a.assetId ≠ some assetId)
    (hnumbered : (db.withChart accounts assets).Numbered assetId) :
    (db.withChart accounts assets).MoneyApart assetId := by
  refine ⟨hnumbered, ?_, fun a ha hcode => ?_⟩
  · obtain ⟨a, ha, hmoney⟩ := hx.money
    exact ⟨a, List.mem_append_left _ ha, hmoney⟩
  · rcases List.mem_append.mp ha with ha | ha
    · exact hx.accounts a ha hcode
    · exact haccounts a ha

/-- The line of the result of a property, where there is one. -/
theorem propertyResultLines_spec {sale : PropertySale} {usdAssetId : Uuid}
    {result : List DraftPosting} (hmoney : db.MoneyApart assetId) (husd : usdAssetId ≠ assetId)
    (h : (propertyResultLines env input sale usdAssetId).run db = .ok (result, db')) :
    (∀ l ∈ result, l.assetId ≠ assetId) ∧ (result.map (·.baseValue)).sum = -sale.realizedUsd ∧
      (sale.realizedUsd = 0 ∨ ∃ account ∈ db'.accounts, account.code = REALIZED_PNL_CODE ∧
        ∃ unit assetId, result = [sale.resultLine account.id assetId unit]) := by
  unfold propertyResultLines at h
  split at h
  · rename_i hzero
    cases h
    simp [hzero]
  · obtain ⟨found, db₁, h₁, k₁⟩ := Tx.run_bind_ok.mp h
    have hensured := ensureRealizedPnlAccount_ensured hmoney h₁
    obtain ⟨account, db₂, h₂, k₂⟩ := Tx.run_bind_ok.mp k₁
    obtain ⟨hfound, rfl⟩ := Tx.run_ofExcept_ok.mp h₂
    obtain rfl := orComplain_ok.mp hfound
    obtain ⟨unit, db₃, h₃, k₃⟩ := Tx.run_bind_ok.mp k₂
    obtain ⟨-, rfl⟩ := (readOnly_nativeUnitPriceUsd _ _).run_ok.mp h₃
    cases k₃
    obtain ⟨hmem, hcode, hunit⟩ := hensured.mem account rfl
    refine ⟨?_, by simp [PropertySale.resultLine], .inr ⟨account, hmem, hcode, _, _, rfl⟩⟩
    intro l hl
    rw [List.mem_singleton.mp hl]
    change account.assetId.getD usdAssetId ≠ assetId
    cases hasset : account.assetId with
    | none => exact husd
    | some unit => exact fun hbad => hunit (hasset.trans (congrArg some hbad))

theorem ensureRealEstateLedgerAccounts_unitless (env : Env) :
    (ensureRealEstateLedgerAccounts env).WritesOnly Write.AddsUnitless := by
  unfold ensureRealEstateLedgerAccounts
  refine (ensureChartAccount_unitless rfl).bind fun asset => ?_
  refine (ensureChartAccount_unitless rfl).bind fun equity => ?_
  exact (Tx.readOnly_ofExcept _).writesOnly

theorem removeProperty_tables {prop : RealEstateProperty}
    (h : (removeProperty prop).run db = .ok ((), db')) :
    db'.postings = db.postings ∧ db'.journalEntries = db.journalEntries ∧
      db'.accounts = db.accounts := by
  unfold removeProperty at h
  rw [Tx.run_write_bind, Tx.run_write_bind, Tx.run_write] at h
  cases h
  exact ⟨rfl, rfl, rfl⟩

theorem ownPropertyAsset_ok {prop : RealEstateProperty} {symbol : String}
    (h : (ownPropertyAsset input).answer db = .ok (prop, symbol)) :
    prop ∈ db.realEstateProperties ∧ prop.id = input.propertyId := by
  have hrun := (readOnly_ownPropertyAsset _).run_ok.mpr ⟨h, rfl⟩
  unfold ownPropertyAsset at hrun
  rw [Tx.run_read_bind] at hrun
  obtain ⟨hrow, -⟩ := Tx.run_ofExcept_ok.mp hrun
  obtain ⟨q, hq, hasset⟩ := Option.bind_eq_some_iff.mp (orComplain_ok.mp hrow)
  obtain ⟨a, -, hpair⟩ := Option.map_eq_some_iff.mp hasset
  cases hpair
  have hown := List.find?_some hq
  simp only [Bool.decide_and, Bool.and_eq_true, decide_eq_true_eq] at hown
  exact ⟨List.mem_of_find?_eq_some hq, hown.1⟩

/-- A property leaves as the one unit it came as. -/
theorem property_closes {rate : Decimal} {sold : SoldRealEstate}
    (hheld : db.HoldsOne assetId value p)
    (hrow : ∀ q ∈ db.realEstateProperties, q.id = input.propertyId →
      q.assetId = assetId ∧ q.purchaseValueUsd = some value)
    (hcash : ∀ cash, (resolvePayoutAccount input.saleAccountId input.userId).answer db =
      .ok (some cash) → cash.assetId ≠ assetId)
    (hrate : (RegistrySale.property input).saleRate history env db = some rate)
    (hmoney : db.MoneyApart assetId) (hnew : db.Unused env.entryId)
    (hid : sold.ledgerEntryId = env.entryId)
    (hok : (sellRealEstateAsset history formatMoney env input).run db = .ok (sold, db')) :
    db'.SaleCloses assetId env.entryId "سود/زیان تحقق‌یافته از فروش ملک"
      (tomanToUsd (input.salePriceToman.toFixed 0) rate - value) := by
  obtain ⟨v⟩ := sellRealEstateAsset_ok hok
  have hcashAsset := hcash _ v.priced.payout
  obtain rfl : v.sale.fx.rate = rate := by
    simp only [RegistrySale.saleRate, v.priced.date, Option.bind_some, v.priced.rated] at hrate
    exact Option.some.inj hrate
  have hprop : v.sale.prop.assetId = assetId ∧ v.sale.carrying = value := by
    obtain ⟨hmem, hpid⟩ := ownPropertyAsset_ok v.priced.found
    obtain ⟨hasset, hvalue⟩ := hrow _ hmem hpid
    exact ⟨hasset, by rw [v.priced.carried, hvalue]; rfl⟩
  have hresult : tomanToUsd (input.salePriceToman.toFixed 0) v.sale.fx.rate - value =
      v.sale.realizedUsd := by
    rw [PropertySale.realizedUsd, PropertySale.valueUsd, v.priced.asked, hprop.2]
  rw [hresult]
  -- The chart grows, and the result is kept in money.
  obtain ⟨ws, hws, hdb₁⟩ := (ensureRealEstateLedgerAccounts_unitless env).run_ok v.chart
  obtain ⟨as, hnone, hgrown⟩ := applyAll_addsUnitless hws
  rw [hgrown] at hdb₁
  have hm₁ : v.db₁.MoneyApart assetId := by
    rw [hdb₁]
    exact hmoney.withChart (fun a ha => by simp [hnone a ha]) (hmoney.numbered.withChart (by simp))
  obtain ⟨husd, hnumbered, bs, hdb₂⟩ := ensureUsdAssetId_ok hm₁.numbered v.dollar
  have hm₂ : v.db₂.MoneyApart assetId := by
    rw [hdb₂] at hnumbered ⊢
    exact hm₁.withChart (by simp) hnumbered
  obtain ⟨hothers, hsum, hbooked⟩ := propertyResultLines_spec hm₂ husd v.counter
  obtain ⟨cs, hdb₃⟩ := addsAccount_run (propertyResultLines_writesOnly _ _ _ _) v.counter
  have hheld₃ : v.db₃.HoldsOne assetId value p := by
    rw [hdb₃, hdb₂, hdb₁]
    exact hheld.congr rfl rfl
  have hunused : v.db₃.Unused env.entryId := by
    rw [hdb₃, hdb₂, hdb₁]
    exact ⟨hnew.entry, hnew.posting, hnew.snapshot⟩
  -- The entry.
  have hentryId := v.posted_id.trans hid
  obtain ⟨hp₅, he₅, -, ha₅⟩ := freezeRate_tables v.frozen
  obtain ⟨hp₆, he₆, ha₆⟩ := removeProperty_tables v.removed
  have hpostings := hp₆.trans hp₅
  have hentries := he₆.trans he₅
  set first := v.sale.assetLine formatMoney v.accounts.assetAccountId with hfirst
  set second := v.sale.cashLine v.unitPriceUsd with hsecond
  have hfilter : (first :: second :: v.result).filter (·.assetId = assetId) = [first] := by
    have h₁ : first.assetId = assetId := hprop.1
    have h₂ : second.assetId ≠ assetId := hcashAsset
    have h₃ : v.result.filter (·.assetId = assetId) = [] := by
      simpa [List.filter_eq_nil_iff] using hothers
    simp [h₁, h₂, h₃]
  have hentry : db'.postingsOf env.entryId =
      (first :: second :: v.result).map (DraftPosting.row env.entryId) :=
    postingsOf_booked rfl rfl hunused hentryId v.entry hpostings
  refine ⟨?_, ?_, fun hne => ?_, ?_⟩
  · have hunits : db'.unitsOf assetId = p.quantity +
        (((first :: second :: v.result).filter (·.assetId = assetId)).map (·.quantity)).sum :=
      postedSum_booked rfl rfl hunused hentryId v.entry hpostings hentries hheld₃ fun _ => rfl
    rw [hunits, hfilter, hheld.units]
    change Decimal.ofInt 1 + (-Decimal.ofInt 1 + 0) = 0
    decide
  · have hbook : db'.bookOf assetId = p.baseValue +
        (((first :: second :: v.result).filter (·.assetId = assetId)).map (·.baseValue)).sum :=
      postedSum_booked rfl rfl hunused hentryId v.entry hpostings hentries hheld₃ fun _ => rfl
    rw [hbook, hfilter, hheld.base, ← hprop.2]
    simp [hfirst, PropertySale.assetLine]
  · obtain hzero | ⟨account, hmem, hcode, unit, asset, hres⟩ := hbooked
    · exact absurd hzero hne
    · refine ⟨(v.sale.resultLine account.id asset unit).row env.entryId, ?_, rfl, rfl, account, ?_,
        rfl, hcode⟩
      · rw [hentry, hres]
        simp
      · obtain ⟨userId, -, hdb₄⟩ := postEntry_new rfl rfl hunused hentryId v.entry
        have hsame : v.db₄.accounts = _ := congrArg Db.accounts hdb₄
        rw [ha₆, ha₅, hsame]
        exact hmem
  · have hbase : (v.result.map fun l => (l.row env.entryId).baseValue).sum =
      -v.sale.realizedUsd := hsum
    rw [hentry, List.map_map]
    simp only [List.map_cons, List.sum_cons, Function.comp_def, hbase]
    change -v.sale.carrying + (v.sale.valueUsd + -(v.sale.valueUsd - v.sale.carrying)) = 0
    abel

end Property

/-! ## Bought, then sold -/

inductive RegistryPurchase where
  | vehicle (input : CreateUserVehicleInput)
  | property (input : CreateRealEstateAssetInput)

/-- The row of a registry, with its asset. -/
structure RegistryItem where
  id : Uuid
  assetId : Uuid
  deriving DecidableEq, Repr

namespace RegistryPurchase

def program (rules : RegistryRules) (env : Env) : RegistryPurchase → Sql RegistryItem
  | .vehicle input => do
    let created ← createUserVehicle rules env input
    pure ⟨created.id, created.assetId⟩
  | .property input => do
    let created ← createRealEstateAsset rules env input
    pure ⟨created.id, created.assetId⟩

/-- The purchase is in the ledger. A vehicle that nobody paid for is not. -/
def InLedger : RegistryPurchase → Prop
  | .vehicle input => input.paymentAccountId.isSome = true
  | .property _ => True

/-- The purchase value the row shows. -/
def value (db : Db) (id : Uuid) : RegistryPurchase → Option Decimal
  | .vehicle _ => (db.findVehicle id).bind (·.purchaseValueUsd)
  | .property _ => (db.realEstateProperties.find? (·.id = id)).bind (·.purchaseValueUsd)

end RegistryPurchase

namespace RegistrySale

/-- The sale is of what was bought. -/
def Sells (item : RegistryItem) : RegistrySale → RegistryPurchase → Prop
  | .vehicle input, .vehicle _ => input.vehicleId = item.id
  | .property input, .property _ => input.propertyId = item.id
  | _, _ => False

/-- What a result is booked under. -/
def resultMemo : RegistrySale → String
  | .vehicle _ => "سود/زیان تحقق‌یافته از فروش دارایی"
  | .property _ => "سود/زیان تحقق‌یافته از فروش ملک"

end RegistrySale

/-- Later on: whatever else was posted, the posting of the asset stands, its row is still of the
asset and at the same purchase value, and its account is there for the seller. -/
structure Db.KeepsAsset (db db' : Db) (owner : Option Uuid) (item : RegistryItem) : Prop where
  postings : db'.postingsIn item.assetId = db.postingsIn item.assetId
  live : ∀ p ∈ db.postingsIn item.assetId, db.Posted p.entryId → db'.Posted p.entryId
  seen : ∀ p ∈ db.postingsIn item.assetId, db'.Seen owner p.accountId
  vehicle : ∀ w, db'.findVehicle item.id = some w → w.assetId = item.assetId
  property : ∀ q ∈ db'.realEstateProperties, q.id = item.id → q.assetId = item.assetId ∧
    ∀ p ∈ db.realEstateProperties, p.id = item.id → q.purchaseValueUsd = p.purchaseValueUsd

theorem Db.KeepsAsset.holdsOne {db db' : Db} {owner : Option Uuid} {item : RegistryItem}
    {value : Decimal} {p : Posting} (hkept : db.KeepsAsset db' owner item)
    (h : db.HoldsOne item.assetId value p) :
    db'.HoldsOne item.assetId value p ∧ db'.Seen owner p.accountId := by
  have hp : p ∈ db.postingsIn item.assetId := h.rows ▸ List.mem_singleton_self p
  exact ⟨⟨hkept.postings.trans h.rows, hkept.live p hp h.live, h.units, h.base⟩, hkept.seen p hp⟩

/-- An asset is bought, into the ledger, and sold later by an entry of its own: a property closes
its position, and a vehicle closes it exactly at a purchase value of one dollar, where an account
for the result is offered if there is one. -/
theorem sold_position_closes_iff {rules : RegistryRules} {env₀ env : Env}
    {bought : RegistryPurchase} {sold : RegistrySale} {item : RegistryItem} {cash : PayoutAccount}
    {value rate : Decimal} {owner : Option Uuid} {db₀ db₁ db₂ db₃ : Db} (hfresh : db₀.Fresh env₀)
    (hbought : (bought.program rules env₀).run db₀ = .ok (item, db₁)) (hpaid : bought.InLedger)
    (hvalue : bought.value db₁ item.id = some value) (hkept : db₁.KeepsAsset db₂ owner item)
    (howner : (resolveServiceUserId env sold.userId [cash.id]).answer db₂ = .ok owner)
    (hsells : sold.Sells item bought) (hpayout : sold.payout.answer db₂ = .ok (some cash))
    (hcash : cash.assetId ≠ item.assetId)
    (hrate : sold.saleRate rules.history env db₂ = some rate)
    (hmoney : db₂.MoneyApart item.assetId) (hkeys : (db₂.accounts.map (·.id)).Nodup)
    (hnew : db₂.Unused env.entryId)
    (hsold : (sold.program rules.history rules.formatMoney env).run db₂ =
      .ok (some env.entryId, db₃)) :
    db₃.SaleCloses item.assetId env.entryId sold.resultMemo
        (tomanToUsd (sold.salePriceToman.toFixed 0) rate - value) ↔
      (∃ input, bought = .property input) ∨
        value = .ofInt 1 ∧ (tomanToUsd (sold.salePriceToman.toFixed 0) rate = .ofInt 1 ∨
          db₂.OffersAccount REALIZED_PNL_CODE owner) := by
  cases bought with
  | vehicle purchase =>
    cases sold with
    | property input => exact hsells.elim
    | vehicle input =>
      obtain ⟨accountId, hpaid⟩ := Option.isSome_iff_exists.mp hpaid
      obtain ⟨created, _, h₁, k₁⟩ := Tx.run_bind_ok.mp hbought
      cases k₁
      obtain ⟨hasset, t, p, hheld, hrow⟩ := createUserVehicle_ok hfresh hpaid h₁
      obtain rfl : t.purchaseValueUsd = value := by
        simpa [RegistryPurchase.value, hrow, VehicleTerms.row] using hvalue
      obtain ⟨hheld₂, hseen⟩ := hkept.holdsOne (by rw [hasset]; exact hheld)
      have hiff := vehicle_closes_iff hheld₂ howner hseen
        (fun w hw => hkept.vehicle w (by rw [← hsells]; exact hw)) hpayout hcash hrate hmoney hkeys
        hnew hsold
      refine hiff.trans ⟨.inr, fun h => h.resolve_left ?_⟩
      rintro ⟨input, hinput⟩
      cases hinput
  | property purchase =>
    cases sold with
    | vehicle input => exact hsells.elim
    | property input =>
      obtain ⟨created, _, h₁, k₁⟩ := Tx.run_bind_ok.mp hbought
      cases k₁
      obtain ⟨hasset, t, p, hheld, hrows⟩ := createRealEstateAsset_ok hfresh h₁
      obtain ⟨q, hq, hvalue⟩ := Option.bind_eq_some_iff.mp hvalue
      have hqid : q.id = created.id := by simpa using List.find?_some hq
      have hqmem := List.mem_of_find?_eq_some hq
      obtain rfl : t.purchaseValueUsd = value :=
        Option.some.inj ((hrows q hqmem hqid).2.symm.trans hvalue)
      obtain ⟨hheld₂, -⟩ := hkept.holdsOne (by rw [hasset]; exact hheld)
      obtain ⟨final, _, h₂, k₂⟩ := Tx.run_bind_ok.mp hsold
      obtain ⟨hid, rfl⟩ := Prod.mk.inj (Except.ok.inj k₂)
      have hrow : ∀ w ∈ db₂.realEstateProperties, w.id = input.propertyId →
          w.assetId = created.assetId ∧ w.purchaseValueUsd = some t.purchaseValueUsd := by
        intro w hw hwid
        obtain ⟨hunit, hsame⟩ := hkept.property w hw (hwid.trans hsells)
        exact ⟨hunit, (hsame q hqmem hqid).trans hvalue⟩
      have hcash' : ∀ c, (resolvePayoutAccount input.saleAccountId input.userId).answer db₂ =
          .ok (some c) → c.assetId ≠ created.assetId := by
        intro c hc
        obtain rfl : c = cash := by simpa using hc.symm.trans hpayout
        exact hcash
      have hcloses := property_closes hheld₂ hrow hcash' hrate hmoney hnew (Option.some.inj hid) h₂
      exact ⟨fun _ => .inl ⟨purchase, rfl⟩, fun _ => hcloses⟩

/-! ## Two cars -/

def showroomRules : RegistryRules where
  history _ := none
  formatMoney _ := ""
  isTomanBankAccount _ asset := asset.any (·.symbol = "IRT")
  catalogModel id := some ⟨id, "پژو", "۲۰۶"⟩
  blockedVehicle _ := none
  city id := some { id }
  neighborhood id := some { id }
  propertyType id := some { id }
  blockedProperty _ := none

/-- A bank account with a billion Toman, at 100000 Toman a dollar. -/
def demoShowroom : Db :=
  { users := [1]
    assets := [⟨1, "USD", "CASH", false⟩, ⟨2, "IRT", "CASH", false⟩]
    accounts := [⟨11, 0, some 1, "1010", "بانک", .asset, some 2, false⟩,
      ⟨12, 0, some 1, OPENING_EQUITY_CODE, "سرمایه افتتاحیه", .equity, some 1, false⟩]
    userFxSettings := [⟨1, .ofInt 100000⟩]
    journalEntries := [{ id := 100, userId := some 1, entryDate := 20260101, type := .opening
                         description := "موجودی اولیه", status := .posted }]
    postings := [⟨100, 11, 2, .ofInt 1000000000, .ofInt 10000, none⟩,
      ⟨100, 12, 1, .ofInt (-10000), .ofInt (-10000), none⟩] }

def carPurchase (price : Int) : RegistryPurchase :=
  .vehicle { catalogId := some 7, manufacturingYear := 1400, ownershipDate := some 20260501
             purchasePriceToman := .ofInt price, paymentAccountId := some 11, userId := some 1 }

def carPurchaseEnv : Env :=
  { entryId := 1, today := 20260501, vehicleId := 5, rwaAssetId := 9, accountId := 13 }

def carBought (price : Int) : Db := ((carPurchase price).program showroomRules carPurchaseEnv).exec
  demoShowroom

def carSale (price : Int) : RegistrySale :=
  .vehicle { vehicleId := 5, saleDate := some 20260601, salePriceToman := .ofInt price
             saleUsdRate := some (.ofInt 100000), saleAccountId := some 11, userId := some 1 }

def carSaleEnv : Env := { entryId := 2, today := 20260601, accountId := 14 }

def carSold (paid price : Int) : Db :=
  ((carSale price).program (fun _ => none) (fun _ => "") carSaleEnv).exec (carBought paid)

theorem demoShowroom_fresh : demoShowroom.Fresh carPurchaseEnv :=
  ⟨⟨by decide, by decide, by decide⟩, by decide, by decide, by decide, by decide⟩

/-- Nothing happens between the purchase and the sale. -/
theorem keepsAsset_self {db : Db} {owner : Option Uuid} {item : RegistryItem}
    (hseen : ∀ p ∈ db.postingsIn item.assetId, db.Seen owner p.accountId)
    (hvehicle : (db.findVehicle item.id).all (·.assetId = item.assetId) = true)
    (hproperty : db.realEstateProperties = []) : db.KeepsAsset db owner item := by
  refine ⟨rfl, fun _ _ h => h, hseen, fun w hw => ?_, by simp [hproperty]⟩
  rw [hw] at hvehicle
  simpa using hvehicle

theorem dollar_car_closes :
    ((carPurchase 100000).program showroomRules carPurchaseEnv).run demoShowroom =
      .ok (⟨5, 9⟩, carBought 100000) ∧
    ((carSale 300000).program showroomRules.history showroomRules.formatMoney carSaleEnv).run
      (carBought 100000) = .ok (some 2, carSold 100000 300000) ∧
    (carSold 100000 300000).SaleCloses 9 2 (carSale 300000).resultMemo
      (.ofInt 3 - .ofInt 1) := by
  have hbought : ((carPurchase 100000).program showroomRules carPurchaseEnv).run demoShowroom =
    .ok (⟨5, 9⟩, carBought 100000) := rfl
  have hpaid : (carPurchase 100000).InLedger := rfl
  have hvalue : (carPurchase 100000).value (carBought 100000) 5 = some (.ofInt 1) := by decide
  have hkept : (carBought 100000).KeepsAsset (carBought 100000) (some 1) ⟨5, 9⟩ :=
    keepsAsset_self (by decide) (by decide) rfl
  have howner : (resolveServiceUserId carSaleEnv (carSale 300000).userId [11]).answer
    (carBought 100000) = .ok (some 1) := rfl
  have hsells : (carSale 300000).Sells ⟨5, 9⟩ (carPurchase 100000) := rfl
  have hpayout : (carSale 300000).payout.answer (carBought 100000) = .ok (some ⟨11, 2⟩) := rfl
  have hrate : (carSale 300000).saleRate showroomRules.history carSaleEnv (carBought 100000) =
    some (.ofInt 100000) := rfl
  have hmoney : (carBought 100000).MoneyApart 9 :=
    ⟨⟨by decide, by decide⟩, by decide, by decide⟩
  have hnew : (carBought 100000).Unused 2 := ⟨by decide, by decide, by decide⟩
  have hsold : ((carSale 300000).program showroomRules.history showroomRules.formatMoney carSaleEnv).run
    (carBought 100000) = .ok (some 2, carSold 100000 300000) := rfl
  have husd : tomanToUsd ((carSale 300000).salePriceToman.toFixed 0) (.ofInt 100000) = .ofInt 3 := by
    decide
  have hiff := sold_position_closes_iff demoShowroom_fresh hbought hpaid hvalue hkept howner hsells
    hpayout (by decide) hrate hmoney (by decide) hnew hsold
  rw [husd] at hiff
  exact ⟨hbought, hsold, hiff.mpr (.inr ⟨rfl, .inr (by decide)⟩)⟩

/-- Bought for two thousand dollars, a car that is sold leaves -1999 of itself behind. -/
theorem car_position_stays_open : demoShowroom.Fresh carPurchaseEnv ∧
    ((carPurchase 200000000).program showroomRules carPurchaseEnv).run demoShowroom =
      .ok (⟨5, 9⟩, carBought 200000000) ∧
    (carBought 200000000).KeepsAsset (carBought 200000000) (some 1) ⟨5, 9⟩ ∧
    ((carSale 300000000).program showroomRules.history showroomRules.formatMoney carSaleEnv).run
      (carBought 200000000) = .ok (some 2, carSold 200000000 300000000) ∧
    (carSold 200000000 300000000).unitsOf 9 = .ofInt (-1999) ∧
    ¬ (carSold 200000000 300000000).SaleCloses 9 2 (carSale 300000000).resultMemo
      (.ofInt 3000 - .ofInt 2000) := by
  have hunits : (carSold 200000000 300000000).unitsOf 9 = .ofInt (-1999) := by decide
  refine ⟨demoShowroom_fresh, rfl, keepsAsset_self (by decide) (by decide) rfl, rfl, hunits,
    fun h => ?_⟩
  exact absurd (hunits.symm.trans h.units) (by decide)

end Pwos
