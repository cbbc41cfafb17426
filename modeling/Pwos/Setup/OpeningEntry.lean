import Mathlib.Data.Nat.Digits.Defs
import Pwos.Setup.OpeningInstruments

/-!
# The opening entry

What `completeSetup` posts, for every chart of accounts the user may already own that fits what the
setup asks for: a line for every row with an amount, in the unit of the row and of its account, a lot
for every holding, and the line of the opening equity that balances them.
-/

namespace Pwos

section Lines
variable {rules : SetupRules} {env : Env} {ids : SetupIds} {userId : Uuid} {S : Set Uuid}
  {assetMap : String → Option Uuid} {plan : SetupPlan} {accounts : List Account}
  {rates : SetupRates} {db db' : Db}

/-- A loop over rounds that only read. -/
theorem gather_opens_read {α : Type} {xs : List α} {f : α → Sql (Option OpeningLine)}
    {row : α → OpeningRow} {lines : List OpeningLine}
    (hf : ∀ x ∈ xs, ∀ line db', (f x).run db = .ok (line, db') →
      db' = db ∧ Opens userId db [row x] line.toList)
    (h : (gather xs f).run db = .ok (lines, db')) :
    db' = db ∧ Opens userId db (xs.map row) lines := by
  have hround : ∀ x ∈ xs, OpensLine userId ⟨fun _ => 0, fun _ => 0⟩ (· = db) (some (row x)) (f x) := by
    rintro x hx db₀ line db₁ rfl hrun
    obtain ⟨rfl, hopens⟩ := hf x hx line db₁ hrun
    exact ⟨rfl, .refl _, hopens⟩
  obtain ⟨rfl, -, hopens⟩ := gather_opens hround rfl h
  rw [List.filterMap_eq_map'] at hopens
  exact ⟨rfl, hopens⟩

/-- The seven kinds of rows, one after the other. -/
theorem openingLines_opens (hknown : rules.Known assetMap) (hplan : plan.Coded)
    (hcoin : ∀ p ∈ plan.crypto, (assetMap p.coin.symbol).isSome = true)
    (hgold : (assetMap "GOLD18").isSome = true) (hdigits : Set.InjOn rules.idDigits S)
    (hready : Ready userId assetMap (chartRows rules assetMap plan) accounts db)
    (hreg : Registrable rules ids userId S db) {lines : List OpeningLine}
    (h : (openingLines rules env ids userId assetMap accounts rates plan).run db =
      .ok (lines, db')) :
    db.Grown ids db' ∧ Opens userId db' (plan.rows rules) lines := by
  unfold openingLines at h
  obtain ⟨price, db₀, h₀, k₀⟩ := Tx.run_bind_ok.mp h
  obtain ⟨-, rfl⟩ := Tx.run_ofExcept_ok.mp h₀
  obtain ⟨bank, db₁, h₁, k₁⟩ := Tx.run_bind_ok.mp k₀
  have hbankunit : plan.unitAt rules 1010 =
      some (bankUnitOf rules plan.input plan.input.bankName) := rfl
  obtain ⟨rfl, hbank⟩ := moneyLine_opens hready (unit_of_unitAt hknown hplan hbankunit)
    (hknown.money _ (bankUnitOf_mem _ _)) h₁
  obtain ⟨extra, db₂, h₂, k₂⟩ := Tx.run_bind_ok.mp k₁
  obtain ⟨rfl, hextra⟩ := gather_opens_read
    (fun x hx line db' hrun => extraBankLine_opens hknown hplan hready hx hrun) h₂
  obtain ⟨cash, db₃, h₃, k₃⟩ := Tx.run_bind_ok.mp k₂
  have hcashunit : plan.unitAt rules 1020 =
      some (resolveMoneyDenomination plan.input.cashAssetSymbol) := rfl
  obtain ⟨rfl, hcash⟩ := moneyLine_opens hready (unit_of_unitAt hknown hplan hcashunit)
    (hknown.money _ (resolveMoneyDenomination_mem _)) h₃
  obtain ⟨places, db₄, h₄, k₄⟩ := Tx.run_bind_ok.mp k₃
  obtain ⟨rfl, hplaces⟩ := gather_opens_read
    (fun x hx line db' hrun => placeLine_opens hknown hplan hready hx hrun) h₄
  obtain ⟨crypto, db₅, h₅, k₅⟩ := Tx.run_bind_ok.mp k₄
  obtain ⟨rfl, hcrypto⟩ := gather_opens_read
    (fun x hx line db' hrun => cryptoLine_opens hknown hplan hcoin hready hx hrun) h₅
  obtain ⟨gold, db₆, h₆, k₆⟩ := Tx.run_bind_ok.mp k₅
  obtain ⟨rfl, hgoldline⟩ := goldLine_opens hknown hplan hgold hready h₆
  obtain ⟨instruments, db₇, h₇, k₇⟩ := Tx.run_bind_ok.mp k₆
  cases k₇
  obtain ⟨-, hgrown, hinstruments⟩ :=
    gather_opens (fun x _ => instrumentLine_opens hdigits x) hreg h₇
  have hbanks : (additionalBanks plan).zipIdx.map (fun x => extraBankRow rules plan.input x.1) =
      (additionalBanks plan).map (extraBankRow rules plan.input) := by
    have hfirst := congrArg (List.map (extraBankRow rules plan.input))
      (List.zipIdx_map_fst 0 (additionalBanks plan))
    rwa [List.map_map] at hfirst
  rw [hbanks] at hextra
  have hmoney := ((hbank.append hextra).append hcash).append hplaces
  have hread := ((hmoney.append hcrypto).append hgoldline).grown hgrown
  exact ⟨hgrown, hread.append hinstruments⟩

/-! ## What is posted -/

/-- The entry, its lines with the line of the equity, and a lot for every lot to open. -/
theorem postOpening_ok (hknown : rules.Known assetMap) (hplan : plan.Coded)
    (hready : Ready userId assetMap (chartRows rules assetMap plan) accounts db)
    {lines : List OpeningLine} {u : Unit}
    (h : (postOpening env userId assetMap accounts rates lines).run db = .ok (u, db')) :
    ∃ a ∈ db.accounts, a.userId = some userId ∧ a.code = "3010" ∧
      ∃ usd, a.assetId = some usd ∧ (usd, "USD") ∈ db.assets.map Asset.ident ∧
        let input := openingEntry env userId lines (equityPosting a.id usd lines)
        db'.accounts = db.accounts ∧ db'.assets = db.assets ∧
          db'.journalEntries = db.journalEntries ++ [input.entryRow env.entryId (some userId)] ∧
          db'.postings = db.postings ++ input.postings.map (DraftPosting.row env.entryId) ∧
          db'.lots = db.lots ++ input.newLots env (some userId) := by
  have hmem : _ ∈ chartRows rules assetMap plan := (fixed_mem_chartRows).2
  have hunit := chartRows_unitAt hknown hplan hmem
  unfold postOpening at h
  cases hat : accountAt accounts 3010 with
  | none =>
    rw [hat] at h
    cases h
  | some equityId =>
  rw [hat] at h
  obtain ⟨a, ha, rfl, hown, hcode, usd, hmap, hheld, hident⟩ := hready.account
    (unit_of_unitAt hknown hplan hunit.symm) (hknown.money _ (by decide)) hat
  refine ⟨a, ha, hown, hcode, usd, hheld, hident, ?_⟩
  dsimp only at h
  rw [Tx.run_read_bind, hready.keys.findAccount ha, Option.bind_some, hheld, Option.some_or] at h
  obtain ⟨opening, db₁, h₁, k₁⟩ := Tx.run_bind_ok.mp h
  obtain ⟨⟨_, k, _, _, hkey, _⟩, _⟩ | ⟨-, userId', hposted⟩ :=
    postEntryPriced_ok hready.keys.lots h₁
  · cases hkey
  have huser : userId' = some userId := by
    have huser := hposted.user
    unfold Tx.answer at huser
    exact (Except.ok.inj huser).symm
  subst huser
  have hconsumed := @consumptions_nil env _ (some userId) db
    (show (openingEntry env userId lines (equityPosting a.id usd lines)).closeLot = none from rfl)
  have hdb₁ := hposted.written.result
  rw [hconsumed] at hdb₁
  have htables : db'.accounts = db₁.accounts ∧ db'.assets = db₁.assets ∧
      db'.journalEntries = db₁.journalEntries ∧ db'.postings = db₁.postings ∧
      db'.lots = db₁.lots := by
    unfold Tx.when at k₁
    split at k₁
    · unfold freezeSetupRate at k₁
      rw [Tx.run_write] at k₁
      cases k₁
      split <;> exact ⟨rfl, rfl, rfl, rfl, rfl⟩
    · cases k₁
      exact ⟨rfl, rfl, rfl, rfl, rfl⟩
  obtain ⟨haccounts, hassets, hentries, hpostings, hlots⟩ := htables
  refine ⟨by rw [haccounts, hdb₁]; rfl, by rw [hassets, hdb₁]; rfl, by rw [hentries, hdb₁]; rfl,
    by rw [hpostings, hdb₁]; rfl, ?_⟩
  rw [hlots, hdb₁]
  exact map_adjust_of_eq_zero fun l _ => by simp

end Lines

/-! ## The law of the opening entry -/

/-- The symbol of an asset. -/
def Db.symbolAt (db : Db) (assetId : Uuid) : Option String := (db.findAsset assetId).map (·.symbol)

/-- The lot a line opens: its quantity, at its base value divided by its quantity. -/
structure LotFor (entryId : Uuid) (p : Posting) (l : Lot) : Prop where
  entry : l.openEntryId = entryId
  account : l.accountId = p.accountId
  asset : l.assetId = p.assetId
  opened : l.qtyOpened = p.quantity
  remaining : l.qtyRemaining = p.quantity
  cost : l.unitCostBase = p.baseValue.div p.quantity

/-- The opening entry of the rows: its lines, the line of the equity, and its lots. -/
structure OpenedBy (userId : Uuid) (rows : List OpeningRow) (db db' : Db) (e : JournalEntry)
    (lines : List Posting) (equity : Posting) (lots : List Lot) : Prop where
  entry : db'.journalEntries = db.journalEntries ++ [e]
  opening : e.type = .opening ∧ e.userId = some userId ∧ e.status = .posted
  postings : db'.postings = db.postings ++ (lines ++ [equity])
  ofEntry : ∀ p ∈ lines ++ [equity], p.entryId = e.id
  /-- One line for every row, of its amount and in its unit. -/
  onePerRow : List.Forall₂ (fun row p => p.quantity = row.amount ∧
    db'.symbolAt p.assetId = some row.unit) rows lines
  /-- Every line's asset is the asset of its account, which is the user's. -/
  held : ∀ p ∈ lines ++ [equity], ∃ a, db'.findAccount p.accountId = some a ∧
    a.userId = some userId ∧ a.assetId = some p.assetId
  equityLine : (db'.findAccount equity.accountId).map (·.code) = some "3010" ∧
    db'.symbolAt equity.assetId = some "USD" ∧ equity.quantity = equity.baseValue
  balanced : ((lines ++ [equity]).map (·.baseValue)).sum = 0
  opened : db'.lots = db.lots ++ lots
  /-- One lot for every holding, none for money. -/
  onePerHolding : List.Forall₂ (LotFor e.id)
    (((rows.zip lines).filter (·.1.holding)).map (·.2)) lots
  /-- The Toman lines add up to the Toman amounts. -/
  toman : ((lines.filter fun p => db'.symbolAt p.assetId = some "IRT").map (·.quantity)).sum =
    ((rows.filter (·.unit = "IRT")).map (·.amount)).sum

section Law
variable {userId : Uuid} {db : Db} {rows : List OpeningRow} {lines : List OpeningLine}

theorem Db.Keys.symbolAt (h : db.Keys) {i : Uuid} {s : String}
    (hi : (i, s) ∈ db.assets.map Asset.ident) : db.symbolAt i = some s := by
  obtain ⟨asset, hfind, -, rfl⟩ := h.findAsset hi
  unfold Db.symbolAt
  rw [hfind]
  rfl

/-- The lots the entry opens for the lines of the rows. -/
theorem lotRows_for (env : Env) (input : PostEntryInput)
    (h : List.Forall₂ (LineFor userId db) rows lines) (n : Nat) :
    List.Forall₂ (LotFor env.entryId)
      (((rows.zip (lines.map fun l => l.posting.row env.entryId)).filter (·.1.holding)).map (·.2))
      (lotRows env input (some userId) ((lines.filterMap (·.lot)).zipIdx n)) := by
  induction h generalizing n with
  | nil => exact .nil
  | @cons row line rows lines hline _ ih =>
    rw [List.map_cons, List.zip_cons_cons]
    cases hholding : row.holding with
    | false =>
      have hnone : line.lot = none :=
        Option.isNone_iff_eq_none.mp (by simpa [hholding] using hline.lot)
      rw [List.filter_cons_of_neg (by simpa using hholding), List.filterMap_cons_none hnone]
      exact ih n
    | true =>
      obtain ⟨lot, hlot⟩ := Option.isSome_iff_exists.mp (hline.lot.trans hholding)
      obtain ⟨haccount, hasset, hquantity, hcost⟩ := hline.opened lot hlot
      have hpos : 0 < lot.quantity := hquantity ▸ hline.positive
      rw [List.filter_cons_of_pos (by simpa using hholding), List.filterMap_cons_some hlot, List.zipIdx_cons,
        lotRows_cons, lotRows_single, if_pos hpos, List.map_cons]
      refine .cons ⟨rfl, haccount, hasset, ?_, ?_, ?_⟩ (ih (n + 1))
      · exact hquantity.trans hline.quantity.symm
      · exact hquantity.trans hline.quantity.symm
      · show lot.costBase.div lot.quantity = line.posting.baseValue.div line.posting.quantity
        rw [hcost, hquantity, hline.quantity]

theorem toman_sums {f : Uuid → Option String} {ps : List Posting}
    (h : List.Forall₂ (fun (row : OpeningRow) (p : Posting) => p.quantity = row.amount ∧
      f p.assetId = some row.unit) rows ps) :
    ((ps.filter fun p => f p.assetId = some "IRT").map (·.quantity)).sum =
      ((rows.filter (·.unit = "IRT")).map (·.amount)).sum := by
  induction h with
  | nil => rfl
  | @cons row p rows ps hrow _ ih =>
    obtain ⟨hquantity, hunit⟩ := hrow
    by_cases htoman : row.unit = "IRT"
    · rw [List.filter_cons_of_pos (by simpa [hunit] using htoman),
        List.filter_cons_of_pos (by simpa using htoman), List.map_cons, List.map_cons,
        List.sum_cons, List.sum_cons, ih, hquantity]
    · rw [List.filter_cons_of_neg (by simpa [hunit] using htoman),
        List.filter_cons_of_neg (by simpa using htoman)]
      exact ih

theorem exists_row_of_line (h : List.Forall₂ (LineFor userId db) rows lines) :
    ∀ line ∈ lines, ∃ row, LineFor userId db row line := by
  induction h with
  | nil => exact fun _ hline => absurd hline List.not_mem_nil
  | @cons row line rows lines hfirst _ ih =>
    intro l hl
    rcases List.mem_cons.mp hl with rfl | hl
    · exact ⟨row, hfirst⟩
    · exact ih l hl

/-- Lines for the rows, posted against the equity of the user, are the opening entry. -/
theorem openedBy_of_lines {env : Env} {ids : SetupIds} {db₀ : Db} (db' : Db) (hgrown : db₀.Grown ids db)
    (hkeys : db.Keys) (hlines : List.Forall₂ (LineFor userId db) rows lines) {a : Account}
    (ha : a ∈ db.accounts) (hown : a.userId = some userId) (hcode : a.code = "3010") {usd : Uuid}
    (hheld : a.assetId = some usd) (hident : (usd, "USD") ∈ db.assets.map Asset.ident)
    (haccounts : db'.accounts = db.accounts) (hassets : db'.assets = db.assets) {input : PostEntryInput}
    (hinput : input = openingEntry env userId lines (equityPosting a.id usd lines))
    (hentries : db'.journalEntries = db.journalEntries ++ [input.entryRow env.entryId (some userId)])
    (hpostings : db'.postings = db.postings ++ input.postings.map (DraftPosting.row env.entryId))
    (hlots : db'.lots = db.lots ++ input.newLots env (some userId)) :
    OpenedBy userId rows db₀ db' (input.entryRow env.entryId (some userId))
      (lines.map fun l => l.posting.row env.entryId)
      ((equityPosting a.id usd lines).row env.entryId) (input.newLots env (some userId)) := by
  subst hinput
  have hfind : db'.findAccount = db.findAccount := by
    unfold Db.findAccount
    rw [haccounts]
  have hsymbol : db'.symbolAt = db.symbolAt := by
    unfold Db.symbolAt Db.findAsset
    rw [hassets]
  have hrows : List.Forall₂ (fun (row : OpeningRow) (p : Posting) => p.quantity = row.amount ∧
      db.symbolAt p.assetId = some row.unit) rows (lines.map fun l => l.posting.row env.entryId) := by
    rw [List.forall₂_map_right_iff]
    refine hlines.imp fun row line hline => ⟨hline.quantity, hkeys.symbolAt hline.asset⟩
  have hstored : (openingEntry env userId lines (equityPosting a.id usd lines)).postings.map
      (DraftPosting.row env.entryId) = (lines.map fun l => l.posting.row env.entryId) ++
        [(equityPosting a.id usd lines).row env.entryId] := by
    show (lines.map OpeningLine.posting ++ [_]).map _ = _
    rw [List.map_append, List.map_map]
    rfl
  constructor
  · rw [hentries, hgrown.rest]
  · exact ⟨rfl, rfl, rfl⟩
  · rw [hpostings, hstored, hgrown.rest]
  · intro p hp
    rcases List.mem_append.mp hp with hp | hp
    · obtain ⟨line, -, rfl⟩ := List.mem_map.mp hp
      rfl
    · rw [List.mem_singleton.mp hp]
      rfl
  · rw [hsymbol]
    exact hrows
  · intro p hp
    rw [hfind]
    rcases List.mem_append.mp hp with hp | hp
    · obtain ⟨line, hline, rfl⟩ := List.mem_map.mp hp
      obtain ⟨row, hfor⟩ := exists_row_of_line hlines line hline
      obtain ⟨b, hb, hid, hbown, hbheld⟩ := hfor.account
      have hb' := hkeys.findAccount hb
      rw [hid] at hb'
      exact ⟨b, hb', hbown, hbheld⟩
    · rw [List.mem_singleton.mp hp]
      exact ⟨a, hkeys.findAccount ha, hown, hheld⟩
  · refine ⟨?_, ?_, rfl⟩
    · rw [hfind]
      show (db.findAccount a.id).map (·.code) = _
      rw [hkeys.findAccount ha, Option.map_some, hcode]
    · rw [hsymbol]
      exact hkeys.symbolAt hident
  · rw [List.map_append, List.sum_append, List.map_map]
    show (lines.map fun l => l.posting.baseValue).sum + ([_] : List Decimal).sum = 0
    rw [List.sum_singleton]
    exact add_neg_cancel _
  · rw [hlots, hgrown.rest]
  · exact lotRows_for env _ hlines 0
  · rw [hsymbol]
    exact toman_sums hrows

end Law

/-! ## The setup as a whole -/

section Setup
variable {rules : SetupRules} {env : Env} {ids : SetupIds} {userId : Uuid} {db db' : Db}

theorem readOnly_gather {α β : Type} {f : α → Sql (Option β)} (h : ∀ x, (f x).ReadOnly)
    (xs : List α) : (gather xs f).ReadOnly := by
  induction xs with
  | nil => exact Tx.readOnly_done _
  | cons x xs ih => exact (h x).bind fun _ => ih.bind fun _ => Tx.readOnly_done _

theorem readOnly_datedRate (input : SetupInput) (date : OpenedAt) :
    (datedRate rules env userId input date).ReadOnly := by
  unfold datedRate
  split
  · exact Tx.readOnly_fail _
  · split
    · exact Tx.readOnly_done _
    · exact (readOnly_resolveAutomaticPurchaseRate _ _ _ _).bind fun _ => Tx.readOnly_done _

theorem readOnly_resolveSetupRate (input : SetupInput) :
    (resolveSetupRate userId input).ReadOnly := by
  unfold resolveSetupRate
  refine (readOnly_getLatestUsdIrtRateForUser _).bind fun latest => ?_
  split
  · exact Tx.readOnly_done _
  · exact (Tx.readOnly_require _ _).bind fun _ => Tx.readOnly_done _

theorem prepareSetup_ok {input : SetupInput}
    {r : SetupInput × List SetupBankAccount × List (OpenedAt × Decimal)}
    (h : (prepareSetup rules env userId input).run db = .ok (r, db')) :
    db' = db ∧ resolveBanks rules input = .ok (r.1, r.2.1) := by
  unfold prepareSetup at h
  obtain ⟨⟨resolved, listed⟩, db₁, h₁, k₁⟩ := Tx.run_bind_ok.mp h
  obtain ⟨hbanks, rfl⟩ := Tx.run_ofExcept_ok.mp h₁
  dsimp only at k₁
  rw [Tx.run_read_bind, Tx.run_require_bind] at k₁
  split at k₁
  · obtain ⟨dated, db₂, h₂, k₂⟩ := Tx.run_bind_ok.mp k₁
    cases k₂
    exact ⟨(readOnly_gather (readOnly_datedRate resolved) _).run_state h₂, hbanks⟩
  · cases k₁

/-- The rows of the chart of accounts the input asks for. -/
def SetupInput.chart (rules : SetupRules) (input : SetupInput) : List ChartRow :=
  match (do
    let (resolved, listed) ← resolveBanks rules input
    setupPlan rules anyAsset resolved listed) with
  | .ok plan => chartRows rules anyAsset plan
  | .error _ => []

/-- What the setup is promised of the database it starts from, and of the ids it draws. -/
structure SetupFits (rules : SetupRules) (ids : SetupIds) (userId : Uuid) (input : SetupInput)
    (db : Db) : Prop where
  keys : db.Keys
  fresh : ids.Fresh db
  /-- No other asset carries the CoinGecko id of a required one. -/
  coingecko : ∀ row ∈ requiredAssets rules, rules.coingeckoTaken row.1 = false
  /-- Toman of one place is typed once. -/
  places : PlacesOnce rules input.tomanPlaces
  /-- The accounts of the chart that are there already hold what their rows ask for. -/
  chart : db.ChartFits userId (input.chart rules)
  /-- The codes of instruments tell the assets apart. -/
  digits : Set.InjOn rules.idDigits {i | ids.Known db i}
  instruments : db.InstrumentsCoded rules userId

theorem setupPlan_coins {resolved : SetupInput} {listed : List SetupBankAccount} {plan : SetupPlan}
    (h : setupPlan rules anyAsset resolved listed = .ok plan) :
    ∀ p ∈ plan.crypto, p.coin ∈ rules.coins := by
  unfold setupPlan at h
  cases hcrypto : cryptoPicks rules anyAsset resolved with
  | error e =>
    rw [hcrypto] at h
    cases h
  | ok crypto =>
  rw [hcrypto] at h
  cases hplaces : tomanPlacePicks rules resolved with
  | error e =>
    rw [hplaces] at h
    cases h
  | ok places =>
  rw [hplaces] at h
  cases h
  intro p hp
  have hnone : CodesGiven [] := ⟨rfl⟩
  have hmap := (cryptoPicksFrom_spec hnone le_rfl hcrypto).1
  have hmem : (p.coin, p.holding) ∈ crypto.map fun p => (p.coin, p.holding) :=
    List.mem_map.mpr ⟨p, hp, rfl⟩
  rw [hmap] at hmem
  obtain ⟨x, -, hx⟩ := List.mem_filterMap.mp hmem
  obtain ⟨c, hc, heq⟩ := Option.map_eq_some_iff.mp hx
  obtain ⟨rfl, -⟩ := Prod.mk.inj heq
  exact List.mem_of_find?_eq_some hc

/-- A setup that succeeds posts nothing, where no row has an amount, or the opening entry of its
rows: one line for each and the line of the equity, balanced, each in the unit of its row and of its
account, and one lot for each holding. -/
theorem completeSetup_opening {keys : List String} (hkeys : rules.FewPlaces keys) {workflow : Bool}
    {input : SetupInput} (hfits : SetupFits rules ids userId input db) {u : Unit}
    (h : (completeSetup rules env ids userId workflow input).run db = .ok (u, db')) :
    (input.openingRows rules = [] ∧ db'.journalEntries = db.journalEntries ∧
        db'.postings = db.postings ∧ db'.lots = db.lots) ∨
      ∃ e lines equity lots,
        OpenedBy userId (input.openingRows rules) db db' e lines equity lots := by
  unfold completeSetup at h
  obtain ⟨⟨resolved, listed, dated⟩, db₀, h₀, k₀⟩ := Tx.run_bind_ok.mp h
  obtain ⟨rfl, hbanks⟩ := prepareSetup_ok h₀
  dsimp only at k₀ hbanks
  unfold runSetup at k₀
  obtain ⟨u₁, db₁, h₁, k₁⟩ := Tx.run_bind_ok.mp k₀
  obtain ⟨u₂, db₂, h₂, k₂⟩ := Tx.run_bind_ok.mp k₁
  obtain ⟨hgrown₂, haccounts₂, hrequired, hlive⟩ :=
    requiredAssets_ok hfits.fresh hfits.coingecko h₁ h₂
  obtain ⟨hknown, hgold⟩ := known_of_required hrequired
  rw [Tx.run_read_bind, Tx.run_lock_bind, Tx.run_require_bind] at k₂
  split at k₂
  swap
  · cases k₂
  obtain ⟨rate, db₃, h₃, k₃⟩ := Tx.run_bind_ok.mp k₂
  obtain rfl := (readOnly_resolveSetupRate resolved).run_state h₃
  obtain ⟨plan, db₄, h₄, k₄⟩ := Tx.run_bind_ok.mp k₃
  obtain ⟨hplan, rfl⟩ := Tx.run_ofExcept_ok.mp h₄
  rw [setupPlan_congr hknown] at hplan
  obtain ⟨hcoded, -, -, hrows⟩ := setupPlan_spec hkeys hfits.places hbanks hplan
  have hchart : input.chart rules = chartRows rules anyAsset plan := by
    unfold SetupInput.chart
    rw [hbanks]
    show (match setupPlan rules anyAsset resolved listed with
      | .ok plan => chartRows rules anyAsset plan
      | .error _ => []) = _
    rw [hplan]
  have hsame : chartRows rules db₄.assetMap plan = input.chart rules := by
    rw [chartRows_congr hknown, hchart]
  have hholds : db₄.ChartHolds userId db₄.assetMap (chartRows rules db₄.assetMap plan) := by
    rw [hsame]
    exact hfits.chart.holds haccounts₂ hlive
  have hunits : ∀ r ∈ chartRows rules db₄.assetMap plan, ∀ r' ∈ chartRows rules db₄.assetMap plan,
      r.code = r'.code → r.unit = r'.unit := by
    intro r hr r' hr' hcode
    rw [chartRows_unitAt hknown hcoded hr, chartRows_unitAt hknown hcoded hr', hcode]
  obtain ⟨accounts, db₅, h₅, k₅⟩ := Tx.run_bind_ok.mp k₄
  obtain ⟨⟨v, hfill⟩, hopened⟩ := openChart_ok hunits hholds h₅
  have hgrown₅ : db₄.Grown ids db₅ := grows_each (fun row _ => grows_fillChartRow row) db₄ v db₅ hfill
  have hready : Ready userId db₄.assetMap (chartRows rules db₄.assetMap plan) accounts db₅ :=
    ⟨hopened, (hgrown₂.trans hgrown₅).keys hfits.keys, fun s i hi => hgrown₅.asset (assetMap_ident hi)⟩
  have hreg : Registrable rules ids userId {i | ids.Known db₀ i} db₅ := by
    refine ⟨fun symbol => .inr ⟨symbol, rfl⟩, fun a ha => ?_, ?_⟩
    · rcases (hgrown₂.trans hgrown₅).drawn a ha with hold | hnew
      · obtain ⟨b, hb, hident⟩ := List.mem_map.mp hold
        exact .inl ⟨b, hb, (Prod.mk.inj hident).1⟩
      · exact .inr ⟨a.symbol, hnew.symm⟩
    · exact Tx.keeps_each (fun row _ => keeps_instrumentsCoded_fillChartRow row) db₄ v db₅
        (hfits.instruments.grown haccounts₂ hgrown₂) hfill
  obtain ⟨lines, db₆, h₆, k₆⟩ := Tx.run_bind_ok.mp k₅
  obtain ⟨hgrown₆, hopens⟩ := openingLines_opens hknown hcoded
    (fun p hp => hknown.coins _ (setupPlan_coins hplan p hp)) hgold hfits.digits hready hreg h₆
  unfold Opens at hopens
  rw [hrows] at hopens
  have hgrown := (hgrown₂.trans hgrown₅).trans hgrown₆
  obtain ⟨w, db₇, h₇, k₇⟩ := Tx.run_bind_ok.mp k₆
  cases k₇
  unfold Tx.when at h₇
  by_cases hnil : lines = []
  · rw [if_neg (not_not.mpr hnil)] at h₇
    cases h₇
    refine .inl ⟨?_, ?_⟩
    · rw [hnil] at hopens
      exact List.forall₂_nil_right_iff.mp hopens
    · rw [hgrown.rest]
      exact ⟨rfl, rfl, rfl⟩
  · rw [if_pos hnil] at h₇
    have hready₆ := hready.grown hgrown₆
    obtain ⟨a, ha, hown, hcode, usd, hheld, hident, haccounts, hassets, hentries, hpostings, hlots⟩ :=
      postOpening_ok hknown hcoded hready₆ h₇
    exact .inr ⟨_, _, _, _, openedBy_of_lines
      (Writable.apply (Write.insertSetupState ⟨userId, !workflow, 9, env.now⟩) db₇) hgrown
      hready₆.keys hopens ha hown hcode hheld hident haccounts hassets rfl hentries hpostings hlots⟩

/-! ### A first setup, and one the chart does not fit -/

/-- Catalogues of two coins and one exchange. -/
def setupRules : SetupRules where
  coins := [⟨"BTC", "بیت‌کوین", "crypto"⟩, ⟨"ETH", "اتریوم", "crypto"⟩]
  coingeckoTaken _ := false
  canonicalWalletName := trimText
  walletKeyOf := upper
  holdsToman name := name = "نوبیتکس"
  isForeignSetupBank _ := false
  normalizeBankText := trimText
  validBank _ := true
  instrumentClass _ := "fund"
  wallexClass _ := none
  nameOf symbol name := name.getD symbol
  idDigits i := toString i
  history _ := none

/-- The number whose digits are the characters. -/
def textNumber (text : String) : Nat :=
  Nat.ofDigits 4294967297 (text.toList.map fun c => c.toNat + 1)

theorem textNumber_injective : Function.Injective textNumber := by
  intro s t h
  have hdigits (text : String) :
      Nat.digits 4294967297 (textNumber text) = text.toList.map fun c => c.toNat + 1 := by
    refine Nat.digits_ofDigits _ (by decide) _ ?_ ?_
    · intro n hn
      obtain ⟨c, -, rfl⟩ := List.mem_map.mp hn
      exact Nat.succ_lt_succ c.val.toNat_lt
    · intro hne
      obtain ⟨c, -, hc⟩ := List.mem_map.mp (List.getLast_mem hne)
      omega
  have hchars := congrArg (Nat.digits 4294967297) h
  rw [hdigits, hdigits] at hchars
  have hinj : Function.Injective fun c : Char => c.toNat + 1 :=
    fun c d hcd => Char.toNat_inj.mp (Nat.succ.inj hcd)
  exact String.toList_inj.mp (List.map_injective_iff.mpr hinj hchars)

/-- An id for every code and every symbol. -/
def setupIds : SetupIds := ⟨fun code => 1000 + textNumber code, fun symbol => 1000 + textNumber symbol⟩

/-- A user whose equity account was opened before. -/
def beforeSetup : Db where
  users := [1]
  assets := [{ id := 2, symbol := "USD", classCode := "cash" }]
  accounts := [{ id := 3, createdAt := 0, userId := some 1, code := "3010", name := "سرمایه"
                 type := .equity, assetId := some 2 }]

/-- Cash, a coin and a fund. -/
def firstSetup : SetupInput where
  noBank := true
  fxRate := some (.ofInt 60000)
  cashAssetSymbol := some "IRT"
  cashOpeningBalance := some (.ofInt 1200000)
  cryptoHoldings := [{ symbol := "ETH", quantity := some (.ofInt 2), unitPrice := some (.ofInt 3000) }]
  instruments := [{ kind := .fund, symbol := "FUND", quantity := some (.ofInt 10)
                    unitPrice := some (.ofInt 5) }]

theorem firstSetup_fits : SetupFits setupRules setupIds 1 firstSetup beforeSetup where
  keys := ⟨by decide, by decide, by decide⟩
  fresh := by
    refine ⟨fun s t h => textNumber_injective (Nat.add_left_cancel h), ?_⟩
    intro a ha symbol hid
    rw [List.mem_singleton.mp ha] at hid
    have hlarge : 1000 ≤ setupIds.asset symbol := Nat.le_add_right _ _
    exact absurd (hid ▸ hlarge) (by decide)
  coingecko := fun _ _ => rfl
  places := by decide
  chart := by decide
  digits := fun _ _ _ _ h => code_injective h
  instruments := by decide

theorem setupRules_fewPlaces : setupRules.FewPlaces ["نوبیتکس"] := by
  refine ⟨by decide, fun name hname => ?_⟩
  have hname' : name = "نوبیتکس" := of_decide_eq_true hname
  rw [hname']
  decide

def setupEnv : Env := { entryId := 9, today := 20000 }

theorem completeSetup_opening_first :
    ∃ db', (completeSetup setupRules setupEnv setupIds 1 false firstSetup).run beforeSetup =
        .ok ((), db') ∧ ∃ e lines equity lots,
      OpenedBy 1 (firstSetup.openingRows setupRules) beforeSetup db' e lines equity lots := by
  have hok : ((completeSetup setupRules setupEnv setupIds 1 false firstSetup).run
      beforeSetup).isOk = true := by decide
  cases hrun : (completeSetup setupRules setupEnv setupIds 1 false firstSetup).run beforeSetup with
  | error e =>
    rw [hrun] at hok
    cases hok
  | ok r =>
    obtain ⟨u, db'⟩ := r
    refine ⟨db', rfl, ?_⟩
    rcases completeSetup_opening setupRules_fewPlaces firstSetup_fits hrun with ⟨hnone, -⟩ | hopened
    · exact absurd hnone (by decide)
    · exact hopened

/-- The account 1200 of a user who kept bitcoin on it. -/
def bitcoinBefore : Db where
  users := [1]
  assets := [{ id := 2, symbol := "BTC", classCode := "crypto" }]
  accounts := [{ id := 3, createdAt := 0, userId := some 1, code := "1200", name := "بیت‌کوین"
                 type := .asset, assetId := some 2 }]

/-- A coin of the list and one that is not on it. -/
def coinsTyped : SetupInput where
  noBank := true
  fxRate := some (.ofInt 60000)
  cryptoHoldings :=
    [{ symbol := "ETH", quantity := some (.ofInt 2), unitPrice := some (.ofInt 3000) },
      { symbol := "DOGE", quantity := some (.ofInt 5), unitPrice := some (.ofInt 1) }]

/-- Two coins with amounts, one line beside the equity's; and it books the one on the account of
another. -/
theorem completeSetup_skips_coin :
    ∃ db', (completeSetup setupRules setupEnv setupIds 1 false coinsTyped).run bitcoinBefore =
        .ok ((), db') ∧
      (coinsTyped.cryptoHoldings.filter fun h => 0 < h.quantity.getD 0).length = 2 ∧
      db'.postings.length = 2 ∧
      ∃ p ∈ db'.postings, p.accountId = 3 ∧ db'.symbolAt p.assetId = some "ETH" ∧
        ((db'.findAccount 3).bind (·.assetId)).bind db'.symbolAt = some "BTC" := by
  have hok : ((completeSetup setupRules setupEnv setupIds 1 false coinsTyped).run
      bitcoinBefore).isOk = true := by decide
  cases hrun : (completeSetup setupRules setupEnv setupIds 1 false coinsTyped).run bitcoinBefore with
  | error e =>
    rw [hrun] at hok
    cases hok
  | ok r =>
    obtain ⟨u, db'⟩ := r
    have hexec := Tx.exec_of_ok hrun
    subst hexec
    exact ⟨_, rfl, by decide⟩

end Setup

end Pwos
