import Pwos.Rwa.Bought
import Pwos.Setup.OpeningChart

/-!
# One line for every row

Each loop of the setup turns its rows into lines: what is not positive is skipped, and every other
row becomes one line of its amount, on an account of the user that holds the unit of the row; a
holding comes with its lot.
-/

namespace Pwos

/-! ## Rows and lines -/

/-- A line that opens what the row says, on an account that holds it. -/
structure LineFor (userId : Uuid) (db : Db) (row : OpeningRow) (line : OpeningLine) : Prop where
  positive : 0 < row.amount
  quantity : line.posting.quantity = row.amount
  account : ∃ a ∈ db.accounts, a.id = line.posting.accountId ∧ a.userId = some userId ∧
    a.assetId = some line.posting.assetId
  asset : (line.posting.assetId, row.unit) ∈ db.assets.map Asset.ident
  lot : line.lot.isSome = row.holding
  opened : ∀ lot ∈ line.lot, lot.accountId = line.posting.accountId ∧
    lot.assetId = line.posting.assetId ∧ lot.quantity = row.amount ∧
    lot.costBase = line.posting.baseValue

/-- One line for every row with a positive amount, in their order. -/
def Opens (userId : Uuid) (db : Db) (rows : List OpeningRow) (lines : List OpeningLine) : Prop :=
  List.Forall₂ (LineFor userId db) (rows.filter (0 < ·.amount)) lines

section Opens
variable {userId : Uuid} {ids : SetupIds} {db db' : Db} {rows rows' : List OpeningRow}
  {lines lines' : List OpeningLine}

theorem Opens.append (h : Opens userId db rows lines) (h' : Opens userId db rows' lines') :
    Opens userId db (rows ++ rows') (lines ++ lines') := by
  unfold Opens
  rw [List.filter_append]
  exact List.rel_append h h'

theorem LineFor.grown {row : OpeningRow} {line : OpeningLine} (h : LineFor userId db row line)
    (hgrown : db.Grown ids db') : LineFor userId db' row line where
  positive := h.positive
  quantity := h.quantity
  account := by
    obtain ⟨a, ha, hkeys⟩ := h.account
    exact ⟨a, hgrown.account ha, hkeys⟩
  asset := hgrown.asset h.asset
  lot := h.lot
  opened := h.opened

theorem Opens.grown (h : Opens userId db rows lines) (hgrown : db.Grown ids db') :
    Opens userId db' rows lines :=
  List.Forall₂.imp (fun _ _ hline => hline.grown hgrown) h

theorem opens_skipped {row : OpeningRow} (h : row.amount ≤ 0) : Opens userId db [row] [] := by
  unfold Opens
  rw [List.filter_cons_of_neg (by simpa using h)]
  exact .nil

theorem opens_line {row : OpeningRow} {line : OpeningLine} (h : LineFor userId db row line) :
    Opens userId db [row] [line] := by
  unfold Opens
  rw [List.filter_cons_of_pos (by simpa using h.positive)]
  exact .cons h .nil

/-- A round that keeps `I`, only adds accounts and assets, and gives a line where its row is
positive. -/
def OpensLine (userId : Uuid) (ids : SetupIds) (I : Db → Prop) (row : Option OpeningRow)
    (p : Sql (Option OpeningLine)) : Prop :=
  ∀ db line db', I db → p.run db = .ok (line, db') →
    I db' ∧ db.Grown ids db' ∧ Opens userId db' row.toList line.toList

theorem gather_opens {α : Type} {I : Db → Prop} {xs : List α} {f : α → Sql (Option OpeningLine)}
    {row : α → Option OpeningRow} (hf : ∀ x ∈ xs, OpensLine userId ids I (row x) (f x)) (hI : I db)
    (h : (gather xs f).run db = .ok (lines, db')) :
    I db' ∧ db.Grown ids db' ∧ Opens userId db' (xs.filterMap row) lines := by
  induction xs generalizing db lines with
  | nil =>
    cases h
    exact ⟨hI, .refl _, .nil⟩
  | cons x xs ih =>
    obtain ⟨line, db₁, h₁, k₁⟩ := Tx.run_bind_ok.mp h
    obtain ⟨rest, db₂, h₂, k₂⟩ := Tx.run_bind_ok.mp k₁
    cases k₂
    obtain ⟨hI₁, hgrown₁, hopens₁⟩ := hf x List.mem_cons_self db line db₁ hI h₁
    obtain ⟨hI₂, hgrown₂, hopens₂⟩ := ih (fun y hy => hf y (List.mem_cons_of_mem _ hy)) hI₁ h₂
    refine ⟨hI₂, hgrown₁.trans hgrown₂, ?_⟩
    have hrows : (x :: xs).filterMap row = (row x).toList ++ xs.filterMap row := by
      cases hrow : row x with
      | none => rw [List.filterMap_cons_none hrow]; rfl
      | some r => rw [List.filterMap_cons_some hrow]; rfl
    rw [hrows]
    exact (hopens₁.grown hgrown₂).append hopens₂

end Opens

/-! ## What the loops rely on -/

/-- The chart is open, and every symbol names an asset that is stored. -/
structure Ready (userId : Uuid) (assetMap : String → Option Uuid) (rows : List ChartRow)
    (accounts : List Account) (db : Db) : Prop where
  chart : ChartOpened userId assetMap rows accounts db
  keys : db.Keys
  named : ∀ s i, assetMap s = some i → (i, s) ∈ db.assets.map Asset.ident

section Lines
variable {rules : SetupRules} {env : Env} {ids : SetupIds} {userId : Uuid}
  {assetMap : String → Option Uuid} {rows : List ChartRow} {accounts : List Account}
  {rates : SetupRates} {db db' : Db}

theorem Ready.grown (h : Ready userId assetMap rows accounts db) (hgrown : db.Grown ids db') :
    Ready userId assetMap rows accounts db' where
  chart := h.chart.grown hgrown
  keys := hgrown.keys h.keys
  named s i hi := hgrown.asset (h.named s i hi)

theorem Db.Keys.findAccount (h : db.Keys) {a : Account} (ha : a ∈ db.accounts) :
    db.findAccount a.id = some a := by
  cases hfind : db.findAccount a.id with
  | none => exact absurd (List.find?_eq_none.mp hfind a ha) (by simp)
  | some b =>
    have hid := List.find?_some hfind
    simp only [decide_eq_true_eq] at hid
    rw [List.inj_on_of_nodup_map h.accounts (List.mem_of_find?_eq_some hfind) ha hid]

theorem Db.Keys.findAsset (h : db.Keys) {i : Uuid} {s : String}
    (hi : (i, s) ∈ db.assets.map Asset.ident) :
    ∃ asset, db.findAsset i = some asset ∧ asset.id = i ∧ asset.symbol = s := by
  obtain ⟨asset, ha, hident⟩ := List.mem_map.mp hi
  obtain ⟨rfl, rfl⟩ := Prod.mk.inj hident
  cases hfind : db.findAsset asset.id with
  | none => exact absurd (List.find?_eq_none.mp hfind asset ha) (by simp)
  | some b =>
    have hid := List.find?_some hfind
    simp only [decide_eq_true_eq] at hid
    have heq := List.inj_on_of_nodup_map h.assets (List.mem_of_find?_eq_some hfind) ha hid
    exact ⟨b, rfl, hid, by rw [heq]⟩

/-- The account of a code holds the unit of the code. -/
theorem Ready.account (h : Ready userId assetMap rows accounts db) {code : Nat} {unit : String}
    {i : Uuid} (hunit : ∀ row ∈ rows, row.code = code → row.unit = some unit)
    (hknown : (assetMap unit).isSome = true) (hi : accountAt accounts code = some i) :
    ∃ a ∈ db.accounts, a.id = i ∧ a.userId = some userId ∧ a.code = toString code ∧
      ∃ assetId, assetMap unit = some assetId ∧ a.assetId = some assetId ∧
        (assetId, unit) ∈ db.assets.map Asset.ident := by
  obtain ⟨row, hrow, hcode, a, ha, hid, hown, hacode, hasset⟩ := h.chart.own code i hi
  obtain ⟨assetId, hmap⟩ := Option.isSome_iff_exists.mp hknown
  have hheld := hasset unit (hunit row hrow hcode)
  exact ⟨a, ha, hid, hown, hacode, assetId, hmap, hheld.trans hmap, h.named unit assetId hmap⟩

theorem amountOf_ok {value : Option Decimal} {qty : Decimal} (h : amountOf value = .ok qty) :
    qty = value.getD 0 := by
  unfold amountOf at h
  split at h <;> cases h
  rfl

/-- A balance becomes a line on the account it was typed for. -/
theorem moneyLine_opens {code : Nat} {unit : String} {amount : Option Decimal} {rate : Decimal}
    {memo : String} {line : Option OpeningLine} (hready : Ready userId assetMap rows accounts db)
    (hunit : ∀ row ∈ rows, row.code = code → row.unit = some unit)
    (hknown : (assetMap unit).isSome = true)
    (h : (moneyLine (accountAt accounts code) amount rate memo).run db = .ok (line, db')) :
    db' = db ∧ Opens userId db [⟨unit, amount.getD 0, false⟩] line.toList := by
  unfold moneyLine at h
  obtain ⟨qty, db₁, h₁, k₁⟩ := Tx.run_bind_ok.mp h
  obtain ⟨hqty, rfl⟩ := Tx.run_ofExcept_ok.mp h₁
  rw [amountOf_ok hqty] at k₁
  split at k₁
  · rename_i hzero
    cases k₁
    exact ⟨rfl, opens_skipped hzero⟩
  rename_i hpos
  rw [not_le] at hpos
  split at k₁
  · cases k₁
  rename_i accountId hat
  obtain ⟨a, ha, rfl, hown, -, assetId, -, hheld, hident⟩ := hready.account hunit hknown hat
  obtain ⟨asset, hasset, hid, -⟩ := hready.keys.findAsset hident
  obtain ⟨⟨i, baseValue⟩, db₂, h₂, k₂⟩ := Tx.run_bind_ok.mp k₁
  cases k₂
  unfold bookUsdFromAccountNative at h₂
  rw [Tx.run_read_bind, hready.keys.findAccount ha, Option.bind_some, hheld, Option.bind_some,
    hasset] at h₂
  have hstate : db' = db₁ ∧ i = asset.id := by
    split at h₂
    · cases h₂
    · rename_i found hfound
      have heq : found = asset := by
        obtain ⟨hmem, -⟩ := Option.filter_eq_some_iff.mp hfound
        exact (Option.some.inj hmem).symm
      rw [heq] at h₂
      split at h₂
      · rw [Tx.run_require_bind] at h₂
        split at h₂ <;> cases h₂
        exact ⟨rfl, rfl⟩
      · cases h₂
        exact ⟨rfl, rfl⟩
  obtain ⟨rfl, rfl⟩ := hstate
  refine ⟨rfl, opens_line ⟨hpos, rfl, ⟨a, ha, rfl, hown, ?_⟩, ?_, rfl, by simp⟩⟩
  · rw [hheld, hid]
  · rw [hid]
    exact hident

/-- A holding becomes a line and a lot. -/
theorem holdingLine_for {a : Account} {assetId : Uuid} {unit : String} {qty price rate : Decimal}
    {openedAt : Option OpenedAt} {memo : String} (ha : a ∈ db.accounts) (hown : a.userId = some userId)
    (hheld : a.assetId = some assetId) (hident : (assetId, unit) ∈ db.assets.map Asset.ident)
    (hpos : 0 < qty) :
    LineFor userId db ⟨unit, qty, true⟩
      (holdingLine a.id assetId qty price rate openedAt memo) where
  positive := hpos
  quantity := rfl
  account := ⟨a, ha, rfl, hown, hheld⟩
  asset := hident
  lot := rfl
  opened lot hlot := by
    cases hlot
    exact ⟨rfl, rfl, rfl, rfl⟩

end Lines

/-! ## The loops -/

section Chart
variable {rules : SetupRules} {assetMap : String → Option Uuid} {plan : SetupPlan}

/-- Rows of one code are of one unit. -/
theorem chartRows_unitAt (hknown : rules.Known assetMap) (hplan : plan.Coded) {row : ChartRow}
    (h : row ∈ chartRows rules assetMap plan) : row.unit = plan.unitAt rules row.code := by
  rw [chartRows_congr hknown] at h
  exact chartRows_unit hplan h

theorem unit_of_unitAt (hknown : rules.Known assetMap) (hplan : plan.Coded) {code : Nat}
    {unit : String} (h : plan.unitAt rules code = some unit) :
    ∀ row ∈ chartRows rules assetMap plan, row.code = code → row.unit = some unit := by
  rintro row hrow rfl
  rw [chartRows_unitAt hknown hplan hrow, h]

theorem pick_mem_chartRows {pick : CryptoPick} (h : pick ∈ plan.crypto) :
    (⟨pick.code, holdingAccountName rules pick.coin.displayName pick.walletName, .asset,
      some pick.coin.symbol⟩ : ChartRow) ∈ chartRows rules assetMap plan := by
  unfold chartRows
  dsimp only
  rw [List.mem_append, List.mem_append, List.mem_append]
  exact .inl (.inl (.inr (List.mem_map.mpr ⟨pick, h, rfl⟩)))

theorem place_mem_chartRows {pick : TomanPick} (h : pick ∈ plan.places) :
    (⟨pick.code, holdingAccountName rules "تومان" pick.walletName, .asset, some "IRT"⟩ : ChartRow) ∈
      chartRows rules assetMap plan := by
  unfold chartRows
  dsimp only
  rw [List.mem_append, List.mem_append]
  exact .inl (.inr (List.mem_map.mpr ⟨pick, h, rfl⟩))

theorem fixed_mem_chartRows :
    (⟨1300, goldAccountName plan.input, .asset, some "GOLD18"⟩ : ChartRow) ∈
        chartRows rules assetMap plan ∧
      (⟨3010, "سرمایه افتتاحیه", .equity, some "USD"⟩ : ChartRow) ∈
        chartRows rules assetMap plan := by
  unfold chartRows
  dsimp only
  refine ⟨List.mem_append_right _ ?_, List.mem_append_right _ ?_⟩
  · exact List.mem_cons_self
  · exact .tail _ (.tail _ (.tail _ (.tail _ List.mem_cons_self)))

end Chart

section Loops
variable {rules : SetupRules} {ids : SetupIds} {userId : Uuid} {assetMap : String → Option Uuid}
  {plan : SetupPlan} {accounts : List Account} {rates : SetupRates} {db db' : Db}

theorem extraBankLine_opens (hknown : rules.Known assetMap) (hplan : plan.Coded)
    (hready : Ready userId assetMap (chartRows rules assetMap plan) accounts db)
    {bank : SetupBankAccount × Nat} (hbank : bank ∈ (additionalBanks plan).zipIdx)
    {line : Option OpeningLine}
    (h : (extraBankLine accounts rates bank).run db = .ok (line, db')) :
    db' = db ∧ Opens userId db [extraBankRow rules plan.input bank.1] line.toList := by
  have hget : (additionalBanks plan)[bank.2]? = some bank.1 :=
    List.mk_mem_zipIdx_iff_getElem?.mp hbank
  have hlt : bank.2 < (additionalBanks plan).length := (List.getElem?_eq_some_iff.mp hget).1
  have hlen := hplan.banks
  have hunit : plan.unitAt rules (1011 + bank.2) =
      some (bankUnitOf rules plan.input (some bank.1.bankName)) := by
    unfold SetupPlan.unitAt
    rw [if_neg (by omega), if_pos (by omega), Nat.add_sub_cancel_left, hget]
    rfl
  exact moneyLine_opens hready (unit_of_unitAt hknown hplan hunit)
    (hknown.money _ (bankUnitOf_mem _ _)) h

theorem placeLine_opens (hknown : rules.Known assetMap) (hplan : plan.Coded)
    (hready : Ready userId assetMap (chartRows rules assetMap plan) accounts db)
    {pick : TomanPick} (hpick : pick ∈ plan.places) {line : Option OpeningLine}
    (h : (placeLine rules accounts rates pick).run db = .ok (line, db')) :
    db' = db ∧ Opens userId db [pick.row] line.toList := by
  have hmem : _ ∈ chartRows rules assetMap plan := place_mem_chartRows hpick
  obtain ⟨i, hi⟩ := Option.isSome_iff_exists.mp (hready.chart.coded _ hmem)
  dsimp only at hi
  unfold placeLine at h
  rw [hi] at h
  dsimp only at h
  rw [← hi] at h
  have hunit := chartRows_unitAt hknown hplan hmem
  exact moneyLine_opens hready (unit_of_unitAt hknown hplan hunit.symm)
    (hknown.money _ (by decide)) h

theorem cryptoLine_opens (hknown : rules.Known assetMap) (hplan : plan.Coded)
    (hcoin : ∀ p ∈ plan.crypto, (assetMap p.coin.symbol).isSome = true)
    (hready : Ready userId assetMap (chartRows rules assetMap plan) accounts db)
    {pick : CryptoPick} (hpick : pick ∈ plan.crypto) {line : Option OpeningLine}
    (h : (cryptoLine assetMap accounts rates pick).run db = .ok (line, db')) :
    db' = db ∧ Opens userId db [⟨pick.coin.symbol, pick.holding.quantity.getD 0, true⟩]
      line.toList := by
  have hmem : _ ∈ chartRows rules assetMap plan := pick_mem_chartRows hpick
  have hunit := chartRows_unitAt hknown hplan hmem
  obtain ⟨i, hi⟩ := Option.isSome_iff_exists.mp (hready.chart.coded _ hmem)
  dsimp only at hi
  obtain ⟨a, ha, rfl, hown, -, assetId, hmap, hheld, hident⟩ := hready.account
    (unit_of_unitAt hknown hplan hunit.symm) (hcoin pick hpick) hi
  unfold cryptoLine at h
  obtain ⟨qty, db₁, h₁, k₁⟩ := Tx.run_bind_ok.mp h
  obtain ⟨hqty, rfl⟩ := Tx.run_ofExcept_ok.mp h₁
  rw [amountOf_ok hqty, hi, hmap] at k₁
  dsimp only at k₁
  split at k₁
  · rename_i hzero
    cases k₁
    exact ⟨rfl, opens_skipped hzero⟩
  · rename_i hpos
    obtain ⟨unitPrice, db₂, h₂, k₂⟩ := Tx.run_bind_ok.mp k₁
    obtain ⟨-, rfl⟩ := Tx.run_ofExcept_ok.mp h₂
    obtain ⟨price, db₃, h₃, k₃⟩ := Tx.run_bind_ok.mp k₂
    obtain ⟨-, rfl⟩ := Tx.run_ofExcept_ok.mp h₃
    cases k₃
    exact ⟨rfl, opens_line (holdingLine_for ha hown hheld hident (not_le.mp hpos))⟩

theorem goldLine_opens (hknown : rules.Known assetMap) (hplan : plan.Coded)
    (hgold : (assetMap "GOLD18").isSome = true)
    (hready : Ready userId assetMap (chartRows rules assetMap plan) accounts db)
    {price : Decimal} {line : Option OpeningLine}
    (h : (goldLine assetMap accounts rates plan.input price).run db = .ok (line, db')) :
    db' = db ∧ Opens userId db [goldRow plan.input] line.toList := by
  have hmem : _ ∈ chartRows rules assetMap plan := (fixed_mem_chartRows).1
  have hunit := chartRows_unitAt hknown hplan hmem
  obtain ⟨i, hi⟩ := Option.isSome_iff_exists.mp (hready.chart.coded _ hmem)
  dsimp only at hi
  obtain ⟨a, ha, rfl, hown, -, assetId, hmap, hheld, hident⟩ := hready.account
    (unit_of_unitAt hknown hplan hunit.symm) hgold hi
  unfold goldLine at h
  obtain ⟨qty, db₁, h₁, k₁⟩ := Tx.run_bind_ok.mp h
  obtain ⟨hqty, rfl⟩ := Tx.run_ofExcept_ok.mp h₁
  rw [amountOf_ok hqty, hi, hmap] at k₁
  dsimp only at k₁
  split at k₁
  · rename_i hzero
    cases k₁
    exact ⟨rfl, opens_skipped hzero⟩
  · rename_i hpos
    cases k₁
    exact ⟨rfl, opens_line (holdingLine_for ha hown hheld hident (not_le.mp hpos))⟩

end Loops

end Pwos
