import Mathlib.Data.Set.Function
import Pwos.Lib.Triple
import Pwos.Setup.OpeningRows
import Pwos.Setup.SetupGrows

/-!
# The chart the setup works with

After the assets are made sure of, every symbol the chart needs has one; after the chart is filled,
every code of it has an account of the user, and where the accounts that were there already fit
their rows every account holds the unit of its row.
-/

namespace Pwos

/-! ## Assets -/

/-- The ids drawn for new assets are new, and differ. -/
structure SetupIds.Fresh (ids : SetupIds) (db : Db) : Prop where
  injective : Function.Injective ids.asset
  fresh : ∀ a ∈ db.assets, ∀ symbol, a.id ≠ ids.asset symbol

/-- An id drawn for a symbol is of an asset of this symbol. -/
def Db.Drawn (db : Db) (ids : SetupIds) : Prop :=
  ∀ a ∈ db.assets, ∀ symbol, a.id = ids.asset symbol → a.symbol = symbol

/-- The asset that stands for the symbol is live, and has this id. -/
def Db.LastLive (db : Db) (symbol : String) (i : Uuid) : Prop :=
  (db.assetNamed symbol).any fun a => a.id = i && !a.deleted

instance (db : Db) (symbol : String) (i : Uuid) : Decidable (db.LastLive symbol i) :=
  inferInstanceAs (Decidable (_ = true))

section Assets
variable {rules : SetupRules} {ids : SetupIds} {db db' : Db}

theorem SetupIds.Fresh.drawn (h : ids.Fresh db) : db.Drawn ids :=
  fun a ha symbol hid => absurd hid (h.fresh a ha symbol)

theorem Db.Drawn.grown (hd : db.Drawn ids) (hinj : Function.Injective ids.asset)
    (h : db.Grown ids db') : db'.Drawn ids := by
  intro a ha symbol hid
  rcases h.drawn a ha with hold | hnew
  · obtain ⟨b, hb, hident⟩ := List.mem_map.mp hold
    obtain ⟨hbid, hbsymbol⟩ := Prod.mk.inj hident
    exact hbsymbol ▸ hd b hb symbol (hbid.trans hid)
  · exact hinj (hnew.symm.trans hid)

theorem assetMap_isSome {symbol : String} :
    (db.assetMap symbol).isSome = true ↔ ∃ a ∈ db.assets, a.symbol = symbol := by
  unfold Db.assetMap Db.assetNamed
  simp

theorem assetMap_ident {symbol : String} {i : Uuid} (h : db.assetMap symbol = some i) :
    (i, symbol) ∈ db.assets.map Asset.ident := by
  unfold Db.assetMap Db.assetNamed at h
  obtain ⟨a, ha, rfl⟩ := Option.map_eq_some_iff.mp h
  have hsymbol := List.find?_some ha
  simp only [decide_eq_true_eq] at hsymbol
  refine List.mem_map.mpr ⟨a, ?_, by rw [← hsymbol]; rfl⟩
  exact List.mem_reverse.mp (List.mem_of_find?_eq_some ha)

theorem Db.Grown.symbol (h : db.Grown ids db') {symbol : String}
    (hs : ∃ a ∈ db.assets, a.symbol = symbol) : ∃ a ∈ db'.assets, a.symbol = symbol := by
  obtain ⟨a, ha, rfl⟩ := hs
  obtain ⟨b, hb, hident⟩ := List.mem_map.mp (h.asset (List.mem_map_of_mem ha))
  exact ⟨b, hb, (Prod.mk.inj hident).2⟩

/-- A required symbol has an asset afterwards. -/
theorem insertRequiredAsset_symbol {row : String × String} (hgecko : rules.coingeckoTaken row.1 = false)
    (hd : db.Drawn ids) {a : Unit}
    (h : (insertRequiredAsset rules ids row).run db = .ok (a, db')) :
    ∃ a ∈ db'.assets, a.symbol = row.1 := by
  unfold insertRequiredAsset at h
  rw [Tx.run_write] at h
  split at h
  · rename_i hskip
    cases h
    rcases hskip with ⟨a, ha, hsymbol, -⟩ | htaken | ⟨a, ha, hid⟩
    · exact ⟨a, ha, hsymbol⟩
    · exact absurd (hgecko.symm.trans htaken) Bool.false_ne_true
    · exact ⟨a, ha, hd a ha row.1 hid⟩
  · cases h
    exact ⟨_, List.mem_append_right _ (List.mem_singleton.mpr rfl), rfl⟩

theorem insertRequiredAssets_symbols {rows : List (String × String)}
    (hgecko : ∀ row ∈ rows, rules.coingeckoTaken row.1 = false)
    (hinj : Function.Injective ids.asset) (hd : db.Drawn ids) {a : Unit}
    (h : (Tx.each rows (insertRequiredAsset rules ids)).run db = .ok (a, db')) :
    ∀ row ∈ rows, ∃ a ∈ db'.assets, a.symbol = row.1 := by
  induction rows generalizing db with
  | nil => exact fun _ hrow => absurd hrow List.not_mem_nil
  | cons row rows ih =>
    obtain ⟨u, db₁, h₁, k₁⟩ := Tx.run_bind_ok.mp h
    have hd₁ := hd.grown hinj (grows_insertRequiredAsset rules row db u db₁ h₁)
    have hrest : db₁.Grown ids db' :=
      grows_each (fun x _ => grows_insertRequiredAsset rules x) db₁ a db' k₁
    intro row' hrow'
    rcases List.mem_cons.mp hrow' with rfl | hrow'
    · exact hrest.symbol (insertRequiredAsset_symbol (hgecko _ List.mem_cons_self) hd h₁)
    · exact ih (fun x hx => hgecko x (List.mem_cons_of_mem _ hx)) hd₁ k₁ row' hrow'

/-! ### What stays as it is -/

theorem keeps_accounts_insertRequiredAsset {as : List Account} (row : String × String) :
    (insertRequiredAsset rules ids row).Keeps (fun db : Db => db.accounts = as) := by
  refine Tx.triple_write fun db h => ?_
  split <;> exact h

theorem restored_accounts (is : List Uuid) (db : Db) :
    (applyAll (is.map Write.restoreAsset) db).accounts = db.accounts := by
  induction is generalizing db with
  | nil => rfl
  | cons i is ih => exact ih _

theorem keeps_accounts_reviveSymbol {as : List Account} (symbol : String) :
    (reviveSymbol symbol).Keeps (fun db : Db => db.accounts = as) := by
  refine Tx.triple_insert fun db h _ => ?_
  rw [reviveSymbol_writes, restored_accounts]
  exact h

theorem lastLive_iff {symbol : String} {i : Uuid} : db.LastLive symbol i ↔
    ∃ a, db.assetNamed symbol = some a ∧ a.id = i ∧ a.deleted = false := by
  unfold Db.LastLive
  cases db.assetNamed symbol <;> simp

theorem lastLive_insertAsset {symbol : String} {i : Uuid} (h : db.LastLive symbol i) {a : Asset}
    (ha : ¬ db.SymbolTaken a.symbol) :
    (Writable.apply (Write.insertAsset a) db : Db).LastLive symbol i := by
  have hne : a.symbol ≠ symbol := by
    rintro rfl
    obtain ⟨b, hb, -, hlive⟩ := lastLive_iff.mp h
    have hfound : db.assets.reverse.find? (·.symbol = a.symbol) = some b := hb
    have hsymbol := List.find?_some hfound
    simp only [decide_eq_true_eq] at hsymbol
    exact ha ⟨b, List.mem_reverse.mp (List.mem_of_find?_eq_some hfound), hsymbol, hlive⟩
  have hsame : (Writable.apply (Write.insertAsset a) db : Db).assetNamed symbol =
      db.assetNamed symbol := by
    show (db.assets ++ [a]).reverse.find? _ = _
    rw [List.reverse_append, List.reverse_singleton, List.singleton_append,
      List.find?_cons_of_neg (by simpa using hne)]
    rfl
  unfold Db.LastLive
  rwa [hsame]

theorem restored_symbol (i : Uuid) (a : Asset) : (a.restored i).symbol = a.symbol :=
  congrArg Prod.snd (restored_ident i a)

theorem lastLive_restoreAsset {symbol : String} {i : Uuid} (h : db.LastLive symbol i) (j : Uuid) :
    (Writable.apply (Write.restoreAsset j) db : Db).LastLive symbol i := by
  have hsame : (Writable.apply (Write.restoreAsset j) db : Db).assetNamed symbol =
      (db.assetNamed symbol).map (Asset.restored j) := by
    show (db.assets.map (Asset.restored j)).reverse.find? _ = _
    rw [← List.map_reverse, List.find?_map]
    refine congrArg (Option.map _) (congrArg (fun p => List.find? p _) (funext fun a => ?_))
    rw [Function.comp_apply, restored_symbol]
  obtain ⟨a, ha, hid, hlive⟩ := lastLive_iff.mp h
  refine lastLive_iff.mpr ⟨a.restored j, by rw [hsame, ha]; rfl, ?_⟩
  unfold Asset.restored
  split
  · exact ⟨hid, rfl⟩
  · exact ⟨hid, hlive⟩

theorem keeps_lastLive_insertRequiredAsset {symbol : String} {i : Uuid} (row : String × String) :
    (insertRequiredAsset rules ids row).Keeps (fun db : Db => db.LastLive symbol i) := by
  refine Tx.triple_write fun db h => ?_
  split
  · exact h
  · rename_i hfree
    exact lastLive_insertAsset h fun htaken => hfree (.inl htaken)

theorem keeps_lastLive_reviveSymbol {symbol : String} {i : Uuid} (name : String) :
    (reviveSymbol name).Keeps (fun db : Db => db.LastLive symbol i) := by
  refine Tx.triple_insert fun db h hone => ?_
  clear hone
  rw [reviveSymbol_writes]
  generalize (db.assets.filter (·.symbol = name)).map (·.id) = is
  induction is generalizing db with
  | nil => exact h
  | cons j is ih => exact ih _ (lastLive_restoreAsset h j)

/-- What the first steps of the transaction leave: every required symbol has an asset, and a live one
stays the one that counts. -/
theorem requiredAssets_ok (hfresh : ids.Fresh db)
    (hgecko : ∀ row ∈ requiredAssets rules, rules.coingeckoTaken row.1 = false) {a b : Unit}
    {db₁ db₂ : Db}
    (h₁ : (Tx.each (requiredAssets rules) (insertRequiredAsset rules ids)).run db = .ok (a, db₁))
    (h₂ : (Tx.each ["USDT", "BTC", "ETH"] reviveSymbol).run db₁ = .ok (b, db₂)) :
    db.Grown ids db₂ ∧ db₂.accounts = db.accounts ∧
      (∀ row ∈ requiredAssets rules, (db₂.assetMap row.1).isSome = true) ∧
      ∀ symbol i, db.LastLive symbol i → db₂.assetMap symbol = some i := by
  have hgrown₁ : db.Grown ids db₁ :=
    grows_each (fun row _ => grows_insertRequiredAsset rules row) db a db₁ h₁
  have hgrown₂ : db₁.Grown ids db₂ := grows_each (fun s _ => grows_reviveSymbol s) db₁ b db₂ h₂
  refine ⟨hgrown₁.trans hgrown₂, ?_, ?_, ?_⟩
  · have hfirst : db₁.accounts = db.accounts :=
      Tx.keeps_each (fun row _ => keeps_accounts_insertRequiredAsset row) db a db₁ rfl h₁
    exact Tx.keeps_each (fun s _ => keeps_accounts_reviveSymbol s) db₁ b db₂ hfirst h₂
  · intro row hrow
    have hsymbols := insertRequiredAssets_symbols hgecko hfresh.injective hfresh.drawn h₁
    exact assetMap_isSome.mpr (hgrown₂.symbol (hsymbols row hrow))
  · intro symbol i hlive
    have hlive₁ : db₁.LastLive symbol i :=
      Tx.keeps_each (fun row _ => keeps_lastLive_insertRequiredAsset row) db a db₁ hlive h₁
    have hlive₂ : db₂.LastLive symbol i :=
      Tx.keeps_each (fun s _ => keeps_lastLive_reviveSymbol s) db₁ b db₂ hlive₁ h₂
    obtain ⟨asset, hasset, rfl, -⟩ := lastLive_iff.mp hlive₂
    unfold Db.assetMap
    rw [hasset]
    rfl

/-- The symbols the chart is made of are among the required ones. -/
theorem known_of_required {assetMap : String → Option Uuid}
    (h : ∀ row ∈ requiredAssets rules, (assetMap row.1).isSome = true) :
    rules.Known assetMap ∧ (assetMap "GOLD18").isSome = true := by
  refine ⟨⟨?_, ?_⟩, ?_⟩
  · intro c hc
    by_cases hlisted : c.symbol ∈ ["BTC", "ETH", "USDT"]
    · simp only [List.mem_cons, List.not_mem_nil, or_false] at hlisted
      rcases hlisted with hs | hs | hs <;> rw [hs]
      · exact h ("BTC", "crypto") (by simp [requiredAssets])
      · exact h ("ETH", "crypto") (by simp [requiredAssets])
      · exact h ("USDT", "stable") (by simp [requiredAssets])
    · refine h (c.symbol, c.classCode) ?_
      unfold requiredAssets
      refine List.mem_append_left _ (List.mem_append_right _ (List.mem_map.mpr ⟨c, ?_, rfl⟩))
      exact List.mem_filter.mpr ⟨hc, by simpa using hlisted⟩
  · intro s hs
    simp only [SETUP_MONEY_SYMBOLS, List.mem_cons, List.not_mem_nil, or_false] at hs
    rcases hs with rfl | rfl | rfl
    · exact h ("IRT", "cash") (by simp [requiredAssets])
    · exact h ("USD", "cash") (by simp [requiredAssets])
    · exact h ("USDT", "stable") (by simp [requiredAssets])
  · exact h ("GOLD18", "gold") (by simp [requiredAssets])

end Assets

/-! ## Accounts -/

theorem code_injective {n k : Nat} (h : (toString n : String) = toString k) : n = k := by
  have hdigits := congrArg (fun s : String => Nat.ofDigitChars 10 s.toList 0) h
  simpa only [Nat.toString_eq_repr, Nat.toList_repr, Nat.ofDigitChars_ten_toDigits] using hdigits

/-- The accounts the user has already hold the live assets their rows of the chart ask for. -/
def Db.ChartFits (db : Db) (userId : Uuid) (rows : List ChartRow) : Prop :=
  ∀ a ∈ db.accounts, a.userId = some userId → ∀ row ∈ rows, a.code = toString row.code →
    ∀ unit ∈ row.unit, ∃ i ∈ a.assetId.toList, db.LastLive unit i

instance (db : Db) (userId : Uuid) (rows : List ChartRow) : Decidable (db.ChartFits userId rows) :=
  inferInstanceAs (Decidable (∀ a ∈ db.accounts, a.userId = some userId → ∀ row ∈ rows,
    a.code = toString row.code → ∀ unit ∈ row.unit, ∃ i ∈ a.assetId.toList, db.LastLive unit i))

/-- Every account of the chart holds the unit of its row. -/
def Db.ChartHolds (db : Db) (userId : Uuid) (assetMap : String → Option Uuid)
    (rows : List ChartRow) : Prop :=
  ∀ a ∈ db.accounts, a.userId = some userId → ∀ row ∈ rows, a.code = toString row.code →
    ∀ unit ∈ row.unit, a.assetId = assetMap unit

section Chart
variable {rules : SetupRules} {env : Env} {ids : SetupIds} {userId : Uuid}
  {assetMap : String → Option Uuid} {rows : List ChartRow} {db db' : Db}

theorem Db.ChartFits.holds (h : db.ChartFits userId rows) {db₂ : Db}
    (haccounts : db₂.accounts = db.accounts)
    (hlive : ∀ symbol i, db.LastLive symbol i → db₂.assetMap symbol = some i) :
    db₂.ChartHolds userId db₂.assetMap rows := by
  intro a ha hown row hrow hcode unit hunit
  rw [haccounts] at ha
  obtain ⟨i, hi, hlast⟩ := h a ha hown row hrow hcode unit hunit
  rw [hlive unit i hlast]
  exact Option.mem_toList.mp hi

/-- A row of the chart is skipped where the user has an account of its code, and else becomes an
account of its unit. -/
theorem fillChartRow_ok {row : ChartRow} {a : Unit}
    (h : (fillChartRow env ids userId assetMap row).run db = .ok (a, db')) :
    (db' = db ∧ ∃ b ∈ db.accounts, b.userId = some userId ∧ b.code = toString row.code) ∨
      ∃ b : Account, db' = { db with accounts := db.accounts ++ [b] } ∧ db.Grown ids db' ∧
        b.userId = some userId ∧ b.code = toString row.code ∧ b.assetId = row.unit.bind assetMap := by
  have hcoded {found : Account} (hf : db.accountCoded userId (toString row.code) = some found) :
      ∃ b ∈ db.accounts, b.userId = some userId ∧ b.code = toString row.code := by
    have hmem : db.accounts.find? _ = some found := hf
    have hkey := List.find?_some hmem
    simp only [decide_eq_true_eq] at hkey
    exact ⟨found, List.mem_of_find?_eq_some hmem, hkey⟩
  unfold fillChartRow at h
  dsimp only at h
  rw [Tx.run_read_bind] at h
  cases hexisting : db.accountCoded userId (toString row.code) with
  | some found =>
    rw [hexisting] at h
    cases h
    exact .inl ⟨rfl, hcoded hexisting⟩
  | none =>
    rw [hexisting] at h
    obtain ⟨created, db₁, h₁, k₁⟩ := Tx.run_bind_ok.mp h
    rcases insertAccountOnConflictDoNothing_ok ids h₁ with
      ⟨rfl, rfl, -⟩ | ⟨rfl, hdb₁, hgrown⟩
    · rw [Tx.run_read_bind, Tx.run_require, hexisting] at k₁
      cases k₁
    · cases k₁
      exact .inr ⟨_, hdb₁, hgrown, rfl, rfl, rfl⟩

theorem grows_fillChartRow (row : ChartRow) : Grows ids (fillChartRow env ids userId assetMap row) := by
  intro db a db' h
  rcases fillChartRow_ok h with ⟨rfl, -⟩ | ⟨b, -, hgrown, -⟩
  · exact .refl _
  · exact hgrown

theorem keeps_chartHolds_fillChartRow {row : ChartRow}
    (hunits : ∀ r ∈ rows, r.code = row.code → r.unit = row.unit) :
    (fillChartRow env ids userId assetMap row).Keeps (·.ChartHolds userId assetMap rows) := by
  intro db u db' hholds hrun
  rcases fillChartRow_ok hrun with ⟨rfl, -⟩ | ⟨b, rfl, -, -, hcode, hasset⟩
  · exact hholds
  · intro a ha hown r hr hacode unit hunit
    rcases List.mem_append.mp ha with ha | ha
    · exact hholds a ha hown r hr hacode unit hunit
    · rw [List.mem_singleton.mp ha] at hacode ⊢
      have heq := hunits r hr (code_injective (hacode.symm.trans hcode))
      rw [heq] at hunit
      rw [hasset, Option.mem_def.mp hunit]
      rfl

theorem fillChartRows_coded {xs : List ChartRow} {a : Unit}
    (h : (Tx.each xs (fillChartRow env ids userId assetMap)).run db = .ok (a, db')) :
    ∀ row ∈ xs, ∃ b ∈ db'.accounts, b.userId = some userId ∧ b.code = toString row.code := by
  induction xs generalizing db with
  | nil => exact fun _ hrow => absurd hrow List.not_mem_nil
  | cons x xs ih =>
    obtain ⟨u, db₁, h₁, k₁⟩ := Tx.run_bind_ok.mp h
    have hrest : db₁.Grown ids db' :=
      grows_each (fun row _ => grows_fillChartRow row) db₁ a db' k₁
    intro row hrow
    rcases List.mem_cons.mp hrow with rfl | hrow
    · rcases fillChartRow_ok h₁ with ⟨rfl, b, hb, hkey⟩ | ⟨b, hdb₁, -, hown, hcode, -⟩
      · exact ⟨b, hrest.account hb, hkey⟩
      · refine ⟨b, hrest.account ?_, hown, hcode⟩
        rw [hdb₁]
        exact List.mem_append_right _ (List.mem_singleton.mpr rfl)
    · exact ih k₁ row hrow

/-! ## The chart, filled -/

/-- The accounts of the chart that the lines are posted to. -/
structure ChartOpened (userId : Uuid) (assetMap : String → Option Uuid) (rows : List ChartRow)
    (accounts : List Account) (db : Db) : Prop where
  coded : ∀ row ∈ rows, (accountAt accounts row.code).isSome = true
  own : ∀ code i, accountAt accounts code = some i →
    ∃ row ∈ rows, row.code = code ∧ ∃ a ∈ db.accounts, a.id = i ∧ a.userId = some userId ∧
      a.code = toString code ∧ ∀ unit ∈ row.unit, a.assetId = assetMap unit

theorem ChartOpened.grown {accounts : List Account} (h : ChartOpened userId assetMap rows accounts db)
    (hgrown : db.Grown ids db') : ChartOpened userId assetMap rows accounts db' where
  coded := h.coded
  own code i hi := by
    obtain ⟨row, hrow, hcode, a, ha, hrest⟩ := h.own code i hi
    exact ⟨row, hrow, hcode, a, hgrown.account ha, hrest⟩

theorem mem_chartAccounts {a : Account} : a ∈ db.chartAccounts userId rows ↔
    a ∈ db.accounts ∧ a.userId = some userId ∧ ∃ row ∈ rows, toString row.code = a.code := by
  simp [Db.chartAccounts]

theorem chartAccounts_opened (hholds : db.ChartHolds userId assetMap rows)
    (hcoded : ∀ row ∈ rows, ∃ b ∈ db.accounts, b.userId = some userId ∧ b.code = toString row.code) :
    ChartOpened userId assetMap rows (db.chartAccounts userId rows) db where
  coded row hrow := by
    obtain ⟨b, hb, hown, hcode⟩ := hcoded row hrow
    have hmem := mem_chartAccounts.mpr ⟨hb, hown, row, hrow, hcode.symm⟩
    unfold accountAt
    rw [Option.isSome_map, List.find?_isSome]
    exact ⟨b, List.mem_reverse.mpr hmem, by simpa using hcode⟩
  own code i hi := by
    unfold accountAt at hi
    obtain ⟨a, ha, rfl⟩ := Option.map_eq_some_iff.mp hi
    have hcode := List.find?_some ha
    simp only [decide_eq_true_eq] at hcode
    obtain ⟨hmem, hown, row, hrow, hrowcode⟩ :=
      mem_chartAccounts.mp (List.mem_reverse.mp (List.mem_of_find?_eq_some ha))
    refine ⟨row, hrow, code_injective (hrowcode.trans hcode), a, hmem, rfl, hown, hcode, ?_⟩
    exact hholds a hmem hown row hrow hrowcode.symm

theorem openChart_ok {plan : SetupPlan} {accounts : List Account}
    (hunits : ∀ r ∈ chartRows rules assetMap plan, ∀ r' ∈ chartRows rules assetMap plan,
      r.code = r'.code → r.unit = r'.unit)
    (hholds : db.ChartHolds userId assetMap (chartRows rules assetMap plan))
    (h : (openChart rules env ids userId assetMap plan).run db = .ok (accounts, db')) :
    (∃ u, (Tx.each (chartRows rules assetMap plan) (fillChartRow env ids userId assetMap)).run db =
        .ok (u, db')) ∧
      ChartOpened userId assetMap (chartRows rules assetMap plan) accounts db' := by
  unfold openChart at h
  obtain ⟨u, db₁, h₁, k₁⟩ := Tx.run_bind_ok.mp h
  rw [Tx.run_read_bind] at k₁
  obtain ⟨v, db₂, h₂, k₂⟩ := Tx.run_bind_ok.mp k₁
  obtain ⟨-, rfl⟩ := Tx.run_ofExcept_ok.mp h₂
  rw [Tx.run_require_bind] at k₂
  split at k₂
  · cases k₂
    refine ⟨⟨u, h₁⟩, chartAccounts_opened ?_ (fillChartRows_coded h₁)⟩
    exact Tx.keeps_each (fun row hrow => keeps_chartHolds_fillChartRow
      fun r hr => hunits r hr row hrow) db u _ hholds h₁
  · cases k₂

end Chart

end Pwos
