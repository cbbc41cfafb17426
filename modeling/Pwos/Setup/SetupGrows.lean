import Pwos.Setup.OpeningRows
import Pwos.Ledger.CommandRuns
import Pwos.Rwa.Bought

/-!
# The rows the setup adds

Before anything is posted the setup adds accounts and assets and revives assets. Nothing is taken
away, and nothing else is touched.
-/

namespace Pwos

/-! ## Programs that add accounts and assets -/

/-- The primary keys. -/
structure Db.Keys (db : Db) : Prop where
  accounts : (db.accounts.map (·.id)).Nodup
  assets : (db.assets.map (·.id)).Nodup
  lots : (db.lots.map (·.id)).Nodup

/-- What never changes of an asset. -/
def Asset.ident (a : Asset) : Uuid × String := (a.id, a.symbol)

/-- Accounts and assets were added, the assets under the ids drawn for their symbols, and assets
revived; nothing else changed. -/
structure Db.Grown (ids : SetupIds) (db db' : Db) : Prop where
  accounts : db.accounts <+: db'.accounts
  assets : db.assets.map Asset.ident <+: db'.assets.map Asset.ident
  drawn : ∀ a ∈ db'.assets, a.ident ∈ db.assets.map Asset.ident ∨ a.id = ids.asset a.symbol
  keys : db.Keys → db'.Keys
  rest : db' = { db with accounts := db'.accounts, assets := db'.assets }

section Grown
variable {ids : SetupIds} {db db' db'' : Db}

theorem Db.Grown.refl (db : Db) : db.Grown ids db where
  accounts := List.prefix_rfl
  assets := List.prefix_rfl
  drawn _ ha := .inl (List.mem_map_of_mem ha)
  keys h := h
  rest := rfl

theorem Db.Grown.trans (h : db.Grown ids db') (h' : db'.Grown ids db'') : db.Grown ids db'' where
  accounts := h.accounts.trans h'.accounts
  assets := h.assets.trans h'.assets
  drawn a ha := by
    rcases h'.drawn a ha with hold | hnew
    · obtain ⟨b, hb, hident⟩ := List.mem_map.mp hold
      obtain ⟨hid, hsymbol⟩ := Prod.mk.inj hident
      rw [← hident, ← hid, ← hsymbol]
      exact h.drawn b hb
    · exact .inr hnew
  keys hk := h'.keys (h.keys hk)
  rest := by rw [h'.rest, h.rest]

theorem Db.Grown.account (h : db.Grown ids db') {a : Account} (ha : a ∈ db.accounts) :
    a ∈ db'.accounts := h.accounts.subset ha

theorem Db.Grown.asset (h : db.Grown ids db') {i : Uuid × String}
    (hi : i ∈ db.assets.map Asset.ident) : i ∈ db'.assets.map Asset.ident := h.assets.subset hi

theorem nodup_snoc {α : Type} {f : α → Uuid} {xs : List α} {x : α} (h : (xs.map f).Nodup)
    (hx : ∀ y ∈ xs, f y ≠ f x) : ((xs ++ [x]).map f).Nodup := by
  rw [List.map_append, List.nodup_append]
  refine ⟨h, List.nodup_singleton _, ?_⟩
  intro i hi j hj
  obtain ⟨y, hy, rfl⟩ := List.mem_map.mp hi
  rw [List.mem_singleton.mp hj]
  exact hx y hy

theorem grown_insertAccount {a : Account} (h : ∀ b ∈ db.accounts, b.id ≠ a.id) :
    db.Grown ids (Writable.apply (Write.insertAccount a) db) where
  accounts := List.prefix_append _ _
  assets := List.prefix_rfl
  drawn _ hb := .inl (List.mem_map_of_mem hb)
  keys hk := ⟨nodup_snoc hk.accounts h, hk.assets, hk.lots⟩
  rest := rfl

theorem grown_insertAsset {symbol classCode : String}
    (h : ∀ b ∈ db.assets, b.id ≠ ids.asset symbol) :
    db.Grown ids
      (Writable.apply (Write.insertAsset { id := ids.asset symbol, symbol, classCode }) db) where
  accounts := List.prefix_rfl
  assets := by
    show _ <+: (db.assets ++ [_]).map Asset.ident
    rw [List.map_append]
    exact List.prefix_append _ _
  drawn b hb := by
    rcases List.mem_append.mp hb with hb | hb
    · exact .inl (List.mem_map_of_mem hb)
    · rw [List.mem_singleton.mp hb]
      exact .inr rfl
  keys hk := ⟨hk.accounts, nodup_snoc hk.assets h, hk.lots⟩
  rest := rfl

def Asset.restored (i : Uuid) (a : Asset) : Asset :=
  if a.id = i then { a with deleted := false } else a

theorem restored_ident (i : Uuid) (a : Asset) : (a.restored i).ident = a.ident := by
  unfold Asset.restored
  split <;> rfl

theorem restored_idents (i : Uuid) (as : List Asset) :
    (as.map (Asset.restored i)).map Asset.ident = as.map Asset.ident := by
  rw [List.map_map]
  exact List.map_congr_left fun a _ => restored_ident i a

theorem grown_restoreAsset (i : Uuid) :
    db.Grown ids (Writable.apply (Write.restoreAsset i) db) where
  accounts := List.prefix_rfl
  assets := by
    show _ <+: (db.assets.map (Asset.restored i)).map Asset.ident
    rw [restored_idents]
  drawn b hb := by
    obtain ⟨a, ha, rfl⟩ := List.mem_map.mp hb
    exact .inl (List.mem_map.mpr ⟨a, ha, (restored_ident i a).symm⟩)
  keys hk := by
    refine ⟨hk.accounts, ?_, hk.lots⟩
    show ((db.assets.map (Asset.restored i)).map (·.id)).Nodup
    rw [List.map_map]
    have hids : db.assets.map ((·.id) ∘ Asset.restored i) = db.assets.map (·.id) :=
      List.map_congr_left fun a _ => congrArg Prod.fst (restored_ident i a)
    rw [hids]
    exact hk.assets
  rest := rfl

theorem grown_restored (is : List Uuid) :
    db.Grown ids (applyAll (is.map Write.restoreAsset) db) := by
  induction is generalizing db with
  | nil => exact .refl db
  | cons i is ih => exact (grown_restoreAsset i).trans ih

end Grown

/-- A run that succeeds only adds accounts and assets. -/
def Grows (ids : SetupIds) {α : Type} (p : Sql α) : Prop :=
  ∀ db a db', p.run db = .ok (a, db') → db.Grown ids db'

section Grows
variable {α β : Type} {ids : SetupIds} {p : Sql α}

theorem Tx.ReadOnly.grows (h : p.ReadOnly) : Grows ids p := by
  intro db a db' hrun
  rw [h.run_state hrun]
  exact .refl db

theorem Grows.bind {f : α → Sql β} (hp : Grows ids p) (hf : ∀ a, Grows ids (f a)) :
    Grows ids (p >>= f) := by
  intro db b db' hrun
  obtain ⟨a, db₁, h, k⟩ := Tx.run_bind_ok.mp hrun
  exact (hp db a db₁ h).trans (hf a db₁ b db' k)

theorem grows_each {xs : List α} {f : α → Sql Unit} (h : ∀ x ∈ xs, Grows ids (f x)) :
    Grows ids (Tx.each xs f) := by
  induction xs with
  | nil => exact (Tx.readOnly_done ()).grows
  | cons x xs ih =>
    exact (h x List.mem_cons_self).bind fun _ => ih fun y hy => h y (List.mem_cons_of_mem _ hy)

theorem grows_insertRequiredAsset (rules : SetupRules) (row : String × String) :
    Grows ids (insertRequiredAsset rules ids row) := by
  intro db a db' hrun
  unfold insertRequiredAsset at hrun
  rw [Tx.run_write] at hrun
  split at hrun
  · cases hrun
    exact .refl db
  · rename_i hfree
    cases hrun
    exact grown_insertAsset fun b hb hid => hfree (.inr (.inr ⟨b, hb, hid⟩))

theorem reviveSymbol_writes (db : Db) (symbol : String) :
    ((db.assets.filter (·.symbol = symbol)).map fun a => Write.restoreAsset a.id) =
      ((db.assets.filter (·.symbol = symbol)).map (·.id)).map Write.restoreAsset := by
  rw [List.map_map]
  rfl

theorem grows_reviveSymbol (symbol : String) : Grows ids (reviveSymbol symbol) := by
  intro db a db' hrun
  unfold reviveSymbol at hrun
  rw [Tx.run_insert] at hrun
  split at hrun
  · cases hrun
    rw [reviveSymbol_writes]
    exact grown_restored _
  · cases hrun

theorem grows_reviveAsset (asset : Asset) : Grows ids (reviveAsset asset) := by
  intro db a db' hrun
  unfold reviveAsset at hrun
  rw [Tx.run_insert] at hrun
  split at hrun
  · cases hrun
    exact grown_restoreAsset _
  · cases hrun

theorem grows_insertNewAsset (symbol classCode : String) :
    Grows ids (insertNewAsset { id := ids.asset symbol, symbol, classCode }) := by
  intro db a db' hrun
  unfold insertNewAsset at hrun
  rw [Tx.run_insert] at hrun
  split at hrun
  · rename_i hfree
    cases hrun
    exact grown_insertAsset hfree.2
  · cases hrun

/-- The account was inserted, or its code is taken. -/
theorem insertAccountOnConflictDoNothing_ok (ids : SetupIds) {a : Account} {found : Option Account} {db db' : Db}
    (h : (insertAccountOnConflictDoNothing a).run db = .ok (found, db')) :
    (found = none ∧ db' = db ∧ db.CodeTaken a.userId a.code) ∨
      (found = some a ∧ db' = { db with accounts := db.accounts ++ [a] } ∧ db.Grown ids db') := by
  unfold insertAccountOnConflictDoNothing at h
  rw [Tx.run_stmt] at h
  by_cases htaken : db.CodeTaken a.userId a.code
  · rw [if_pos htaken, if_pos (.inl htaken)] at h
    cases h
    exact .inl ⟨rfl, rfl, htaken⟩
  · rw [if_neg htaken] at h
    by_cases hid : ∃ b ∈ db.accounts, b.id = a.id
    · rw [if_pos hid] at h
      cases h
    · rw [if_neg hid, if_neg (not_or.mpr ⟨htaken, hid⟩)] at h
      cases h
      exact .inr ⟨rfl, rfl, grown_insertAccount fun b hb heq => hid ⟨b, hb, heq⟩⟩

theorem grows_insertAccount (a : Account) : Grows ids (insertAccountOnConflictDoNothing a) := by
  intro db found db' hrun
  rcases insertAccountOnConflictDoNothing_ok ids hrun with ⟨-, rfl, -⟩ | ⟨-, -, hgrown⟩
  · exact .refl _
  · exact hgrown

end Grows

end Pwos
