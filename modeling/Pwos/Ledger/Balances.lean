import Pwos.Ledger.Spending
import Pwos.Lib.First

/-!
# What the accounts hold

Two queries of `features/ledger/queries.ts` show quantities, by account and by asset. The first
leaves out every line of an entry that names an asset which is gone, the second leaves out the
lines in such an asset. The overdraft guard of `postEntry` leaves out none
(`Db.nativeBalance`).
-/

namespace Pwos

/-- The accounts of the shared chart that every tenant sees. -/
def SHARED_CHART_CODES : List String :=
  ["1000", "1300", "1400", "1600", "1610", "1620", "2000", "3000", "3010", "3015", "3200", "4000",
   "4010", "4100", "4900", "5000", "5010", "5020", "5030", "5040", "5050", "5900", "5960"]

/-- `sum(case when je.status = 'posted' then … else 0 end)`, for one line. -/
def Db.counted (db : Db) (user : Option Uuid) (p : Posting) : Prop :=
  ∃ e ∈ db.journalEntries, e.id = p.entryId ∧ e.status = .posted ∧ InTenantScope user e

instance (db : Db) (user : Option Uuid) (p : Posting) : Decidable (db.counted user p) :=
  inferInstanceAs (Decidable (∃ e ∈ db.journalEntries, _))

/-! ## By account -/

/-- An account with one of its lines, or with none. -/
structure BalanceLine where
  account : Account
  asset : Option Asset
  quantity : Decimal
  baseValue : Decimal
  deriving DecidableEq, Repr

structure AccountBalance where
  accountId : Uuid
  code : String
  type : AccountType
  assetId : Option Uuid
  symbol : Option String
  quantity : Decimal
  baseValue : Decimal
  deriving DecidableEq, Repr

section Queries
variable (db : Db) (r : Reader)

def Db.shownAccounts : List Account :=
  db.accounts.filter fun a => a.deleted = false ∧
    (r.user = none ∨ a.userId = r.user ∨ a.userId = none ∧ a.code ∈ SHARED_CHART_CODES)

def Db.balanceLine (a : Account) (p : Posting) : BalanceLine :=
  { account := a, asset := db.findAsset p.assetId
    quantity := if db.counted r.user p then p.quantity else 0
    baseValue := if db.counted r.user p then p.baseValue else 0 }

/-- The lines of an account that are not hidden. Without one the account keeps a row, in its
own unit. -/
def Db.balanceLines (a : Account) : List BalanceLine :=
  match db.postings.filter
      fun p => p.accountId = a.id ∧ ¬ db.entryReferencesInactiveRwa p.entryId with
  | [] => [{ account := a, asset := a.assetId.bind db.findAsset, quantity := 0, baseValue := 0 }]
  | lines => lines.map (db.balanceLine r a)

def groupBalance (lines : List BalanceLine) (group : Account × Option Asset) : AccountBalance :=
  let own := lines.filter fun l => (l.account, l.asset) = group
  { accountId := group.1.id, code := group.1.code, type := group.1.type
    assetId := group.2.map (·.id), symbol := group.2.map (·.symbol)
    quantity := (own.map (·.quantity)).sum, baseValue := (own.map (·.baseValue)).sum }

def getAccountBalances : List AccountBalance :=
  if r.refused then []
  else
    let lines := ((db.shownAccounts r).flatMap (db.balanceLines r)).filter
      fun l => l.asset.all (!·.deleted)
    (lines.map fun l => (l.account, l.asset)).dedup.map (groupBalance lines)

/-! ## By asset -/

structure Holding where
  assetId : Uuid
  symbol : String
  quantity : Decimal
  costBase : Decimal
  price : Option Decimal
  deriving DecidableEq, Repr

/-- The line is on an asset account of the user's own. -/
def Db.onOwnAccount (p : Posting) : Prop :=
  ∃ a ∈ db.accounts, a.id = p.accountId ∧ a.type = .asset ∧ (r.user = none ∨ a.userId = r.user)

instance (p : Posting) : Decidable (db.onOwnAccount r p) :=
  inferInstanceAs (Decidable (∃ a ∈ db.accounts, _))

/-- The entry of the line is posted and the user's. An entry of nobody is not. -/
def Db.inHolding (p : Posting) : Prop :=
  ∃ e ∈ db.journalEntries, e.id = p.entryId ∧ e.status = .posted ∧
    (r.user = none ∨ e.userId = r.user)

instance (p : Posting) : Decidable (db.inHolding r p) :=
  inferInstanceAs (Decidable (∃ e ∈ db.journalEntries, _))

def Db.latestPrice (assetId : Uuid) : Option Decimal :=
  (firstBy (fun p q : Price => q.asOf ≤ p.asOf) (db.prices.filter (·.assetId = assetId))).map
    (·.priceBase)

/-- An asset with lines on other accounts only has no row. -/
def Db.holdingRow (x : Asset) : Option Holding :=
  let own := db.postings.filter fun p => p.assetId = x.id ∧ db.onOwnAccount r p
  if own = [] ∧ db.postings.any (·.assetId = x.id) then none
  else some
    { assetId := x.id, symbol := x.symbol
      quantity := (own.map fun p => if db.inHolding r p then p.quantity else 0).sum
      costBase := (own.map fun p => if db.inHolding r p then p.baseValue else 0).sum
      price := db.latestPrice x.id }

def getHoldings : List Holding :=
  if r.refused then []
  else (db.assets.filter fun x => ¬ db.isInactiveOrOrphanedRwaAsset x).filterMap (db.holdingRow r)

/-! ## What the views say of an account and of an asset -/

def Db.shownQuantity (accountId assetId : Uuid) : Decimal :=
  (((getAccountBalances db r).filter
    fun b => b.accountId = accountId ∧ b.assetId = some assetId).map (·.quantity)).sum

def Db.holdingQuantity (assetId : Uuid) : Decimal :=
  (((getHoldings db r).filter (·.assetId = assetId)).map (·.quantity)).sum

end Queries

/-- The asset is in the table, and neither deleted nor an orphan. -/
def Db.LiveAsset (db : Db) (assetId : Uuid) : Prop :=
  ∃ a ∈ db.assets, a.id = assetId ∧ ¬ db.isInactiveOrOrphanedRwaAsset a

instance (db : Db) (assetId : Uuid) : Decidable (db.LiveAsset assetId) :=
  inferInstanceAs (Decidable (∃ a ∈ db.assets, _))

/-- The live asset accounts of a user. -/
def Db.ownAccounts (db : Db) (u : Uuid) : List Account :=
  db.accounts.filter fun a => a.userId = some u ∧ a.type = .asset ∧ a.deleted = false

/-- Whatever the unit is: the balance of an account is what the guard reads, and the balances of
the accounts add up to the holding. -/
structure ViewsOfCashAgree (db : Db) (u : Uuid) : Prop where
  guard : ∀ a ∈ db.ownAccounts u, ∀ x, db.LiveAsset x →
    db.shownQuantity ⟨some u, false⟩ a.id x = db.nativeBalance (some u) a.id x
  holding : ∀ x, db.LiveAsset x →
    ((db.ownAccounts u).map fun a => db.shownQuantity ⟨some u, false⟩ a.id x).sum =
      db.holdingQuantity ⟨some u, false⟩ x

/-! ## Balance by balance -/

section Sums
variable {db : Db} {r : Reader} {u : Uuid} {a : Account} {x : Uuid}

theorem sum_filter_flatMap {α β : Type} (p : β → Bool) (g : β → Decimal) (f : α → List β)
    (xs : List α) : (((xs.flatMap f).filter p).map g).sum =
      (xs.map fun x => (((f x).filter p).map g).sum).sum := by
  induction xs with
  | nil => rfl
  | cons x xs ih =>
    rw [List.flatMap_cons, List.filter_append, List.map_append, List.sum_append, ih,
      List.map_cons, List.sum_cons]

/-- The rows of some groups count the lines of these groups. -/
theorem sum_groups (lines : List BalanceLine) (p : Account × Option Asset → Bool) :
    ((((lines.map fun l => (l.account, l.asset)).dedup.filter p).map fun k =>
      (groupBalance lines k).quantity)).sum =
      ((lines.filter fun l => p (l.account, l.asset)).map (·.quantity)).sum := by
  have hnodup := (List.nodup_dedup (lines.map fun l => (l.account, l.asset))).filter p
  have hgroup := sum_group hnodup (fun l => (l.account, l.asset)) (·.quantity) lines
  unfold groupBalance
  rw [← hgroup]
  congr 2
  apply List.filter_congr
  intro l hl
  have hmem : (l.account, l.asset) ∈ lines.map fun l => (l.account, l.asset) :=
    List.mem_map_of_mem hl
  simp only [List.mem_filter, List.mem_dedup, hmem, true_and, Bool.decide_eq_true]

theorem Db.LiveAsset.find (h : db.LiveAsset x) (hids : (db.assets.map (·.id)).Nodup) :
    ∃ row, db.findAsset x = some row ∧ row.deleted = false := by
  obtain ⟨row, hrow, rfl, hlive⟩ := h
  have hfind : db.findAsset row.id = some row := by
    cases hother : db.findAsset row.id with
    | none =>
      have hnone := List.find?_eq_none.mp hother row hrow
      simp at hnone
    | some other =>
      have hid := List.find?_some hother
      simp only [decide_eq_true_eq] at hid
      rw [List.inj_on_of_nodup_map hids (List.mem_of_find?_eq_some hother) hrow hid]
  refine ⟨row, hfind, ?_⟩
  rw [← Bool.not_eq_true]
  exact fun hdel => hlive (.inl hdel)

/-- The lines of an account in a live asset. -/
theorem sum_balanceLines (hids : (db.assets.map (·.id)).Nodup) (hx : db.LiveAsset x) :
    (((db.balanceLines r a).filter fun l =>
        l.asset.all (!·.deleted) && decide (l.asset.map (·.id) = some x)).map (·.quantity)).sum =
      ((db.postings.filter fun p => p.accountId = a.id ∧ ¬ db.entryReferencesInactiveRwa p.entryId ∧
        p.assetId = x ∧ db.counted r.user p).map (·.quantity)).sum := by
  obtain ⟨row, hrow, hlive⟩ := hx.find hids
  have hline (p : Posting) : (((db.findAsset p.assetId).all (!·.deleted)) &&
      decide ((db.findAsset p.assetId).map (·.id) = some x)) = decide (p.assetId = x) := by
    by_cases hp : p.assetId = x
    · have hid := List.find?_some hrow
      simp_all
    · cases hfind : db.findAsset p.assetId with
      | none => simp [hp]
      | some other =>
        have hid := List.find?_some hfind
        simp_all
  have hsplit : db.postings.filter (fun p => p.accountId = a.id ∧
      ¬ db.entryReferencesInactiveRwa p.entryId ∧ p.assetId = x ∧ db.counted r.user p) =
      ((db.postings.filter fun p => p.accountId = a.id ∧
        ¬ db.entryReferencesInactiveRwa p.entryId).filter (·.assetId = x)).filter
          (db.counted r.user ·) := by
    rw [List.filter_filter, List.filter_filter]
    apply List.filter_congr
    intro p _
    grind
  rw [hsplit]
  unfold Db.balanceLines
  split
  · rename_i hnone
    rw [hnone]
    apply List.sum_eq_zero
    intro q hq
    obtain ⟨l, hl, rfl⟩ := List.mem_map.mp hq
    rw [List.mem_singleton.mp (List.mem_filter.mp hl).1]
  · rw [List.filter_map, List.map_map, sum_filter_eq_ite (db.counted r.user ·)]
    have hcond : ((fun l : BalanceLine => l.asset.all (!·.deleted) &&
        decide (l.asset.map (·.id) = some x)) ∘ db.balanceLine r a) =
          fun p => decide (p.assetId = x) := funext hline
    rw [hcond]
    congr 1
    apply List.map_congr_left
    intro p _
    simp only [Function.comp_apply, Db.balanceLine, decide_eq_true_eq]

theorem account_of_balanceLine {b : Account} {l : BalanceLine} (h : l ∈ db.balanceLines r b) :
    l.account = b := by
  unfold Db.balanceLines at h
  split at h
  · rw [List.mem_singleton.mp h]
  · obtain ⟨p, -, rfl⟩ := List.mem_map.mp h
    rfl

/-- The balance of an own account in a live asset. -/
theorem shownQuantity_eq (haccounts : (db.accounts.map (·.id)).Nodup)
    (hassets : (db.assets.map (·.id)).Nodup) (ha : a ∈ db.ownAccounts u) (hx : db.LiveAsset x) :
    db.shownQuantity ⟨some u, false⟩ a.id x =
      ((db.postings.filter fun p => p.accountId = a.id ∧ ¬ db.entryReferencesInactiveRwa p.entryId ∧
        p.assetId = x ∧ db.counted (some u) p).map (·.quantity)).sum := by
  obtain ⟨hmem, hown⟩ := List.mem_filter.mp ha
  simp only [decide_eq_true_eq] at hown
  have hshown : a ∈ db.shownAccounts ⟨some u, false⟩ :=
    List.mem_filter.mpr ⟨hmem, by simp [hown.1, hown.2.2]⟩
  have hkeys : ((db.shownAccounts ⟨some u, false⟩).map (·.id)).Nodup :=
    haccounts.sublist (List.filter_sublist.map _)
  -- only the lines of the account itself count
  have haccount : ∀ b ∈ db.shownAccounts ⟨some u, false⟩,
      (((db.balanceLines ⟨some u, false⟩ b).filter fun l =>
        decide (l.account.id = a.id ∧ l.asset.map (·.id) = some x) &&
          l.asset.all (!·.deleted)).map (·.quantity)).sum =
      if a.id = b.id then ((db.postings.filter fun p => p.accountId = a.id ∧
        ¬ db.entryReferencesInactiveRwa p.entryId ∧ p.assetId = x ∧
          db.counted (some u) p).map (·.quantity)).sum else 0 := by
    intro b hb
    by_cases hid : a.id = b.id
    · have hsame : b = a := List.inj_on_of_nodup_map haccounts (List.mem_of_mem_filter hb) hmem
        hid.symm
      subst hsame
      have hlines := @sum_balanceLines db ⟨some u, false⟩ b x hassets hx
      rw [if_pos rfl]
      refine Eq.trans ?_ hlines
      congr 2
      apply List.filter_congr
      intro l hl
      rw [account_of_balanceLine hl]
      grind
    · rw [if_neg hid]
      apply sum_filter_eq_zero
      intro l hl
      rw [account_of_balanceLine hl]
      grind
  have hrefused : Reader.refused ⟨some u, false⟩ = false := rfl
  unfold Db.shownQuantity getAccountBalances
  rw [hrefused, if_neg Bool.false_ne_true, List.filter_map, List.map_map]
  refine (sum_groups _ fun k => decide (k.1.id = a.id ∧ k.2.map (·.id) = some x)).trans ?_
  rw [List.filter_filter, sum_filter_flatMap, List.map_congr_left haccount]
  have hkey : a.id ∈ (db.shownAccounts ⟨some u, false⟩).map (·.id) := List.mem_map_of_mem hshown
  refine Eq.trans ?_ (sum_ite_eq_single hkeys hkey _)
  rw [List.map_map]
  rfl

/-- The quantity of the row of an asset, if it has one. -/
theorem holdingRow_quantity (b : Asset) :
    ((db.holdingRow r b).map (·.quantity)).getD 0 =
      ((db.postings.filter fun p => p.assetId = b.id ∧ db.onOwnAccount r p ∧
        db.inHolding r p).map (·.quantity)).sum := by
  have hsplit : db.postings.filter (fun p => p.assetId = b.id ∧ db.onOwnAccount r p ∧
      db.inHolding r p) =
      (db.postings.filter fun p => p.assetId = b.id ∧ db.onOwnAccount r p).filter
        (db.inHolding r ·) := by
    rw [List.filter_filter]
    apply List.filter_congr
    intro p _
    grind
  rw [hsplit, sum_filter_eq_ite]
  unfold Db.holdingRow
  dsimp only
  split
  · rename_i hnone
    rw [hnone.1]
    rfl
  · simp only [decide_eq_true_eq, Option.map_some, Option.getD_some]

/-- The holding in a live asset. -/
theorem holdingQuantity_eq (hassets : (db.assets.map (·.id)).Nodup) (hx : db.LiveAsset x) :
    db.holdingQuantity ⟨some u, false⟩ x =
      ((db.postings.filter fun p => p.assetId = x ∧ db.onOwnAccount ⟨some u, false⟩ p ∧
        db.inHolding ⟨some u, false⟩ p).map (·.quantity)).sum := by
  have hrows (as : List Asset) :
      (((as.filterMap (db.holdingRow ⟨some u, false⟩)).filter (·.assetId = x)).map
        (·.quantity)).sum = (as.map fun b => if x = b.id then
          ((db.holdingRow ⟨some u, false⟩ b).map (·.quantity)).getD 0 else 0).sum := by
    induction as with
    | nil => rfl
    | cons b as ih =>
      rw [List.map_cons, List.sum_cons, ← ih]
      cases hrow : db.holdingRow ⟨some u, false⟩ b with
      | none => simp [hrow]
      | some h =>
        have hid : h.assetId = b.id := by
          unfold Db.holdingRow at hrow
          dsimp only at hrow
          split at hrow <;> cases hrow
          rfl
        rw [List.filterMap_cons_some hrow, sum_filter_cons, hid]
        simp [eq_comm]
  have hrefused : Reader.refused ⟨some u, false⟩ = false := rfl
  have hkeys : ((db.assets.filter fun b => ¬ db.isInactiveOrOrphanedRwaAsset b).map
      (·.id)).Nodup := hassets.sublist (List.filter_sublist.map _)
  obtain ⟨row, hrow, rfl, hlive⟩ := hx
  have hkey : row.id ∈ (db.assets.filter fun b => ¬ db.isInactiveOrOrphanedRwaAsset b).map
      (·.id) := List.mem_map_of_mem (List.mem_filter.mpr ⟨hrow, by simpa using hlive⟩)
  unfold Db.holdingQuantity getHoldings
  rw [hrefused, if_neg Bool.false_ne_true, hrows]
  refine Eq.trans ?_ (sum_ite_eq_single hkeys hkey _)
  rw [List.map_map]
  congr 1
  apply List.map_congr_left
  intro b _
  by_cases hid : row.id = b.id
  · simp only [Function.comp_apply, holdingRow_quantity, hid]
  · simp only [Function.comp_apply, if_neg hid]

/-- While no line of an own account in a live asset is hidden, and its entry is somebody's, the
views agree. -/
theorem viewsOfCash_agree (haccounts : (db.accounts.map (·.id)).Nodup)
    (hassets : (db.assets.map (·.id)).Nodup)
    (hlive : ∀ b ∈ db.accounts, b.userId = some u → b.deleted = false)
    (hnamed : ∀ e ∈ db.journalEntries, e.userId ≠ none)
    (hshown : ∀ p ∈ db.postings, db.counted (some u) p → db.onOwnAccount ⟨some u, false⟩ p →
      db.LiveAsset p.assetId → ¬ db.entryReferencesInactiveRwa p.entryId) :
    ViewsOfCashAgree db u := by
  have hown : ∀ b ∈ db.ownAccounts u, ∀ p : Posting, p.accountId = b.id →
      db.onOwnAccount ⟨some u, false⟩ p := by
    intro b hb p hp
    obtain ⟨hmem, hkind⟩ := List.mem_filter.mp hb
    simp only [decide_eq_true_eq] at hkind
    exact ⟨b, hmem, hp.symm, hkind.2.1, .inr hkind.1⟩
  have hcounted : ∀ p, db.counted (some u) p ↔ db.inHolding ⟨some u, false⟩ p := by
    intro p
    simp only [Db.counted, Db.inHolding, InTenantScope]
    grind
  constructor
  · intro b hb x hx
    rw [shownQuantity_eq haccounts hassets hb hx]
    unfold Db.nativeBalance Db.livePostings
    rw [List.filter_filter]
    congr 2
    apply List.filter_congr
    intro p hp
    have hvisible := hshown p hp
    have hline := hown b hb p
    unfold Db.counted at hvisible ⊢
    grind
  · intro x hx
    have hkeys : ((db.ownAccounts u).map (·.id)).Nodup :=
      haccounts.sublist (List.filter_sublist.map _)
    have hgroup := sum_group hkeys (·.accountId) (·.quantity)
      (db.postings.filter fun p => ¬ db.entryReferencesInactiveRwa p.entryId ∧ p.assetId = x ∧
        db.counted (some u) p)
    rw [holdingQuantity_eq hassets hx]
    have hbalance : ∀ b ∈ db.ownAccounts u, db.shownQuantity ⟨some u, false⟩ b.id x =
        (((db.postings.filter fun p => ¬ db.entryReferencesInactiveRwa p.entryId ∧
          p.assetId = x ∧ db.counted (some u) p).filter
            fun p => decide (p.accountId = b.id)).map (·.quantity)).sum := by
      intro b hb
      rw [shownQuantity_eq haccounts hassets hb hx, List.filter_filter]
      congr 2
      apply List.filter_congr
      intro p _
      grind
    rw [List.map_congr_left hbalance]
    have hsum := hgroup.symm
    rw [List.map_map] at hsum
    refine hsum.trans ?_
    rw [List.filter_filter]
    congr 2
    apply List.filter_congr
    intro p hp
    have hvisible := hshown p hp
    have hsame := hcounted p
    have hkey : p.accountId ∈ (db.ownAccounts u).map (·.id) ↔
        db.onOwnAccount ⟨some u, false⟩ p := by
      constructor
      · intro hmem
        obtain ⟨b, hb, hid⟩ := List.mem_map.mp hmem
        exact hown b hb p hid.symm
      · rintro ⟨b, hb, hid, hasset, huser⟩
        have huser : b.userId = some u := by simpa using huser
        exact List.mem_map.mpr ⟨b, List.mem_filter.mpr ⟨hb, by simp [huser, hasset,
          hlive b hb huser]⟩, hid⟩
    have hx' : p.assetId = x → db.LiveAsset p.assetId := fun h => h ▸ hx
    grind

end Sums

end Pwos
