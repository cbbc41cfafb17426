import Pwos.Setup.CompleteSetup

/-!
# The rows the user typed

What the wizard is asked to open (`SetupInput.openingRows`), and how the picks and the chart of
accounts are made of it: every coin and every place has a code, and every code one unit.
-/

namespace Pwos

/-- A row of the wizard with a positive amount: money, or a holding that opens a lot. -/
structure OpeningRow where
  unit : String
  amount : Decimal
  holding : Bool
  deriving DecidableEq, Repr

section Rows
variable (rules : SetupRules)

def bankRows (input : SetupInput) : List OpeningRow :=
  if input.noBank then []
  else match input.bankAccounts with
    | some rows => rows.map fun bank =>
      ⟨bankUnitOf rules { input with bankAssetSymbol := some "IRT" } (some bank.bankName),
        bank.balance, false⟩
    | none => [⟨bankUnitOf rules input input.bankName, input.bankOpeningBalance.getD 0, false⟩]

def cashRow (input : SetupInput) : OpeningRow :=
  ⟨resolveMoneyDenomination input.cashAssetSymbol, input.cashOpeningBalance.getD 0, false⟩

/-- Of a place with a name. -/
def placeRow (place : TomanPlace) : Option OpeningRow :=
  if rules.canonicalWalletName place.walletName = "" then none
  else some ⟨"IRT", place.balance.getD 0, false⟩

/-- Of a supported coin. -/
def cryptoRow (h : CryptoHolding) : Option OpeningRow :=
  (rules.coinOf h.symbol).map fun coin => ⟨coin.symbol, h.quantity.getD 0, true⟩

def goldRow (input : SetupInput) : OpeningRow := ⟨"GOLD18", input.goldOpeningQty.getD 0, true⟩

/-- Of an instrument with a symbol. -/
def instrumentRow (i : SetupInstrument) : Option OpeningRow :=
  let symbol := trimText i.symbol
  if symbol = "" then none
  else some ⟨if i.kind = .wallex then upper (trimText symbol) else symbol, i.quantity.getD 0, true⟩

/-- The rows the opening entry is about, in its order. -/
def SetupInput.openingRows (input : SetupInput) : List OpeningRow :=
  (bankRows rules input ++ [cashRow input] ++ input.tomanPlaces.filterMap (placeRow rules) ++
    input.holdings.filterMap (cryptoRow rules) ++ [goldRow input] ++
    input.instruments.filterMap instrumentRow).filter (0 < ·.amount)

end Rows

/-! ## Coins -/

/-- Every symbol has an asset. -/
def anyAsset : String → Option Uuid := fun _ => some 0

section Crypto
variable {rules : SetupRules} {assetMap : String → Option Uuid}

/-- Where every coin has an asset, which one it is does not matter. -/
theorem cryptoPicksFrom_congr (h : ∀ c ∈ rules.coins, (assetMap c.symbol).isSome = true)
    (hs : List CryptoHolding) (seen : List ((String × String) × Nat)) (count : Nat) :
    cryptoPicksFrom rules assetMap hs seen count = cryptoPicksFrom rules anyAsset hs seen count := by
  have hcoin (symbol : String) :
      ((rules.coinOf symbol).filter fun c => (assetMap c.symbol).isSome) =
        (rules.coinOf symbol).filter fun c => (anyAsset c.symbol).isSome := by
    unfold SetupRules.coinOf
    cases hfind : rules.coins.find? (·.symbol = upper (trimText symbol)) with
    | none => rfl
    | some c => simp [Option.filter, h c (List.mem_of_find?_eq_some hfind), anyAsset]
  induction hs generalizing seen count with
  | nil => rfl
  | cons x hs ih =>
    unfold cryptoPicksFrom
    rw [hcoin]
    simp only [ih]

/-- The codes given so far: distinct keys, in the order of their codes. -/
structure CodesGiven (seen : List ((String × String) × Nat)) : Prop where
  codes : seen.map (·.2) = (List.range seen.length).map (CRYPTO_CODE_BASE + ·)

theorem lookup_code {seen : List ((String × String) × Nat)} (h : CodesGiven seen)
    {key : String × String} {code : Nat} (hl : seen.lookup key = some code) :
    (key, code) ∈ seen ∧ code < CRYPTO_CODE_BASE + seen.length := by
  have hmem : (key, code) ∈ seen := by
    obtain ⟨l₁, l₂, rfl, -⟩ := List.lookup_eq_some_iff.mp hl
    simp
  refine ⟨hmem, ?_⟩
  have hcode : code ∈ seen.map (·.2) := List.mem_map.mpr ⟨_, hmem, rfl⟩
  rw [h.codes] at hcode
  obtain ⟨i, hi, rfl⟩ := List.mem_map.mp hcode
  have := List.mem_range.mp hi
  omega

theorem CodesGiven.nodup {seen : List ((String × String) × Nat)} (h : CodesGiven seen) :
    (seen.map (·.2)).Nodup := by
  rw [h.codes]
  exact List.nodup_range.map fun a b hab => Nat.add_left_cancel hab

theorem CodesGiven.snoc {seen : List ((String × String) × Nat)} (h : CodesGiven seen)
    (key : String × String) : CodesGiven (seen ++ [(key, CRYPTO_CODE_BASE + seen.length)]) where
  codes := by
    rw [List.map_append, h.codes, List.length_append, List.length_singleton, List.range_succ,
      List.map_append]
    rfl

/-- What the loop makes of the holdings: one pick for each of a supported coin, with the code of
its key. -/
theorem cryptoPicksFrom_spec {hs : List CryptoHolding} {seen : List ((String × String) × Nat)}
    {count : Nat} {picks : List CryptoPick} (hseen : CodesGiven seen) (hcount : seen.length ≤ count)
    (h : cryptoPicksFrom rules anyAsset hs seen count = .ok picks) :
    picks.map (fun p => (p.coin, p.holding)) =
        hs.filterMap (fun x => (rules.coinOf x.symbol).map (·, x)) ∧
      (∀ p ∈ picks, CRYPTO_CODE_BASE ≤ p.code ∧ p.code < CRYPTO_CODE_BASE + MAX_CRYPTO_WALLETS) ∧
      ∃ more, CodesGiven (seen ++ more) ∧
        ∀ p ∈ picks, ∃ place, ((p.coin.symbol, place), p.code) ∈ seen ++ more := by
  induction hs generalizing seen count picks with
  | nil =>
    cases h
    refine ⟨rfl, by simp, [], by rwa [List.append_nil], by simp⟩
  | cons x hs ih =>
    unfold cryptoPicksFrom at h
    have hany : ((rules.coinOf x.symbol).filter fun c => (anyAsset c.symbol).isSome) =
        rules.coinOf x.symbol := by
      cases rules.coinOf x.symbol <;> rfl
    rw [hany] at h
    cases hcoin : rules.coinOf x.symbol with
    | none =>
      rw [hcoin] at h
      rw [List.filterMap_cons_none (by rw [hcoin]; rfl)]
      exact ih hseen hcount h
    | some coin =>
      rw [hcoin] at h
      dsimp only at h
      rw [List.filterMap_cons_some (b := (coin, x)) (by rw [hcoin]; rfl)]
      generalize hkey : rules.holdingKeyOf coin.symbol (rules.canonicalWalletName x.walletName) = key
        at h
      have hsymbol : key = (coin.symbol, key.2) := by
        rw [← hkey]
        rfl
      split at h
      · cases h
      split at h
      · cases h
      rename_i hdup hfull
      rw [not_le] at hfull
      cases hl : seen.lookup key with
      | some code =>
        rw [hl] at h
        simp only [Option.isSome_some, if_true, Option.getD_some] at h
        cases hrest : cryptoPicksFrom rules anyAsset hs seen (count + 1) with
        | error e =>
          rw [hrest] at h
          cases h
        | ok rest =>
          rw [hrest] at h
          cases h
          obtain ⟨hmap, hcodes, more, hmore, hin⟩ := ih hseen (by omega) hrest
          obtain ⟨hmem, hlt⟩ := lookup_code hseen hl
          have hlow : CRYPTO_CODE_BASE ≤ code := by
            have hcode : code ∈ seen.map (·.2) := List.mem_map.mpr ⟨_, hmem, rfl⟩
            rw [hseen.codes] at hcode
            obtain ⟨i, -, rfl⟩ := List.mem_map.mp hcode
            omega
          refine ⟨by rw [List.map_cons, hmap], ?_, more, hmore, ?_⟩
          · intro p hp
            rcases List.mem_cons.mp hp with rfl | hp
            · exact ⟨hlow, by dsimp only; omega⟩
            · exact hcodes p hp
          · intro p hp
            rcases List.mem_cons.mp hp with rfl | hp
            · exact ⟨key.2, List.mem_append_left _ (hsymbol ▸ hmem)⟩
            · exact hin p hp
      | none =>
        rw [hl] at h
        simp only [Option.isSome_none, Bool.false_eq_true, if_false, Option.getD_none] at h
        cases hrest : cryptoPicksFrom rules anyAsset hs
            (seen ++ [(key, CRYPTO_CODE_BASE + seen.length)]) (count + 1) with
        | error e =>
          rw [hrest] at h
          cases h
        | ok rest =>
          rw [hrest] at h
          cases h
          obtain ⟨hmap, hcodes, more, hmore, hin⟩ := ih (hseen.snoc key) (by simpa using hcount) hrest
          rw [List.append_assoc] at hmore hin
          refine ⟨by rw [List.map_cons, hmap], ?_, _, hmore, ?_⟩
          · intro p hp
            rcases List.mem_cons.mp hp with rfl | hp
            · exact ⟨Nat.le_add_right _ _, by dsimp only; omega⟩
            · exact hcodes p hp
          · intro p hp
            rcases List.mem_cons.mp hp with rfl | hp
            · exact ⟨key.2, by rw [← hsymbol]; simp⟩
            · exact hin p hp

/-- Picks of one code are of one coin. -/
theorem cryptoPicks_coin {input : SetupInput} {picks : List CryptoPick}
    (h : cryptoPicks rules anyAsset input = .ok picks) {p q : CryptoPick} (hp : p ∈ picks)
    (hq : q ∈ picks) (hcode : p.code = q.code) : p.coin.symbol = q.coin.symbol := by
  have hnone : CodesGiven [] := ⟨rfl⟩
  obtain ⟨-, -, more, hmore, hin⟩ := cryptoPicksFrom_spec hnone le_rfl h
  obtain ⟨k, hk⟩ := hin p hp
  obtain ⟨k', hk'⟩ := hin q hq
  rw [← hcode] at hk'
  have heq := List.inj_on_of_nodup_map hmore.nodup hk hk' rfl
  exact congrArg (·.1.1) heq

end Crypto

/-! ## Places -/

section Places
variable {rules : SetupRules}

/-- The places that hold Toman are few: their keys are in a list of at most fifty. -/
def SetupRules.FewPlaces (rules : SetupRules) (keys : List String) : Prop :=
  keys.length ≤ 50 ∧ ∀ name, rules.holdsToman name = true → rules.walletKeyOf name ∈ keys

/-- No row with money is of a place that was named before. -/
def PlacesOnce (rules : SetupRules) (places : List TomanPlace) : Prop :=
  (places.filter fun p => rules.canonicalWalletName p.walletName ≠ "").Pairwise fun p q =>
    0 < q.balance.getD 0 →
      rules.walletKeyOf (rules.canonicalWalletName p.walletName) ≠
        rules.walletKeyOf (rules.canonicalWalletName q.walletName)

instance (places : List TomanPlace) : Decidable (PlacesOnce rules places) :=
  inferInstanceAs (Decidable (List.Pairwise _ _))

def TomanPick.row (p : TomanPick) : OpeningRow := ⟨"IRT", p.balance.getD 0, false⟩

theorem tomanPlacePicksFrom_spec {keys : List String} (hkeys : rules.FewPlaces keys)
    {ps : List TomanPlace} {seen : List String} {picks : List TomanPick} (hnodup : seen.Nodup)
    (hsub : seen ⊆ keys) (honce : PlacesOnce rules ps)
    (hnew : ∀ p ∈ ps, rules.canonicalWalletName p.walletName ≠ "" → 0 < p.balance.getD 0 →
      rules.walletKeyOf (rules.canonicalWalletName p.walletName) ∉ seen)
    (h : tomanPlacePicksFrom rules ps seen = .ok picks) :
    (picks.map TomanPick.row).filter (0 < ·.amount) =
        (ps.filterMap (placeRow rules)).filter (0 < ·.amount) ∧
      ∀ p ∈ picks, 1500 + seen.length ≤ p.code ∧ p.code < 1550 := by
  induction ps generalizing seen picks with
  | nil =>
    cases h
    exact ⟨rfl, by simp⟩
  | cons x ps ih =>
    unfold tomanPlacePicksFrom at h
    dsimp only at h
    have hnew' : ∀ p ∈ ps, rules.canonicalWalletName p.walletName ≠ "" → 0 < p.balance.getD 0 →
        rules.walletKeyOf (rules.canonicalWalletName p.walletName) ∉ seen :=
      fun p hp => hnew p (List.mem_cons_of_mem _ hp)
    split at h
    · rename_i hblank
      have hrow : placeRow rules x = none := if_pos hblank
      have honce' : PlacesOnce rules ps := by
        unfold PlacesOnce at honce
        rwa [List.filter_cons_of_neg (by simpa using hblank)] at honce
      rw [List.filterMap_cons_none hrow]
      exact ih hnodup hsub honce' hnew' h
    · rename_i hname
      have hrow : placeRow rules x = some ⟨"IRT", x.balance.getD 0, false⟩ := if_neg hname
      unfold PlacesOnce at honce
      rw [List.filter_cons_of_pos (by simpa using hname)] at honce
      obtain ⟨hfirst, honce'⟩ := List.pairwise_cons.mp honce
      split at h
      · cases h
      rename_i hholds
      have hkey := hkeys.2 _ (by simpa using hholds)
      rw [List.filterMap_cons_some hrow]
      split at h
      · -- named before: nothing is lost, for there is nothing on it
        rename_i hin
        have hzero : ¬ 0 < x.balance.getD 0 :=
          fun hpos => hnew x List.mem_cons_self hname hpos hin
        rw [List.filter_cons_of_neg (by simpa using hzero)]
        exact ih hnodup hsub honce' hnew' h
      · rename_i hnin
        have hnodup' : (seen ++ [rules.walletKeyOf (rules.canonicalWalletName x.walletName)]).Nodup :=
          List.nodup_append.mpr ⟨hnodup, List.nodup_singleton _, by
            intro a ha b hb hab
            rw [List.mem_singleton.mp hb] at hab
            exact hnin (hab ▸ ha)⟩
        have hsub' : seen ++ [rules.walletKeyOf (rules.canonicalWalletName x.walletName)] ⊆ keys := by
          intro k hk
          rcases List.mem_append.mp hk with hk | hk
          · exact hsub hk
          · rw [List.mem_singleton.mp hk]
            exact hkey
        have hfew : seen.length + 1 ≤ 50 := by
          have hle := (hnodup'.subperm hsub').length_le
          rw [List.length_append, List.length_singleton] at hle
          exact hle.trans hkeys.1
        split at h
        · omega
        cases hrest : tomanPlacePicksFrom rules ps
            (seen ++ [rules.walletKeyOf (rules.canonicalWalletName x.walletName)]) with
        | error e =>
          rw [hrest] at h
          cases h
        | ok rest =>
          rw [hrest] at h
          cases h
          have hlater : ∀ p ∈ ps, rules.canonicalWalletName p.walletName ≠ "" →
              0 < p.balance.getD 0 → rules.walletKeyOf (rules.canonicalWalletName p.walletName) ∉
                seen ++ [rules.walletKeyOf (rules.canonicalWalletName x.walletName)] := by
            intro p hp hpname hpos hin
            rcases List.mem_append.mp hin with hin | hin
            · exact hnew' p hp hpname hpos hin
            · have hmem : p ∈ ps.filter fun p => rules.canonicalWalletName p.walletName ≠ "" :=
                List.mem_filter.mpr ⟨hp, by simpa using hpname⟩
              exact hfirst p hmem hpos (List.mem_singleton.mp hin).symm
          obtain ⟨hrows, hcodes⟩ := ih hnodup' hsub' honce' hlater hrest
          rw [List.length_append, List.length_singleton] at hcodes
          refine ⟨?_, ?_⟩
          · rw [List.map_cons, List.filter_cons, List.filter_cons, hrows]
            rfl
          · intro p hp
            rcases List.mem_cons.mp hp with rfl | hp
            · dsimp only
              omega
            · have := hcodes p hp
              omega

end Places

/-! ## The plan -/

section Plan
variable {rules : SetupRules} {assetMap : String → Option Uuid}

/-- The symbols the setup makes sure of have assets. -/
structure SetupRules.Known (rules : SetupRules) (assetMap : String → Option Uuid) : Prop where
  coins : ∀ c ∈ rules.coins, (assetMap c.symbol).isSome = true
  money : ∀ s ∈ SETUP_MONEY_SYMBOLS, (assetMap s).isSome = true

theorem known_anyAsset : rules.Known anyAsset := ⟨fun _ _ => rfl, fun _ _ => rfl⟩

theorem setupPlan_congr (h : rules.Known assetMap) (input : SetupInput)
    (listed : List SetupBankAccount) :
    setupPlan rules assetMap input listed = setupPlan rules anyAsset input listed := by
  unfold setupPlan cryptoPicks
  rw [cryptoPicksFrom_congr h.coins]

theorem resolveMoneyDenomination_mem (explicit : Option String) :
    resolveMoneyDenomination explicit ∈ SETUP_MONEY_SYMBOLS := by
  unfold resolveMoneyDenomination
  dsimp only
  split_ifs with h
  · exact h
  · decide

theorem bankUnitOf_mem (input : SetupInput) (bankName : Option String) :
    bankUnitOf rules input bankName ∈ SETUP_MONEY_SYMBOLS := by
  unfold bankUnitOf
  split
  · decide
  · exact resolveMoneyDenomination_mem _

theorem moneyUnit_eq (h : rules.Known assetMap) {unit : String}
    (hunit : unit ∈ SETUP_MONEY_SYMBOLS) : moneyUnit assetMap unit = unit :=
  if_pos (h.money unit hunit)

theorem chartRows_congr (h : rules.Known assetMap) (plan : SetupPlan) :
    chartRows rules assetMap plan = chartRows rules anyAsset plan := by
  have hany : rules.Known anyAsset := known_anyAsset
  unfold chartRows
  simp only [moneyUnit_eq h (bankUnitOf_mem _ _), moneyUnit_eq h (resolveMoneyDenomination_mem _),
    moneyUnit_eq hany (bankUnitOf_mem _ _), moneyUnit_eq hany (resolveMoneyDenomination_mem _)]

/-- A plan whose codes are in their ranges and name one coin each. -/
structure SetupPlan.Coded (plan : SetupPlan) : Prop where
  banks : (additionalBanks plan).length ≤ 9
  crypto : ∀ p ∈ plan.crypto, 1200 ≤ p.code ∧ p.code < 1300
  coin : ∀ p ∈ plan.crypto, ∀ q ∈ plan.crypto, p.code = q.code → p.coin.symbol = q.coin.symbol
  places : ∀ p ∈ plan.places, 1500 ≤ p.code ∧ p.code < 1550

/-- The unit of the account of a code. -/
def SetupPlan.unitAt (rules : SetupRules) (plan : SetupPlan) (code : Nat) : Option String :=
  if code = 1010 then some (bankUnitOf rules plan.input plan.input.bankName)
  else if 1011 ≤ code ∧ code < 1020 then
    ((additionalBanks plan)[code - 1011]?).map fun bank =>
      bankUnitOf rules plan.input (some bank.bankName)
  else if code = 1020 then some (resolveMoneyDenomination plan.input.cashAssetSymbol)
  else if 1200 ≤ code ∧ code < 1300 then
    (plan.crypto.find? fun p => p.code = code).map fun p => p.coin.symbol
  else if 1500 ≤ code ∧ code < 1550 then some "IRT"
  else if code = 1300 then some "GOLD18"
  else if code ∈ [1000, 2000, 3000, 4000, 5000] then none
  else some "USD"

theorem chartRows_unit {plan : SetupPlan} (hplan : plan.Coded) {row : ChartRow}
    (h : row ∈ chartRows rules anyAsset plan) : row.unit = plan.unitAt rules row.code := by
  have hany : rules.Known anyAsset := known_anyAsset
  unfold chartRows at h
  simp only [List.append_assoc, List.mem_append, moneyUnit_eq hany (bankUnitOf_mem _ _),
    moneyUnit_eq hany (resolveMoneyDenomination_mem _)] at h
  rcases h with h | h | h | h | h | h | h
  · rw [List.mem_singleton.mp h]
    rfl
  · split at h
    · cases h
    · rw [List.mem_singleton.mp h]
      rfl
  · obtain ⟨i, hi, rfl⟩ := List.mem_mapIdx.mp h
    have hlen := hplan.banks
    dsimp only
    unfold SetupPlan.unitAt
    rw [if_neg (by omega), if_pos (by omega), Nat.add_sub_cancel_left, List.getElem?_eq_getElem hi]
    rfl
  · split at h
    · rw [List.mem_singleton.mp h]
      rfl
    · cases h
  · obtain ⟨p, hp, rfl⟩ := List.mem_map.mp h
    obtain ⟨hlow, hhigh⟩ := hplan.crypto p hp
    dsimp only
    unfold SetupPlan.unitAt
    rw [if_neg (by omega), if_neg (by omega), if_neg (by omega), if_pos ⟨hlow, hhigh⟩]
    cases hfind : plan.crypto.find? fun q => q.code = p.code with
    | none => exact absurd (List.find?_eq_none.mp hfind p hp) (by simp)
    | some q =>
      have hcode := List.find?_some hfind
      rw [hplan.coin p hp q (List.mem_of_find?_eq_some hfind) (Eq.symm (by simpa using hcode))]
      rfl
  · obtain ⟨p, hp, rfl⟩ := List.mem_map.mp h
    obtain ⟨hlow, hhigh⟩ := hplan.places p hp
    dsimp only
    unfold SetupPlan.unitAt
    rw [if_neg (by omega), if_neg (by omega), if_neg (by omega), if_neg (by omega),
      if_pos ⟨hlow, hhigh⟩]
  · simp only [List.mem_cons, List.not_mem_nil, or_false] at h
    rcases h with rfl | rfl | rfl | rfl | rfl | rfl | rfl | rfl | rfl | rfl | rfl | rfl | rfl | rfl |
      rfl | rfl | rfl | rfl <;> rfl

def bankRow (rules : SetupRules) (input : SetupInput) : OpeningRow :=
  ⟨bankUnitOf rules input input.bankName, input.bankOpeningBalance.getD 0, false⟩

def extraBankRow (rules : SetupRules) (input : SetupInput) (bank : SetupBankAccount) : OpeningRow :=
  ⟨bankUnitOf rules input (some bank.bankName), bank.balance, false⟩

/-- The first bank of the list stands in the input, the others beside it. -/
theorem bankRows_resolved {input resolved : SetupInput} {listed : List SetupBankAccount}
    (h : resolveBanks rules input = .ok (resolved, listed)) :
    (bankRows rules input).filter (0 < ·.amount) =
      ([bankRow rules resolved] ++ (listed.drop 1).map (extraBankRow rules resolved)).filter
        (0 < ·.amount) ∧ listed.length ≤ 10 ∧ (resolved.noBank = true → listed = []) := by
  unfold resolveBanks at h
  unfold bankRows
  by_cases hno : input.noBank = true
  · rw [if_pos hno] at h ⊢
    split at h
    · cases h
    rename_i hempty
    cases h
    have hzero : ¬ 0 < (bankRow rules input).amount := fun hpos => hempty (.inr hpos)
    refine ⟨?_, Nat.zero_le _, fun _ => rfl⟩
    rw [List.drop_nil, List.map_nil, List.append_nil, List.filter_cons_of_neg (by simpa using hzero)]
  · rw [if_neg hno] at h ⊢
    cases haccounts : input.bankAccounts with
    | none =>
      rw [haccounts] at h
      cases h
      exact ⟨rfl, Nat.zero_le _, fun _ => rfl⟩
    | some rows =>
      rw [haccounts] at h
      dsimp only at h ⊢
      unfold validateSetupBankAccounts at h
      split at h
      · cases h
      rename_i hcount
      split at h
      · cases h
      split at h
      · cases h
      simp only [bind, Except.bind] at h
      cases rows with
      | nil => cases h
      | cons primary rest =>
        dsimp only at h
        split at h
        · cases h
        split at h
        · cases h
        cases h
        have hlen : (primary :: rest).length ≤ 10 := by
          by_contra hmany
          exact hcount (.inr (.inl (not_le.mp hmany)))
        exact ⟨rfl, hlen, fun hyes => absurd hyes hno⟩

/-- What is left of the input when its banks are resolved. -/
theorem resolveBanks_keeps {input resolved : SetupInput} {listed : List SetupBankAccount}
    (h : resolveBanks rules input = .ok (resolved, listed)) :
    resolved = { input with
      bankAccountName := resolved.bankAccountName, bankName := resolved.bankName
      bankOpeningBalance := resolved.bankOpeningBalance
      bankAssetSymbol := resolved.bankAssetSymbol } := by
  unfold resolveBanks at h
  split at h
  · split at h <;> cases h
    rfl
  · split at h
    · cases h
      rfl
    · rename_i rows _
      cases hvalid : validateSetupBankAccounts rules rows with
      | error e =>
        rw [hvalid] at h
        cases h
      | ok listed' =>
        rw [hvalid] at h
        simp only [bind, Except.bind] at h
        split at h
        · cases h
        · split at h
          · cases h
          · split at h <;> cases h
            rfl

/-- The rows of a plan, section by section. -/
def SetupPlan.rows (rules : SetupRules) (plan : SetupPlan) : List OpeningRow :=
  [bankRow rules plan.input] ++ (additionalBanks plan).map (extraBankRow rules plan.input) ++
    [cashRow plan.input] ++ plan.places.map TomanPick.row ++
    plan.crypto.map (fun p => ⟨p.coin.symbol, p.holding.quantity.getD 0, true⟩) ++
    [goldRow plan.input] ++ plan.input.instruments.filterMap instrumentRow

/-- What the input and its plan have to do with each other. -/
theorem setupPlan_spec {input resolved : SetupInput} {listed : List SetupBankAccount}
    {plan : SetupPlan} {keys : List String} (hkeys : rules.FewPlaces keys)
    (honce : PlacesOnce rules input.tomanPlaces)
    (hbanks : resolveBanks rules input = .ok (resolved, listed))
    (h : setupPlan rules anyAsset resolved listed = .ok plan) :
    plan.Coded ∧ plan.input = resolved ∧ plan.listed = listed ∧
      (plan.rows rules).filter (0 < ·.amount) = input.openingRows rules := by
  have hkeep := resolveBanks_keeps hbanks
  obtain ⟨hrows, hlen, -⟩ := bankRows_resolved hbanks
  have hplaces : resolved.tomanPlaces = input.tomanPlaces := by rw [hkeep]
  have hholdings : resolved.holdings = input.holdings := by rw [hkeep]; rfl
  have hcash : cashRow resolved = cashRow input := by rw [hkeep]; rfl
  have hgold : goldRow resolved = goldRow input := by rw [hkeep]; rfl
  have hinstruments : resolved.instruments = input.instruments := by rw [hkeep]
  unfold setupPlan at h
  cases hcrypto : cryptoPicks rules anyAsset resolved with
  | error e =>
    rw [hcrypto] at h
    cases h
  | ok crypto =>
  cases htoman : tomanPlacePicks rules resolved with
  | error e =>
    rw [hcrypto, htoman] at h
    cases h
  | ok places =>
  rw [hcrypto, htoman] at h
  cases h
  have hnone : CodesGiven [] := ⟨rfl⟩
  obtain ⟨hmap, hcodes, -⟩ := cryptoPicksFrom_spec hnone le_rfl hcrypto
  unfold tomanPlacePicks at htoman
  rw [hplaces] at htoman
  obtain ⟨hplacerows, hplacecodes⟩ := tomanPlacePicksFrom_spec hkeys List.nodup_nil
    (List.nil_subset _) honce (fun _ _ _ _ => List.not_mem_nil) htoman
  refine ⟨⟨?_, hcodes, fun p hp q hq => cryptoPicks_coin hcrypto hp hq, hplacecodes⟩, rfl, rfl, ?_⟩
  · show (listed.drop 1).length ≤ 9
    rw [List.length_drop]
    omega
  · have hcoins : crypto.map (fun p => (⟨p.coin.symbol, p.holding.quantity.getD 0, true⟩ : OpeningRow)) =
        input.holdings.filterMap (cryptoRow rules) := by
      have hrow := congrArg (List.map fun x : SupportedCoin × CryptoHolding =>
        (⟨x.1.symbol, x.2.quantity.getD 0, true⟩ : OpeningRow)) hmap
      rw [List.map_map, hholdings, List.map_filterMap] at hrow
      refine hrow.trans (congrFun (congrArg List.filterMap (funext fun x => ?_)) _)
      unfold cryptoRow
      cases rules.coinOf x.symbol <;> rfl
    unfold SetupPlan.rows SetupInput.openingRows
    have hadditional : additionalBanks ⟨resolved, listed, crypto, places⟩ = listed.drop 1 := rfl
    simp only [List.filter_append] at hrows ⊢
    rw [hadditional, hrows, hplacerows, hcoins, hcash, hgold, hinstruments]

end Plan

end Pwos
