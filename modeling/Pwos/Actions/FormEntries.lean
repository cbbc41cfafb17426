import Pwos.Actions.CreateTransaction
import Pwos.Ledger.Statements
import Pwos.Lib.Leads
import Pwos.Planning.Payments

/-!
# The entry of a request

Every type of request comes down to one posting, after reads and at most a few new
accounts: `TxForm.Asks` says of which entry, and `bookEntry_leads` is the one pass through
the types that everything later relies on.
-/

namespace Pwos

section Parts

theorem readOnly_accountAsset (accountId : Uuid) : (accountAsset accountId).ReadOnly := by
  unfold accountAsset
  refine (Tx.readOnly_read _).bind fun a => ?_
  split
  · exact Tx.readOnly_done _
  · exact Tx.readOnly_fail _

theorem readOnly_refuse (reason : Option String) : (refuse reason).ReadOnly := by
  cases reason <;> trivial

theorem readOnly_assertAssetAccount (accountId : Uuid) (text : String) :
    (assertAssetAccount accountId text).ReadOnly :=
  (Tx.readOnly_read _).bind fun _ => Tx.readOnly_require _ _

theorem ensureReserveAccount_writesOnly (env : Env) (userId : Option Uuid) :
    (ensureReserveAccount env userId).WritesOnly Write.AddsAccount := by
  unfold ensureReserveAccount
  refine (Tx.readOnly_read _).writesOnly.bind fun found => ?_
  split
  · trivial
  refine (Tx.readOnly_read _).writesOnly.bind fun equity => ?_
  refine Tx.WritesOnly.bind ?_ fun _ => trivial
  exact Tx.writesOnly_insert fun s w hw => ⟨_, List.mem_singleton.mp hw⟩

theorem placedHoldingAccount_writesOnly (placed : Account) :
    (placedHoldingAccount placed).WritesOnly Write.AddsAccount := by
  unfold placedHoldingAccount
  refine (Tx.readOnly_read _).writesOnly.bind fun found => ?_
  split
  · trivial
  refine Tx.WritesOnly.bind ?_ fun _ => trivial
  exact Tx.writesOnly_insert fun s w hw => ⟨_, List.mem_singleton.mp hw⟩

theorem readOnly_loadTradeAccount (accountId : Uuid) (text : String) :
    (loadTradeAccount accountId text).ReadOnly := by
  unfold loadTradeAccount
  refine (Tx.readOnly_read _).bind fun row => ?_
  split
  · exact Tx.readOnly_fail _
  split
  · exact Tx.readOnly_fail _
  · exact (Tx.readOnly_require _ _).bind fun _ => Tx.readOnly_done _

variable (rules : TxRules) (env : Env) (form : TxForm) (prep : Prepared)

theorem readOnly_nativeIncome (asset : Uuid) (native : Decimal) :
    (nativeIncome env prep asset native).ReadOnly := by
  unfold nativeIncome
  refine (Tx.readOnly_read _).bind fun unit => ?_
  split
  · exact Tx.readOnly_done _
  · exact (readOnly_nativeUnitPriceUsd _ _).bind fun _ => (Tx.readOnly_read _).bind fun _ =>
      Tx.readOnly_done _

theorem readOnly_flowAmounts (asset : Uuid) : (flowAmounts env form prep asset).ReadOnly := by
  unfold flowAmounts
  split
  · exact (readOnly_nativeIncome _ _ _ _).bind fun _ => (Tx.readOnly_require _ _).bind fun _ =>
      Tx.readOnly_done _
  · exact (readOnly_nativeUnitPriceUsd _ _).bind fun _ => Tx.readOnly_done _

theorem repaymentContra_writesOnly (direction : Option String) :
    (repaymentContra env form direction).WritesOnly Write.AddsAccount := by
  unfold repaymentContra
  dsimp only
  split
  · trivial
  refine Tx.WritesOnly.bind ?_ fun bucket => ?_
  · unfold formBucket
    split <;> exact ensureSystemAccount_writesOnly _ _ _ _ _
  · split <;> trivial

theorem repaymentContraLeg_writesOnly (cashAsset : Uuid) (qty : Decimal) :
    (repaymentContraLeg env form prep cashAsset qty).WritesOnly Write.AddsAccount := by
  unfold repaymentContraLeg
  dsimp only
  split
  · refine (readOnly_accountAsset _).writesOnly.bind fun _ => ?_
    exact (readOnly_nativeUnitPriceUsd _ _).writesOnly.bind fun _ => trivial
  · exact (repaymentContra_writesOnly _ _ _).bind fun _ => trivial

theorem tradeAccounts_writesOnly (primary counter : Uuid) :
    (tradeAccounts rules form primary counter).WritesOnly Write.AddsAccount := by
  unfold tradeAccounts
  refine (readOnly_loadTradeAccount _ _).writesOnly.bind fun asset => ?_
  refine (readOnly_loadTradeAccount _ _).writesOnly.bind fun cash => ?_
  refine (Tx.readOnly_read _).writesOnly.bind fun _ => ?_
  refine (readOnly_refuse _).writesOnly.bind fun _ => ?_
  refine (Tx.readOnly_read _).writesOnly.bind fun _ => ?_
  refine (readOnly_refuse _).writesOnly.bind fun _ => ?_
  refine (Tx.readOnly_read _).writesOnly.bind fun place => ?_
  split
  · trivial
  · refine (placedHoldingAccount_writesOnly _).bind fun placed => ?_
    split <;> trivial

theorem readOnly_settleAmounts (cashAsset : Uuid) (cashSymbol : String) :
    (settleAmounts env form prep cashAsset cashSymbol).ReadOnly := by
  unfold settleAmounts
  refine (Tx.readOnly_read _).bind fun quote => ?_
  generalize settlementUnitOf cashSymbol = unit
  dsimp only
  split
  · exact (Tx.readOnly_require _ _).bind fun _ => Tx.readOnly_done _
  · exact (readOnly_nativeUnitPriceUsd _ _).bind fun _ => (Tx.readOnly_require _ _).bind fun _ =>
      Tx.readOnly_done _

theorem readOnly_assertHeld (accountId : Uuid) (qty : Decimal) :
    (assertHeld accountId qty).ReadOnly :=
  (Tx.readOnly_read _).bind fun _ => Tx.readOnly_require _ _

theorem resolveTrade_writesOnly (primary counter : Uuid) :
    (resolveTrade rules env form prep primary counter).WritesOnly Write.AddsAccount := by
  unfold resolveTrade
  refine (tradeAccounts_writesOnly _ _ _ _).bind fun accounts => ?_
  dsimp only
  split
  · trivial
  refine (Tx.readOnly_read _).writesOnly.bind fun _ => ?_
  refine (readOnly_settleAmounts _ _ _ _ _).writesOnly.bind fun _ => ?_
  refine (Tx.readOnly_require _ _).writesOnly.bind fun _ => ?_
  refine (readOnly_when (readOnly_assertHeld _ _)).writesOnly.bind fun _ => ?_
  exact (ensureSystemAccount_writesOnly _ _ _ _ _).bind fun _ => trivial

end Parts

/-! ## What a request asks for -/

section Asks
variable (V : Db → Prop) (rules : TxRules) (env : Env) (form : TxForm) (prep : Prepared)

/-- The request asks for the entry, frozen at the Toman. What was read on the way was read
in states of `V`. -/
inductive TxForm.Asks : PostEntryInput → Decimal → Prop where
  | nonCash {category : Category} {reserve account asset : Uuid} {price : Decimal}
      (type : form.type = .income ∨ form.type = .expense)
      (category_eq : form.category = some category) (kind : category.nonCash = true) :
      Asks (nonCashInput env form prep category.id reserve account asset (prep.usd.div price))
        prep.toman
  | flow {cash account asset : Uuid} {qty usd toman : Decimal}
      (type : form.type = .income ∨ form.type = .expense)
      (kind : form.category.any (·.nonCash) = false) (cash_eq : form.primaryAccountId = some cash)
      (unit : (accountAsset cash).Gives V asset)
      (amounts : (flowAmounts env form prep asset).Gives V (qty, usd, toman)) :
      Asks ((flowCmd env form cash account asset qty usd).input
        (if form.type = .income then .income else .expense) (if form.type = .income then 1 else -1))
        toman
  | repayment {cash asset : Uuid} {price : Decimal} {contra : DraftPosting}
      (type : form.type = .debtRepayment) (cash_eq : form.primaryAccountId = some cash)
      (unit : (accountAsset cash).Gives V asset)
      (price_eq : (nativeUnitPriceUsd asset env.currentUser).Gives V price)
      (contra_eq : (repaymentContraLeg env form prep asset (prep.usd.div price)).Gives V contra) :
      Asks (repaymentInput env form prep cash asset (prep.usd.div price) contra) prep.toman
  | fxTransfer {source dest sourceAsset destAsset : Uuid} {sourceUnit destUnit : String}
      {legs : FxLegs} {feeAccountId : Option Uuid}
      (type : form.type = .transfer) (source_eq : form.primaryAccountId = some source)
      (dest_eq : form.counterAccountId = some dest)
      (unit : (accountAsset source).Gives V sourceAsset)
      (symbol : ∃ s, V s ∧ s.unitOf sourceAsset = sourceUnit)
      (legs_eq : resolveFxBookLegs { fromSymbol := sourceUnit, toSymbol := destUnit
                                     rateIrtPerUsd := prep.rate, irtAmount := some prep.toman } =
        .ok legs) :
      Asks (fxTransferCmd env form prep source dest sourceAsset destAsset legs
        (transferFeeNative form prep sourceUnit legs.fromQuantity) feeAccountId).input prep.toman
  | transfer {source dest asset : Uuid} {unit : String} {price held heldBase : Decimal}
      {feeAccountId : Option Uuid}
      (type : form.type = .transfer) (source_eq : form.primaryAccountId = some source)
      (dest_eq : form.counterAccountId = some dest) (unit_eq : (accountAsset source).Gives V asset)
      (symbol : ∃ s, V s ∧ s.unitOf asset = unit)
      (price_eq : (nativeUnitPriceUsd asset env.currentUser).Gives V price) :
      Asks (transferCmd env form source dest asset (transferQuantity form prep unit price)
        (if 0 < prep.feeUsd then prep.feeUsd.div price else 0)
        (if 0 < held ∧ 0 < heldBase then heldBase.div held else price) feeAccountId).input prep.toman
  | conversion {primary counter : Uuid} {t : Trade} {unit : Decimal}
      (type : form.type = .buy ∨ form.type = .sell)
      (primary_eq : form.primaryAccountId = some primary)
      (counter_eq : form.counterAccountId = some counter)
      (trade : (resolveTrade rules env form prep primary counter).Gives V t)
      (unit_eq : (nativeUnitPriceUsd t.assetId env.currentUser).Gives V unit) :
      Asks (conversionCmd env form t (t.quantity.mul unit)).input t.toman
  | buy {primary counter : Uuid} {t : Trade} {feeLines : List DraftPosting}
      (type : form.type = .buy) (primary_eq : form.primaryAccountId = some primary)
      (counter_eq : form.counterAccountId = some counter)
      (trade : (resolveTrade rules env form prep primary counter).Gives V t) :
      Asks (TradeCmd.buyInput { t.cmd env form with preventOverdraft := true } feeLines) t.toman

/-- A sale the request asks for. Its entry depends on the lots. -/
inductive TxForm.AsksSale : TradeCmd → Decimal → Prop where
  | sell {primary counter pnl : Uuid} {t : Trade} (type : form.type = .sell)
      (primary_eq : form.primaryAccountId = some primary)
      (counter_eq : form.counterAccountId = some counter)
      (trade : (resolveTrade rules env form prep primary counter).Gives V t) :
      AsksSale { t.cmd env form with pnlAccountId := some pnl } t.toman

/-- What the booking of a request comes down to. -/
inductive BookTail : Sql Booked → Prop where
  | post {input : PostEntryInput} {toman : Decimal}
      (asks : form.Asks V rules env prep input toman) :
      BookTail (postEntry env input >>= fun r => pure ⟨r, toman⟩)
  | sell {cmd : TradeCmd} {toman : Decimal} (asks : form.AsksSale V rules env prep cmd toman) :
      BookTail (recordSell env cmd >>= fun r => pure ⟨r, toman⟩)

end Asks

section Leads
variable {V : Db → Prop} {rules : TxRules} {env : Env} {form : TxForm} {prep : Prepared}

theorem bookNonCash_leads {category : Category} (type : form.type = .income ∨ form.type = .expense)
    (hc : form.category = some category) (kind : category.nonCash = true) (account : Uuid) :
    (bookNonCash env form prep category.id account).Leads V Write.AddsAccount
      (BookTail V rules env form prep) := by
  unfold bookNonCash
  refine (ensureReserveAccount_writesOnly _ _).leads_bind fun reserve _ => ?_
  split
  · exact .fail _
  refine (readOnly_nativeUnitPriceUsd _ _).leads_bind fun price _ => ?_
  exact .tail (.post (.nonCash type hc kind))

theorem bookFlow_leads (type : form.type = .income ∨ form.type = .expense)
    (kind : form.category.any (·.nonCash) = false) (account : Uuid) :
    (bookFlow env form prep account).Leads V Write.AddsAccount
      (BookTail V rules env form prep) := by
  unfold bookFlow
  split
  · exact .fail _
  rename_i cash hcash
  refine (readOnly_accountAsset _).leads_bind fun asset hasset => ?_
  refine (readOnly_flowAmounts _ _ _ _).leads_bind fun amounts hamounts => ?_
  obtain ⟨qty, usd, toman⟩ := amounts
  have hasks : form.Asks V rules env prep ((flowCmd env form cash account asset qty usd).input
      (if form.type = .income then .income else .expense) (if form.type = .income then 1 else -1))
      toman := .flow type kind hcash hasset hamounts
  dsimp only
  split
  · rename_i hincome
    rw [if_pos hincome, if_pos hincome] at hasks
    exact .tail (.post hasks)
  · rename_i hincome
    rw [if_neg hincome, if_neg hincome] at hasks
    exact .tail (.post hasks)

theorem bookIncomeOrExpense_leads (type : form.type = .income ∨ form.type = .expense) :
    (bookIncomeOrExpense env form prep).Leads V Write.AddsAccount
      (BookTail V rules env form prep) := by
  unfold bookIncomeOrExpense
  split
  · exact .fail _
  rename_i account _
  cases hc : form.category.filter (·.nonCash) with
  | some category =>
    obtain ⟨hcat, hkind⟩ := Option.filter_eq_some_iff.mp hc
    exact bookNonCash_leads type hcat hkind account
  | none =>
    refine bookFlow_leads type ?_ account
    cases hcat : form.category with
    | none => rfl
    | some category =>
      rw [hcat, Option.filter_eq_none_iff] at hc
      simpa using hc category rfl

theorem bookRepayment_leads (type : form.type = .debtRepayment) :
    (bookRepayment env form prep).Leads V Write.AddsAccount (BookTail V rules env form prep) := by
  unfold bookRepayment
  split
  · exact .fail _
  rename_i cash hcash
  refine (readOnly_accountAsset _).leads_bind fun asset hasset => ?_
  refine (readOnly_nativeUnitPriceUsd _ _).leads_bind fun price hprice => ?_
  refine (repaymentContraLeg_writesOnly _ _ _ _ _).leads_bind fun contra hcontra => ?_
  exact .tail (.post (.repayment type hcash hasset hprice hcontra))

/-- After its checks a conversion is a posting. -/
theorem recordFx_leads {cmd : FxCmd} {toman : Decimal}
    (asks : form.Asks V rules env prep cmd.input toman) :
    (recordFx env cmd >>= fun r => pure (⟨r, toman⟩ : Booked)).Leads V Write.AddsAccount
      (BookTail V rules env form prep) := by
  unfold recordFx
  rw [Tx.bind_assoc]
  exact (readOnly_fxCheck cmd).leads_bind fun _ _ => .tail (.post asks)

theorem bookTransfer_leads (type : form.type = .transfer) :
    (bookTransfer rules env form prep).Leads V Write.AddsAccount
      (BookTail V rules env form prep) := by
  unfold bookTransfer
  split
  · exact .fail _
  · exact .fail _
  rename_i source dest hsource hdest
  refine (readOnly_assertAssetAccount _ _).leads_bind fun _ _ => ?_
  refine (readOnly_assertAssetAccount _ _).leads_bind fun _ _ => ?_
  refine (Tx.readOnly_read _).leads_bind fun _ _ => ?_
  refine (readOnly_refuse _).leads_bind fun _ _ => ?_
  refine (readOnly_accountAsset _).leads_bind fun asset hasset => ?_
  refine (readOnly_accountAsset _).leads_bind fun destAsset _ => ?_
  split
  · unfold bookPlainTransfer
    refine (readOnly_nativeUnitPriceUsd _ _).leads_bind fun price hprice => ?_
    refine (Tx.readOnly_read _).leads_bind fun unit hunit => ?_
    refine (Tx.readOnly_read _).leads_bind fun held _ => ?_
    refine (Tx.readOnly_require _ _).leads_bind fun _ _ => ?_
    refine (ensureSystemAccount_writesOnly _ _ _ _ _).leads_bind fun _ _ => ?_
    unfold recordTransfer
    rw [Tx.bind_assoc]
    refine (readOnly_transferCheck _).leads_bind fun _ _ => ?_
    exact .tail (.post (.transfer type hsource hdest hasset hunit hprice))
  · unfold bookFxTransfer
    refine (Tx.readOnly_read _).leads_bind fun unit hunit => ?_
    refine (Tx.readOnly_read _).leads_bind fun destUnit _ => ?_
    refine (Tx.readOnly_ofExcept _).leads_bind fun legs hlegs => ?_
    refine (ensureSystemAccount_writesOnly _ _ _ _ _).leads_bind fun _ _ => ?_
    exact recordFx_leads (.fxTransfer type hsource hdest hasset hunit (Tx.gives_ofExcept.mp hlegs))

theorem bookTrade_leads (type : form.type = .buy ∨ form.type = .sell) :
    (bookTrade rules env form prep).Leads V Write.AddsAccount (BookTail V rules env form prep) := by
  unfold bookTrade
  split
  · exact .fail _
  · exact .fail _
  rename_i primary counter hprimary hcounter
  refine (resolveTrade_writesOnly _ _ _ _ _ _).leads_bind fun t ht => ?_
  refine (Tx.readOnly_read _).leads_bind fun route _ => ?_
  cases route with
  | conversion =>
    unfold bookConversion
    refine (readOnly_nativeUnitPriceUsd _ _).leads_bind fun unit hunit => ?_
    exact recordFx_leads (.conversion type hprimary hcounter ht hunit)
  | trade =>
    dsimp only
    split
    · rename_i hbuy
      unfold recordBuy
      rw [Tx.bind_assoc]
      refine (buyFeeLines_writesOnly _ _).leads_bind fun feeLines _ => ?_
      exact .tail (.post (.buy hbuy hprimary hcounter ht))
    · rename_i hbuy
      have hsell := type.resolve_left hbuy
      refine (ensureRealizedPnlAccount_writesOnly _ _).leads_bind fun pnl _ => ?_
      split
      · exact .fail _
      · exact .tail (.sell (.sell hsell hprimary hcounter ht))

/-- Every type of request leads to the posting it asks for. -/
theorem bookEntry_leads : (bookEntry rules env form prep).Leads V Write.AddsAccount
    (BookTail V rules env form prep) := by
  unfold bookEntry
  cases htype : form.type with
  | income => exact bookIncomeOrExpense_leads (.inl htype)
  | expense => exact bookIncomeOrExpense_leads (.inr htype)
  | debtRepayment => exact bookRepayment_leads htype
  | transfer => exact bookTransfer_leads htype
  | buy => exact bookTrade_leads (.inl htype)
  | sell => exact bookTrade_leads (.inr htype)

end Leads

/-! ## Keys -/

/-- Every entry under a key has its rate frozen, so that no form can settle by it again. -/
def Db.KeysFrozen (db : Db) : Prop :=
  ∀ e ∈ db.journalEntries, e.idempotencyKey ≠ none → ∃ f ∈ db.entryFxSnapshots, f.entryId = e.id

instance (db : Db) : Decidable db.KeysFrozen :=
  inferInstanceAs (Decidable (∀ e ∈ db.journalEntries, _ → ∃ f ∈ db.entryFxSnapshots, _))

end Pwos
