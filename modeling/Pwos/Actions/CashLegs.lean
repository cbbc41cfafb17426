import Pwos.Actions.FormRuns
import Pwos.Planning.Settlements

/-!
# The cash leg of a request

An entry that a request books has a line on the account whose money the request moves.
The type of the request decides the way (`Books.cashLine`); only a settlement of a debt
looks at the debt.
-/

namespace Pwos

/-- No recorded unit price is negative. -/
def Db.PricesNonneg (db : Db) : Prop := ∀ p ∈ db.prices, 0 ≤ p.priceBase

instance (db : Db) : Decidable db.PricesNonneg :=
  inferInstanceAs (Decidable (∀ p ∈ db.prices, 0 ≤ p.priceBase))

/-- The way the request moves its cash account: out, in, or not at all. -/
def TxForm.cashSign (form : TxForm) (debt : Option Debt) : Int :=
  match form.type with
  | .income => if form.category.any (·.nonCash) then 0 else 1
  | .expense => if form.category.any (·.nonCash) then 0 else -1
  | .debtRepayment => settlementSign (debt.map (·.direction))
  | .transfer | .buy => -1
  | .sell => 1

/-! ## Amounts that are not negative -/

theorem of_positive {amount : Option Decimal} {x : Decimal} (h : positive amount = some x) :
    0 < x := by simpa using (Option.filter_eq_some_iff.mp h).2

theorem formAmounts_ok {form : TxForm} {rate usd toman : Decimal} (hrate : 0 < rate)
    (h : formAmounts form rate = .ok (usd, toman)) : 0 < usd ∧ 0 ≤ toman := by
  unfold formAmounts at h
  dsimp only at h
  split at h
  · rename_i usd' toman' ham
    split at h
    · cases h
    rename_i hpos
    cases h
    refine ⟨not_le.mp hpos, ?_⟩
    cases hirt : positive form.irtAmount with
    | some x =>
      rw [hirt] at ham
      cases ham
      exact Decimal.toFixed_nonneg (of_positive hirt).le 0
    | none =>
      rw [hirt] at ham
      obtain ⟨x, hx, heq⟩ := Option.map_eq_some_iff.mp ham
      cases heq
      exact Decimal.toFixed_nonneg (Decimal.mul_nonneg (of_positive hx).le hrate.le) 0
  · cases h

theorem mem_of_latestBy {α : Type} {day : α → IsoDate} {rows : List α} {r : α}
    (h : latestBy day rows = some r) : r ∈ rows := by
  have hmem := List.mem_of_head? h
  simpa using hmem

section Nonneg
variable {db : Db} {env : Env} {form : TxForm} {prep : Prepared}

theorem price_nonneg (hdb : db.PricesNonneg) {asset : Uuid} {userId : Option Uuid}
    {price : Decimal} (h : (nativeUnitPriceUsd asset userId).Gives db.Provisioned price) :
    0 ≤ price := by
  have hone : (0 : Decimal) ≤ .ofInt 1 := by decide
  unfold nativeUnitPriceUsd at h
  obtain ⟨found, -, h₁⟩ := Tx.gives_bind.mp h
  dsimp only at h₁
  split at h₁
  · obtain ⟨fx, -, h₂⟩ := Tx.gives_bind.mp h₁
    obtain ⟨_, hpos, h₃⟩ := Tx.gives_bind.mp h₂
    rw [Tx.gives_require] at hpos
    cases h₃
    exact Decimal.div_nonneg hone hpos.le
  split at h₁
  · cases h₁
    exact hone
  · obtain ⟨latest, hread, h₂⟩ := Tx.gives_bind.mp h₁
    obtain ⟨s, ⟨accounts, rfl⟩, hlatest⟩ := Tx.gives_read.mp hread
    cases h₂
    cases latest with
    | none => exact hone
    | some p => exact hdb p (List.mem_of_mem_filter (mem_of_latestBy hlatest))

theorem flowAmounts_nonneg (hdb : db.PricesNonneg) (husd : 0 ≤ prep.usd) {asset : Uuid}
    {qty usd toman : Decimal}
    (h : (flowAmounts env form prep asset).Gives db.Provisioned (qty, usd, toman)) : 0 ≤ qty := by
  unfold flowAmounts at h
  split at h
  · rename_i native hnative
    obtain ⟨⟨q, u, t⟩, hincome, h₁⟩ := Tx.gives_bind.mp h
    obtain ⟨_, -, h₂⟩ := Tx.gives_bind.mp h₁
    cases h₂
    unfold nativeIncome at hincome
    obtain ⟨unit, -, h₃⟩ := Tx.gives_bind.mp hincome
    split at h₃
    · cases h₃
      exact (of_positive hnative).le
    · obtain ⟨price, -, h₄⟩ := Tx.gives_bind.mp h₃
      obtain ⟨quote, -, h₅⟩ := Tx.gives_bind.mp h₄
      cases h₅
      exact (of_positive hnative).le
  · obtain ⟨price, hprice, h₁⟩ := Tx.gives_bind.mp h
    cases h₁
    exact Decimal.div_nonneg husd (price_nonneg hdb hprice)

theorem transferQuantity_nonneg (hprep : 0 ≤ prep.usd ∧ 0 ≤ prep.toman) (unit : String)
    {price : Decimal} (hprice : 0 ≤ price) : 0 ≤ transferQuantity form prep unit price := by
  unfold transferQuantity
  split
  · exact hprep.2
  split
  · exact Decimal.mul_nonneg hprep.2 (by decide)
  cases hq : positive form.quantity with
  | some q => exact (of_positive hq).le
  | none => exact Decimal.div_nonneg hprep.1 hprice

/-- A quantity given, or else the typed Toman. -/
theorem given_nonneg {amount hint : Option Decimal} {c : Prop} [Decidable c] {x : Decimal}
    (h : (positive amount <|> if c then positive hint else none) = some x) : 0 ≤ x := by
  cases ha : positive amount with
  | some y =>
    rw [ha] at h
    cases h
    exact (of_positive ha).le
  | none =>
    have h : (if c then positive hint else none) = some x := by rwa [ha] at h
    split at h
    · exact (of_positive h).le
    · cases h

theorem resolveFxBookLegs_nonneg {input : FxLegsInput} {legs : FxLegs}
    (h : resolveFxBookLegs input = .ok legs) : 0 ≤ legs.fromQuantity := by
  unfold resolveFxBookLegs at h
  dsimp only at h
  split at h
  · cases h
  rename_i hrate
  split at h
  · cases h
  split at h
  · rename_i f t hf ht
    have hpos := not_le.mp hrate
    have hnonneg : 0 ≤ f := by
      cases hfrom : (positive input.fromQuantity <|>
          if upper input.fromSymbol = "IRT" then positive input.irtAmount else none) with
      | some x =>
        rw [hfrom] at hf
        cases hf
        exact given_nonneg hfrom
      | none =>
        rw [hfrom] at hf
        obtain ⟨x, hx, rfl⟩ := Option.map_eq_some_iff.mp hf
        have hto := given_nonneg hx
        split
        · exact Decimal.mul_nonneg hto hpos.le
        · exact hto
    split at h
    · cases h
    split at h
    · cases h
    split at h
    · cases h
    · cases h
      exact hnonneg
  · cases h

theorem settleAmounts_nonneg (hdb : db.PricesNonneg) (hrate : 0 < prep.rate) {cashAsset : Uuid} {symbol : String}
    {qty usd toman : Decimal}
    (h : (settleAmounts env form prep cashAsset symbol).Gives db.Provisioned (qty, usd, toman)) :
    0 < qty ∧ 0 ≤ usd ∧ 0 ≤ toman := by
  unfold settleAmounts at h
  generalize settlementUnitOf symbol = unit at h
  obtain ⟨quote, hread, h₁⟩ := Tx.gives_bind.mp h
  dsimp only at h₁
  split at h₁
  · obtain ⟨_, hpos, h₂⟩ := Tx.gives_bind.mp h₁
    rw [Tx.gives_require] at hpos
    cases h₂
    have htoman := Decimal.toFixed_nonneg hpos.le 0
    exact ⟨hpos, Decimal.div_nonneg htoman hrate.le, htoman⟩
  · obtain ⟨price, hprice, h₂⟩ := Tx.gives_bind.mp h₁
    obtain ⟨_, hpos, h₃⟩ := Tx.gives_bind.mp h₂
    rw [Tx.gives_require] at hpos
    cases h₃
    obtain ⟨s, -, rfl⟩ := Tx.gives_read.mp hread
    have husdt : 0 ≤ if prep.dated then prep.rate else s.usdtQuote.getD prep.rate := by
      split
      · exact hrate.le
      cases hquote : s.usdtQuote with
      | some q => exact (of_positive hquote).le
      | none => exact hrate.le
    exact ⟨hpos, Decimal.mul_nonneg hpos.le (price_nonneg hdb hprice),
      Decimal.toFixed_nonneg (Decimal.mul_nonneg hpos.le husdt) 0⟩

/-- The account a trade settles in is the one the request names. -/
theorem tradeAccounts_gives {V : Db → Prop} {rules : TxRules} {primary counter : Uuid}
    {asset : Account × Uuid} {cash : Account} {cashAsset : Uuid}
    (h : (tradeAccounts rules form primary counter).Gives V (asset, cash, cashAsset)) :
    cash.id = counter := by
  have hload : ∀ {p : Account × Uuid}, (loadTradeAccount counter NOT_CASH).Gives V p →
      p.1.id = counter := by
    intro p hp
    unfold loadTradeAccount at hp
    obtain ⟨found, hread, h₁⟩ := Tx.gives_bind.mp hp
    obtain ⟨s, -, rfl⟩ := Tx.gives_read.mp hread
    split at h₁
    · cases h₁
    rename_i a ha
    split at h₁
    · cases h₁
    obtain ⟨_, -, h₂⟩ := Tx.gives_bind.mp h₁
    cases h₂
    simpa using List.find?_some ha
  unfold tradeAccounts at h
  obtain ⟨a, -, h₁⟩ := Tx.gives_bind.mp h
  obtain ⟨c, hc, h₂⟩ := Tx.gives_bind.mp h₁
  obtain ⟨_, -, h₃⟩ := Tx.gives_bind.mp h₂
  obtain ⟨_, -, h₄⟩ := Tx.gives_bind.mp h₃
  obtain ⟨_, -, h₅⟩ := Tx.gives_bind.mp h₄
  obtain ⟨_, -, h₆⟩ := Tx.gives_bind.mp h₅
  obtain ⟨place, -, h₇⟩ := Tx.gives_bind.mp h₆
  split at h₇
  · cases h₇
    exact hload hc
  · obtain ⟨placed, -, h₈⟩ := Tx.gives_bind.mp h₇
    split at h₈
    · cases h₈
    · cases h₈
      exact hload hc

/-- What is known of a trade. -/
structure Trade.Fits (form : TxForm) (counter : Uuid) (t : Trade) : Prop where
  cash : t.cash.id = counter
  settle : 0 < t.settleNative
  usd : 0 ≤ t.usd
  fee : ∀ f ∈ t.feeNative, 0 ≤ f
  below : form.type = .sell → ∀ f ∈ t.feeNative, f < t.settleNative

theorem resolveTrade_fits (hdb : db.PricesNonneg) (hrate : 0 < prep.rate) {rules : TxRules} {primary counter : Uuid} {t : Trade}
    (h : (resolveTrade rules env form prep primary counter).Gives db.Provisioned t) :
    t.Fits form counter := by
  unfold resolveTrade at h
  obtain ⟨⟨⟨asset, assetId⟩, cash, cashAsset⟩, hacc, h₁⟩ := Tx.gives_bind.mp h
  dsimp only at h₁
  split at h₁
  · cases h₁
  obtain ⟨symbol, -, h₂⟩ := Tx.gives_bind.mp h₁
  obtain ⟨⟨qty, usd, toman⟩, hamounts, h₃⟩ := Tx.gives_bind.mp h₂
  obtain ⟨_, hbelow, h₄⟩ := Tx.gives_bind.mp h₃
  obtain ⟨_, -, h₅⟩ := Tx.gives_bind.mp h₄
  obtain ⟨feeAccount, -, h₆⟩ := Tx.gives_bind.mp h₅
  rw [Tx.gives_require] at hbelow
  cases h₆
  obtain ⟨hqty, husd, htoman⟩ := settleAmounts_nonneg hdb hrate hamounts
  have hten : (0 : Decimal) ≤ .ofInt 10 := by decide
  refine ⟨tradeAccounts_gives hacc, ?_, husd, ?_, hbelow⟩
  · dsimp only
    split
    · have hraw := Decimal.lt_iff.mp hqty
      rw [Decimal.mul_ofInt, Decimal.lt_iff, Decimal.raw_zsmul]
      rw [Decimal.raw_zero] at *
      omega
    · exact hqty
  · intro f hf
    unfold tradeFeeNative at hf
    generalize settlementUnitOf symbol = unit at hf
    obtain ⟨raw, hraw, rfl⟩ := Option.map_eq_some_iff.mp hf
    have hpos := (of_positive hraw).le
    split
    · split
      · exact Decimal.mul_nonneg hpos hten
      · exact hpos
    split
    · exact hpos
    · exact Decimal.div_nonneg hpos (Decimal.div_nonneg htoman hqty.le)

end Nonneg

/-! ## The line -/

/-- The entry has a line on the account whose money the request moves, the way of the sign. -/
def CashLine (form : TxForm) (sign : Int) (input : PostEntryInput) : Prop :=
  ∃ p ∈ input.postings, form.cashAccountId = some p.accountId ∧ 0 ≤ sign • p.quantity

section Lines
variable {db : Db} {rules : TxRules} {env : Env} {form : TxForm} {prep : Prepared}
  {input : PostEntryInput} {toman : Decimal}

theorem cashUnitsPerUsd_nonneg {cmd : TradeCmd} (hbase : 0 ≤ cmd.baseValue)
    (hcash : 0 ≤ cmd.cashQuantity) : 0 ≤ cmd.cashUnitsPerUsd := by
  unfold TradeCmd.cashUnitsPerUsd
  split
  · exact le_rfl
  · exact Decimal.div_nonneg hcash hbase

theorem Trade.Fits.feeUsd_nonneg {counter : Uuid} {t : Trade} (h : t.Fits form counter)
    {book : Decimal} (hbook : 0 ≤ book) : 0 ≤ t.feeUsd book := by
  unfold Trade.feeUsd
  cases hf : t.feeNative with
  | none => exact le_rfl
  | some f => exact Decimal.div_nonneg (Decimal.mul_nonneg (h.fee f hf) hbook) h.settle.le

/-- A fee below the proceeds, at the trade's own rate, is no more than their value. -/
theorem Trade.Fits.feeUsd_le {counter : Uuid} {t : Trade} (h : t.Fits form counter)
    (hsell : form.type = .sell) : t.feeUsd t.usd ≤ t.usd := by
  unfold Trade.feeUsd
  cases hf : t.feeNative with
  | none => exact h.usd
  | some f =>
    have hfee := h.fee f hf
    have hbelow := h.below hsell f hf
    have hsettle := h.settle
    have husd := h.usd
    simp only [Decimal.le_iff, Decimal.lt_iff, Decimal.raw_zero] at hfee hbelow hsettle husd
    simp only [Option.elim_some, Decimal.div, if_neg hsettle.ne', Decimal.le_iff, Decimal.raw_mul]
    have hprod : 0 ≤ f.raw * t.usd.raw := Int.mul_nonneg hfee husd
    have hone := Decimal.one_pos
    rw [Int.tdiv_eq_ediv_of_nonneg hprod, Int.tdiv_eq_ediv_of_nonneg
      (Int.mul_nonneg (Int.ediv_nonneg hprod hone.le) hone.le)]
    refine Int.ediv_le_of_le_mul hsettle ?_
    calc f.raw * t.usd.raw / ONE * ONE ≤ f.raw * t.usd.raw := Int.ediv_mul_le _ hone.ne'
      _ ≤ t.settleNative.raw * t.usd.raw := Int.mul_le_mul_of_nonneg_right hbelow.le husd
      _ = t.usd.raw * t.settleNative.raw := Int.mul_comm _ _

theorem paidBy_nonneg (cmd : FxCmd) (side : FeePaidBy) : 0 ≤ (cmd.paidBy side).getD 0 := by
  unfold FxCmd.paidBy FxCmd.nativeFee
  split
  · split
    · cases hf : cmd.feeQuantity.filter (0 < ·) with
      | none => exact le_rfl
      | some f => exact (of_positive hf).le
    · exact le_rfl
  · exact le_rfl

theorem paidBy_le (cmd : FxCmd) (side : FeePaidBy) {x : Decimal} (hx : 0 ≤ x)
    (h : ∀ f ∈ cmd.feeQuantity, f ≤ x) : (cmd.paidBy side).getD 0 ≤ x := by
  unfold FxCmd.paidBy FxCmd.nativeFee
  split
  · split
    · cases hf : cmd.feeQuantity.filter (0 < ·) with
      | none => exact hx
      | some f => exact h f (Option.filter_eq_some_iff.mp hf).1
    · exact hx
  · exact hx

theorem fxFromLine_sign (cmd : FxCmd) (h : 0 ≤ cmd.fromQuantity) :
    0 ≤ (-1 : Int) • cmd.fromLine.quantity := by
  have hfee := paidBy_nonneg cmd .fromAccount
  simp only [FxCmd.fromLine, neg_smul, one_smul, neg_neg]
  exact add_nonneg h hfee

/-- The way of a request is the way of its line. -/
theorem TxForm.Asks.cashLine (hdb : db.PricesNonneg) (hrate : 0 < prep.rate)
    (hprep : 0 ≤ prep.usd ∧ 0 ≤ prep.toman) (h : form.Asks db.Provisioned rules env prep input toman)
    (hsign : form.cashSign prep.debt ≠ 0) : CashLine form (form.cashSign prep.debt) input := by
  cases h with
  | nonCash type category_eq kind =>
    refine absurd ?_ hsign
    unfold TxForm.cashSign
    rcases type with htype | htype <;> simp [htype, category_eq, kind]
  | flow type kind cash_eq unit amounts =>
    have hqty := flowAmounts_nonneg hdb hprep.1 amounts
    refine ⟨_, List.mem_cons_self, ?_, ?_⟩
    · rcases type with htype | htype <;>
        simp [TxForm.cashAccountId, htype, kind, cash_eq, flowCmd]
    · unfold TxForm.cashSign
      rcases type with htype | htype <;> simpa [htype, kind, flowCmd] using hqty
  | repayment type cash_eq unit price_eq contra_eq =>
    have hqty := Decimal.div_nonneg hprep.1 (price_nonneg hdb price_eq)
    refine ⟨_, List.mem_cons_self, ?_, ?_⟩
    · simp [TxForm.cashAccountId, type, cash_eq]
    · simp only [TxForm.cashSign, type, smul_smul, sign_mul_self, one_smul]
      exact hqty
  | fxTransfer type source_eq dest_eq unit symbol legs_eq =>
    refine ⟨_, List.mem_cons_self, ?_, ?_⟩
    · simp [TxForm.cashAccountId, type, source_eq, FxCmd.fromLine, fxTransferCmd]
    · simp only [TxForm.cashSign, type]
      exact fxFromLine_sign _ (resolveFxBookLegs_nonneg legs_eq)
  | transfer type source_eq dest_eq unit_eq symbol price_eq =>
    have hprice := price_nonneg hdb price_eq
    refine ⟨_, List.mem_cons_self, ?_, ?_⟩
    · simp [TxForm.cashAccountId, type, source_eq, TransferCmd.fromLine, transferCmd]
    · simp only [TxForm.cashSign, type, TransferCmd.fromLine, TransferCmd.feeQuantity, transferCmd,
        neg_smul, one_smul, neg_neg, Option.getD_some]
      have hbook : ∀ held heldBase price : Decimal, 0 ≤ price →
          0 ≤ if 0 < held ∧ 0 < heldBase then heldBase.div held else price := by
        intro held heldBase price hp
        split
        · rename_i hpos
          exact Decimal.div_nonneg hpos.2.le hpos.1.le
        · exact hp
      refine add_nonneg (transferQuantity_nonneg hprep _ hprice)
        (Decimal.div_nonneg (Decimal.mul_nonneg ?_ (hbook _ _ _ hprice)) (hbook _ _ _ hprice))
      split
      · rename_i hfee
        exact Decimal.div_nonneg hfee.le hprice
      · exact le_rfl
  | conversion type primary_eq counter_eq trade unit_eq =>
    have hfits := resolveTrade_fits hdb hrate trade
    rcases type with htype | htype
    · refine ⟨_, List.mem_cons_self, ?_, ?_⟩
      · simp [TxForm.cashAccountId, htype, counter_eq, FxCmd.fromLine, conversionCmd, hfits.cash]
      · simp only [TxForm.cashSign, htype]
        refine fxFromLine_sign _ ?_
        simpa [conversionCmd, htype] using hfits.settle.le
    · refine ⟨_, List.mem_cons_of_mem _ List.mem_cons_self, ?_, ?_⟩
      · simp [TxForm.cashAccountId, htype, counter_eq, FxCmd.toLine, conversionCmd, hfits.cash]
      · simp only [TxForm.cashSign, htype, FxCmd.toLine, one_smul]
        rw [sub_nonneg]
        refine paidBy_le _ .toAccount ?_ ?_
        · simpa [conversionCmd, htype] using hfits.settle.le
        · simpa [conversionCmd, htype] using fun f hf => (hfits.below htype f hf).le
  | buy type primary_eq counter_eq trade =>
    have hfits := resolveTrade_fits hdb hrate trade
    refine ⟨_, List.mem_cons_of_mem _ List.mem_cons_self, ?_, ?_⟩
    · simp [TxForm.cashAccountId, type, counter_eq, TradeCmd.buyCashLine, Trade.cmd, hfits.cash]
    · simp only [TxForm.cashSign, type, TradeCmd.buyCashLine, Trade.cmd, neg_smul, one_smul, neg_neg]
      refine Decimal.mul_nonneg (add_nonneg hfits.usd (hfits.feeUsd_nonneg hfits.usd)) ?_
      exact cashUnitsPerUsd_nonneg hfits.usd hfits.settle.le

/-- The proceeds of a sale reach the account. -/
theorem TxForm.AsksSale.cashLine {cmd : TradeCmd} (hdb : db.PricesNonneg) (hrate : 0 < prep.rate)
    (h : form.AsksSale db.Provisioned rules env prep cmd toman) (cost : Decimal)
    (pnlLines : List DraftPosting) :
    CashLine form (form.cashSign prep.debt) (cmd.sellInput cost pnlLines) := by
  cases h with
  | @sell primary counter pnl t type primary_eq counter_eq trade =>
  have hfits := resolveTrade_fits hdb hrate trade
  refine ⟨_, List.mem_cons_of_mem _ List.mem_cons_self, ?_, ?_⟩
  · simp [TxForm.cashAccountId, type, counter_eq, TradeCmd.sellCashLine, Trade.cmd, hfits.cash]
  · have hnet : 0 ≤ t.usd - t.feeUsd t.usd := sub_nonneg.mpr (hfits.feeUsd_le type)
    simp only [TxForm.cashSign, type, TradeCmd.sellCashLine, one_smul, safeQty]
    split
    · exact Decimal.zero_le_abs _
    · exact Decimal.mul_nonneg hnet (cashUnitsPerUsd_nonneg hfits.usd hfits.settle.le)

theorem TxForm.Books.cashLine (hdb : db.PricesNonneg) (hrate : 0 < prep.rate)
    (hprep : 0 ≤ prep.usd ∧ 0 ≤ prep.toman) (h : form.Books db.Provisioned rules env prep input toman)
    (hsign : form.cashSign prep.debt ≠ 0) : CashLine form (form.cashSign prep.debt) input := by
  cases h with
  | entry asks => exact asks.cashLine hdb hrate hprep hsign
  | sale cost asks => exact asks.cashLine hdb hrate cost _

end Lines

end Pwos
