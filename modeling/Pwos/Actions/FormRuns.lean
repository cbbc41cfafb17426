import Pwos.Actions.FormEntries

/-!
# What the form does

For a request that runs alone: its checks leave the database as it is but for accounts
(`prepareTransaction_ok`), its transaction posts the entry it asks for (`bookEntry_ok`),
freezes the rate, clears the cheque and settles the installment (`linkEntry_ok`).
-/

namespace Pwos

/-! ## The checks -/

/-- What holds of a checked request, in the database it was checked in. -/
structure Prepared.Fits (db : Db) (env : Env) (form : TxForm) (prep : Prepared) : Prop where
  rate_pos : 0 < prep.rate
  rate : prep.dated = false → ∃ fx, db.RateIs env.currentUser fx ∧ fx.rate = prep.rate
  undated : form.type ≠ .buy → prep.dated = false
  amounts : formAmounts form prep.rate = .ok (prep.usd, prep.toman)
  cheque : form.chequeId.isSome → env.currentUser.isSome
  linked : ∀ inst ∈ prep.inst, form.installmentId = some inst.id ∧
    db.findInstallment inst.id = some inst ∧ inst.status ≠ .paid ∧
    prep.debt = db.findDebt inst.debtId
  repaid : form.type = .debtRepayment → prep.debt.isSome

theorem readOnly_validateAccountOwnership (userId accountId : Uuid) :
    (validateAccountOwnership userId accountId).ReadOnly := by
  unfold validateAccountOwnership
  refine (Tx.readOnly_read _).bind fun found => ?_
  split
  · exact Tx.readOnly_fail _
  · exact (Tx.readOnly_require _ _).bind fun _ => Tx.readOnly_require _ _

theorem readOnly_assertDebtOwnership (userId debtId : Uuid) :
    (assertDebtOwnership userId debtId).ReadOnly := by
  unfold assertDebtOwnership
  refine (Tx.readOnly_read _).bind fun found => ?_
  split
  · exact Tx.readOnly_fail _
  · exact Tx.readOnly_require _ _

theorem readOnly_authorizeForm (rules : TxRules) (form : TxForm) (userId : Uuid) :
    (authorizeForm rules form userId).ReadOnly := by
  unfold authorizeForm
  refine (readOnly_each _ fun a => readOnly_validateAccountOwnership _ _).bind fun _ => ?_
  refine (readOnly_each _ fun a => readOnly_validateAccountOwnership _ _).bind fun _ => ?_
  refine (readOnly_when (readOnly_each _ fun a => ?_)).bind fun _ => ?_
  · unfold assertTomanBankAccount
    exact (Tx.readOnly_read _).bind fun _ => Tx.readOnly_require _ _
  split
  · unfold assertInstallmentOwnership
    refine (Tx.readOnly_read _).bind fun found => ?_
    split
    · exact Tx.readOnly_fail _
    · exact readOnly_assertDebtOwnership _ _
  · exact readOnly_each _ fun d => readOnly_assertDebtOwnership _ _

theorem readOnly_isDatedPurchase (env : Env) (form : TxForm) :
    (isDatedPurchase env form).ReadOnly := by
  unfold isDatedPurchase
  split
  · exact Tx.readOnly_done _
  · split
    · exact Tx.readOnly_read _
    · exact Tx.readOnly_done _

/-- A purchase alone may be frozen at the rate of its day. -/
theorem isDatedPurchase_ok {env : Env} {form : TxForm} {db : Db} {dated : Bool}
    (h : (isDatedPurchase env form).answer db = .ok dated) (htype : form.type ≠ .buy) :
    dated = false := by
  unfold isDatedPurchase Tx.answer at h
  split at h
  · cases h
    rfl
  · rw [if_neg fun hb => htype hb.1] at h
    cases h
    rfl

/-- The rate for a write is the latest one, and real. -/
theorem writableRate_ok {userId : Option Uuid} {db db' : Db} {fx : FxSnapshot}
    (h : (getWritableUsdIrtRateForUser (pure ()) userId).run db = .ok (fx, db')) :
    db' = db ∧ db.RateIs userId fx := by
  unfold getWritableUsdIrtRateForUser at h
  obtain ⟨snap, _, hsnap, h₁⟩ := Tx.run_bind_ok.mp h
  obtain rfl := (readOnly_getLatestUsdIrtRateForUser _).run_state hsnap
  split at h₁
  · exact realRate_ok h₁
  · exact realRate_ok ((Tx.run_bind_of_ok hsnap).trans h₁)

/-- What follows once the rate is known. -/
theorem rateChecks_ok {c d : Prop} [Decidable c] [Decidable d] {e e' : AppError} {rate r : Decimal}
    {db db' : Db} (h : (do Tx.require c e; Tx.require d e'; pure rate : Sql Decimal).run db =
      .ok (r, db')) : r = rate ∧ db' = db ∧ c := by
  simp only [Tx.run_require_bind] at h
  split at h
  · rename_i hc
    split at h
    · cases h
      exact ⟨rfl, rfl, hc⟩
    · cases h
  · cases h

theorem formRate_ok {rules : TxRules} {env : Env} {form : TxForm} {dated : Bool} {db db' : Db}
    {rate : Decimal} (h : (formRate rules env form dated).run db = .ok (rate, db')) :
    db' = db ∧ 0 < rate ∧
      (dated = false → ∃ fx, db.RateIs env.currentUser fx ∧ fx.rate = rate) := by
  unfold formRate at h
  cases dated with
  | true =>
    obtain ⟨_, _, hread, h₁⟩ := Tx.run_bind_ok.mp h
    cases hread
    obtain ⟨found, _, hrate, h₂⟩ := Tx.run_bind_ok.mp h₁
    obtain ⟨-, rfl⟩ := Tx.run_ofExcept_ok.mp hrate
    obtain ⟨rfl, rfl, hpos⟩ := rateChecks_ok h₂
    exact ⟨rfl, hpos, nofun⟩
  | false =>
    obtain ⟨fx, _, hfx, h₁⟩ := Tx.run_bind_ok.mp h
    obtain ⟨rfl, hrate⟩ := writableRate_ok hfx
    obtain ⟨rfl, rfl, hpos⟩ := rateChecks_ok h₁
    exact ⟨rfl, hpos, fun _ => ⟨fx, hrate, rfl⟩⟩

theorem readOnly_feeInUsd (form : TxForm) (userId : Option Uuid) (rate : Decimal) :
    (feeInUsd form userId rate).ReadOnly := by
  unfold feeInUsd
  split
  · exact Tx.readOnly_done _
  refine (Tx.readOnly_read _).bind fun asset => ?_
  split
  · exact Tx.readOnly_done _
  · exact (readOnly_nativeUnitPriceUsd _ _).bind fun _ => Tx.readOnly_done _

theorem linkedRows_ok {form : TxForm} {usd toman : Decimal} {db db' : Db}
    {debt : Option Debt} {inst : Option Installment}
    (h : (linkedRows form usd toman).run db = .ok ((debt, inst), db')) :
    db' = db ∧ ∀ r ∈ inst, form.installmentId = some r.id ∧ db.findInstallment r.id = some r ∧
      r.status ≠ .paid ∧ debt = db.findDebt r.debtId := by
  unfold linkedRows at h
  cases hlink : form.installmentId with
  | some i =>
    simp only [hlink] at h
    rw [Tx.run_read_bind] at h
    split at h
    · cases h
    rename_i row hrow
    simp only [Tx.run_require_bind, Tx.run_read_bind] at h
    split at h
    · rename_i hopen
      split at h
      · cases h
        have hid : row.id = i := by simpa using List.find?_some hrow
        refine ⟨rfl, ?_⟩
        rintro r ⟨⟩
        exact ⟨by rw [hid], by rw [hid]; exact hrow, hopen, rfl⟩
      · cases h
    · cases h
  | none =>
    simp only [hlink] at h
    cases hdebt : form.debtId with
    | some d =>
      simp only [hdebt] at h
      rw [Tx.run_read_bind] at h
      split at h
      · cases h
      · simp only [Tx.run_require_bind] at h
        split at h <;> cases h
        exact ⟨rfl, by simp⟩
    | none =>
      simp only [hdebt] at h
      cases h
      exact ⟨rfl, by simp⟩

theorem readOnly_resolveExpenseCounterAccount (userId : Option Uuid) :
    (resolveExpenseCounterAccount userId).ReadOnly := by
  unfold resolveExpenseCounterAccount
  refine (readOnly_resolveSystemAccount _ _).bind fun preferred => ?_
  split
  · exact Tx.readOnly_done _
  · exact Tx.readOnly_read _

theorem resolveCategoryAccount_writesOnly (env : Env) (form : TxForm) :
    (resolveCategoryAccount env form).WritesOnly Write.AddsAccount := by
  unfold resolveCategoryAccount
  split
  · refine (readOnly_resolveExpenseCounterAccount _).writesOnly.bind fun a => ?_
    split <;> trivial
  split
  · refine (ensureSystemAccount_writesOnly _ _ _ _ _).bind fun a => ?_
    split <;> trivial
  · trivial

theorem prepareTransaction_ok {rules : TxRules} {env : Env} {form : TxForm} {db db' : Db}
    {prep : Prepared} (h : (prepareTransaction rules env form).run db = .ok (prep, db')) :
    prep.Fits db env form ∧ ∃ accounts, db' = db.withAccounts accounts := by
  unfold prepareTransaction at h
  obtain ⟨_, _, hauth, h₁⟩ := Tx.run_bind_ok.mp h
  obtain rfl := (readOnly_each _ fun u => readOnly_authorizeForm _ _ u).run_state hauth
  obtain ⟨dated, _, hday, h₂⟩ := Tx.run_bind_ok.mp h₁
  obtain ⟨hdated, rfl⟩ := (readOnly_isDatedPurchase _ _).run_ok.mp hday
  obtain ⟨rate, _, hrate, h₃⟩ := Tx.run_bind_ok.mp h₂
  obtain ⟨rfl, hpos, hreal⟩ := formRate_ok hrate
  obtain ⟨amounts, _, hrun, h₄⟩ := Tx.run_bind_ok.mp h₃
  obtain ⟨hamounts, rfl⟩ := Tx.run_ofExcept_ok.mp hrun
  obtain ⟨fee, _, hfee, h₅⟩ := Tx.run_bind_ok.mp h₄
  obtain rfl := (readOnly_feeInUsd _ _ _).run_state hfee
  simp only [Tx.run_require_bind] at h₅
  split at h₅
  · rename_i hcheque
    obtain ⟨rows, _, hrows, h₆⟩ := Tx.run_bind_ok.mp h₅
    obtain ⟨debt, inst⟩ := rows
    obtain ⟨rfl, hlinked⟩ := linkedRows_ok hrows
    simp only [Tx.run_require_bind] at h₆
    split at h₆
    · rename_i hrepaid
      obtain ⟨account, _, haccount, h₇⟩ := Tx.run_bind_ok.mp h₆
      obtain ⟨ws, hws, rfl⟩ := (resolveCategoryAccount_writesOnly _ _).run_ok haccount
      obtain ⟨accounts, hacc⟩ := applyAll_addsAccount hws
      cases h₇
      refine ⟨⟨hpos, hreal, isDatedPurchase_ok hdated, hamounts, hcheque, hlinked, hrepaid⟩,
        accounts, hacc _⟩
    · cases h₆
  · cases h₅

/-! ## The entry -/

section Book
variable (V : Db → Prop) (rules : TxRules) (env : Env) (form : TxForm) (prep : Prepared)

/-- The entry a request may book: a posting it asks for, or a sale at some cost. -/
inductive TxForm.Books : PostEntryInput → Decimal → Prop where
  | entry {input : PostEntryInput} {toman : Decimal}
      (asks : form.Asks V rules env prep input toman) : Books input toman
  | sale {cmd : TradeCmd} {toman : Decimal} (cost : Decimal) {pnlLines : List DraftPosting}
      (asks : form.AsksSale V rules env prep cmd toman) : Books (cmd.sellInput cost pnlLines) toman

/-- How the booking of a request ends: with an entry that was there under its key, or with
the entry it asks for. -/
inductive BookOutcome (db : Db) : Booked → Db → Prop where
  | replayed {e : JournalEntry} {toman : Decimal} (accounts : List Account)
      (mem : e ∈ db.journalEntries) (key : e.idempotencyKey ≠ none) :
      BookOutcome db ⟨⟨e.id, true⟩, toman⟩ (db.withAccounts accounts)
  | posted {input : PostEntryInput} {toman : Decimal} {userId : Option Uuid} {db' : Db}
      (accounts : List Account) (books : form.Books V rules env prep input toman)
      (posted : Posted env input userId (db.withAccounts accounts) db') :
      BookOutcome db ⟨⟨env.entryId, false⟩, toman⟩ db'

end Book

section Book
variable {V : Db → Prop} {rules : TxRules} {env : Env} {form : TxForm} {prep : Prepared}

theorem withAccounts_withAccounts (db : Db) (as bs : List Account) :
    (db.withAccounts as).withAccounts bs = db.withAccounts (as ++ bs) := by
  simp [Db.withAccounts]

theorem findByIdempotencyKey_some {db : Db} {userId : Option Uuid} {k : String} {e : JournalEntry}
    (h : db.findByIdempotencyKey userId k = some e) :
    e ∈ db.journalEntries ∧ e.idempotencyKey ≠ none := by
  have hkey : e.userId = userId ∧ e.idempotencyKey = some k := by simpa using List.find?_some h
  refine ⟨List.mem_of_find?_eq_some h, ?_⟩
  rw [hkey.2]
  exact Option.some_ne_none k

theorem earlyReplay_ok {userId : Option Uuid} {key : Option String} {db db' : Db}
    {early : Option JournalEntry} (h : (earlyReplay userId key).run db = .ok (early, db')) :
    db' = db ∧ ∀ e ∈ early, e ∈ db.journalEntries ∧ e.idempotencyKey ≠ none := by
  cases key with
  | none =>
    cases h
    exact ⟨rfl, by simp⟩
  | some k =>
    rw [earlyReplay, Tx.run_read] at h
    obtain ⟨hfound, rfl⟩ := Prod.mk.inj (Except.ok.inj h)
    exact ⟨rfl, fun e he => findByIdempotencyKey_some (hfound.trans he)⟩

theorem bookOutcome_of_post {priced : Option (List OpenLot)} {input : PostEntryInput}
    {toman : Decimal} {db db' : Db} {r : PostResult} {accounts : List Account}
    (hnd : (db.lots.map (·.id)).Nodup) (books : form.Books V rules env prep input toman)
    (h : (postEntryPriced priced env input).run (db.withAccounts accounts) = .ok (r, db')) :
    BookOutcome V rules env form prep db ⟨r, toman⟩ db' := by
  have hnd' : ((db.withAccounts accounts).lots.map (·.id)).Nodup := hnd
  rcases postEntryPriced_ok hnd' h with ⟨hreplay, rfl⟩ | ⟨rfl, u, hp⟩
  · obtain ⟨_, _, e, -, -, hfound, rfl, -⟩ := hreplay
    obtain ⟨hmem, hkey⟩ := findByIdempotencyKey_some hfound
    exact .replayed accounts hmem hkey
  · exact .posted accounts books hp

theorem bookOutcome_of_sell {cmd : TradeCmd} {toman : Decimal} {db db' : Db} {r : PostResult}
    {accounts : List Account} (hnd : (db.lots.map (·.id)).Nodup)
    (asks : form.AsksSale V rules env prep cmd toman)
    (h : (recordSell env cmd).run (db.withAccounts accounts) = .ok (r, db')) :
    BookOutcome V rules env form prep db ⟨r, toman⟩ db' := by
  obtain ⟨userId, h₁⟩ := (readOnly_resolveServiceUserId _ _ _).run_bind_ok h
  obtain ⟨early, _, hearly, h₂⟩ := Tx.run_bind_ok.mp h₁
  obtain ⟨rfl, hfound⟩ := earlyReplay_ok hearly
  cases early with
  | some e =>
    cases h₂
    obtain ⟨hmem, hkey⟩ := hfound e rfl
    exact .replayed accounts hmem hkey
  | none =>
    obtain ⟨lots, h₃⟩ := (Tx.readOnly_read _).run_bind_ok h₂
    obtain ⟨lines, _, hlines, h₄⟩ := Tx.run_bind_ok.mp h₃
    obtain ⟨ws, hws, rfl⟩ := (sellPnlLines_writesOnly cmd env _ _).run_ok hlines
    obtain ⟨more, hmore⟩ := applyAll_addsAccount hws
    rw [hmore, withAccounts_withAccounts] at h₄
    exact bookOutcome_of_post hnd (.sale _ asks) h₄

/-- The transaction books an entry that the request asks for, or finds one under its key. -/
theorem bookEntry_ok {db db' : Db} {booked : Booked} (hnd : (db.lots.map (·.id)).Nodup)
    (hV : ∀ s a, V s → V (s.withAccounts [a])) (hs : V db)
    (h : (bookEntry rules env form prep).run db = .ok (booked, db')) :
    BookOutcome V rules env form prep db booked db' := by
  have hkeep : ∀ s w, V s → w.AddsAccount → V (Writable.apply w s) := by
    rintro s _ hs ⟨a, rfl⟩
    exact hV s a hs
  obtain ⟨q, ws, hq, hws, hrun⟩ := bookEntry_leads.run_ok hkeep hs h
  obtain ⟨accounts, hacc⟩ := applyAll_addsAccount hws
  rw [hacc] at hrun
  cases hq with
  | post asks =>
    obtain ⟨r, mid, hpost, hdone⟩ := Tx.run_bind_ok.mp hrun
    cases hdone
    exact bookOutcome_of_post hnd (.entry asks) hpost
  | sell asks =>
    obtain ⟨r, mid, hsell, hdone⟩ := Tx.run_bind_ok.mp hrun
    cases hdone
    exact bookOutcome_of_sell hnd asks hsell

end Book

/-! ## The links -/

/-- What a settlement through the form writes into the row. -/
def TxForm.columns (form : TxForm) (prep : Prepared) (booked : Booked) (next : PartialPayment) :
    SettledColumns :=
  { status := next.status, paidAt := form.entryDate, paidEntryId := booked.entry.id
    paidToman := next.paidToman, paidFxRate := prep.rate, paidUsd := booked.toman.div prep.rate }

def TxForm.settlement (form : TxForm) (inst : Installment) (booked : Booked) : Settlement :=
  { installmentId := inst.id, entryId := booked.entry.id, cashAccountId := form.cashAccountId
    toman := booked.toman.toFixed 0 }

/-- The row takes what the entry settles. -/
def Settles (inst : Installment) (rate toman : Decimal) (next : PartialPayment) : Prop :=
  ∃ contractual, contractualToman inst rate = .ok contractual ∧
    applyPartialPayment (inst.balanceRow contractual) (toman.toFixed 0) = .ok next

/-- The rate frozen, and the cheque cleared. -/
def Db.frozen (db : Db) (env : Env) (form : TxForm) (prep : Prepared) (booked : Booked) : Db :=
  { db with
    entryFxSnapshots := db.entryFxSnapshots ++ [{ entryId := booked.entry.id, fxRate := prep.rate }]
    cheques := match form.chequeId, env.currentUser with
      | some c, some _ => db.cheques.map fun q => if q.id = c then q.clear booked.entry.id else q
      | _, _ => db.cheques }

/-- What linking the entry found and did. -/
structure Linked (env : Env) (form : TxForm) (prep : Prepared) (booked : Booked) (db db' : Db) :
    Prop where
  fresh : ∀ f ∈ db.entryFxSnapshots, f.entryId ≠ booked.entry.id
  cheque : ∀ c ∈ form.chequeId, ∀ u ∈ env.currentUser, ∃ q, db.pendingCheque u c = some q ∧
    form.type ∈ CLEARING_TYPES q.direction
  unlinked : prep.inst = none → db' = db.frozen env form prep booked
  settled : ∀ inst ∈ prep.inst, ∃ next, Settles inst prep.rate booked.toman next ∧
    db' = ((db.frozen env form prep booked).settledWith inst.id (form.columns prep booked next)
      (form.settlement inst booked)).closeDebt inst.debtId

section Link
variable {env : Env} {form : TxForm} {prep : Prepared} {booked : Booked} {db db' : Db}

theorem clearChequeInTx_ok {chequeId userId entryId : Uuid} {type : TxType}
    (h : (clearChequeInTx chequeId userId entryId type).run db = .ok ((), db')) :
    (∃ q, db.pendingCheque userId chequeId = some q ∧ type ∈ CLEARING_TYPES q.direction) ∧
      db' = { db with cheques := db.cheques.map fun q =>
        if q.id = chequeId then q.clear entryId else q } := by
  unfold clearChequeInTx at h
  rw [Tx.run_lock_bind] at h
  split at h
  · cases h
  · rename_i q hq
    rw [Tx.run_require_bind] at h
    split at h
    · rename_i htype
      cases h
      exact ⟨⟨q, hq, htype⟩, rfl⟩
    · cases h

theorem settleLinked_ok {inst : Installment}
    (h : (settleLinked form prep inst booked).run db = .ok ((), db')) :
    ∃ next, Settles inst prep.rate booked.toman next ∧
      db' = (db.settledWith inst.id (form.columns prep booked next)
        (form.settlement inst booked)).closeDebt inst.debtId := by
  unfold settleLinked at h
  obtain ⟨snapshot, _, hrun₁, h₁⟩ := Tx.run_bind_ok.mp h
  obtain ⟨hsnapshot, rfl⟩ := Tx.run_ofExcept_ok.mp hrun₁
  obtain ⟨-, rfl⟩ := calculateInstallmentPayment_ok hsnapshot
  obtain ⟨contractual, _, hrun₂, h₂⟩ := Tx.run_bind_ok.mp h₁
  obtain ⟨hcontract, rfl⟩ := Tx.run_ofExcept_ok.mp hrun₂
  obtain ⟨next, _, hrun₃, h₃⟩ := Tx.run_bind_ok.mp h₂
  obtain ⟨hnext, rfl⟩ := Tx.run_ofExcept_ok.mp hrun₃
  obtain ⟨_, _, hwrite, h₄⟩ := Tx.run_bind_ok.mp h₃
  cases hwrite
  rw [settleDebtIfPaid_run] at h₄
  cases h₄
  exact ⟨next, ⟨contractual, hcontract, hnext⟩, rfl⟩

theorem linkEntry_ok (h : (linkEntry env form prep booked).run db = .ok ((), db')) :
    Linked env form prep booked db db' := by
  have hrest : ∀ mid : Db, (Tx.each prep.inst.toList fun inst =>
      settleLinked form prep inst booked).run mid = .ok ((), db') →
      (prep.inst = none → db' = mid) ∧ ∀ inst ∈ prep.inst, ∃ next,
        Settles inst prep.rate booked.toman next ∧
          db' = (mid.settledWith inst.id (form.columns prep booked next)
            (form.settlement inst booked)).closeDebt inst.debtId := by
    intro mid hrun
    cases hinst : prep.inst with
    | none =>
      rw [hinst] at hrun
      cases hrun
      exact ⟨fun _ => rfl, by simp⟩
    | some inst =>
      rw [hinst] at hrun
      obtain ⟨_, _, hsettle, hdone⟩ := Tx.run_bind_ok.mp hrun
      cases hdone
      refine ⟨nofun, ?_⟩
      rintro _ ⟨⟩
      exact settleLinked_ok hsettle
  unfold linkEntry insertFxSnapshot at h
  rw [Tx.run_insert_bind] at h
  split at h
  · rename_i hfresh
    cases hcheque : form.chequeId with
    | none =>
      simp only [hcheque] at h
      obtain ⟨hnone, hsome⟩ := hrest _ h
      refine ⟨hfresh, by simp [hcheque], ?_, ?_⟩
      · simp only [Db.frozen, hcheque]
        exact hnone
      · simp only [Db.frozen, hcheque]
        exact hsome
    | some c =>
      cases huser : env.currentUser with
      | none =>
        simp only [hcheque, huser] at h
        obtain ⟨hnone, hsome⟩ := hrest _ h
        refine ⟨hfresh, by simp [huser], ?_, ?_⟩
        · simp only [Db.frozen, hcheque, huser]
          exact hnone
        · simp only [Db.frozen, hcheque, huser]
          exact hsome
      | some u =>
        simp only [hcheque, huser] at h
        obtain ⟨_, mid, hclear, h₁⟩ := Tx.run_bind_ok.mp h
        obtain ⟨⟨q, hq, htype⟩, rfl⟩ := clearChequeInTx_ok hclear
        obtain ⟨hnone, hsome⟩ := hrest _ h₁
        refine ⟨hfresh, ?_, ?_, ?_⟩
        · rw [hcheque, huser]
          rintro _ ⟨⟩ _ ⟨⟩
          exact ⟨q, hq, htype⟩
        · simp only [Db.frozen, hcheque, huser]
          exact hnone
        · simp only [Db.frozen, hcheque, huser]
          exact hsome
  · cases h

end Link

/-! ## A request -/

/-- The database with new accounts. -/
def Db.Provisioned (db s : Db) : Prop := ∃ accounts, s = db.withAccounts accounts

theorem provisioned_self (db : Db) (accounts : List Account) :
    db.Provisioned (db.withAccounts accounts) := ⟨accounts, rfl⟩

theorem Db.Provisioned.more {db s : Db} (h : db.Provisioned s) (a : Account) :
    db.Provisioned (s.withAccounts [a]) := by
  obtain ⟨accounts, rfl⟩ := h
  exact ⟨_, withAccounts_withAccounts _ _ _⟩

/-- What a request comes to. A replay is refused if its rate is frozen. -/
inductive TxCall.Outcome (c : TxCall) (db : Db) : Db → Prop where
  | refused (accounts : List Account) : Outcome c db (db.withAccounts accounts)
  | booked {prep : Prepared} {input : PostEntryInput} {toman : Decimal} {userId : Option Uuid}
      {mid db' : Db} (accounts : List Account) (fits : prep.Fits db c.env c.form)
      (books : c.form.Books db.Provisioned c.rules c.env prep input toman)
      (posted : Posted c.env input userId (db.withAccounts accounts) mid)
      (linked : Linked c.env c.form prep ⟨⟨c.env.entryId, false⟩, toman⟩ mid db') :
      Outcome c db db'

theorem TxCall.outcome (c : TxCall) {db : Db} (hnd : (db.lots.map (·.id)).Nodup)
    (hk : db.KeysFrozen) : c.Outcome db (c.exec db) := by
  unfold TxCall.exec
  cases hprep : c.prepare.run db with
  | error e =>
    have h : c.Outcome db (db.withAccounts []) := .refused []
    rwa [withAccounts_nil] at h
  | ok r =>
    obtain ⟨prep, s⟩ := r
    obtain ⟨hfits, accounts, rfl⟩ := prepareTransaction_ok hprep
    have hnd' : ((db.withAccounts accounts).lots.map (·.id)).Nodup := hnd
    dsimp only
    rcases (c.record prep).ok_or_refused (db.withAccounts accounts) with ⟨r, db', hrun⟩ | hno
    · rw [Tx.exec_of_ok hrun]
      obtain ⟨booked, mid, hbook, h₁⟩ := Tx.run_bind_ok.mp hrun
      obtain ⟨_, _, hlink, hdone⟩ := Tx.run_bind_ok.mp h₁
      cases hdone
      have hlinked := linkEntry_ok hlink
      have hout : BookOutcome db.Provisioned c.rules c.env c.form prep (db.withAccounts accounts)
          booked mid :=
        bookEntry_ok hnd' (fun _ a hs => hs.more a) (provisioned_self db accounts) hbook
      cases hout with
      | @replayed e toman more mem key =>
        obtain ⟨f, hf, hid⟩ := hk e mem key
        exact absurd hid (hlinked.fresh f hf)
      | posted more books hp =>
        rw [withAccounts_withAccounts] at hp
        exact .booked _ hfits books hp hlinked
    · rw [hno.exec]
      exact .refused accounts

/-- Settle `toman` of row 1 through the form. -/
def demoForm (entryId : Uuid) (toman : Decimal) : TxCall :=
  { env := { entryId, currentUser := some 1 }
    form := { type := .debtRepayment, entryDate := 0, description := "قسط"
              primaryAccountId := some 11, irtAmount := some toman, installmentId := some 1 } }

end Pwos
