import Pwos.Actions.CashLegs

/-!
# Runs of requests and payments

Requests through the form, linked to installments or not, and Quick Pay, one after the
other. Which way the money moves is decided by the type of a request, while any linked
installment is settled: a row is paid the way of its debt where the two agree.
-/

namespace Pwos

inductive LinkedCall where
  | quick (c : PayCall)
  | form (c : TxCall)

namespace LinkedCall

def exec : LinkedCall → Db → Db
  | .quick c => c.exec
  | .form c => c.exec

/-- The account whose money the call moves. -/
def cashAccountId : LinkedCall → Option Uuid
  | .quick c => some c.cmd.cashAccountId
  | .form c => c.form.cashAccountId

end LinkedCall

/-- `db'` has a posted entry that `db` has not, with a line on the account the way of the
sign. -/
def MovesCash (accountId : Option Uuid) (sign : Int) (db db' : Db) : Prop :=
  ∃ e ∈ db'.journalEntries, e.status = .posted ∧ (∀ f ∈ db.journalEntries, f.id ≠ e.id) ∧
    ∃ p ∈ db'.postingsOf e.id, accountId = some p.accountId ∧ 0 < sign • p.quantity

instance (accountId : Option Uuid) (sign : Int) (db db' : Db) :
    Decidable (MovesCash accountId sign db db') :=
  inferInstanceAs (Decidable (∃ e ∈ db'.journalEntries, _ ∧ (∀ f ∈ db.journalEntries, _) ∧
    ∃ p ∈ db'.postingsOf e.id, _ ∧ _))

/-- A row that the call changes is paid the way of its debt. -/
def LinkedCall.PaysItsWay (c : LinkedCall) (db : Db) : Prop :=
  ∀ i r r', db.findInstallment i = some r → (c.exec db).findInstallment i = some r' → r' ≠ r →
    MovesCash c.cashAccountId (db.debtSign r.debtId) db (c.exec db)

/-- A request linked to an installment moves cash the way of its debt. -/
def LinkedCall.Agrees : LinkedCall → Db → Prop
  | .quick _, _ => True
  | .form c, db => ∀ i ∈ c.form.installmentId, ∀ r ∈ db.findInstallment i,
    c.form.cashSign (db.findDebt r.debtId) = db.debtSign r.debtId

/-- The books the calls keep. -/
structure Linkable (db : Db) : Prop extends LedgerInv db where
  frozen : db.KeysFrozen
  prices : db.PricesNonneg

/-! ## What the links leave alone -/

section Linked
variable {db mid db' : Db} {env : Env} {form : TxForm} {prep : Prepared} {booked : Booked}

theorem closeDebt_eq (db : Db) (debtId : Uuid) :
    ∃ debts, db.closeDebt debtId = { db with debts } := by
  unfold Db.closeDebt
  split
  · exact ⟨_, rfl⟩
  · exact ⟨db.debts, rfl⟩

/-- Beside the freezing and the cheque, only obligations change. -/
theorem Linked.tables (h : Linked env form prep booked mid db') : ∃ installments settlements debts,
    db' = { mid.frozen env form prep booked with installments, settlements, debts } := by
  cases hinst : prep.inst with
  | none => exact ⟨_, _, _, h.unlinked hinst⟩
  | some inst =>
    obtain ⟨next, -, rfl⟩ := h.settled inst hinst
    obtain ⟨debts, hd⟩ := closeDebt_eq ((mid.frozen env form prep booked).settledWith inst.id
      (form.columns prep booked next) (form.settlement inst booked)) inst.debtId
    exact ⟨_, _, debts, hd⟩

theorem LedgerInv.linked (hi : LedgerInv mid) (h : Linked env form prep booked mid db') :
    LedgerInv db' := by
  obtain ⟨installments, settlements, debts, rfl⟩ := h.tables
  have hfrozen : LedgerInv (mid.frozen env form prep booked) :=
    { entryIds := hi.entryIds, lotIds := hi.lotIds, entryUser := hi.entryUser
      postingEntry := hi.postingEntry, lotEntry := hi.lotEntry, lotAsset := hi.lotAsset
      consumptionEntry := hi.consumptionEntry, consumptionLot := hi.consumptionLot
      consumptionPos := hi.consumptionPos, live := hi.live, void := hi.void
      nonneg := hi.nonneg, opened := hi.opened }
  exact hfrozen.planning _ _ _

/-- A row that changes is the linked one. -/
theorem Linked.changed (h : Linked env form prep booked mid db') {i : Uuid} {r r' : Installment}
    (hr : mid.findInstallment i = some r) (hr' : db'.findInstallment i = some r') (hne : r' ≠ r) :
    ∃ inst ∈ prep.inst, inst.id = i := by
  cases hinst : prep.inst with
  | none =>
    rw [h.unlinked hinst] at hr'
    have hsame : (mid.frozen env form prep booked).findInstallment i = mid.findInstallment i := rfl
    rw [hsame, hr] at hr'
    exact absurd (Option.some.inj hr').symm hne
  | some inst =>
    refine ⟨inst, rfl, ?_⟩
    by_contra hid
    obtain ⟨next, -, rfl⟩ := h.settled inst hinst
    have hrows : (((mid.frozen env form prep booked).settledWith inst.id
        (form.columns prep booked next) (form.settlement inst booked)).closeDebt
          inst.debtId).installments = mid.installments.map fun r =>
            if r.id = inst.id then r.settle (form.columns prep booked next) else r :=
      closeDebt_installments _ _
    rw [findInstallment_settle hrows, hr, Option.map_some, if_neg (Ne.symm hid)] at hr'
    exact hne (Option.some.inj hr').symm

end Linked

/-! ## One call -/

/-- A line that is not zero. -/
theorem signed_pos {direction : Option String} {q : Decimal} (hq : q ≠ 0)
    (h : 0 ≤ settlementSign direction • q) : 0 < settlementSign direction • q := by
  refine lt_of_le_of_ne h fun hzero => hq ?_
  rcases settlementSign_eq direction with hs | hs <;> rw [hs] at hzero <;> simpa using hzero.symm

section Step
variable {db db' : Db}

theorem movesCash_posted {env : Env} {input : PostEntryInput} {userId : Option Uuid} {mid : Db}
    {accounts : List Account} {accountId : Option Uuid} {direction : Option String}
    (hp : Posted env input userId (db.withAccounts accounts) mid)
    (hentries : db'.journalEntries = mid.journalEntries) (hpostings : db'.postings = mid.postings)
    {l : DraftPosting} (hl : l ∈ input.postings) (hacc : accountId = some l.accountId)
    (hsign : 0 ≤ settlementSign direction • l.quantity) :
    MovesCash accountId (settlementSign direction) db db' := by
  have hmid := hp.written.result
  refine ⟨input.entryRow env.entryId userId, ?_, rfl, hp.written.entry.1, l.row env.entryId, ?_,
    hacc, signed_pos (hp.balanced.nonzero l hl) hsign⟩
  · rw [hentries, hmid]
    exact List.mem_append_right _ (List.mem_singleton.mpr rfl)
  · refine List.mem_filter.mpr ⟨?_, decide_eq_true rfl⟩
    rw [hpostings, hmid]
    exact List.mem_append_right _ (List.mem_map_of_mem hl)

theorem Linkable.provision (h : Linkable db) (accounts : List Account) :
    Linkable (db.withAccounts accounts) where
  toLedgerInv := h.toLedgerInv.step (.provision accounts)
  frozen := h.frozen
  prices := h.prices

theorem Linkable.posted {env : Env} {input : PostEntryInput} {userId : Option Uuid} {mid : Db}
    {accounts : List Account} (h : Linkable db)
    (hp : Posted env input userId (db.withAccounts accounts) mid) :
    LedgerInv mid ∧ mid.PricesNonneg := by
  have hinv := (h.provision accounts).toLedgerInv
  refine ⟨hinv.step (hp.step hinv.lotIds), ?_⟩
  rw [hp.written.result]
  exact h.prices

/-! ### Through the form -/

theorem form_step (c : TxCall) (h : Linkable db) :
    Linkable (c.exec db) ∧ ((LinkedCall.form c).Agrees db → (LinkedCall.form c).PaysItsWay db) := by
  have hout := c.outcome h.lotIds h.frozen
  unfold LinkedCall.PaysItsWay LinkedCall.exec
  dsimp only
  generalize c.exec db = db' at hout ⊢
  cases hout with
  | refused accounts =>
    refine ⟨h.provision accounts, fun _ i r r' hr hr' hne => absurd ?_ hne⟩
    exact Option.some.inj (hr'.symm.trans hr)
  | @booked prep input toman userId mid db' accounts fits books posted linked =>
    obtain ⟨hinv, hprices⟩ := h.posted posted
    have hmid := posted.written.result
    obtain ⟨installments, settlements, debts, heq⟩ := linked.tables
    have hentries : db'.journalEntries = mid.journalEntries := by rw [heq]; rfl
    have hpostings : db'.postings = mid.postings := by rw [heq]; rfl
    refine ⟨⟨hinv.linked linked, ?_, by rw [heq]; exact hprices⟩, fun hagrees i r r' hr hr' hne => ?_⟩
    · intro e he hkey
      have hsnap : db'.entryFxSnapshots = db.entryFxSnapshots ++ [{ entryId := c.env.entryId, fxRate := prep.rate }] := by
        rw [heq, hmid]
        rfl
      rw [hentries, hmid] at he
      rw [hsnap]
      rcases List.mem_append.mp he with he | he
      · obtain ⟨f, hf, hid⟩ := h.frozen e he hkey
        exact ⟨f, List.mem_append_left _ hf, hid⟩
      · obtain rfl := List.mem_singleton.mp he
        exact ⟨_, List.mem_append_right _ (List.mem_singleton.mpr rfl), rfl⟩
    · have hrow : mid.findInstallment i = some r := by rw [hmid]; exact hr
      obtain ⟨inst, hinst, rfl⟩ := linked.changed hrow hr' hne
      obtain ⟨hlink, hfound, -, hdebt⟩ := fits.linked inst hinst
      obtain rfl := Option.some.inj (hr.symm.trans hfound)
      have hway : c.form.cashSign prep.debt = db.debtSign r.debtId := by
        rw [hdebt]
        exact hagrees _ hlink r hr
      obtain ⟨husd, htoman⟩ := formAmounts_ok fits.rate_pos fits.amounts
      have hne' : c.form.cashSign prep.debt ≠ 0 := by
        rw [hway, Db.debtSign]
        rcases settlementSign_eq ((db.findDebt r.debtId).map (·.direction)) with hs | hs <;>
          rw [hs] <;> decide
      obtain ⟨l, hl, hacc, hsign⟩ := books.cashLine h.prices fits.rate_pos ⟨husd.le, htoman⟩ hne'
      rw [hway] at hsign
      exact movesCash_posted posted hentries hpostings hl hacc hsign

/-! ### Quick Pay -/

/-- What a payment moves is not negative. -/
theorem Payment.cash_nonneg {cmd : PayCmd} {p : Payment} {accounts : List Account}
    (hprices : db.PricesNonneg) (hm : p.Made db cmd) (hp : p.Priced (db.withAccounts accounts)) :
    0 ≤ p.cash.2 := by
  obtain ⟨price, hprice, hcash⟩ := hp
  obtain ⟨fx, hfx, howed⟩ := hm.owed
  obtain ⟨contractual, -, -, -, hnext⟩ := howed.contract
  have hsettled := Decimal.pos_of_toFixed_pos (applyPartialPayment_pos hnext)
  have hpaid : 0 ≤ p.snapshot.paidUsd := by
    obtain ⟨hpos, hsnap⟩ := calculateInstallmentPayment_ok howed.snapshot
    rw [hsnap]
    exact Decimal.div_nonneg hsettled.le hpos.le
  have hunit : 0 ≤ if price = 0 then Decimal.ofInt 1 else price := by
    split
    · decide
    · exact price_nonneg hprices
        ((readOnly_nativeUnitPriceUsd _ _).gives (provisioned_self db accounts) hprice)
  rw [hcash]
  unfold cashQuantity
  split
  · exact Decimal.toFixed_nonneg hsettled.le 0
  split
  · exact Decimal.toFixed_nonneg (Decimal.mul_nonneg hsettled.le (by decide)) 0
  · exact Decimal.div_nonneg hpaid hunit

theorem quick_step (c : PayCall) (h : Linkable db) :
    Linkable (c.exec db) ∧ (LinkedCall.quick c).PaysItsWay db := by
  unfold LinkedCall.PaysItsWay LinkedCall.exec
  dsimp only
  have hsame : ∀ accounts, Linkable (db.withAccounts accounts) ∧ ∀ i r r',
      db.findInstallment i = some r → (db.withAccounts accounts).findInstallment i = some r' →
        r' ≠ r → MovesCash (LinkedCall.quick c).cashAccountId (db.debtSign r.debtId) db
          (db.withAccounts accounts) := by
    refine fun accounts => ⟨h.provision accounts, fun i r r' hr hr' hne => absurd ?_ hne⟩
    exact Option.some.inj (hr'.symm.trans hr)
  rcases (payInstallment c.env c.cmd).ok_or_refused db with ⟨result, db', hrun⟩ | hno
  · rw [PayCall.exec, Tx.exec_of_ok hrun]
    cases result with
    | alreadyPaid e =>
      cases payInstallment_ok h.lotIds hrun with
      | closed row paid =>
        have hnil := hsame []
        rwa [withAccounts_nil] at hnil
      | empty accounts row unpaid nothing => exact hsame accounts
    | settled e contra direction next =>
      obtain ⟨p, accounts, userId, mid, made, priced, posted, rfl⟩ :=
        payInstallment_settled h.lotIds hrun
      obtain ⟨debts, heq⟩ := closeDebt_eq (((db.withAccounts accounts).withEntry (p.entry c.env userId)
        (p.lines c.env)).settledWith p.inst.id (p.columns c.env c.env.entryId)
          (p.settlement c.env.entryId)) p.debt.id
      have hmid := posted.written.result
      refine ⟨⟨result_inv h.toLedgerInv posted, ?_, ?_⟩, fun i r r' hr hr' hne => ?_⟩
      · intro e he hkey
        have hsnap : (p.result c.env db accounts userId).entryFxSnapshots = db.entryFxSnapshots := by
          rw [Payment.result, heq]
          rfl
        rw [result_journalEntries] at he
        rw [hsnap]
        rcases List.mem_append.mp he with he | he
        · exact h.frozen e he hkey
        · obtain rfl := List.mem_singleton.mp he
          exact absurd rfl hkey
      · rw [Payment.result, heq]
        exact h.prices
      · rw [findInstallment_settle result_installments, hr, Option.map_some] at hr'
        obtain ⟨-, hid, hdebt, -⟩ := made.found
        have hi : i = p.inst.id := by
          by_contra hi
          rw [if_neg hi] at hr'
          exact hne (Option.some.inj hr').symm
        obtain ⟨inst, hinst, hrow⟩ := Option.bind_eq_some_iff.mp made.row
        obtain ⟨_, -, hpair⟩ := Option.map_eq_some_iff.mp hrow
        obtain ⟨rfl, -⟩ := Prod.mk.inj hpair
        rw [← hid, ← hi, hr] at hinst
        obtain rfl := Option.some.inj hinst
        have hway : db.debtSign p.inst.debtId = p.sign := by
          rw [Db.debtSign, hdebt]
          rfl
        rw [hway]
        refine movesCash_posted posted ?_ ?_ List.mem_cons_self ?_ ?_
        · rw [result_journalEntries, hmid]
          rfl
        · rw [result_postings, hmid]
          rfl
        · rw [LinkedCall.cashAccountId, ← made.fromCash.account]
          rfl
        · have hone : settlementSign p.debt.direction * settlementSign p.debt.direction = 1 :=
            sign_mul_self _
          rw [Payment.cashLeg, Payment.sign, smul_smul, hone, one_smul]
          exact Payment.cash_nonneg h.prices made priced
  · rw [PayCall.exec, hno.exec]
    have hnil := hsame []
    rwa [withAccounts_nil] at hnil

end Step

/-! ## Runs -/

theorem LinkedCall.exec_linkable (c : LinkedCall) (h : Linkable db) : Linkable (c.exec db) := by
  cases c with
  | quick c => exact (quick_step c h).1
  | form c => exact (form_step c h).1

/-- In a run whose linked requests agree with the debts of their rows, every row that changes
is paid by an entry that moves cash the way of its debt. -/
theorem rows_paid_their_way {db : Db} (h : Linkable db) (calls : List LinkedCall)
    (hc : EveryCall LinkedCall.exec LinkedCall.Agrees calls db) :
    EveryCall LinkedCall.exec LinkedCall.PaysItsWay calls db := by
  induction calls generalizing db with
  | nil => trivial
  | cons c calls ih =>
    refine ⟨?_, ih (c.exec_linkable h) hc.2⟩
    cases c with
    | quick c => exact (quick_step c h).2
    | form c => exact (form_step c h).2 hc.1

theorem demoDebt_linkable : Linkable demoDebt where
  toLedgerInv := demoDebt_scheduled.ledger
  frozen := by decide
  prices := by decide

theorem demo_paid_its_way : EveryCall LinkedCall.exec LinkedCall.PaysItsWay
    [.quick (demoPay 1 1 11 (some (.ofInt 20))), .form (demoForm 2 (.ofInt 40))] demoDebt := by
  refine rows_paid_their_way demoDebt_linkable _ ⟨trivial, ?_, trivial⟩
  intro i _ r _
  rfl

/-- 40 Toman of income, linked to row 1. -/
def demoIncome : TxCall :=
  { env := { entryId := 1, currentUser := some 1 }
    form := { type := .income, entryDate := 0, description := "درآمد", primaryAccountId := some 11
              counterAccountId := some 13, irtAmount := some (.ofInt 40)
              installmentId := some 1 } }

/-- The debt is payable: its rows are paid by money that leaves. An income linked to one settles
it, and the money comes in. -/
theorem income_settles_payable : Linkable demoDebt ∧ ∃ r r', demoDebt.findInstallment 1 = some r ∧
    (demoIncome.exec demoDebt).findInstallment 1 = some r' ∧ demoDebt.debtSign r.debtId = -1 ∧
    r.paidToman.getD 0 < r'.paidToman.getD 0 ∧
    ¬ MovesCash demoIncome.form.cashAccountId (-1) demoDebt (demoIncome.exec demoDebt) ∧
    MovesCash demoIncome.form.cashAccountId 1 demoDebt (demoIncome.exec demoDebt) := by
  refine ⟨demoDebt_linkable, _, _, rfl, rfl, ?_, ?_, ?_, ?_⟩ <;> decide

end Pwos
