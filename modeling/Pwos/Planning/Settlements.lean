import Pwos.Ledger.Journal
import Pwos.Planning.Balance
import Pwos.Planning.Payments

/-!
# Runs of Quick Pay

Payments of the rows of a debt, one after the other. Every row holds a balance that its
payments fill up, and the debt is settled when all are full, whatever the payments; the
legs on the paying accounts add up to it if each moves whole Toman.
-/

namespace Pwos

namespace Db
variable (db : Db)

/-- The installments of a debt. -/
def rowsOf (debtId : Uuid) : List Installment := db.installments.filter (·.debtId = debtId)

def settlementsOf (installmentId : Uuid) : List Settlement :=
  db.settlements.filter (·.installmentId = installmentId)

/-- What the settlements of an installment settled. -/
def settledToman (installmentId : Uuid) : Decimal :=
  ((db.settlementsOf installmentId).map (·.toman)).sum

/-- The line of an entry on the account that pays or receives: its first. -/
def cashLeg (entryId : Uuid) : Option Posting := (db.postingsOf entryId).head?

/-- The unit of an account. -/
def cashUnit (accountId : Uuid) : Option String :=
  ((db.findAccount accountId).bind (·.assetId)).map db.unitOf

/-- What a line moves, in Toman. Ten Rials are one Toman. -/
def tomanOf (p : Posting) : Decimal :=
  if db.unitOf p.assetId = "IRR" then p.quantity.div (.ofInt 10) else p.quantity

/-- The Toman the posted entries of an installment moved, counted in the direction `sign`. -/
def movedToman (sign : Int) (installmentId : Uuid) : Decimal :=
  ((db.settlementsOf installmentId).map fun s =>
    if db.Posted s.entryId then ((db.cashLeg s.entryId).map fun p => sign • db.tomanOf p).getD 0
    else 0).sum

end Db

/-! ## One payment -/

@[simp] theorem settle_id (i : Installment) (c : SettledColumns) : (i.settle c).id = i.id := rfl
@[simp] theorem settle_debtId (i : Installment) (c : SettledColumns) :
    (i.settle c).debtId = i.debtId := rfl
@[simp] theorem settle_status (i : Installment) (c : SettledColumns) :
    (i.settle c).status = c.status := rfl

section Close
variable (db : Db) (debtId : Uuid)

@[simp] theorem closeDebt_installments : (db.closeDebt debtId).installments = db.installments := by
  unfold Db.closeDebt; split <;> rfl
@[simp] theorem closeDebt_settlements : (db.closeDebt debtId).settlements = db.settlements := by
  unfold Db.closeDebt; split <;> rfl
@[simp] theorem closeDebt_journalEntries :
    (db.closeDebt debtId).journalEntries = db.journalEntries := by
  unfold Db.closeDebt; split <;> rfl
@[simp] theorem closeDebt_postings : (db.closeDebt debtId).postings = db.postings := by
  unfold Db.closeDebt; split <;> rfl
@[simp] theorem closeDebt_assets : (db.closeDebt debtId).assets = db.assets := by
  unfold Db.closeDebt; split <;> rfl
@[simp] theorem closeDebt_accounts : (db.closeDebt debtId).accounts = db.accounts := by
  unfold Db.closeDebt; split <;> rfl

end Close

/-- Debts, installments and their settlements are no part of the ledger. -/
theorem LedgerInv.planning {db : Db} (h : LedgerInv db) (installments : List Installment)
    (settlements : List Settlement) (debts : List Debt) :
    LedgerInv { db with installments, settlements, debts } :=
  h.same ⟨rfl, rfl, rfl, rfl, rfl, rfl⟩

/-- A settlement changes its own row only. -/
theorem findInstallment_settle {db db' : Db} {i j : Uuid} {c : SettledColumns}
    (h : db'.installments = db.installments.map fun r => if r.id = j then r.settle c else r) :
    db'.findInstallment i = (db.findInstallment i).map fun r => if i = j then r.settle c else r := by
  have hid : ((fun r : Installment => decide (r.id = i)) ∘ fun r =>
      if r.id = j then r.settle c else r) = fun r => decide (r.id = i) := by
    funext r
    simp only [Function.comp]
    split <;> rfl
  unfold Db.findInstallment
  rw [h, List.find?_map, hid]
  cases hr : db.installments.find? fun r => decide (r.id = i) with
  | none => rfl
  | some r =>
    have hri : r.id = i := by simpa using List.find?_some hr
    simp [hri]

/-- What a payment was made of, found in the tables. -/
theorem Payment.Made.found {db : Db} {cmd : PayCmd} {p : Payment} (h : p.Made db cmd) :
    p.inst ∈ db.installments ∧ p.inst.id = cmd.installmentId ∧
      db.findDebt p.inst.debtId = some p.debt ∧ p.debt.id = p.inst.debtId := by
  obtain ⟨inst, hi, h⟩ := Option.bind_eq_some_iff.mp h.row
  obtain ⟨debt, hd, h⟩ := Option.map_eq_some_iff.mp h
  obtain ⟨hd, -⟩ := Option.filter_eq_some_iff.mp hd
  cases h
  exact ⟨List.mem_of_find?_eq_some hi, by simpa using List.find?_some hi, hd,
    by simpa using List.find?_some hd⟩

section Result
variable {env : Env} {p : Payment} {db : Db} {accounts : List Account} {userId : Option Uuid}

theorem result_installments : (p.result env db accounts userId).installments =
    db.installments.map fun r =>
      if r.id = p.inst.id then r.settle (p.columns env env.entryId) else r := by
  simp [Payment.result, Db.settledWith, Db.withEntry, Db.withAccounts]

theorem result_settlements : (p.result env db accounts userId).settlements =
    db.settlements ++ [p.settlement env.entryId] := by
  simp [Payment.result, Db.settledWith, Db.withEntry, Db.withAccounts]

theorem result_postings : (p.result env db accounts userId).postings =
    db.postings ++ p.lines env := by
  simp [Payment.result, Db.settledWith, Db.withEntry, Db.withAccounts]

theorem result_assets : (p.result env db accounts userId).assets = db.assets := by
  simp [Payment.result, Db.settledWith, Db.withEntry, Db.withAccounts]

theorem result_journalEntries : (p.result env db accounts userId).journalEntries =
    db.journalEntries ++ [p.entry env userId] := by
  simp [Payment.result, Db.settledWith, Db.withEntry, Db.withAccounts]

theorem result_posted (e : Uuid) : (p.result env db accounts userId).Posted e ↔
    db.Posted e ∨ e = env.entryId := by
  unfold Db.Posted
  rw [result_journalEntries]
  simp only [List.mem_append, List.mem_singleton, or_and_right, exists_or, exists_eq_left]
  exact or_congr_right ⟨fun h => h.1.symm, fun h => ⟨h.symm, rfl⟩⟩

theorem result_inv (hi : LedgerInv db) {mid : Db}
    (hp : Posted env (p.input env) userId (db.withAccounts accounts) mid) :
    LedgerInv (p.result env db accounts userId) := by
  have h₁ : LedgerInv (db.withAccounts accounts) := hi.step (.provision accounts)
  have h₂ := h₁.step (hp.step h₁.lotIds)
  rw [hp.written.result, newLots_nil rfl, consumptions_nil rfl, recorded_plain] at h₂
  unfold Payment.result Db.closeDebt Db.settledWith
  split
  · exact h₂.planning _ _ _
  · exact h₂.planning _ _ _

theorem result_cashLeg_new (hi : LedgerInv db) {mid : Db}
    (hp : Posted env (p.input env) userId (db.withAccounts accounts) mid) :
    (p.result env db accounts userId).cashLeg env.entryId = some (p.cashLeg.row env.entryId) := by
  have hnil : db.postings.filter (·.entryId = env.entryId) = [] :=
    postingsOf_fresh hi.toWellFormed hp.written.entry.1
  unfold Db.cashLeg Db.postingsOf
  rw [result_postings, List.filter_append, hnil]
  simp [Payment.lines, Payment.input, DraftPosting.row]

theorem result_cashLeg_old {mid : Db}
    (hp : Posted env (p.input env) userId (db.withAccounts accounts) mid) {e : Uuid}
    (he : db.Posted e) : (p.result env db accounts userId).cashLeg e = db.cashLeg e := by
  obtain ⟨f, hf, rfl, -⟩ := he
  have hne : env.entryId ≠ f.id := Ne.symm (hp.written.entry.1 f hf)
  have hnil : (p.lines env).filter (·.entryId = f.id) = [] := by
    refine List.filter_eq_nil_iff.mpr fun q hq => ?_
    obtain ⟨_, _, rfl⟩ := List.mem_map.mp hq
    rw [decide_eq_true_eq]
    exact hne
  unfold Db.cashLeg Db.postingsOf
  rw [result_postings, List.filter_append, hnil, List.append_nil]

theorem settledToman_result (i : Uuid) : (p.result env db accounts userId).settledToman i =
    db.settledToman i + if p.inst.id = i then p.settled.toFixed 0 else 0 := by
  unfold Db.settledToman Db.settlementsOf
  rw [result_settlements, List.filter_append, List.map_append, List.sum_append]
  congr 1
  by_cases h : p.inst.id = i <;> simp [Payment.settlement, h]

/-- The rows of a debt after a payment: the paid one is settled. -/
theorem mem_rowsOf_result {debtId : Uuid} {j : Installment} :
    j ∈ (p.result env db accounts userId).rowsOf debtId ↔ ∃ i ∈ db.rowsOf debtId,
      j = if i.id = p.inst.id then i.settle (p.columns env env.entryId) else i := by
  unfold Db.rowsOf
  rw [result_installments]
  simp only [List.mem_filter, List.mem_map, decide_eq_true_eq]
  constructor
  · rintro ⟨⟨i, hi, rfl⟩, hj⟩
    refine ⟨i, ⟨hi, ?_⟩, rfl⟩
    split at hj <;> exact hj
  · rintro ⟨i, ⟨hi, hd⟩, rfl⟩
    refine ⟨⟨i, hi, rfl⟩, ?_⟩
    split <;> exact hd

end Result

/-! ## The invariant -/

/-- Every row of the debt holds a balance, which its settlements add up to, and the debt
is settled when nothing is outstanding. -/
structure Repaying (db : Db) (debtId : Uuid) : Prop extends LedgerInv db where
  installmentIds : (db.installments.map (·.id)).Nodup
  debtIds : (db.debts.map (·.id)).Nodup
  rows : ∀ i ∈ db.rowsOf debtId, ∃ b : Balance, i.Holds b ∧ db.settledToman i.id = .ofInt b.paid
  posted : ∀ i ∈ db.rowsOf debtId, ∀ s ∈ db.settlementsOf i.id, db.Posted s.entryId
  debt : ∃ d, db.findDebt debtId = some d ∧ (d.status = .settled ↔ db.outstandingOf debtId = [])

theorem outstandingOf_eq_nil {db : Db} {debtId : Uuid} :
    db.outstandingOf debtId = [] ↔ ∀ i ∈ db.rowsOf debtId, i.status = .paid := by
  unfold Db.outstandingOf Db.rowsOf
  simp only [List.filter_eq_nil_iff, List.mem_filter, decide_eq_true_eq]
  grind

theorem findDebt_closeDebt {db : Db} {debtId d' : Uuid} :
    (db.closeDebt debtId).findDebt d' = (db.findDebt d').map fun d =>
      if d' = debtId ∧ db.outstandingOf debtId = [] then { d with status := .settled } else d := by
  unfold Db.closeDebt Db.findDebt
  by_cases hout : db.outstandingOf debtId = []
  · rw [if_pos hout]
    simp only [List.find?_map, hout, and_true]
    have hid : ((fun d : Debt => decide (d.id = d')) ∘ fun d =>
        if d.id = debtId then { d with status := .settled } else d) = fun d => decide (d.id = d') := by
      funext d
      simp only [Function.comp]
      split <;> rfl
    rw [hid]
    cases h : db.debts.find? fun d => decide (d.id = d') with
    | none => rfl
    | some d =>
      have hd : d.id = d' := by simpa using List.find?_some h
      simp [hd]
  · simp [hout]

section Step
variable {env : Env} {cmd : PayCmd} {p : Payment} {db mid : Db} {accounts : List Account}
  {userId : Option Uuid} {debtId : Uuid}

theorem result_findDebt (d' : Uuid) : (p.result env db accounts userId).findDebt d' =
    (db.findDebt d').map fun d =>
      if d' = p.debt.id ∧ (p.result env db accounts userId).outstandingOf p.debt.id = [] then
        { d with status := .settled } else d := by
  have hout : (p.result env db accounts userId).outstandingOf p.debt.id =
      (((db.withAccounts accounts).withEntry (p.entry env userId) (p.lines env)).settledWith p.inst.id
        (p.columns env env.entryId) (p.settlement env.entryId)).outstandingOf p.debt.id := by
    unfold Db.outstandingOf Payment.result
    rw [closeDebt_installments]
  rw [hout]
  exact findDebt_closeDebt

/-- A payment of a row that holds a balance fills it up by what was settled. -/
theorem Payment.Owed.fills {rate : Decimal} (h : p.Owed cmd rate) {b : Balance}
    (hb : p.inst.Holds b) : ∃ k : Nat, 0 < k ∧ k ≤ b.left ∧ p.settled.toFixed 0 = .ofInt k ∧
      p.next = b.afterPaying k := by
  obtain ⟨contractual, hc, -, -, hnext⟩ := h.contract
  obtain rfl := hb.contractual_eq hc
  exact (applyPartialPayment_iff hb _ _).mp hnext

theorem rows_result (h : Repaying db debtId) (hm : p.Made db cmd) {j : Installment}
    (hj : j ∈ (p.result env db accounts userId).rowsOf debtId) : ∃ b : Balance, j.Holds b ∧
      (p.result env db accounts userId).settledToman j.id = .ofInt b.paid := by
  obtain ⟨i, hi, rfl⟩ := mem_rowsOf_result.mp hj
  obtain ⟨b, hb, hsum⟩ := h.rows i hi
  rw [settledToman_result]
  by_cases hid : i.id = p.inst.id
  · have hrow : i = p.inst := List.inj_on_of_nodup_map h.installmentIds
      (List.mem_of_mem_filter hi) hm.found.1 hid
    subst hrow
    obtain ⟨fx, -, howed⟩ := hm.owed
    obtain ⟨k, -, hk, hsettled, hnext⟩ := howed.fills hb
    rw [if_pos rfl]
    refine ⟨b.fill k hk, hb.settle hk ?_ ?_, ?_⟩
    · rw [← hnext]; rfl
    · rw [← hnext]; rfl
    · rw [settle_id, hsum, if_pos rfl, hsettled, Decimal.ofInt_add]
      simp [Balance.fill]
  · rw [if_neg hid, if_neg (Ne.symm hid), add_zero]
    exact ⟨b, hb, hsum⟩

theorem posted_result (h : Repaying db debtId) {j : Installment}
    (hj : j ∈ (p.result env db accounts userId).rowsOf debtId) :
    ∀ s ∈ (p.result env db accounts userId).settlementsOf j.id,
      (p.result env db accounts userId).Posted s.entryId := by
  obtain ⟨i, hi, rfl⟩ := mem_rowsOf_result.mp hj
  have hid : (if i.id = p.inst.id then i.settle (p.columns env env.entryId) else i).id = i.id := by
    split <;> rfl
  intro s hs
  rw [hid, Db.settlementsOf, result_settlements, List.filter_append, List.mem_append] at hs
  rw [result_posted]
  rcases hs with hs | hs
  · exact .inl (h.posted i hi s hs)
  · obtain rfl := List.mem_singleton.mp (List.mem_of_mem_filter hs)
    exact .inr rfl

/-- Before the payment its debt was outstanding; after it the debt is settled at once if
that was the last row. -/
theorem debt_result (h : Repaying db debtId) (hm : p.Made db cmd) :
    ∃ d, (p.result env db accounts userId).findDebt debtId = some d ∧
      (d.status = .settled ↔ (p.result env db accounts userId).outstandingOf debtId = []) := by
  obtain ⟨d, hd, hiff⟩ := h.debt
  obtain ⟨hmem, -, -, hdebt⟩ := hm.found
  rw [result_findDebt, hd]
  refine ⟨_, rfl, ?_⟩
  by_cases hp : debtId = p.debt.id
  · subst hp
    have hopen : db.outstandingOf p.debt.id ≠ [] := by
      rw [Ne, outstandingOf_eq_nil]
      intro hall
      exact hm.unpaid (hall p.inst (List.mem_filter.mpr ⟨hmem, decide_eq_true hdebt.symm⟩))
    by_cases hout : (p.result env db accounts userId).outstandingOf p.debt.id = []
    · simp [hout]
    · simp only [hout, and_false, if_false, iff_false]
      exact fun hs => hopen (hiff.mp hs)
  · have hother : (p.result env db accounts userId).outstandingOf debtId = [] ↔
        db.outstandingOf debtId = [] := by
      rw [outstandingOf_eq_nil, outstandingOf_eq_nil]
      simp only [mem_rowsOf_result]
      have hne : ∀ i ∈ db.rowsOf debtId, i.id ≠ p.inst.id := by
        intro i hi hid
        have hrow := List.inj_on_of_nodup_map h.installmentIds (List.mem_of_mem_filter hi) hmem hid
        have hdi : i.debtId = debtId := of_decide_eq_true (List.mem_filter.mp hi).2
        exact hp (by rw [hdebt, ← hrow, hdi])
      grind
    simp only [hp, false_and, if_false, hother]
    exact hiff

/-- A payment keeps the books of every debt. -/
theorem Repaying.pay (h : Repaying db debtId) (hm : p.Made db cmd)
    (hp : Posted env (p.input env) userId (db.withAccounts accounts) mid) :
    Repaying (p.result env db accounts userId) debtId where
  toLedgerInv := result_inv h.toLedgerInv hp
  installmentIds := by
    rw [result_installments, List.map_map]
    convert h.installmentIds using 2
    funext i
    simp only [Function.comp]
    split <;> rfl
  debtIds := by
    unfold Payment.result Db.closeDebt
    split
    · simp only [Db.settledWith, Db.withEntry, Db.withAccounts, List.map_map]
      convert h.debtIds using 2
      funext d
      simp only [Function.comp]
      split <;> rfl
    · exact h.debtIds
  rows := fun _ => rows_result h hm
  posted := fun _ => posted_result h
  debt := debt_result h hm

theorem Repaying.provision (h : Repaying db debtId) (accounts : List Account) :
    Repaying (db.withAccounts accounts) debtId where
  toLedgerInv := h.toLedgerInv.step (.provision accounts)
  installmentIds := h.installmentIds
  debtIds := h.debtIds
  rows := h.rows
  posted := h.posted
  debt := h.debt

/-! ## The paying accounts -/

/-- The way a settlement of the debt moves cash. -/
def Db.debtSign (db : Db) (debtId : Uuid) : Int :=
  settlementSign ((db.findDebt debtId).map (·.direction))

theorem debtSign_result : (p.result env db accounts userId).debtSign debtId = db.debtSign debtId := by
  unfold Db.debtSign
  rw [result_findDebt, Option.map_map]
  congr 2
  funext d
  simp only [Function.comp]
  split <;> rfl

theorem unitOf_result (a : Uuid) : (p.result env db accounts userId).unitOf a = db.unitOf a := by
  unfold Db.unitOf Db.findAsset
  rw [result_assets]

/-- The payment moves whole Toman: a Toman account, or a Rial account by ten times the
rounded amount. -/
def PayCmd.MovesWholeToman (cmd : PayCmd) (db : Db) : Prop :=
  db.cashUnit cmd.cashAccountId = some "IRT" ∨
    (db.cashUnit cmd.cashAccountId = some "IRR" ∧
      ∀ t ∈ cmd.payToman, (t.mul (.ofInt 10)).toFixed 0 = (10 : Int) • t.toFixed 0)

instance (cmd : PayCmd) (db : Db) : Decidable (cmd.MovesWholeToman db) :=
  inferInstanceAs (Decidable (_ ∨ (_ ∧ ∀ t ∈ cmd.payToman, _ = _)))

/-- Every settlement of the debt shows on its paying account. -/
def LegsMatch (db : Db) (debtId : Uuid) : Prop :=
  ∀ i ∈ db.rowsOf debtId, ∀ s ∈ db.settlementsOf i.id, ∃ leg, db.cashLeg s.entryId = some leg ∧
    db.debtSign debtId • db.tomanOf leg = s.toman

theorem sign_mul_self (direction : Option String) :
    settlementSign direction * settlementSign direction = 1 := by
  rcases settlementSign_eq direction with h | h <;> rw [h] <;> rfl

/-- The cash leg of a payment that moves whole Toman. -/
theorem Payment.Made.leg_toman (hm : p.Made db cmd) (hw : cmd.MovesWholeToman db) {b : Balance}
    (hb : p.inst.Holds b) (e : Uuid) :
    settlementSign p.debt.direction • db.tomanOf (p.cashLeg.row e) = p.settled.toFixed 0 := by
  obtain ⟨fx, -, howed⟩ := hm.owed
  obtain ⟨k, -, -, hsettled, -⟩ := howed.fills hb
  obtain ⟨a, units, ha, -, hasset, hcash⟩ := hm.fromCash.moves
  have hunit : db.cashUnit cmd.cashAccountId = some (db.unitOf p.cash.1) := by
    simp [Db.cashUnit, ha, hasset]
  have hquantity : p.cash.2 = cashQuantity (db.unitOf p.cash.1) p.settled units := hcash
  have hleg : db.tomanOf (p.cashLeg.row e) =
      if db.unitOf p.cash.1 = "IRR" then (p.sign • p.cash.2).div (.ofInt 10)
      else p.sign • p.cash.2 := rfl
  have hsign : settlementSign p.debt.direction = p.sign := rfl
  have hone : p.sign * p.sign = 1 := sign_mul_self _
  rw [hleg, hquantity, hsettled, hsign]
  unfold PayCmd.MovesWholeToman at hw
  rw [hunit] at hw
  rcases hw with hirt | ⟨hirr, hwhole⟩
  · rw [Option.some.inj hirt, if_neg (by decide), cashQuantity, if_pos rfl, hsettled, smul_smul,
      hone, one_smul]
  · rw [Option.some.inj hirr, if_pos rfl, cashQuantity, if_neg (by decide), if_pos rfl]
    have hten : (p.settled.mul (.ofInt 10)).toFixed 0 = .ofInt (k * 10) := by
      obtain ⟨contractual, hc, -, hask, -⟩ := howed.contract
      obtain rfl := hb.contractual_eq hc
      rw [hb.remaining] at hask
      cases hpay : cmd.payToman with
      | some t =>
        rw [hpay, Option.getD_some] at hask
        rw [hask, hwhole t hpay, ← hask, hsettled, Decimal.zsmul_ofInt, mul_comm]
      | none =>
        rw [hpay, Option.getD_none] at hask
        rw [hask, Decimal.toFixed_ofInt, Decimal.ofInt_inj] at hsettled
        rw [hask, Decimal.ofInt_mul, Decimal.toFixed_ofInt, hsettled]
    rw [hten, Decimal.zsmul_ofInt, ← mul_assoc, Decimal.ofInt_div (by decide),
      Decimal.zsmul_ofInt, ← mul_assoc, hone, one_mul]

theorem LegsMatch.pay (h : LegsMatch db debtId) (hr : Repaying db debtId) (hm : p.Made db cmd)
    (hp : Posted env (p.input env) userId (db.withAccounts accounts) mid)
    (hw : p.inst.debtId = debtId → cmd.MovesWholeToman db) :
    LegsMatch (p.result env db accounts userId) debtId := by
  intro j hj s hs
  obtain ⟨i, hi, rfl⟩ := mem_rowsOf_result.mp hj
  have hid : (if i.id = p.inst.id then i.settle (p.columns env env.entryId) else i).id = i.id := by
    split <;> rfl
  have htoman : ∀ q, (p.result env db accounts userId).tomanOf q = db.tomanOf q := by
    intro q
    unfold Db.tomanOf
    rw [unitOf_result]
  rw [hid, Db.settlementsOf, result_settlements, List.filter_append, List.mem_append] at hs
  rw [debtSign_result]
  rcases hs with hs | hs
  · obtain ⟨leg, hleg, heq⟩ := h i hi s hs
    exact ⟨leg, (result_cashLeg_old hp (hr.posted i hi s hs)).trans hleg, by rw [htoman, heq]⟩
  · obtain ⟨hs, hrow⟩ := List.mem_filter.mp hs
    obtain rfl := List.mem_singleton.mp hs
    have hrow : p.inst.id = i.id := of_decide_eq_true hrow
    obtain ⟨hmem, -, hdebt, -⟩ := hm.found
    have heq := List.inj_on_of_nodup_map hr.installmentIds (List.mem_of_mem_filter hi) hmem hrow.symm
    subst heq
    have hd : p.inst.debtId = debtId := of_decide_eq_true (List.mem_filter.mp hi).2
    obtain ⟨b, hb, -⟩ := hr.rows _ hi
    refine ⟨_, result_cashLeg_new hr.toLedgerInv hp, ?_⟩
    rw [htoman, Db.debtSign, ← hd, hdebt]
    exact hm.leg_toman (hw hd) hb _

theorem LegsMatch.movedToman (h : LegsMatch db debtId) (hr : Repaying db debtId)
    {i : Installment} (hi : i ∈ db.rowsOf debtId) :
    db.movedToman (db.debtSign debtId) i.id = db.settledToman i.id := by
  unfold Db.movedToman Db.settledToman
  congr 1
  refine List.map_congr_left fun s hs => ?_
  obtain ⟨leg, hleg, heq⟩ := h i hi s hs
  rw [if_pos (hr.posted i hi s hs), hleg]
  exact heq

end Step

/-! ## Runs -/

structure PayCall where
  env : Env
  cmd : PayCmd

def PayCall.exec (c : PayCall) (db : Db) : Db := (payInstallment c.env c.cmd).exec db

def runPayments (calls : List PayCall) (db : Db) : Db := runAll PayCall.exec calls db

/-- The call changed nothing but the accounts, or it settled a row. -/
theorem exec_payInstallment (c : PayCall) {db : Db} (hnd : (db.lots.map (·.id)).Nodup) :
    (∃ accounts, c.exec db = db.withAccounts accounts) ∨
      ∃ p accounts userId mid, Payment.Made db c.cmd p ∧
        Posted c.env (p.input c.env) userId (db.withAccounts accounts) mid ∧
        c.exec db = p.result c.env db accounts userId := by
  rcases (payInstallment c.env c.cmd).ok_or_refused db with ⟨r, db', h⟩ | h
  · rw [PayCall.exec, Tx.exec_of_ok h]
    cases payInstallment_ok hnd h with
    | closed row paid => exact .inl ⟨[], (withAccounts_nil db).symm⟩
    | empty accounts row unpaid nothing => exact .inl ⟨accounts, rfl⟩
    | settled accounts made posted => exact .inr ⟨_, accounts, _, _, made, posted, rfl⟩
  · exact .inl ⟨[], h.exec.trans (withAccounts_nil db).symm⟩

theorem Repaying.exec {debtId : Uuid} (c : PayCall) {db : Db} (h : Repaying db debtId) :
    Repaying (c.exec db) debtId := by
  rcases exec_payInstallment c h.lotIds with ⟨accounts, heq⟩ | ⟨p, _, _, _, made, posted, heq⟩
  · rw [heq]
    exact h.provision accounts
  · rw [heq]
    exact h.pay made posted

/-- The call is on a row of the debt. -/
def PayCall.On (debtId : Uuid) (c : PayCall) (db : Db) : Prop :=
  ∃ i ∈ db.rowsOf debtId, i.id = c.cmd.installmentId

instance (debtId : Uuid) (c : PayCall) (db : Db) : Decidable (c.On debtId db) :=
  inferInstanceAs (Decidable (∃ i ∈ db.rowsOf debtId, i.id = c.cmd.installmentId))

/-- A payment of the debt moves whole Toman. -/
def PayCall.Whole (debtId : Uuid) (c : PayCall) (db : Db) : Prop :=
  c.On debtId db → c.cmd.MovesWholeToman db

instance (debtId : Uuid) (c : PayCall) (db : Db) : Decidable (c.Whole debtId db) :=
  inferInstanceAs (Decidable (c.On debtId db → _))

theorem LegsMatch.exec {debtId : Uuid} (c : PayCall) {db : Db} (h : LegsMatch db debtId)
    (hr : Repaying db debtId) (hw : c.Whole debtId db) : LegsMatch (c.exec db) debtId := by
  rcases exec_payInstallment c hr.lotIds with ⟨accounts, heq⟩ | ⟨p, _, _, _, made, posted, heq⟩
  · rw [heq]
    exact h
  · rw [heq]
    obtain ⟨hmem, hid, -⟩ := made.found
    exact h.pay hr made posted fun hd =>
      hw ⟨p.inst, List.mem_filter.mpr ⟨hmem, decide_eq_true hd⟩, hid⟩

/-- pending, partly paid, paid. -/
def InstallmentStatus.rank : InstallmentStatus → Nat
  | .pending => 0
  | .partlyPaid => 1
  | .paid => 2

/-- No row of the debt goes back, and a paid one stays as it is. -/
def Forward (debtId : Uuid) (db db' : Db) : Prop :=
  ∀ i ∈ db.rowsOf debtId, ∃ j ∈ db'.rowsOf debtId, j.id = i.id ∧ i.status.rank ≤ j.status.rank ∧
    (i.status = .paid → j = i)

theorem Forward.trans {debtId : Uuid} {a b c : Db} (h₁ : Forward debtId a b)
    (h₂ : Forward debtId b c) : Forward debtId a c := by
  intro i hi
  obtain ⟨j, hj, hij, hrank, hpaid⟩ := h₁ i hi
  obtain ⟨k, hk, hjk, hrank', hpaid'⟩ := h₂ j hj
  refine ⟨k, hk, hjk.trans hij, hrank.trans hrank', fun hp => ?_⟩
  have hji := hpaid hp
  rw [← hji]
  exact hpaid' (hji ▸ hp)

theorem forward_exec {debtId : Uuid} (c : PayCall) {db : Db} (hr : Repaying db debtId) :
    Forward debtId db (c.exec db) := by
  rcases exec_payInstallment c hr.lotIds with ⟨accounts, heq⟩ | ⟨p, _, _, _, made, posted, heq⟩
  · rw [heq]
    exact fun i hi => ⟨i, hi, rfl, le_rfl, fun _ => rfl⟩
  rw [heq]
  intro i hi
  refine ⟨_, mem_rowsOf_result.mpr ⟨i, hi, rfl⟩, ?_⟩
  by_cases hid : i.id = p.inst.id
  · have hrow : i = p.inst := List.inj_on_of_nodup_map hr.installmentIds
      (List.mem_of_mem_filter hi) made.found.1 hid
    subst hrow
    obtain ⟨b, hb, -⟩ := hr.rows _ hi
    obtain ⟨fx, -, howed⟩ := made.owed
    obtain ⟨k, -, -, -, hnext⟩ := howed.fills hb
    have hstatus : (p.columns c.env c.env.entryId).status = (b.afterPaying k).status := by
      rw [← hnext]; rfl
    rw [if_pos rfl]
    refine ⟨rfl, ?_, fun hp => absurd hp made.unpaid⟩
    rw [settle_status, hstatus, Balance.afterPaying]
    have hopen := made.unpaid
    cases hs : p.inst.status with
    | pending => exact Nat.zero_le _
    | partlyPaid => simp only; split <;> decide
    | paid => exact absurd hs hopen
  · rw [if_neg hid]
    exact ⟨rfl, le_rfl, fun _ => rfl⟩

/-- The row of the debt a payment names is the row it finds. -/
theorem Repaying.payable_eq {debtId installmentId : Uuid} {db : Db} (hr : Repaying db debtId)
    {i : Installment} (hi : i ∈ db.rowsOf debtId) (hid : i.id = installmentId)
    {userId : Option Uuid} {inst : Installment} {debt : Debt}
    (h : db.payableRow userId installmentId = some (inst, debt)) : inst = i := by
  obtain ⟨found, hf, h⟩ := Option.bind_eq_some_iff.mp h
  obtain ⟨_, _, h⟩ := Option.map_eq_some_iff.mp h
  cases h
  have hinst : inst.id = installmentId := by simpa using List.find?_some hf
  exact List.inj_on_of_nodup_map hr.installmentIds (List.mem_of_find?_eq_some hf)
    (List.mem_of_mem_filter hi) (hinst.trans hid.symm)

/-- A call on a paid row changes nothing. -/
theorem exec_of_paid {debtId : Uuid} (c : PayCall) {db : Db} (hr : Repaying db debtId)
    {i : Installment} (hi : i ∈ db.rowsOf debtId) (hpaid : i.status = .paid)
    (hid : i.id = c.cmd.installmentId) : c.exec db = db := by
  rcases (payInstallment c.env c.cmd).ok_or_refused db with ⟨r, db', h⟩ | h
  · rw [PayCall.exec, Tx.exec_of_ok h]
    cases payInstallment_ok hr.lotIds h with
    | closed row paid => rfl
    | empty accounts row unpaid nothing => exact absurd (hr.payable_eq hi hid row ▸ hpaid) unpaid
    | settled accounts made posted => exact absurd (hr.payable_eq hi hid made.row ▸ hpaid) made.unpaid
  · exact h.exec

/-- A debt as it is created: its rows have a contract in whole Toman and no payment. -/
structure Db.Scheduled (db : Db) (debtId : Uuid) : Prop where
  ledger : LedgerInv db
  installmentIds : (db.installments.map (·.id)).Nodup
  debtIds : (db.debts.map (·.id)).Nodup
  rows : ∀ i ∈ db.rowsOf debtId, i.status = .pending ∧ i.paidToman = none ∧
    ∃ n : Nat, 0 < n ∧ i.amountToman = some (.ofInt n)
  nonempty : db.rowsOf debtId ≠ []
  unsettled : ∀ i ∈ db.rowsOf debtId, db.settlementsOf i.id = []
  debt : ∃ d, db.findDebt debtId = some d ∧ d.status = .active

theorem Db.Scheduled.repaying {db : Db} {debtId : Uuid} (h : db.Scheduled debtId) :
    Repaying db debtId where
  toLedgerInv := h.ledger
  installmentIds := h.installmentIds
  debtIds := h.debtIds
  rows := by
    intro i hi
    obtain ⟨hstatus, hpaid, n, hn, hamount⟩ := h.rows i hi
    refine ⟨.fresh n hn, ⟨hamount, by rw [hpaid]; simp [Balance.fresh], ?_⟩, ?_⟩
    · rw [hstatus]
      simp only [reduceCtorEq, false_iff]
      exact hn.ne
    · rw [Db.settledToman, h.unsettled i hi]
      simp [Balance.fresh]
  posted := by
    intro i hi s hs
    rw [h.unsettled i hi] at hs
    cases hs
  debt := by
    obtain ⟨d, hd, hactive⟩ := h.debt
    obtain ⟨i, hi⟩ := List.exists_mem_of_ne_nil _ h.nonempty
    refine ⟨d, hd, by rw [hactive]; simp, fun hout => ?_⟩
    have hp := outstandingOf_eq_nil.mp hout i hi
    rw [(h.rows i hi).1] at hp
    cases hp

theorem Db.Scheduled.legsMatch {db : Db} {debtId : Uuid} (h : db.Scheduled debtId) :
    LegsMatch db debtId := by
  intro i hi s hs
  rw [h.unsettled i hi] at hs
  cases hs

/-- What is claimed of the rows of a debt and of the debt. -/
structure PaymentLaws (db : Db) (debtId : Uuid) : Prop where
  counted : ∀ i ∈ db.rowsOf debtId, i.paidToman.getD 0 = db.settledToman i.id
  within : ∀ i ∈ db.rowsOf debtId, ∃ c ∈ i.amountToman, i.paidToman.getD 0 ≤ c
  paid_iff : ∀ i ∈ db.rowsOf debtId, i.status = .paid ↔ i.amountToman = some (i.paidToman.getD 0)
  settled_iff : ∃ d, db.findDebt debtId = some d ∧
    (d.status = .settled ↔ ∀ i ∈ db.rowsOf debtId, i.status = .paid)
  legs : ∀ i ∈ db.rowsOf debtId,
    db.movedToman (db.debtSign debtId) i.id = i.paidToman.getD 0

theorem Repaying.laws {db : Db} {debtId : Uuid} (h : Repaying db debtId)
    (hl : LegsMatch db debtId) : PaymentLaws db debtId where
  counted := by
    intro i hi
    obtain ⟨b, hb, hsum⟩ := h.rows i hi
    rw [hb.paid, hsum]
  within := by
    intro i hi
    obtain ⟨b, hb, -⟩ := h.rows i hi
    refine ⟨_, hb.contract, ?_⟩
    rw [hb.paid, Decimal.ofInt_le]
    exact_mod_cast b.within
  paid_iff := by
    intro i hi
    obtain ⟨b, hb, -⟩ := h.rows i hi
    rw [hb.closed, hb.contract, hb.paid, Option.some_inj, Decimal.ofInt_inj, Nat.cast_inj]
    exact eq_comm
  settled_iff := by
    obtain ⟨d, hd, hiff⟩ := h.debt
    exact ⟨d, hd, hiff.trans outstandingOf_eq_nil⟩
  legs := by
    intro i hi
    obtain ⟨b, hb, hsum⟩ := h.rows i hi
    rw [hl.movedToman h hi, hb.paid, hsum]

theorem runPayments_repaying {debtId : Uuid} (calls : List PayCall) {db : Db}
    (h : Repaying db debtId) : Repaying (runPayments calls db) debtId :=
  runAll_keeps (I := fun s => Repaying s debtId) (fun c _ hs => hs.exec c) calls h

theorem forward_run {debtId : Uuid} (calls : List PayCall) {db : Db} (h : Repaying db debtId) :
    Forward debtId db (runPayments calls db) := by
  induction calls generalizing db with
  | nil => exact fun i hi => ⟨i, hi, rfl, le_rfl, fun _ => rfl⟩
  | cons c calls ih => exact (forward_exec c h).trans (ih (h.exec c))

/-- Payments that move whole Toman keep the books of a debt: after any of them the laws
hold, later payments never take a row back, and a paid row is not paid again. -/
theorem runPayments_laws {debtId : Uuid} {db : Db} (hs : db.Scheduled debtId)
    (calls : List PayCall) (h : EveryCall PayCall.exec (PayCall.Whole debtId) calls db) :
    PaymentLaws (runPayments calls db) debtId ∧
      (∀ later, Forward debtId (runPayments calls db) (runPayments (calls ++ later) db)) ∧
      ∀ c : PayCall, ∀ i ∈ (runPayments calls db).rowsOf debtId, i.status = .paid →
        i.id = c.cmd.installmentId → c.exec (runPayments calls db) = runPayments calls db := by
  have hkeeps : Repaying (runPayments calls db) debtId ∧ LegsMatch (runPayments calls db) debtId := by
    refine runAll_keeps_of (I := fun s => Repaying s debtId ∧ LegsMatch s debtId) ?_ calls
      ⟨hs.repaying, hs.legsMatch⟩ h
    rintro c s ⟨hr, hl⟩ hw
    exact ⟨hr.exec c, hl.exec c hr hw⟩
  obtain ⟨hr, hl⟩ := hkeeps
  refine ⟨hr.laws hl, fun later => ?_, fun c i hi hp hid => exec_of_paid c hr hi hp hid⟩
  unfold runPayments
  rw [runAll_append]
  exact forward_run later hr

/-! ## A small debt -/

/-- A debt of 100 Toman in two rows, a Toman account and a Rial account to pay from. -/
def demoDebt : Db :=
  { demo with
    assets := demo.assets ++ [⟨4, "IRR", "FIAT", false⟩]
    accounts := demo.accounts ++ [⟨17, 0, some 1, "1021", "بانک ریالی", .asset, some 4, false⟩]
    userFxSettings := [⟨1, .ofInt 100000⟩]
    debts := [{ id := 1, userId := some 1, title := "وام" }]
    installments := [
      { id := 1, debtId := 1, seq := 1, amountBase := 0, amountToman := some (.ofInt 60) },
      { id := 2, debtId := 1, seq := 2, amountBase := 0, amountToman := some (.ofInt 40) }] }

theorem demoDebt_scheduled : demoDebt.Scheduled 1 where
  ledger := Db.EmptyLedger.inv ⟨rfl, rfl, rfl, rfl⟩
  installmentIds := by decide
  debtIds := by decide
  rows := by
    have h : ∀ i ∈ demoDebt.rowsOf 1, i.status = .pending ∧ i.paidToman = none ∧
        (i.amountToman = some (.ofInt 60) ∨ i.amountToman = some (.ofInt 40)) := by decide
    intro i hi
    obtain ⟨hs, hp, ha | ha⟩ := h i hi
    · exact ⟨hs, hp, 60, by decide, ha⟩
    · exact ⟨hs, hp, 40, by decide, ha⟩
  nonempty := by decide
  unsettled := by decide
  debt := ⟨_, rfl, rfl⟩

/-- Pay `toman` of row `row` from an account, in the entry `entryId`. -/
def demoPay (entryId row cashAccountId : Uuid) (toman : Option Decimal) : PayCall :=
  ⟨{ entryId, accountId := 100 },
    { installmentId := row, cashAccountId, userId := some 1, payToman := toman }⟩

theorem demoDebt_laws : PaymentLaws (runPayments
    [demoPay 1 1 11 (some (.ofInt 20)), demoPay 2 2 17 none] demoDebt) 1 :=
  (runPayments_laws demoDebt_scheduled _ (by
    refine ⟨?_, ?_, trivial⟩ <;> decide)).1

/-- 10.4 Toman from a Rial account: 104 Rials leave it, and 10 Toman are counted. -/
theorem rial_leg_exceeds_paid : demoDebt.Scheduled 1 ∧
    ¬ PaymentLaws (runPayments [demoPay 1 1 17 (some ⟨10400000000000000000⟩)] demoDebt) 1 := by
  refine ⟨demoDebt_scheduled, fun h => ?_⟩
  have hbad : ∃ i ∈ (runPayments [demoPay 1 1 17 (some ⟨10400000000000000000⟩)] demoDebt).rowsOf 1,
      (runPayments [demoPay 1 1 17 (some ⟨10400000000000000000⟩)] demoDebt).movedToman
        ((runPayments [demoPay 1 1 17 (some ⟨10400000000000000000⟩)] demoDebt).debtSign 1) i.id ≠
          i.paidToman.getD 0 := by decide
  obtain ⟨i, hi, hne⟩ := hbad
  exact hne (h.legs i hi)

end Pwos
