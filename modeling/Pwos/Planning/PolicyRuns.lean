import Pwos.Lib.Serial
import Pwos.Ledger.CommandRuns
import Pwos.Ledger.Run
import Pwos.Planning.Policies
import Pwos.Planning.Schedules

/-!
# Policies over whole runs

Registrations, renewals, cancellations, deletions and recorded premiums interleave statement by
statement. Where each commits what it would have done alone, and continues a closed term only,
the policies stay in order (`policies_in_order`). Nothing in the code sees to either.
-/

namespace Pwos

variable {renewals : Prop} {s t u : Db}

/-! ## Registering -/

section Create
variable {cal : JalaliCalendar} {isBank : Account → Option Asset → Bool} {env : Env} {userId : Uuid}
  {input : PolicyInput} {terms : PolicyTerms}

theorem readOnly_tomanBankAccount (accountId : Option Uuid) :
    (tomanBankAccount isBank userId accountId).ReadOnly :=
  .bind (Tx.readOnly_read _) fun _ => Tx.readOnly_require _ _

theorem readOnly_insuredItems : (insuredItems userId input terms).ReadOnly := by
  refine .bind (Tx.readOnly_read _) fun _ => .bind (Tx.readOnly_require _ _) fun _ => ?_
  exact .bind (Tx.readOnly_read _) fun _ => .bind (Tx.readOnly_require _ _) fun _ => trivial

theorem linkDebt_ok {debtId : Option Uuid} {i : Uuid}
    (h : (linkDebt userId debtId).run s = .ok (i, t)) : t = s ∧ ¬ s.PaysFor i := by
  unfold linkDebt at h
  obtain ⟨d, s₁, h₁, k₁⟩ := Tx.run_bind_ok.mp h
  obtain ⟨-, rfl⟩ := Tx.run_ofExcept_ok.mp h₁
  rw [Tx.run_read_bind] at k₁
  split at k₁
  · cases k₁
  · rw [Tx.run_read_bind, Tx.run_require_bind] at k₁
    split at k₁
    · rename_i hfree
      cases k₁
      exact ⟨rfl, of_decide_eq_false hfree⟩
    · cases k₁

/-- A debt that was not there pays for nothing. -/
theorem installmentDebt_ok {i : Uuid} (hs : Policies renewals s)
    (h : (installmentDebt cal env userId input terms).run s = .ok (i, t)) :
    SamePolicies s t ∧ ¬ s.PaysFor i := by
  unfold installmentDebt at h
  obtain ⟨count, s₁, h₁, k₁⟩ := Tx.run_bind_ok.mp h
  obtain ⟨-, rfl⟩ := Tx.run_ofExcept_ok.mp h₁
  obtain ⟨rate, s₂, h₂, k₂⟩ := Tx.run_bind_ok.mp k₁
  obtain ⟨-, rfl⟩ := Tx.run_ofExcept_ok.mp h₂
  obtain ⟨insurer, s₃, h₃, k₃⟩ := Tx.run_bind_ok.mp k₂
  obtain ⟨-, rfl⟩ := Tx.run_ofExcept_ok.mp h₃
  obtain ⟨rfl, -, -, amounts, -, ⟨hnew, -⟩, -, rfl⟩ := CreateDebtInput.createDebtRecord_ok k₃
  refine ⟨⟨rfl, rfl, fun d hd => ⟨d, List.mem_append_left _ hd, rfl⟩⟩, ?_⟩
  rintro ⟨q, hq, hdebt, -⟩
  obtain ⟨d, hd, hid⟩ := hs.debts q hq _ hdebt
  exact hnew d hd hid

theorem policyDebt_ok {debtId : Option Uuid} (hs : Policies renewals s)
    (h : (policyDebt cal env userId input terms).run s = .ok (debtId, t)) :
    SamePolicies s t ∧ ∀ i ∈ debtId, ¬ s.PaysFor i := by
  unfold policyDebt at h
  split at h
  · cases h
    exact ⟨.refl s, nofun⟩
  · obtain ⟨i, s₁, h₁, h⟩ := Tx.run_bind_ok.mp h
    cases h
    obtain ⟨rfl, hfree⟩ := linkDebt_ok h₁
    exact ⟨.refl _, fun j hj => Option.mem_some.mp hj ▸ hfree⟩
  · obtain ⟨i, s₁, h₁, h⟩ := Tx.run_bind_ok.mp h
    cases h
    obtain ⟨hsame, hfree⟩ := installmentDebt_ok hs h₁
    exact ⟨hsame, fun j hj => Option.mem_some.mp hj ▸ hfree⟩

theorem insertAssetAccount_writesOnly (name : String) (assetId : Uuid) (attempts : Nat) :
    (insertAssetAccount env userId name assetId attempts).WritesOnly Write.SparesPolicies := by
  induction attempts with
  | zero => trivial
  | succ attempts ih =>
    unfold insertAssetAccount
    refine (Tx.readOnly_read _).writesOnly.bind fun code => ?_
    refine Tx.WritesOnly.bind ((insertAccount_writesOnly _).mono ?_) fun created => ?_
    · rintro _ ⟨a, rfl⟩
      exact sparesPolicies_insertAccount a
    · cases created with
      | some account => trivial
      | none => exact ih

theorem savingsAccount_writesOnly (irt : Option Asset) :
    (savingsAccount env userId terms irt).WritesOnly Write.SparesPolicies := by
  unfold savingsAccount
  split
  · refine (Tx.readOnly_ofExcept _).writesOnly.bind fun irt => ?_
    exact (insertAssetAccount_writesOnly _ _ _).bind fun account => trivial
  · trivial

theorem insertPolicyRow_ok {row : InsurancePolicy}
    (h : (insertPolicyRow row).run s = .ok ((), t)) :
    s.PolicyFits row ∧ t = (Write.insertPolicy row).apply s := by
  unfold insertPolicyRow at h
  rw [Tx.run_insert] at h
  split at h
  · cases h; exact ⟨‹_›, rfl⟩
  · cases h

theorem insertPlanRow_ok {row : PlannedTransaction}
    (h : (insertPlanRow row).run s = .ok ((), t)) : t = (Write.insertPlan row).apply s := by
  unfold insertPlanRow at h
  rw [Tx.run_insert] at h
  split at h
  · cases h; rfl
  · cases h

/-- A registration that succeeds keeps the order, if it continues no open term. -/
theorem Policies.created {i : Uuid} (hs : Policies renewals s)
    (h : (createPolicy cal isBank env userId input).run s = .ok (i, t))
    (hterm : renewals → ∀ i ∈ input.renewedFromId, s.Continuable i) : Policies renewals t := by
  unfold createPolicy at h
  obtain ⟨terms, s₁, h₁, k₁⟩ := Tx.run_bind_ok.mp h
  obtain ⟨-, rfl⟩ := Tx.run_ofExcept_ok.mp h₁
  obtain ⟨_, s₂, h₂, k₂⟩ := Tx.run_bind_ok.mp k₁
  have hbank : s₂ = s₁ := by
    unfold Tx.when at h₂
    split at h₂
    · exact (readOnly_tomanBankAccount _).run_state h₂
    · cases h₂; rfl
  subst hbank
  obtain ⟨debtId, s₃, h₃, k₃⟩ := Tx.run_bind_ok.mp k₂
  obtain ⟨hsame₃, hfree⟩ := policyDebt_ok hs h₃
  obtain ⟨⟨propertyId, vehicleId⟩, s₄, h₄, k₄⟩ := Tx.run_bind_ok.mp k₃
  obtain rfl := readOnly_insuredItems.run_state h₄
  dsimp only at k₄
  rw [Tx.run_read_bind] at k₄
  obtain ⟨savingsAccountId, s₅, h₅, k₅⟩ := Tx.run_bind_ok.mp k₄
  have hsame : SamePolicies s₂ s₅ :=
    hsame₃.trans (sparing_run (savingsAccount_writesOnly _) h₅)
  obtain ⟨insurer, s₆, h₆, k₆⟩ := Tx.run_bind_ok.mp k₅
  obtain ⟨-, rfl⟩ := Tx.run_ofExcept_ok.mp h₆
  obtain ⟨policyNumber, s₇, h₇, k₇⟩ := Tx.run_bind_ok.mp k₆
  obtain ⟨-, rfl⟩ := Tx.run_ofExcept_ok.mp h₇
  obtain ⟨note, s₈, h₈, k₈⟩ := Tx.run_bind_ok.mp k₇
  obtain ⟨-, rfl⟩ := Tx.run_ofExcept_ok.mp h₈
  obtain ⟨_, s₉, h₉, k₉⟩ := Tx.run_bind_ok.mp k₈
  set row := terms.row env userId input debtId propertyId vehicleId savingsAccountId insurer
    policyNumber note
  obtain ⟨⟨hfresh, hterms, hdebts⟩, rfl⟩ := insertPolicyRow_ok h₉
  rw [hsame.policies] at hfresh hterms
  have hregisters : Registers row s₂ ((Write.insertPolicy row).apply s₈) :=
    { policies := congrArg (· ++ [row]) hsame.policies
      plans := hsame.plans
      debts := hsame.debts
      active := rfl
      fresh := hfresh
      term := hterms
      debt := fun i hi => ⟨hdebts i hi, hfree i hi⟩ }
  have hregistered := hs.register hregisters hterm
  obtain ⟨_, s₁₀, h₁₀, k₁₀⟩ := Tx.run_bind_ok.mp k₉
  cases k₁₀
  unfold firstPremium at h₁₀
  dsimp only at h₁₀
  split at h₁₀
  · obtain rfl := insertPlanRow_ok h₁₀
    exact hregistered.schedule (List.mem_append_right _ (List.mem_singleton_self row)) rfl rfl rfl
  · cases h₁₀
    exact hregistered

end Create

/-! ## Closing -/

section Close
variable {userId i : Uuid}

/-- The pending premiums that `cancelPendingPremiums` finds, alone. -/
def Db.premiumsOf (userId policyId : Uuid) (db : Db) : List Uuid :=
  let found := (db.plannedTransactions.filter fun p => p.IsPremium policyId userId).map (·.id)
  (db.plannedTransactions.filter fun p => p.id ∈ found ∧ p.IsPremium policyId userId).map (·.id)

theorem run_cancelPendingPremiums (userId i : Uuid) (db : Db) :
    (cancelPendingPremiums userId i).run db =
      .ok ((), (Write.cancelPlans (db.premiumsOf userId i)).apply db) := rfl

theorem mem_premiumsOf {p : PlannedTransaction} (hp : p ∈ s.plannedTransactions)
    (h : p.IsPremium i userId) : p.id ∈ s.premiumsOf userId i := by
  have hfound : p.id ∈ (s.plannedTransactions.filter fun p => p.IsPremium i userId).map (·.id) :=
    List.mem_map_of_mem (List.mem_filter.mpr ⟨hp, decide_eq_true h⟩)
  exact List.mem_map_of_mem (List.mem_filter.mpr ⟨hp, decide_eq_true ⟨hfound, h⟩⟩)

/-- A policy is closed and loses its pending premiums. -/
theorem Policies.close {status : PolicyStatus} (h : Policies renewals s) (hstatus : status ≠ .active) :
    Policies renewals ((Write.cancelPlans (s.premiumsOf userId i)).apply
      ((Write.setPolicyStatus i userId status).apply s)) := by
  let f (q : InsurancePolicy) := if q.id = i ∧ q.userId = userId then { q with status } else q
  let g (p : PlannedTransaction) := if p.id ∈ s.premiumsOf userId i then p.stop else p
  suffices hn : Narrows (fun _ => true) f g s _ from h.narrow hn
  refine ⟨?_, rfl, rfl, fun q => .ite ?_ _, fun p => .ite ?_ _, ?_, ?_⟩
  · rw [List.filter_true]
    rfl
  · exact ⟨rfl, rfl, rfl, fun hactive => absurd hactive hstatus, fun _ h => h⟩
  · exact ⟨rfl, nofun, fun _ h => h⟩
  · exact fun _ _ hgone => Bool.noConfusion hgone
  · intro q hq hactive hclosed p hp hpolicy howner hpending
    simp only [f, g] at hclosed hpending
    split at hclosed
    · rename_i hkey
      split at hpending
      · cases hpending
      · rename_i hfree
        refine hfree (mem_premiumsOf hp ⟨?_, ?_, hpending⟩)
        · rw [hpolicy, hkey.1]
        · rw [howner, hkey.2]
    · exact hclosed hactive

theorem Policies.cancelled (h : Policies renewals s)
    (hrun : (cancelPolicy userId i).run s = .ok ((), t)) : Policies renewals t := by
  unfold cancelPolicy at hrun
  rw [Tx.stmt_bind, Tx.run_stmt] at hrun
  split at hrun
  · rw [Tx.done_bind, run_cancelPendingPremiums] at hrun
    cases hrun
    exact h.close (by decide)
  · cases hrun

/-- Savings accounts are no part of the order. -/
theorem Policies.withSavings (h : Policies renewals s) (ids : List Uuid) (accountId : Uuid) :
    Policies renewals ((Write.setPlansAccount ids accountId).apply
      ((Write.setPolicySavings i accountId).apply s)) := by
  refine h.leave rfl rfl rfl (fun q => .ite ?_ _) (fun q => ?_) (fun p => .ite ?_ _)
  · exact ⟨rfl, rfl, rfl, fun h => h, fun _ h => h⟩
  · split <;> rfl
  · exact ⟨rfl, fun h => h, fun _ h => h⟩

theorem Policies.renewed {old : InsurancePolicy} {newId : Uuid} (h : Policies renewals s)
    (hrun : (finishRenewal userId old newId).run s = .ok ((), t)) : Policies renewals t := by
  unfold finishRenewal at hrun
  cases hsavings : old.savingsAccountId with
  | none =>
    simp only [hsavings] at hrun
    cases hrun
    exact h.close (by decide)
  | some accountId =>
    simp only [hsavings] at hrun
    cases hrun
    exact (h.withSavings _ accountId).close (by decide)

/-- Plans may be cancelled whatever they are. -/
theorem Policies.stop (h : Policies renewals s) (ids : List Uuid) :
    Policies renewals ((Write.cancelPlans ids).apply s) := by
  refine h.leave (List.map_id _).symm rfl rfl .refl (fun _ => rfl) fun p => .ite ?_ _
  exact ⟨rfl, nofun, fun _ h => h⟩

theorem Policies.detach (h : Policies renewals s) : Policies renewals ((Write.detachRenewals i userId).apply s) := by
  refine h.leave rfl (List.map_id _).symm rfl (fun q => .ite ?_ _) (fun q => ?_) .refl
  · exact ⟨rfl, rfl, rfl, fun h => h, nofun⟩
  · split <;> rfl

/-- The references to a policy go with it. -/
theorem Policies.delete (h : Policies renewals s) : Policies renewals ((Write.deletePolicy i userId).apply s) := by
  by_cases hany : s.insurancePolicies.any fun q => q.id = i ∧ q.userId = userId
  swap
  · rw [Write.apply, if_neg hany]
    exact h
  rw [Write.apply, if_pos hany]
  let f (q : InsurancePolicy) :=
    if q.renewedFromId = some i then { q with renewedFromId := none } else q
  let g (p : PlannedTransaction) :=
    if p.insurancePolicyId = some i then { p with insurancePolicyId := none } else p
  suffices hn : Narrows (fun q => q.id ≠ i) f g s _ from h.narrow hn
  have hstatus : ∀ q, (f q).status = q.status := by
    intro q
    simp only [f]
    split <;> rfl
  have hlost (j : Uuid) : (none : Option Uuid) ≠ some j := Option.some_ne_none j |>.symm
  refine ⟨rfl, rfl, rfl, fun q => .ite ?_ _, fun p => .ite ?_ _, ?_, ?_⟩
  · exact ⟨rfl, rfl, rfl, fun h => h, fun j h => absurd h (hlost j)⟩
  · exact ⟨rfl, fun h => h, fun j h => absurd h (hlost j)⟩
  · intro q _ hgone
    obtain rfl : q.id = i := by simpa using hgone
    refine ⟨fun r hren => ?_, fun p hpolicy => ?_⟩
    · simp only [f] at hren
      split at hren
      · cases hren
      · contradiction
    · simp only [g] at hpolicy
      split at hpolicy
      · cases hpolicy
      · contradiction
  · exact fun q _ hactive hclosed => absurd ((hstatus q).trans hactive) hclosed

theorem Policies.deleted (h : Policies renewals s)
    (hrun : (deletePolicy userId i).run s = .ok ((), t)) : Policies renewals t := by
  unfold deletePolicy at hrun
  rw [Tx.run_bind_of_ok (run_cancelPendingPremiums userId i s), Tx.run_write_bind,
    Tx.run_insert] at hrun
  split at hrun
  · cases hrun
    exact ((h.stop _).detach).delete
  · cases hrun

/-- A plan that is executed no longer waits. -/
theorem Policies.execute (h : Policies renewals s) (id : Uuid) (entryId : Option Uuid) :
    Policies renewals (applyAll [Write.closePlan id .executed entryId, Write.noteClosing id] s) := by
  refine h.leave (List.map_id _).symm rfl rfl .refl (fun _ => rfl) fun p => .ite ?_ _
  exact ⟨rfl, nofun, fun _ h => h⟩

/-- Closing a premium schedules the next one of an active policy only. -/
theorem Policies.paid {cal : JalaliCalendar} {env : Env} {input : ClosePremium} (h : Policies renewals s)
    (hrun : (closePremiumOccurrence cal env input).run s = .ok ((), t)) : Policies renewals t := by
  unfold closePremiumOccurrence at hrun
  rw [Tx.run_read_bind] at hrun
  split at hrun
  · cases hrun
  rename_i plan held hfound
  obtain ⟨p, hplan, hheld⟩ := Option.bind_eq_some_iff.mp hfound
  obtain ⟨q, hq, hpair⟩ := Option.map_eq_some_iff.mp hheld
  obtain ⟨rfl, rfl⟩ := Prod.mk.inj hpair
  have howner : p.insurancePolicyId = some q.id ∧ q.userId = input.userId := by
    simpa using List.find?_some hq
  have hclosed := h.execute p.id (some input.entryId)
  rw [closePlanRow, Tx.run_bind_of_ok (Tx.run_writeExpecting _ _ _ _), Tx.run_read_bind] at hrun
  have hsame : (applyAll [Write.closePlan p.id .executed (some input.entryId),
    Write.noteClosing p.id] s).insurancePolicies = s.insurancePolicies := rfl
  generalize applyAll _ s = s₁ at hrun hclosed hsame
  split at hrun
  · cases hrun
    exact hclosed
  rename_i policy hactive
  obtain ⟨hfind, hstatus⟩ := Option.filter_eq_some_iff.mp hactive
  have hmem : policy ∈ s₁.insurancePolicies := List.mem_of_find?_eq_some hfind
  have hid : policy.id = q.id := by simpa using List.find?_some hfind
  obtain rfl : policy = q :=
    List.inj_on_of_nodup_map h.ids (hsame ▸ hmem) (List.mem_of_find?_eq_some hq) hid
  split at hrun
  · rw [Tx.run_read_bind] at hrun
    obtain rfl := insertPlanRow_ok hrun
    exact hclosed.schedule hmem (of_decide_eq_true hstatus) rfl (congrArg some howner.2.symm)
  · cases hrun
    exact hclosed

end Close

/-! ## Runs -/

/-- A program that has nothing to do with policies. -/
structure SparingSql (α : Type) where
  program : Sql α
  spares : program.Yields (fun _ ws _ => ∀ w ∈ ws, w.SparesPolicies) [] []

theorem SparingSql.run_ok {α : Type} (p : SparingSql α) {a : α}
    (h : p.program.run s = .ok (a, t)) : SamePolicies s t := by
  obtain ⟨ws, -, hws, rfl⟩ := p.spares.run_ok (s := s) h
  exact sparesPolicies_all hws s

/-- A transaction of the insurance service. `renewPolicy` makes a `create` and, once that has
committed, a `finish`; a premium is recorded by a transaction that posts an entry first. -/
inductive PolicyCall where
  | create (env : Env) (userId : Uuid) (input : PolicyInput)
  | finish (userId : Uuid) (old : InsurancePolicy) (newId : Uuid)
  | cancel (userId id : Uuid)
  | delete (userId id : Uuid)
  | premium (record : SparingSql Uuid) (env : Env) (planId userId : Uuid) (rest : SparingSql Unit)

/-- The term that is continued. -/
def PolicyCall.continues : PolicyCall → Option Uuid
  | .create _ _ input => input.renewedFromId
  | _ => none

section Runs
variable (cal : JalaliCalendar) (isBank : Account → Option Asset → Bool)

def PolicyCall.program : PolicyCall → Sql Unit
  | .create env userId input => do
    let _ ← createPolicy cal isBank env userId input
    pure ()
  | .finish userId old newId => finishRenewal userId old newId
  | .cancel userId id => cancelPolicy userId id
  | .delete userId id => deletePolicy userId id
  | .premium record env planId userId rest =>
    record.program >>= fun entryId =>
      closePremiumOccurrence cal env { planId, userId, entryId } >>= fun _ => rest.program

/-- The transactions that run, each known by its call. -/
def PolicyTransaction (p : Sql PolicyCall) : Prop :=
  ∃ c : PolicyCall, p = c.program cal isBank >>= fun _ => pure c

/-- The transaction commits what it would have written alone. Where `renewals` are looked at, it
continues a term only that is closed and that nothing continues yet. -/
def PolicyCall.Admitted (renewals : Prop) (c : PolicyCall) (ws : List Write) (db : Db) : Prop :=
  (c.program cal isBank).AsAlone ws db ∧ (renewals → ∀ i ∈ c.continues, db.Continuable i)

variable {cal isBank}

theorem Policies.call {c : PolicyCall} (h : Policies renewals s)
    (hrun : (c.program cal isBank).run s = .ok ((), t))
    (hterm : renewals → ∀ i ∈ c.continues, s.Continuable i) : Policies renewals t := by
  cases c with
  | create env userId input =>
    obtain ⟨i, s₁, h₁, h₂⟩ := Tx.run_bind_ok.mp hrun
    cases h₂
    exact h.created h₁ hterm
  | finish userId old newId => exact h.renewed hrun
  | cancel userId id => exact h.cancelled hrun
  | delete userId id => exact h.deleted hrun
  | premium record env planId userId rest =>
    obtain ⟨entryId, s₁, h₁, h₂⟩ := Tx.run_bind_ok.mp hrun
    obtain ⟨_, s₂, h₃, h₄⟩ := Tx.run_bind_ok.mp h₂
    have hrecorded := h.same (record.run_ok h₁)
    exact (hrecorded.paid h₃).same (rest.run_ok h₄)

/-- Where every transaction commits what it would have written alone, a policy that is not
active has no pending premium and a debt pays for one active policy at most. Where it continues
closed terms only, a term is continued once at most and is not active then. -/
theorem policies_in_order {db : Db} (h : Policies renewals db)
    {sys : System Db Write Row Assumption AppError PolicyCall}
    (hr : System.ReachesIf (PolicyTransaction cal isBank)
      (PolicyCall.Admitted cal isBank renewals) db sys) :
    (∀ q ∈ sys.committed.insurancePolicies, q.status ≠ .active →
      ∀ p ∈ sys.committed.plannedTransactions, p.insurancePolicyId = some q.id →
        p.status ≠ .pending) ∧
    (∀ i, (sys.committed.insurancePolicies.countP fun q =>
      q.debtId = some i ∧ q.status = .active) ≤ 1) ∧
    (renewals →
      (∀ i, sys.committed.insurancePolicies.countP (·.renewedFromId = some i) ≤ 1) ∧
      ∀ q ∈ sys.committed.insurancePolicies, ∀ r ∈ sys.committed.insurancePolicies,
        r.renewedFromId = some q.id → q.status ≠ .active) := by
  have hkept : Policies renewals sys.committed := by
    refine hr.keeps h fun c ws t ht hadmitted => ?_
    obtain ⟨⟨_, hrun⟩, hterm⟩ := hadmitted
    exact ht.call hrun hterm
  exact ⟨hkept.closed, hkept.debtOnce, fun hren => ⟨hkept.renewedOnce hren, hkept.renewedClosed hren⟩⟩

end Runs

/-! ## What goes wrong -/

/-- A policy whose next premium is due, and a debt. -/
def demoPolicies : Db :=
  { demo with
    debts := [{ id := 40, userId := some 1, title := "خودرو" }]
    plannedTransactions := [
      { id := 2, userId := some 1, title := "حق بیمه «بدنه»", plannedDate := 20260501
        direction := .outflow, amountBase := .ofInt 20, fromAccountId := some 11
        assetId := some 2, recurrence := .monthly, amountNative := some (.ofInt 20)
        insurancePolicyId := some 3 }]
    insurancePolicies := [
      { id := 3, userId := 1, kind := "car_body", title := "بدنه", startDate := 20260501
        premiumToman := .ofInt 20, premiumFrequency := .monthly, payAccountId := some 11 }] }

theorem demoPolicies_ok : Policies True demoPolicies where
  ids := by decide
  owners := by decide
  terms := by decide
  debts := by decide
  closed := by decide
  renewedOnce _ i := List.countP_le_length
  renewedClosed _ := by decide
  debtOnce i := List.countP_le_length

def demoBank (_ : Account) (asset : Option Asset) : Bool := asset.any (·.symbol = "IRT")

/-- The next term of a car policy. -/
def demoTerm (policyId : Uuid) (mode : String) (debtId renewedFromId : Option Uuid) : PolicyCall :=
  .create { entryId := 0, policyId, planId := policyId + 10 } 1
    { kind := "car_body", title := "بدنه", startDate := some 20270501, endDate := some 20280501
      premiumToman := some (.ofInt 20), premiumFrequency := "monthly", payAccountId := some 11
      paymentMode := some mode, debtId, renewedFromId }

/-- A transaction runs alone, admitted. -/
theorem reachesIf_call (call : PolicyCall) {db t : Db}
    {c : System Db Write Row Assumption AppError PolicyCall} (h : System.ReachesIf (PolicyTransaction ordinaryYears demoBank)
      (PolicyCall.Admitted ordinaryYears demoBank renewals) db c) (hq : c.Quiet)
    (hrun : (call.program ordinaryYears demoBank).run c.committed = .ok ((), t))
    (hterm : renewals → ∀ i ∈ call.continues, c.committed.Continuable i) :
    ∃ d, System.ReachesIf (PolicyTransaction ordinaryYears demoBank)
      (PolicyCall.Admitted ordinaryYears demoBank renewals) db d ∧ d.Quiet ∧ d.committed = t := by
  refine h.alone (a := call) hq ⟨call, rfl⟩ (Tx.run_bind_ok.mpr ⟨(), t, hrun, rfl⟩) fun ws hws => ?_
  exact ⟨⟨(), hws ▸ hrun⟩, hterm⟩

/-- A policy is cancelled, then a renewal that had read it before commits its new term. -/
theorem closed_term_continued :
    ∃ sys : System Db Write Row Assumption AppError PolicyCall,
      sys.committed.insurancePolicies.map (fun q => (q.id, q.status, q.renewedFromId)) =
        [(3, .cancelled, none), (4, .active, some 3)] ∧
      (∀ i, sys.committed.insurancePolicies.countP (·.renewedFromId = some i) ≤ 1) := by
  have hidle : System.ReachesIf (PolicyTransaction ordinaryYears demoBank)
      (PolicyCall.Admitted ordinaryYears demoBank True) demoPolicies (.idle demoPolicies) := .idle
  obtain ⟨c, hc, hq, hcommitted⟩ := reachesIf_call (.cancel 1 3) hidle (fun _ => rfl) rfl nofun
  have hterm : ∀ i ∈ (demoTerm 4 "cash" none (some 3)).continues, c.committed.Continuable i := by
    rintro i ⟨⟩
    rw [hcommitted]
    decide
  obtain ⟨d, hd, -, hlast⟩ := reachesIf_call (demoTerm 4 "cash" none (some 3)) hc hq
    (by rw [hcommitted]; rfl) fun _ => hterm
  refine ⟨d, ?_, ((policies_in_order demoPolicies_ok hd).2.2 trivial).1⟩
  rw [hlast]
  decide

/-- The transaction of a premium that is paid with `value` dollars. -/
def demoPaid (env : Env) (planId : Uuid) (value : Int) : PolicyCall :=
  .premium
    { program := do
        let r ← postEntry env
          { entryDate := 1, type := .income, description := "حق بیمه"
            postings := [demoLine 14 1 value value, demoLine 11 1 (-value) (-value)] }
        pure r.id
      spares := by
        refine Tx.Yields.bind (postEntry_yields _ _) ?_
        rintro _ _ _ ⟨⟩
        · simp [Tx.Yields]
        · rename_i onLots _ _ _
          intro w hw
          simp only [List.nil_append, List.mem_cons] at hw
          rcases hw with rfl | rfl | hw
          · exact fun _ => ⟨rfl, rfl, fun d hd => ⟨d, hd, rfl⟩⟩
          · exact fun _ => ⟨rfl, rfl, fun d hd => ⟨d, hd, rfl⟩⟩
          · have := onLots w hw
            cases w <;> first | exact fun _ => ⟨rfl, rfl, fun d hd => ⟨d, hd, rfl⟩⟩ | exact this.elim }
    env planId 1 ⟨pure (), by simp [Tx.Yields]⟩

def demoTransaction (c : PolicyCall) : Sql PolicyCall :=
  c.program ordinaryYears demoBank >>= fun _ => pure c

theorem exists_reaches_demo (check : Db → Bool) (calls : List PolicyCall)
    {ms : List (Move Db Write Row Assumption AppError PolicyCall)}
    (hbegun : Board.begun ms = calls.map demoTransaction)
    (h : ((Board.idle 2 demoPolicies).replay ms).any (fun b => check b.committed) = true) :
    ∃ sys, System.Reaches (PolicyTransaction ordinaryYears demoBank) (fun _ => False)
      demoPolicies sys ∧ check sys.committed = true := by
  refine Board.exists_reaches (fun p hp => ?_) h
  rw [hbegun] at hp
  obtain ⟨c, -, rfl⟩ := List.mem_map.mp hp
  exact ⟨c, rfl⟩

/-- The new term of the policy, as `renewPolicy` asks for it. -/
def demoRenewal (old : InsurancePolicy) : PolicyCall :=
  let env : Env := { entryId := 0, policyId := 4, planId := 14 }
  .create env 1 (RenewInput.policyInput
    { startDate := some 20270501, endDate := some 20280501, premiumToman := some (.ofInt 20) }
    env old)

/-- The new term has been committed, and `renewPolicy` has not gone on yet. -/
theorem renewed_and_active : ∃ old, (termToRenew 1 3).run demoPolicies = .ok (old, demoPolicies) ∧
    ∃ sys : System Db Write Row Assumption AppError PolicyCall,
      System.Reaches (PolicyTransaction ordinaryYears demoBank) (fun _ => False) demoPolicies sys ∧
      ∃ q ∈ sys.committed.insurancePolicies, ∃ r ∈ sys.committed.insurancePolicies,
        r.renewedFromId = some q.id ∧ q.status = .active := by
  refine ⟨_, rfl, ?_⟩
  set old : InsurancePolicy :=
    { id := 3, userId := 1, kind := "car_body", title := "بدنه", startDate := 20260501
      premiumToman := .ofInt 20, premiumFrequency := .monthly, payAccountId := some 11 }
  have hreplay : ((Board.idle 2 demoPolicies).replay
      ([Move.begin 0 (demoTransaction (demoRenewal old))] ++ List.replicate 6 (Move.go 0) ++
        [Move.commit 0])).any
      (fun b => decide (∃ q ∈ b.committed.insurancePolicies, ∃ r ∈ b.committed.insurancePolicies,
        r.renewedFromId = some q.id ∧ q.status = .active)) = true := by decide
  obtain ⟨sys, hreach, hcheck⟩ := exists_reaches_demo (fun db => decide
    (∃ q ∈ db.insurancePolicies, ∃ r ∈ db.insurancePolicies,
      r.renewedFromId = some q.id ∧ q.status = .active)) [demoRenewal old] rfl hreplay
  exact ⟨sys, hreach, of_decide_eq_true hcheck⟩

/-- Both look at the debt, then both register a policy on it. -/
theorem debt_pays_twice : ∃ sys : System Db Write Row Assumption AppError PolicyCall,
    System.Reaches (PolicyTransaction ordinaryYears demoBank) (fun _ => False) demoPolicies sys ∧
    (sys.committed.insurancePolicies.countP fun q =>
      q.debtId = some 40 ∧ q.status = .active) = 2 := by
  have hreplay : ((Board.idle 2 demoPolicies).replay
      ([Move.begin 0 (demoTransaction (demoTerm 4 "debt" (some 40) none)),
        Move.begin 1 (demoTransaction (demoTerm 5 "debt" (some 40) none))] ++
        List.replicate 6 (Move.go 0) ++ List.replicate 6 (Move.go 1) ++
        [Move.commit 0, Move.commit 1])).any
      (fun b => (b.committed.insurancePolicies.countP fun q =>
        q.debtId = some 40 ∧ q.status = .active) = 2) = true := by decide
  obtain ⟨sys, hreach, hcheck⟩ := exists_reaches_demo
    (fun db => (db.insurancePolicies.countP fun q => q.debtId = some 40 ∧ q.status = .active) = 2)
    [demoTerm 4 "debt" (some 40) none, demoTerm 5 "debt" (some 40) none] rfl hreplay
  exact ⟨sys, hreach, of_decide_eq_true hcheck⟩

/-- The premium is recorded while a cancellation waits for its row: the next one is scheduled
unseen. -/
theorem cancelled_with_premium : ∃ sys : System Db Write Row Assumption AppError PolicyCall,
    System.Reaches (PolicyTransaction ordinaryYears demoBank) (fun _ => False) demoPolicies sys ∧
    ∃ q ∈ sys.committed.insurancePolicies, q.status ≠ .active ∧
      ∃ p ∈ sys.committed.plannedTransactions, p.insurancePolicyId = some q.id ∧
        p.status = .pending := by
  have hreplay : ((Board.idle 2 demoPolicies).replay
      ([Move.begin 0 (demoTransaction (demoPaid { entryId := 9, planId := 12 } 2 20)),
        Move.begin 1 (demoTransaction (.cancel 1 3))] ++
        List.replicate 10 (Move.go 0) ++ List.replicate 2 (Move.go 1) ++
        [Move.commit 0, Move.go 1, Move.commit 1])).any
      (fun b => decide (∃ q ∈ b.committed.insurancePolicies, q.status ≠ .active ∧
        ∃ p ∈ b.committed.plannedTransactions, p.insurancePolicyId = some q.id ∧
          p.status = .pending)) = true := by decide
  obtain ⟨sys, hreach, hcheck⟩ := exists_reaches_demo
    (fun db => decide (∃ q ∈ db.insurancePolicies, q.status ≠ .active ∧
      ∃ p ∈ db.plannedTransactions, p.insurancePolicyId = some q.id ∧ p.status = .pending))
    [demoPaid { entryId := 9, planId := 12 } 2 20, .cancel 1 3] rfl hreplay
  exact ⟨sys, hreach, of_decide_eq_true hcheck⟩

/-- Policies in order are brought out of it: by a renewal that is cut short, by two
registrations on one debt, and by a cancellation that overlaps a premium. -/
theorem policies_out_of_order : Policies True demoPolicies ∧
    (∃ sys : System Db Write Row Assumption AppError PolicyCall,
      System.Reaches (PolicyTransaction ordinaryYears demoBank) (fun _ => False) demoPolicies sys ∧
      ∃ q ∈ sys.committed.insurancePolicies, ∃ r ∈ sys.committed.insurancePolicies,
        r.renewedFromId = some q.id ∧ q.status = .active) ∧
    (∃ sys : System Db Write Row Assumption AppError PolicyCall,
      System.Reaches (PolicyTransaction ordinaryYears demoBank) (fun _ => False) demoPolicies sys ∧
      (sys.committed.insurancePolicies.countP fun q =>
        q.debtId = some 40 ∧ q.status = .active) = 2) ∧
    ∃ sys : System Db Write Row Assumption AppError PolicyCall,
      System.Reaches (PolicyTransaction ordinaryYears demoBank) (fun _ => False) demoPolicies sys ∧
      ∃ q ∈ sys.committed.insurancePolicies, q.status ≠ .active ∧
        ∃ p ∈ sys.committed.plannedTransactions, p.insurancePolicyId = some q.id ∧
          p.status = .pending := by
  obtain ⟨_, -, hrenewed⟩ := renewed_and_active
  exact ⟨demoPolicies_ok, hrenewed, debt_pays_twice, cancelled_with_premium⟩

end Pwos
