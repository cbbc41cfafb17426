import Pwos.Planning.Insurance
import Pwos.Ledger.Statements

/-!
# What keeps the policies in order

The facts about policies and their premiums (`Policies`), and the two ways in which the
insurance operations change them: a policy is registered (`Registers`), or rows are closed and
taken out (`Narrows`).
-/

namespace Pwos

/-- Keys are unique, references lead somewhere, a closed policy has no pending premium and a debt
pays for one active policy at most. Where `renewals` are looked at too, a term is continued
once at most and is closed then. -/
structure Policies (renewals : Prop) (db : Db) : Prop where
  ids : (db.insurancePolicies.map (·.id)).Nodup
  owners : ∀ p ∈ db.plannedTransactions, p.status = .pending → ∀ i ∈ p.insurancePolicyId,
    ∃ q ∈ db.insurancePolicies, q.id = i ∧ p.userId = some q.userId
  terms : ∀ q ∈ db.insurancePolicies, ∀ i ∈ q.renewedFromId, ∃ r ∈ db.insurancePolicies, r.id = i
  debts : ∀ q ∈ db.insurancePolicies, ∀ i ∈ q.debtId, ∃ d ∈ db.debts, d.id = i
  closed : ∀ q ∈ db.insurancePolicies, q.status ≠ .active → ∀ p ∈ db.plannedTransactions,
    p.insurancePolicyId = some q.id → p.status ≠ .pending
  renewedOnce : renewals → ∀ i, db.insurancePolicies.countP (·.renewedFromId = some i) ≤ 1
  renewedClosed : renewals → ∀ q ∈ db.insurancePolicies, ∀ r ∈ db.insurancePolicies,
    r.renewedFromId = some q.id → q.status ≠ .active
  debtOnce : ∀ i, (db.insurancePolicies.countP fun q => q.debtId = some i ∧ q.status = .active) ≤ 1

variable {renewals : Prop} {s t u : Db}

/-! ## Programs that have nothing to do with policies -/

/-- No policy or plan differs, and every debt is still there. -/
structure SamePolicies (s t : Db) : Prop where
  policies : t.insurancePolicies = s.insurancePolicies
  plans : t.plannedTransactions = s.plannedTransactions
  debts : ∀ d ∈ s.debts, ∃ e ∈ t.debts, e.id = d.id

theorem SamePolicies.refl (s : Db) : SamePolicies s s := ⟨rfl, rfl, fun d hd => ⟨d, hd, rfl⟩⟩

theorem SamePolicies.trans (h : SamePolicies s t) (h' : SamePolicies t u) : SamePolicies s u where
  policies := h'.policies.trans h.policies
  plans := h'.plans.trans h.plans
  debts d hd := by
    obtain ⟨e, he, hid⟩ := h.debts d hd
    obtain ⟨f, hf, hid'⟩ := h'.debts e he
    exact ⟨f, hf, hid'.trans hid⟩

theorem Policies.same (h : Policies renewals s) (hsame : SamePolicies s t) : Policies renewals t := by
  obtain ⟨hpolicies, hplans, hdebts⟩ := hsame
  constructor
  · rw [hpolicies]; exact h.ids
  · rw [hplans, hpolicies]; exact h.owners
  · rw [hpolicies]; exact h.terms
  · rw [hpolicies]
    intro q hq i hi
    obtain ⟨d, hd, rfl⟩ := h.debts q hq i hi
    exact hdebts d hd
  · rw [hplans, hpolicies]; exact h.closed
  · rw [hpolicies]; exact h.renewedOnce
  · rw [hpolicies]; exact h.renewedClosed
  · rw [hpolicies]; exact h.debtOnce

/-- A write that has nothing to do with policies. -/
def Write.SparesPolicies (w : Write) : Prop := ∀ db : Db, SamePolicies db (w.apply db)

theorem sparesPolicies_all {ws : List Write} (h : ∀ w ∈ ws, w.SparesPolicies) (db : Db) :
    SamePolicies db (applyAll ws db) := by
  induction ws generalizing db with
  | nil => exact .refl db
  | cons w ws ih => exact (h w (by simp) db).trans (ih (fun v hv => h v (by simp [hv])) _)

theorem sparing_run {α : Type} {p : Sql α} (hp : p.WritesOnly Write.SparesPolicies) {a : α}
    (h : p.run s = .ok (a, t)) : SamePolicies s t := by
  obtain ⟨ws, hws, rfl⟩ := hp.run_ok h
  exact sparesPolicies_all hws s

theorem sparesPolicies_insertAccount (a : Account) : (Write.insertAccount a).SparesPolicies :=
  fun _ => ⟨rfl, rfl, fun d hd => ⟨d, hd, rfl⟩⟩

theorem sparesPolicies_insertDebt (d : Debt) : (Write.insertDebt d).SparesPolicies :=
  fun _ => ⟨rfl, rfl, fun e he => ⟨e, List.mem_append_left _ he, rfl⟩⟩

theorem sparesPolicies_insertInstallments (rows : List Installment) :
    (Write.insertInstallments rows).SparesPolicies :=
  fun _ => ⟨rfl, rfl, fun d hd => ⟨d, hd, rfl⟩⟩

/-! ## A new policy -/

/-- `row` has been registered. Nothing active was paid through its debt. -/
structure Registers (row : InsurancePolicy) (s t : Db) : Prop where
  policies : t.insurancePolicies = s.insurancePolicies ++ [row]
  plans : t.plannedTransactions = s.plannedTransactions
  debts : ∀ d ∈ s.debts, ∃ e ∈ t.debts, e.id = d.id
  active : row.status = .active
  fresh : ∀ q ∈ s.insurancePolicies, q.id ≠ row.id
  term : ∀ i ∈ row.renewedFromId, ∃ q ∈ s.insurancePolicies, q.id = i
  debt : ∀ i ∈ row.debtId, (∃ d ∈ t.debts, d.id = i) ∧ ¬ s.PaysFor i

/-- The term is closed and nothing continues it yet. -/
def Db.Continuable (i : Uuid) (db : Db) : Prop :=
  ∀ q ∈ db.insurancePolicies, q.renewedFromId ≠ some i ∧ (q.id = i → q.status ≠ .active)

instance (i : Uuid) : DecidablePred (Db.Continuable i) :=
  fun db => inferInstanceAs (Decidable (∀ q ∈ db.insurancePolicies, _ ∧ (_ → _)))

theorem Policies.register {row : InsurancePolicy} (h : Policies renewals s) (hr : Registers row s t)
    (hterm : renewals → ∀ i ∈ row.renewedFromId, s.Continuable i) : Policies renewals t := by
  have hmem : ∀ {q}, q ∈ t.insurancePolicies ↔ q ∈ s.insurancePolicies ∨ q = row := by
    simp [hr.policies]
  constructor
  · rw [hr.policies, List.map_append, List.nodup_append]
    refine ⟨h.ids, by simp, ?_⟩
    intro i hi j hj
    obtain ⟨q, hq, rfl⟩ := List.mem_map.mp hi
    obtain rfl : j = row.id := by simpa using hj
    exact hr.fresh q hq
  · intro p hp hpending i hi
    obtain ⟨q, hq, hid⟩ := h.owners p (hr.plans ▸ hp) hpending i hi
    exact ⟨q, hmem.mpr (.inl hq), hid⟩
  · intro q hq i hi
    have hold : ∃ r ∈ s.insurancePolicies, r.id = i := by
      rcases hmem.mp hq with hq | rfl
      · exact h.terms q hq i hi
      · exact hr.term i hi
    obtain ⟨r, hr', hid⟩ := hold
    exact ⟨r, hmem.mpr (.inl hr'), hid⟩
  · intro q hq i hi
    rcases hmem.mp hq with hq | rfl
    · obtain ⟨d, hd, rfl⟩ := h.debts q hq i hi
      exact hr.debts d hd
    · exact (hr.debt i hi).1
  · intro q hq hclosed p hp
    rcases hmem.mp hq with hq | rfl
    · exact h.closed q hq hclosed p (hr.plans ▸ hp)
    · exact absurd hr.active hclosed
  · intro hren i
    rw [hr.policies, List.countP_append, List.countP_singleton]
    split
    · rename_i hrow
      have hnone : s.insurancePolicies.countP (·.renewedFromId = some i) = 0 := by
        refine List.countP_eq_zero.mpr fun q hq => ?_
        simpa using (hterm hren i (by simpa using hrow) q hq).1
      omega
    · exact h.renewedOnce hren i
  · intro hrens q hq r hr' hren
    rcases hmem.mp hr' with hr' | rfl
    · rcases hmem.mp hq with hq | rfl
      · exact h.renewedClosed hrens q hq r hr' hren
      · -- A reference leads to a policy that was there.
        obtain ⟨o, ho, hid⟩ := h.terms r hr' _ hren
        exact absurd hid (hr.fresh o ho)
    · rcases hmem.mp hq with hq | rfl
      · exact (hterm hrens _ hren q hq).2 rfl
      · obtain ⟨o, ho, hid⟩ := hr.term _ hren
        exact absurd hid (hr.fresh o ho)
  · intro i
    rw [hr.policies, List.countP_append, List.countP_singleton]
    split
    · rename_i hrow
      have hnone : (s.insurancePolicies.countP fun q => q.debtId = some i ∧ q.status = .active) = 0 := by
        refine List.countP_eq_zero.mpr fun q hq hpays => ?_
        have hdebt : row.debtId = some i := (of_decide_eq_true hrow).1
        exact (hr.debt i hdebt).2 ⟨q, hq, of_decide_eq_true hpays⟩
      omega
    · exact h.debtOnce i

/-- An active policy may be given a premium. -/
theorem Policies.schedule {policy : InsurancePolicy} {premium : PlannedTransaction}
    (h : Policies renewals s) (hmem : policy ∈ s.insurancePolicies) (hactive : policy.status = .active)
    (hpolicy : premium.insurancePolicyId = some policy.id)
    (huser : premium.userId = some policy.userId) :
    Policies renewals ((Write.insertPlan premium).apply s) where
  ids := h.ids
  owners p hp hpending i hi := by
    rcases List.mem_append.mp hp with hp | hp
    · exact h.owners p hp hpending i hi
    · obtain rfl := List.mem_singleton.mp hp
      exact ⟨policy, hmem, Option.some.inj (hpolicy.symm.trans hi), huser⟩
  terms := h.terms
  debts := h.debts
  closed q hq hclosed p hp hid := by
    rcases List.mem_append.mp hp with hp | hp
    · exact h.closed q hq hclosed p hp hid
    · obtain rfl := List.mem_singleton.mp hp
      have hsame : policy = q := List.inj_on_of_nodup_map h.ids hmem hq
        (Option.some.inj (hpolicy.symm.trans hid))
      exact absurd (hsame ▸ hactive) hclosed
  renewedOnce := h.renewedOnce
  renewedClosed := h.renewedClosed
  debtOnce := h.debtOnce

/-! ## Rows that are closed, and rows that go -/

/-- Less is said about a policy. -/
structure InsurancePolicy.Leaves (q q' : InsurancePolicy) : Prop where
  key : q'.id = q.id
  userId : q'.userId = q.userId
  debtId : q'.debtId = q.debtId
  status : q'.status = .active → q.status = .active
  renewed : ∀ i, q'.renewedFromId = some i → q.renewedFromId = some i

theorem InsurancePolicy.Leaves.refl (q : InsurancePolicy) : q.Leaves q :=
  ⟨rfl, rfl, rfl, fun h => h, fun _ h => h⟩

theorem InsurancePolicy.Leaves.ite {q q' : InsurancePolicy} (h : q.Leaves q') (c : Prop)
    [Decidable c] : q.Leaves (if c then q' else q) := by
  split
  · exact h
  · exact .refl q

/-- Less is said about a plan. -/
structure PlannedTransaction.Leaves (p p' : PlannedTransaction) : Prop where
  userId : p'.userId = p.userId
  status : p'.status = .pending → p.status = .pending
  policy : ∀ i, p'.insurancePolicyId = some i → p.insurancePolicyId = some i

theorem PlannedTransaction.Leaves.refl (p : PlannedTransaction) : p.Leaves p :=
  ⟨rfl, fun h => h, fun _ h => h⟩

theorem PlannedTransaction.Leaves.ite {p p' : PlannedTransaction} (h : p.Leaves p') (c : Prop)
    [Decidable c] : p.Leaves (if c then p' else p) := by
  split
  · exact h
  · exact .refl p

/-- The policies that `keep` keeps are left, with less said about them, and so are the plans.
Nothing refers to those that went, and a policy that is closed loses its pending premiums. -/
structure Narrows (keep : InsurancePolicy → Bool) (f : InsurancePolicy → InsurancePolicy)
    (g : PlannedTransaction → PlannedTransaction) (s t : Db) : Prop where
  policies : t.insurancePolicies = (s.insurancePolicies.filter keep).map f
  plans : t.plannedTransactions = s.plannedTransactions.map g
  debts : t.debts = s.debts
  policy : ∀ q : InsurancePolicy, q.Leaves (f q)
  plan : ∀ p : PlannedTransaction, p.Leaves (g p)
  gone : ∀ q ∈ s.insurancePolicies, keep q = false →
    (∀ r, (f r).renewedFromId ≠ some q.id) ∧ ∀ p, (g p).insurancePolicyId ≠ some q.id
  closed : ∀ q ∈ s.insurancePolicies, q.status = .active → (f q).status ≠ .active →
    ∀ p ∈ s.plannedTransactions, p.insurancePolicyId = some q.id → p.userId = some q.userId →
      (g p).status ≠ .pending

theorem Policies.narrow {keep : InsurancePolicy → Bool} {f : InsurancePolicy → InsurancePolicy}
    {g : PlannedTransaction → PlannedTransaction} (h : Policies renewals s) (hn : Narrows keep f g s t) :
    Policies renewals t := by
  have hmem : ∀ {q}, q ∈ t.insurancePolicies ↔ ∃ o ∈ s.insurancePolicies, keep o ∧ f o = q := by
    simp [hn.policies, and_assoc]
  have hplan : ∀ {p}, p ∈ t.plannedTransactions ↔ ∃ o ∈ s.plannedTransactions, g o = p := by
    simp [hn.plans]
  have hcount : ∀ c d : InsurancePolicy → Bool, (∀ q, c (f q) → d q) →
      t.insurancePolicies.countP c ≤ s.insurancePolicies.countP d := by
    intro c d himp
    calc t.insurancePolicies.countP c
        = (s.insurancePolicies.filter keep).countP (c ∘ f) := by rw [hn.policies, List.countP_map]
      _ ≤ (s.insurancePolicies.filter keep).countP d :=
          List.countP_mono_left fun q _ hq => himp q hq
      _ ≤ s.insurancePolicies.countP d := List.Sublist.countP_le (List.filter_sublist)
  constructor
  · have hids : (t.insurancePolicies.map (·.id)) =
        (s.insurancePolicies.filter keep).map (·.id) := by
      rw [hn.policies, List.map_map]
      exact List.map_congr_left fun q _ => (hn.policy q).key
    rw [hids]
    exact h.ids.sublist (List.filter_sublist.map _)
  · intro p hp hpending i hi
    obtain ⟨o, ho, rfl⟩ := hplan.mp hp
    obtain ⟨q, hq, rfl, howner⟩ :=
      h.owners o ho ((hn.plan o).status hpending) i ((hn.plan o).policy i hi)
    have hkeep : keep q = true := by
      by_contra hgone
      exact (hn.gone q hq (Bool.eq_false_of_not_eq_true hgone)).2 o hi
    refine ⟨f q, hmem.mpr ⟨q, hq, hkeep, rfl⟩, (hn.policy q).key, ?_⟩
    rw [(hn.plan o).userId, howner, (hn.policy q).userId]
  · intro q hq i hi
    obtain ⟨o, ho, -, rfl⟩ := hmem.mp hq
    obtain ⟨r, hr, rfl⟩ := h.terms o ho i ((hn.policy o).renewed i hi)
    have hkeep : keep r = true := by
      by_contra hgone
      exact (hn.gone r hr (Bool.eq_false_of_not_eq_true hgone)).1 o hi
    exact ⟨f r, hmem.mpr ⟨r, hr, hkeep, rfl⟩, (hn.policy r).key⟩
  · intro q hq i hi
    obtain ⟨o, ho, -, rfl⟩ := hmem.mp hq
    rw [hn.debts]
    exact h.debts o ho i ((hn.policy o).debtId ▸ hi)
  · intro q hq hclosed p hp hpolicy hpending
    obtain ⟨o, ho, -, rfl⟩ := hmem.mp hq
    obtain ⟨b, hb, rfl⟩ := hplan.mp hp
    have hwas := (hn.plan b).status hpending
    have hpolicy' : b.insurancePolicyId = some o.id :=
      (hn.policy o).key ▸ (hn.plan b).policy _ hpolicy
    by_cases hactive : o.status = .active
    · -- The pending premiums of a policy are its owner's.
      obtain ⟨r, hr, hid, howner⟩ := h.owners b hb hwas _ hpolicy'
      obtain rfl : r = o := List.inj_on_of_nodup_map h.ids hr ho hid
      exact hn.closed r ho hactive hclosed b hb hpolicy' howner hpending
    · exact h.closed o ho hactive b hb hpolicy' hwas
  · intro hren i
    refine (hcount _ _ fun q hq => ?_).trans (h.renewedOnce hren i)
    exact decide_eq_true ((hn.policy q).renewed i (of_decide_eq_true hq))
  · intro hrens q hq r hr hren hactive
    obtain ⟨o, ho, -, rfl⟩ := hmem.mp hq
    obtain ⟨b, hb, -, rfl⟩ := hmem.mp hr
    have hwas := (hn.policy b).renewed _ hren
    rw [(hn.policy o).key] at hwas
    exact h.renewedClosed hrens o ho b hb hwas ((hn.policy o).status hactive)
  · intro i
    refine (hcount _ _ fun q hq => ?_).trans (h.debtOnce i)
    obtain ⟨hdebt, hactive⟩ := of_decide_eq_true hq
    exact decide_eq_true ⟨(hn.policy q).debtId ▸ hdebt, (hn.policy q).status hactive⟩

/-- Where no row goes and no policy is closed. -/
theorem Policies.leave {f : InsurancePolicy → InsurancePolicy}
    {g : PlannedTransaction → PlannedTransaction} (h : Policies renewals s)
    (hpolicies : t.insurancePolicies = s.insurancePolicies.map f)
    (hplans : t.plannedTransactions = s.plannedTransactions.map g) (hdebts : t.debts = s.debts)
    (hpolicy : ∀ q : InsurancePolicy, q.Leaves (f q)) (hstatus : ∀ q, (f q).status = q.status)
    (hplan : ∀ p : PlannedTransaction, p.Leaves (g p)) : Policies renewals t := by
  have hn : Narrows (fun _ => true) f g s t := by
    refine ⟨by rw [hpolicies, List.filter_true], hplans, hdebts, hpolicy, hplan, ?_, ?_⟩
    · exact fun _ _ hgone => Bool.noConfusion hgone
    · exact fun q _ hactive hclosed => absurd ((hstatus q).trans hactive) hclosed
  exact h.narrow hn

end Pwos
