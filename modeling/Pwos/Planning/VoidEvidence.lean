import Pwos.Planning.TomanMigration

/-!
# Evidence from void entries

The migration joins lines and snapshots with their entries by tenant and type, and does not ask
whether an entry still counts. What a void entry can add to the evidence of posted ones, and when
it changes what the migration writes.
-/

namespace Pwos

namespace LegacyTables
variable (user : Option Uuid) (t : LegacyTables)

/-- Without void entries and those of others. -/
def postedOnly : LegacyTables :=
  { t with
    journalEntries := t.journalEntries.filter fun e => e.status = .posted ∧ e.userId = user
    entryIds := (List.filter_sublist.map _).nodup t.entryIds }

def OwnDebt (d : Debt) : Prop := d ∈ t.debts ∧ d.userId = user

def OwnInstallment (i : Installment) : Prop := i ∈ t.installments ∧ t.debtUser i = user

/-- The line is of a void entry. -/
def IsVoidLine (p : Posting) : Prop := ∃ e ∈ t.journalEntries, e.id = p.entryId ∧ e.status = .void

instance : DecidablePred t.IsVoidLine :=
  fun p => inferInstanceAs (Decidable (∃ e ∈ t.journalEntries, e.id = p.entryId ∧ e.status = .void))

/-- The evidence of a debt that void entries give. -/
def voidLines (d : Debt) (accountId : Uuid) : List Posting :=
  (t.debtLines d accountId).filter t.IsVoidLine

/-- The lines are of one entry, and one of them is in Toman and not zero. -/
def ProvesDebt (postings : List Posting) : Prop :=
  (postings.map (·.entryId)).dedup.length = 1 ∧ (postings.filter t.isToman).length = 1 ∧
    ∀ p ∈ postings.filter t.isToman, p.quantity ≠ 0

instance : DecidablePred t.ProvesDebt := fun _ => inferInstanceAs (Decidable (_ ∧ _ ∧ _))

/-- The entry is the user's and has one snapshot, which is positive. -/
def ProvesInstallment (entryId : Uuid) : Prop :=
  (t.snapshotsOf entryId).length = 1 ∧
    ∀ s ∈ t.snapshotsOf entryId, s.2 = user ∧ 0 < s.1.irtAmount

instance : DecidablePred (t.ProvesInstallment user) :=
  fun _ => inferInstanceAs (Decidable (_ ∧ ∀ s ∈ _, _ ∧ _))

/-- The void lines neither stand beside posted ones that prove the debt, nor prove it where none
are posted. -/
def DebtUnharmed (d : Debt) : Prop :=
  ∀ a ∈ d.accountId, t.voidLines d a ≠ [] →
    ¬ t.ProvesDebt ((t.postedOnly d.userId).debtLines d a) ∧
      ((t.postedOnly d.userId).debtLines d a = [] → ¬ t.ProvesDebt (t.voidLines d a))

/-- The installment is not paid by a void entry that proves it. -/
def InstallmentUnharmed (i : Installment) : Prop :=
  i.status = .paid → ∀ entryId ∈ i.paidEntryId, ∀ e ∈ t.journalEntries, e.id = entryId →
    e.status = .void → ¬ t.ProvesInstallment (t.debtUser i) entryId

instance : DecidablePred t.DebtUnharmed := fun d =>
  inferInstanceAs (Decidable (∀ a ∈ d.accountId, _ → _ ∧ (_ → _)))

instance : DecidablePred t.InstallmentUnharmed := fun i =>
  inferInstanceAs (Decidable (_ → ∀ entryId ∈ i.paidEntryId, ∀ e ∈ t.journalEntries, _ → _ → _))

/-- Void entries change nothing of what the migration writes for the user. -/
def VoidHarmless : Prop :=
  (∀ d ∈ t.debts, d.userId = user → d.principalToman = none → t.DebtUnharmed d) ∧
    ∀ i ∈ t.installments, t.debtUser i = user → i.amountToman = none → t.InstallmentUnharmed i

instance : Decidable (t.VoidHarmless user) :=
  inferInstanceAs (Decidable ((∀ d ∈ t.debts, _ → _ → _) ∧ ∀ i ∈ t.installments, _ → _ → _))

end LegacyTables

/-! ## One debt -/

section Debt
variable {user : Option Uuid} {t s : LegacyTables} {d : Debt} {a : Uuid} {ps qs : List Posting}

theorem debtEvidence_isSome : (t.debtEvidence ps).toOption.isSome ↔ t.ProvesDebt ps := by
  unfold LegacyTables.debtEvidence LegacyTables.ProvesDebt
  split
  · rename_i h
    simp [h, Except.toOption]
  · rename_i h
    split
    · rename_i p hp
      by_cases hq : p.quantity = 0 <;> simp [h, hp, hq, Except.toOption]
    · rename_i hne
      rw [h]
      rcases hf : ps.filter t.isToman with _ | ⟨p, _ | ⟨q, qs⟩⟩
      · simp [Except.toOption]
      · exact absurd hf (hne p)
      · simp [Except.toOption]
  · rename_i hnil hone
    rcases hd : (ps.map (·.entryId)).dedup with _ | ⟨x, _ | ⟨y, ys⟩⟩
    · exact absurd hd hnil
    · exact absurd hd (hone x)
    · simp [hd, Except.toOption]

/-- The order of the lines does not matter. -/
theorem debtEvidence_perm (h : ps.Perm qs) : t.debtEvidence ps = t.debtEvidence qs := by
  have hids := (h.map (·.entryId)).dedup
  have htoman := h.filter t.isToman
  unfold LegacyTables.debtEvidence
  generalize (ps.map (·.entryId)).dedup = is at hids ⊢
  generalize (qs.map (·.entryId)).dedup = js at hids ⊢
  generalize ps.filter t.isToman = fs at htoman ⊢
  generalize qs.filter t.isToman = gs at htoman ⊢
  have hlen := hids.length_eq
  have hlen' := htoman.length_eq
  match is, js, hids with
  | [], [], _ => rfl
  | [x], [y], hids =>
    obtain rfl : x = y := by simpa using hids
    match fs, gs, htoman with
    | [], [], _ => rfl
    | [p], [q], htoman =>
      obtain rfl : p = q := by simpa using htoman
      rfl
    | _ :: _ :: _, _ :: _ :: _, _ => rfl
  | _ :: _ :: _, _ :: _ :: _, _ => rfl

theorem entry_unique {e f : JournalEntry} (he : e ∈ t.journalEntries) (hf : f ∈ t.journalEntries)
    (h : e.id = f.id) : e = f :=
  List.inj_on_of_nodup_map t.entryIds he hf h

/-- A line that joins an own entry is a posted one or a void one. -/
theorem postedLines_eq : (t.postedOnly d.userId).debtLines d a =
    (t.debtLines d a).filter fun p => ¬ t.IsVoidLine p := by
  simp only [LegacyTables.debtLines, LegacyTables.postedOnly, List.filter_filter]
  refine List.filter_congr fun p _ => ?_
  rw [Bool.eq_iff_iff]
  refine decide_eq_true_iff.trans ?_
  simp only [Bool.and_eq_true, decide_eq_true_eq, List.mem_filter]
  constructor
  · rintro ⟨hp, acc, hacc, hid, e, ⟨he, hposted, -⟩, heid, hrest⟩
    refine ⟨?_, hp, acc, hacc, hid, e, he, heid, hrest⟩
    rintro ⟨f, hf, hfid, hvoid⟩
    rw [entry_unique he hf (heid.trans hfid.symm), hvoid] at hposted
    cases hposted
  · rintro ⟨hvoid, hp, acc, hacc, hid, e, he, heid, htype, huser, howner⟩
    have hposted : e.status = .posted := by
      cases hs : e.status with
      | posted => rfl
      | void => exact absurd ⟨e, he, heid, hs⟩ hvoid
    exact ⟨hp, acc, hacc, hid, e, ⟨he, hposted, howner⟩, heid, htype, huser, howner⟩

/-- Lines of two entries prove nothing. -/
theorem not_provesDebt {p q : Posting} (hp : p ∈ ps) (hq : q ∈ ps) (hne : p.entryId ≠ q.entryId) :
    ¬ t.ProvesDebt ps := by
  rintro ⟨hone, -⟩
  obtain ⟨x, hx⟩ := List.length_eq_one_iff.mp hone
  have hmem : ∀ r ∈ ps, r.entryId = x := by
    intro r hr
    simpa [hx] using List.mem_dedup.mpr (List.mem_map_of_mem (f := (·.entryId)) hr)
  exact hne ((hmem p hp).trans (hmem q hq).symm)

theorem toOption_none_iff : (t.debtEvidence ps).toOption = none ↔ ¬ t.ProvesDebt ps := by
  rw [← debtEvidence_isSome, Option.not_isSome_iff_eq_none]

/-- The Toman amount of the evidence is that of the posted evidence exactly if no void line harms. -/
theorem debtEvidence_eq_iff :
    (t.classifyDebtEvidence d).toOption.map (·.principalToman) =
      ((t.postedOnly d.userId).classifyDebtEvidence d).toOption.map (·.principalToman) ↔
      t.DebtUnharmed d := by
  cases ha : d.accountId with
  | none => simp [LegacyTables.classifyDebtEvidence, LegacyTables.DebtUnharmed, ha]
  | some a =>
    have hposted : (t.postedOnly d.userId).debtEvidence = t.debtEvidence := debtEvidence_congr rfl
    simp only [LegacyTables.classifyDebtEvidence, LegacyTables.DebtUnharmed, ha, hposted,
      postedLines_eq, Option.mem_def, Option.some.injEq, forall_eq', LegacyTables.voidLines]
    generalize t.debtLines d a = lines
    by_cases hvoid : lines.filter t.IsVoidLine = []
    · have hall : (lines.filter fun p => ¬ t.IsVoidLine p) = lines := by
        simpa [List.filter_eq_nil_iff] using hvoid
      rw [hall, hvoid]
      simp
    · by_cases hnone : (lines.filter fun p => ¬ t.IsVoidLine p) = []
      · have hall : lines.filter t.IsVoidLine = lines := by
          simpa [List.filter_eq_nil_iff] using hnone
        have hempty : ¬ t.ProvesDebt [] := by simp [LegacyTables.ProvesDebt]
        rw [hnone, hall, toOption_none_iff.mpr hempty, Option.map_none, Option.map_eq_none_iff,
          toOption_none_iff]
        rw [hall] at hvoid
        simp [hvoid, hempty]
      · obtain ⟨p, hp⟩ := List.exists_mem_of_ne_nil _ hnone
        obtain ⟨q, hq⟩ := List.exists_mem_of_ne_nil _ hvoid
        simp only [List.mem_filter, decide_eq_true_eq] at hp hq
        have hne : p.entryId ≠ q.entryId := by
          intro heq
          obtain ⟨e, he, hid, hstatus⟩ := hq.2
          exact hp.2 ⟨e, he, hid.trans heq.symm, hstatus⟩
        rw [toOption_none_iff.mpr (not_provesDebt hp.1 hq.1 hne), Option.map_none, eq_comm,
          Option.map_eq_none_iff, toOption_none_iff]
        exact ⟨fun h _ => ⟨h, fun hn => absurd hn hnone⟩, fun h => (h hvoid).1⟩

end Debt

/-! ## One installment -/

section Installment
variable {user : Option Uuid} {t s : LegacyTables} {i : Installment} {entryId : Uuid}
  {e : JournalEntry}

theorem find_entry (he : e ∈ t.journalEntries) (hid : e.id = entryId) :
    t.journalEntries.find? (·.id = entryId) = some e := by
  cases h : t.journalEntries.find? (·.id = entryId) with
  | none => simpa [hid] using List.find?_eq_none.mp h e he
  | some f =>
    have hf : f.id = entryId := by simpa using List.find?_some h
    rw [entry_unique (List.mem_of_find?_eq_some h) he (hf.trans hid.symm)]

theorem installmentEvidence_isSome : (t.classifyInstallmentEvidence i).toOption.isSome ↔
    i.status = .paid ∧ ∃ entryId ∈ i.paidEntryId, t.ProvesInstallment (t.debtUser i) entryId := by
  unfold LegacyTables.classifyInstallmentEvidence LegacyTables.ProvesInstallment
  split
  · rename_i entryId hstatus hentry
    simp only [hstatus, hentry, true_and, Option.mem_def, Option.some.injEq, exists_eq_left']
    split
    · rename_i h
      simp [h, Except.toOption]
    · rename_i snap entryUser h
      simp only [h]
      split
      · simp_all [Except.toOption]
      · split <;> simp_all [Except.toOption]
    · rename_i hnil hone
      rcases hs : t.snapshotsOf entryId with _ | ⟨x, _ | ⟨y, ys⟩⟩
      · exact absurd hs hnil
      · exact absurd hs (hone x.1 x.2)
      · simp [Except.toOption]
  · rename_i hneither
    simp only [Except.toOption, Option.isSome_none, Bool.false_eq_true, false_iff]
    rintro ⟨hstatus, entryId, hentry, -⟩
    exact hneither entryId hstatus hentry

/-- Posted entries of the user keep their snapshots, and the others have none. -/
theorem snapshotsOf_postedOnly : (t.postedOnly user).snapshotsOf entryId =
    if ∃ e ∈ t.journalEntries, e.id = entryId ∧ e.status = .posted ∧ e.userId = user then
      t.snapshotsOf entryId
    else [] := by
  split
  · rename_i h
    obtain ⟨e, he, hid, hposted, huser⟩ := h
    have hmem : e ∈ (t.postedOnly user).journalEntries := by
      simp [LegacyTables.postedOnly, he, hposted, huser]
    refine List.filterMap_congr fun fx _ => ?_
    split
    · rename_i hfx
      rw [hfx, find_entry he hid, find_entry hmem hid]
    · rfl
  · rename_i h
    refine List.filterMap_eq_nil_iff.mpr fun fx _ => ?_
    split
    · rename_i hfx
      rw [hfx, Option.map_eq_none_iff, List.find?_eq_none]
      intro e he hid
      simp only [LegacyTables.postedOnly, List.mem_filter, decide_eq_true_eq] at he hid
      exact h ⟨e, he.1, hid, he.2⟩
    · rfl

theorem mem_snapshotsOf {x : SnapshotRow × Option Uuid} (hx : x ∈ t.snapshotsOf entryId) :
    ∃ e ∈ t.journalEntries, e.id = entryId ∧ e.userId = x.2 := by
  obtain ⟨fx, -, hfx⟩ := List.mem_filterMap.mp hx
  split at hfx
  · rename_i hid
    obtain ⟨e, he, rfl⟩ := Option.map_eq_some_iff.mp hfx
    have hfound : e.id = fx.entryId := by simpa using List.find?_some he
    exact ⟨e, List.mem_of_find?_eq_some he, hfound.trans hid, rfl⟩
  · cases hfx

theorem installmentEvidence_congr (huser : s.debtUser i = t.debtUser i)
    (h : ∀ entryId ∈ i.paidEntryId, s.snapshotsOf entryId = t.snapshotsOf entryId) :
    s.classifyInstallmentEvidence i = t.classifyInstallmentEvidence i := by
  unfold LegacyTables.classifyInstallmentEvidence
  split
  · rename_i entryId hstatus hentry
    rw [h entryId hentry, huser]
  · rfl

/-- The order of the snapshots does not matter. -/
theorem installmentEvidence_perm (huser : s.debtUser i = t.debtUser i)
    (h : ∀ entryId ∈ i.paidEntryId, (s.snapshotsOf entryId).Perm (t.snapshotsOf entryId)) :
    s.classifyInstallmentEvidence i = t.classifyInstallmentEvidence i := by
  unfold LegacyTables.classifyInstallmentEvidence
  split
  · rename_i entryId hstatus hentry
    have hperm := h entryId hentry
    rw [huser]
    generalize s.snapshotsOf entryId = xs at hperm ⊢
    generalize t.snapshotsOf entryId = ys at hperm ⊢
    have hlen := hperm.length_eq
    match xs, ys, hperm with
    | [], [], _ => rfl
    | [x], [y], hperm =>
      obtain rfl : x = y := by simpa using hperm
      rfl
    | _ :: _ :: _, _ :: _ :: _, _ => rfl
  · rfl

theorem installmentEvidence_none_iff : (t.classifyInstallmentEvidence i).toOption = none ↔
    (i.status = .paid → ∀ entryId ∈ i.paidEntryId,
      ¬ t.ProvesInstallment (t.debtUser i) entryId) := by
  rw [← Option.not_isSome_iff_eq_none, installmentEvidence_isSome]
  grind

/-- The evidence is that of the posted entry exactly if no void entry harms. -/
theorem installmentEvidence_eq_iff (huser : t.debtUser i = user) :
    (t.classifyInstallmentEvidence i).toOption =
      ((t.postedOnly user).classifyInstallmentEvidence i).toOption ↔ t.InstallmentUnharmed i := by
  by_cases hown : ∃ entryId ∈ i.paidEntryId, ∃ e ∈ t.journalEntries,
      e.id = entryId ∧ e.status = .posted ∧ e.userId = user
  · obtain ⟨entryId, hentry, e, he, hid, hposted, howner⟩ := hown
    have hsame : (t.postedOnly user).classifyInstallmentEvidence i =
        t.classifyInstallmentEvidence i := by
      refine installmentEvidence_congr rfl fun j hj => ?_
      obtain rfl : j = entryId := Option.some.inj (hj.symm.trans hentry)
      rw [snapshotsOf_postedOnly, if_pos ⟨e, he, hid, hposted, howner⟩]
    refine iff_of_true (by rw [hsame]) ?_
    intro _ j hj f hf hfid hvoid
    obtain rfl : j = entryId := Option.some.inj (hj.symm.trans hentry)
    rw [← entry_unique he hf (hid.trans hfid.symm), hposted] at hvoid
    cases hvoid
  · have hnone : ((t.postedOnly user).classifyInstallmentEvidence i).toOption = none := by
      refine installmentEvidence_none_iff.mpr fun _ j hj hproves => ?_
      have hsnaps := hproves.1
      rw [snapshotsOf_postedOnly, if_neg fun h => hown ⟨j, hj, h⟩] at hsnaps
      cases hsnaps
    rw [hnone, installmentEvidence_none_iff]
    refine ⟨fun h hpaid j hj _ _ _ _ => h hpaid j hj, fun h hpaid j hj hproves => ?_⟩
    obtain ⟨x, hx⟩ := List.length_eq_one_iff.mp hproves.1
    have hmem : x ∈ t.snapshotsOf j := by simp [hx]
    obtain ⟨e, he, hid, howner⟩ := mem_snapshotsOf hmem
    refine h hpaid j hj e he hid ?_ hproves
    cases hstatus : e.status with
    | void => rfl
    | posted =>
      exact absurd ⟨j, hj, e, he, hid, hstatus, howner.trans ((hproves.2 x hmem).1.trans huser)⟩ hown

end Installment

/-! ## Whole migrations -/

/-- The same debts and installments of the user. -/
structure SameOwn (user : Option Uuid) (t s : LegacyTables) : Prop where
  debts : ∀ d, t.OwnDebt user d ↔ s.OwnDebt user d
  installments : ∀ i, t.OwnInstallment user i ↔ s.OwnInstallment user i

/-- A run that came to its end after others that were stopped. -/
def MigratesTo (t t' : LegacyTables) : Prop :=
  ∃ runs size k, (backfillDeterministicDebtToman size k (stoppedRuns runs t)).completed ∧
    (backfillDeterministicDebtToman size k (stoppedRuns runs t)).tables = t'

theorem MigratesTo.filled {t t' : LegacyTables} (h : MigratesTo t t') : Filled t t' := by
  obtain ⟨runs, size, k, hend, rfl⟩ := h
  exact ((PartlyFilled.refl t).runs runs).completed hend

/-- Two maps that keep the keys have the same images only if they agree. -/
theorem images_agree {α : Type} {f g : α → α} {k : α → Nat} {own : α → Prop}
    (hf : ∀ a, k (f a) = k a) (hg : ∀ a, k (g a) = k a)
    (hkey : ∀ a b, own a → own b → k a = k b → a = b) :
    (∀ x, (∃ a, own a ∧ f a = x) ↔ ∃ a, own a ∧ g a = x) ↔ ∀ a, own a → f a = g a := by
  constructor
  · intro h a ha
    obtain ⟨b, hb, hgb⟩ := (h (f a)).mp ⟨a, ha, rfl⟩
    obtain rfl : b = a := hkey b a hb ha (by rw [← hg, hgb, hf])
    exact hgb.symm
  · intro h x
    exact exists_congr fun a => and_congr_right fun ha => by rw [h a ha]

section Whole
variable {user : Option Uuid} {t s t' s' : LegacyTables}

theorem ownDebt_filled (h : Filled t t') (d : Debt) :
    t'.OwnDebt user d ↔ ∃ c, t.OwnDebt user c ∧ t.debtBackfill.filled c = d := by
  have huser : ∀ c, (t.debtBackfill.filled c).userId = c.userId := by
    intro c
    unfold Backfill.filled
    cases t.debtBackfill.evidence c <;> split <;> rfl
  simp only [LegacyTables.OwnDebt, h.allDebts, List.mem_map]
  constructor
  · rintro ⟨⟨c, hc, rfl⟩, howner⟩
    exact ⟨c, ⟨hc, (huser c).symm.trans howner⟩, rfl⟩
  · rintro ⟨c, ⟨hc, howner⟩, rfl⟩
    exact ⟨⟨c, hc, rfl⟩, (huser c).trans howner⟩

theorem ownInstallment_filled (h : Filled t t') (i : Installment) :
    t'.OwnInstallment user i ↔
      ∃ c, t.OwnInstallment user c ∧ t.installmentBackfill.filled c = i := by
  obtain ⟨ks, hks⟩ := h.debts
  have hsame : ∀ c, t'.debtUser (t.installmentBackfill.filled c) = t.debtUser c := by
    intro c
    rw [debtUser_fillAt _ hks]
    unfold Backfill.filled
    cases t.installmentBackfill.evidence c <;> split <;> rfl
  simp only [LegacyTables.OwnInstallment, h.allInstallments, List.mem_map]
  constructor
  · rintro ⟨⟨c, hc, rfl⟩, howner⟩
    exact ⟨c, ⟨hc, (hsame c).symm.trans howner⟩, rfl⟩
  · rintro ⟨c, ⟨hc, howner⟩, rfl⟩
    exact ⟨⟨c, hc, rfl⟩, (hsame c).trans howner⟩

theorem filled_debt_eq_iff {d : Debt} (howner : d.userId = user) :
    t.debtBackfill.filled d = (t.postedOnly user).debtBackfill.filled d ↔
      (d.principalToman = none → t.DebtUnharmed d) := by
  subst user
  cases h : d.principalToman with
  | some v =>
    have hsome : d.principalToman.isNone = false := by rw [h]; rfl
    rw [filled_debt_of_some hsome, filled_debt_of_some hsome]
    simp
  | none =>
    have hnone : ∀ r : LegacyTables, r.debtBackfill.filled d =
        { d with principalToman := (r.classifyDebtEvidence d).toOption.map (·.principalToman) } := by
      intro r
      simp only [Backfill.filled, LegacyTables.debtBackfill, h]
      cases (r.classifyDebtEvidence d).toOption with
      | none => simp [← h]
      | some e => rfl
    rw [hnone, hnone, ← debtEvidence_eq_iff]
    simp

/-- What an installment without an amount is filled with can be read off it. -/
theorem fill_injective {i : Installment} (h : i.amountToman = none) :
    Function.Injective fun e : Option InstallmentEvidence =>
      e.elim i (t.installmentBackfill.fill · i) := by
  intro x y heq
  have hamount := congrArg (·.amountToman) heq
  cases x with
  | none =>
    cases y with
    | none => rfl
    | some e => simp [LegacyTables.installmentBackfill, h] at hamount
  | some e =>
    cases y with
    | none => simp [LegacyTables.installmentBackfill, h] at hamount
    | some e' =>
      cases e
      cases e'
      simpa [LegacyTables.installmentBackfill] using heq

theorem filled_installment_eq_iff {i : Installment} (howner : t.debtUser i = user) :
    t.installmentBackfill.filled i = (t.postedOnly user).installmentBackfill.filled i ↔
      (i.amountToman = none → t.InstallmentUnharmed i) := by
  cases h : i.amountToman with
  | some v =>
    have hsome : i.amountToman.isNone = false := by rw [h]; rfl
    rw [filled_installment_of_some hsome, filled_installment_of_some hsome]
    simp
  | none =>
    have hfilled : ∀ r : LegacyTables, r.installmentBackfill.filled i =
        (r.classifyInstallmentEvidence i).toOption.elim i (r.installmentBackfill.fill · i) := by
      intro r
      cases he : (r.classifyInstallmentEvidence i).toOption with
      | none => simp [Backfill.filled, LegacyTables.installmentBackfill, he]
      | some e =>
        obtain ⟨hpaid, hentry⟩ := selected_of_evidence (by rw [he]; rfl)
        simp [Backfill.filled, LegacyTables.installmentBackfill, he, h, hpaid, hentry]
    rw [hfilled, hfilled, ← installmentEvidence_eq_iff howner]
    have hinj := fill_injective (t := t) h
    exact ⟨fun heq _ => hinj heq, fun heq => by rw [heq rfl]; rfl⟩

/-- Void entries change nothing exactly if they are harmless. -/
theorem sameOwn_postedOnly_iff (h : Filled t t') (h' : Filled (t.postedOnly user) s') :
    SameOwn user t' s' ↔ t.VoidHarmless user := by
  have hdebts : (∀ d, t'.OwnDebt user d ↔ s'.OwnDebt user d) ↔
      ∀ d, t.OwnDebt user d → d.principalToman = none → t.DebtUnharmed d := by
    simp only [ownDebt_filled h, ownDebt_filled h']
    refine (images_agree (k := Debt.id) t.debtBackfill_lawful.key_filled
      (t.postedOnly user).debtBackfill_lawful.key_filled
      fun c d hc hd => List.inj_on_of_nodup_map t.debtIds hc.1 hd.1).trans ?_
    exact forall₂_congr fun d hd => filled_debt_eq_iff hd.2
  have hinstallments : (∀ i, t'.OwnInstallment user i ↔ s'.OwnInstallment user i) ↔
      ∀ i, t.OwnInstallment user i → i.amountToman = none → t.InstallmentUnharmed i := by
    simp only [ownInstallment_filled h, ownInstallment_filled h']
    refine (images_agree (k := Installment.id) t.installmentBackfill_lawful.key_filled
      (t.postedOnly user).installmentBackfill_lawful.key_filled
      fun c d hc hd => List.inj_on_of_nodup_map t.installmentIds hc.1 hd.1).trans ?_
    exact forall₂_congr fun i hi => filled_installment_eq_iff hi.2
  constructor
  · intro hsame
    exact ⟨fun d hd howner => hdebts.mp hsame.debts d ⟨hd, howner⟩,
      fun i hi howner => hinstallments.mp hsame.installments i ⟨hi, howner⟩⟩
  · intro hharmless
    exact ⟨hdebts.mpr fun d hd => hharmless.1 d hd.1 hd.2,
      hinstallments.mpr fun i hi => hharmless.2 i hi.1 hi.2⟩

end Whole

/-! ## Two contents -/

namespace LegacyTables
variable (user : Option Uuid) (t : LegacyTables)

/-- The entry of this id is posted, and the user's. -/
def OwnPosted (entryId : Uuid) : Prop :=
  ∃ e ∈ t.journalEntries, e.id = entryId ∧ e.status = .posted ∧ e.userId = user

instance : DecidablePred (t.OwnPosted user) := fun entryId =>
  inferInstanceAs (Decidable (∃ e ∈ t.journalEntries, e.id = entryId ∧ _ ∧ _))

/-- The lines and the snapshots of the posted entries of the user. -/
def ownLines : List Posting := t.postings.filter fun p => t.OwnPosted user p.entryId

def ownSnapshots : List SnapshotRow := t.entryFxSnapshots.filter fun fx => t.OwnPosted user fx.entryId

end LegacyTables

/-- Two contents that differ in void entries and in the rows of others only. -/
structure Agree (user : Option Uuid) (t s : LegacyTables) : Prop extends SameOwn user t s where
  assets : t.assets = s.assets
  accounts : ∀ a, a.userId = user → (a ∈ t.accounts ↔ a ∈ s.accounts)
  entries : ∀ e, e.status = .posted → e.userId = user →
    (e ∈ t.journalEntries ↔ e ∈ s.journalEntries)
  lines : (t.ownLines user).Perm (s.ownLines user)
  snapshots : (t.ownSnapshots user).Perm (s.ownSnapshots user)

section Two
variable {user : Option Uuid} {t s t' s' : LegacyTables}

/-- The posted lines of a debt are among the user's. -/
theorem postedLines_own {d : Debt} (howner : d.userId = user) (a : Uuid) :
    (t.postedOnly user).debtLines d a = (t.ownLines user).filter fun p =>
      p.accountId = a ∧ (∃ acc ∈ t.accounts, acc.id = a ∧ acc.userId = user) ∧
        ∃ e ∈ t.journalEntries, e.id = p.entryId ∧ e.status = .posted ∧ e.userId = user ∧
          e.type = .debt := by
  simp only [LegacyTables.debtLines, LegacyTables.postedOnly, LegacyTables.ownLines,
    List.filter_filter]
  refine List.filter_congr fun p _ => ?_
  rw [Bool.eq_iff_iff]
  refine decide_eq_true_iff.trans ?_
  simp only [Bool.and_eq_true, decide_eq_true_eq, List.mem_filter]
  constructor
  · rintro ⟨hp, acc, hacc, hid, e, ⟨he, hposted, -⟩, heid, htype, huser, hown⟩
    have heuser : e.userId = user := hown.trans howner
    exact ⟨⟨hp, ⟨acc, hacc, hid, huser.symm.trans heuser⟩, e, he, heid, hposted, heuser, htype⟩,
      e, he, heid, hposted, heuser⟩
  · rintro ⟨⟨hp, ⟨acc, hacc, hid, huser⟩, e, he, heid, hposted, heuser, htype⟩, -⟩
    exact ⟨hp, acc, hacc, hid, e, ⟨he, hposted, heuser⟩, heid, htype, heuser.trans huser.symm,
      heuser.trans howner.symm⟩

theorem snapshotsOf_own (entryId : Uuid) : (t.postedOnly user).snapshotsOf entryId =
    ((t.ownSnapshots user).filter (·.entryId = entryId)).map (·, user) := by
  simp only [LegacyTables.snapshotsOf, LegacyTables.ownSnapshots, List.filter_filter]
  rw [← List.filterMap_eq_map, ← List.filterMap_eq_filter, List.filterMap_filterMap]
  refine List.filterMap_congr fun fx _ => ?_
  by_cases hid : fx.entryId = entryId
  · subst entryId
    by_cases hown : t.OwnPosted user fx.entryId
    · obtain ⟨e, he, heid, hposted, howner⟩ := id hown
      have hmem : e ∈ (t.postedOnly user).journalEntries := by
        simp [LegacyTables.postedOnly, he, hposted, howner]
      simp [find_entry hmem heid, howner, Option.guard, hown]
    · have hnone : (t.postedOnly user).journalEntries.find? (·.id = fx.entryId) = none := by
        refine List.find?_eq_none.mpr fun e he heid => hown ?_
        simp only [LegacyTables.postedOnly, List.mem_filter, decide_eq_true_eq] at he heid
        exact ⟨e, he.1, heid, he.2⟩
      simp [hnone, hown, Option.guard]
  · simp [hid, Option.guard]

theorem Agree.debtEvidence (h : Agree user t s) {d : Debt} (howner : d.userId = user) :
    (t.postedOnly user).classifyDebtEvidence d = (s.postedOnly user).classifyDebtEvidence d := by
  unfold LegacyTables.classifyDebtEvidence
  cases d.accountId with
  | none => rfl
  | some a =>
    have hassets : (t.postedOnly user).debtEvidence = (s.postedOnly user).debtEvidence :=
      debtEvidence_congr h.assets
    simp only [hassets]
    apply debtEvidence_perm
    rw [postedLines_own howner, postedLines_own howner]
    refine (h.lines.filter _).trans (List.Perm.of_eq (List.filter_congr fun p _ => ?_))
    rw [decide_eq_decide]
    refine and_congr_right fun _ => and_congr ?_ ?_
    · exact exists_congr fun acc => ⟨fun ⟨hacc, hid, hu⟩ => ⟨(h.accounts acc hu).mp hacc, hid, hu⟩,
        fun ⟨hacc, hid, hu⟩ => ⟨(h.accounts acc hu).mpr hacc, hid, hu⟩⟩
    · exact exists_congr fun e =>
        ⟨fun ⟨he, hid, hp, hu, ht⟩ => ⟨(h.entries e hp hu).mp he, hid, hp, hu, ht⟩,
          fun ⟨he, hid, hp, hu, ht⟩ => ⟨(h.entries e hp hu).mpr he, hid, hp, hu, ht⟩⟩

theorem Agree.installmentEvidence (h : Agree user t s) {i : Installment}
    (huser : t.debtUser i = s.debtUser i) :
    (t.postedOnly user).classifyInstallmentEvidence i =
      (s.postedOnly user).classifyInstallmentEvidence i := by
  refine installmentEvidence_perm huser fun entryId _ => ?_
  rw [snapshotsOf_own, snapshotsOf_own]
  exact (h.snapshots.filter _).map _

/-- Harmless void entries leave the two contents with the same debts and installments. -/
theorem Agree.sameOwn (h : Agree user t s) (ht : t.VoidHarmless user) (hs : s.VoidHarmless user)
    (hfilled : Filled t t') (hfilled' : Filled s s') : SameOwn user t' s' where
  debts d := by
    rw [ownDebt_filled hfilled, ownDebt_filled hfilled']
    refine exists_congr fun c => ?_
    rw [← h.debts c]
    refine and_congr_right fun hc => ?_
    have hsc := (h.debts c).mp hc
    have hposted : (t.postedOnly user).debtBackfill.filled c =
        (s.postedOnly user).debtBackfill.filled c := by
      simp only [Backfill.filled, LegacyTables.debtBackfill, h.debtEvidence hc.2]
      rfl
    rw [(filled_debt_eq_iff hc.2).mpr (ht.1 c hc.1 hc.2), hposted,
      ← (filled_debt_eq_iff hsc.2).mpr (hs.1 c hsc.1 hsc.2)]
  installments i := by
    rw [ownInstallment_filled hfilled, ownInstallment_filled hfilled']
    refine exists_congr fun c => ?_
    rw [← h.installments c]
    refine and_congr_right fun hc => ?_
    have hsc := (h.installments c).mp hc
    have hposted : (t.postedOnly user).installmentBackfill.filled c =
        (s.postedOnly user).installmentBackfill.filled c := by
      simp only [Backfill.filled, LegacyTables.installmentBackfill,
        h.installmentEvidence (hc.2.trans hsc.2.symm)]
      rfl
    rw [(filled_installment_eq_iff hc.2).mpr (ht.2 c hc.1 hc.2), hposted,
      ← (filled_installment_eq_iff hsc.2).mpr (hs.2 c hsc.1 hsc.2)]

/-- The migration writes for a user what the posted entries of that user prove, exactly if their
void entries are harmless; then it writes the same for every two contents that agree on what is
posted. -/
theorem migration_of_posted (user : Option Uuid) :
    (∀ t t' s', MigratesTo t t' → MigratesTo (t.postedOnly user) s' →
      (SameOwn user t' s' ↔ t.VoidHarmless user)) ∧
    ∀ t s t' s', Agree user t s → t.VoidHarmless user → s.VoidHarmless user → MigratesTo t t' →
      MigratesTo s s' → SameOwn user t' s' :=
  ⟨fun _ _ _ h h' => sameOwn_postedOnly_iff h.filled h'.filled,
    fun _ _ _ _ h ht hs hfilled hfilled' => h.sameOwn ht hs hfilled.filled hfilled'.filled⟩

end Two

/-! ## A debt whose entry was reversed -/

/-- A debt on a liability account of the user. -/
def unbooked : LegacyTables where
  assets := [⟨2, "IRT", "cash", false⟩]
  accounts := [⟨5, 0, some 1, "2100", "", .liability, some 2, false⟩]
  debts := [{ id := 1, userId := some 1, title := "", accountId := some 5 }]
  installments := []
  debtIds := by decide
  installmentIds := by decide
  owned := by decide

/-- An entry of ten Toman on the account. -/
def booked (status : EntryStatus) (type : EntryType) : LegacyTables :=
  { unbooked with
    journalEntries := [⟨7, some 1, 20240601, type, "", none, status, none, .manual, none, none, none⟩]
    postings := [⟨7, 5, 2, -.ofInt 10, 0, none⟩]
    entryIds := List.nodup_singleton _ }

/-- Whatever is on the account is void. -/
theorem agree_unbooked (type : EntryType) : Agree (some 1) unbooked (booked .void type) where
  debts _ := Iff.rfl
  installments _ := Iff.rfl
  assets := rfl
  accounts _ _ := Iff.rfl
  entries e hposted _ := by
    refine ⟨nofun, fun he => ?_⟩
    rw [List.mem_singleton.mp he] at hposted
    cases hposted
  lines := by
    cases type <;> exact List.Perm.of_eq (by decide)
  snapshots := .refl _

theorem void_entry_decides : Agree (some 1) unbooked (booked .void .debt) ∧
    (backfillDeterministicDebtToman none 1 unbooked).completed ∧
    (backfillDeterministicDebtToman none 1 (booked .void .debt)).completed ∧
    (backfillDeterministicDebtToman none 1 unbooked).tables.debts.map (·.principalToman) = [none] ∧
    (backfillDeterministicDebtToman none 1 (booked .void .debt)).tables.debts.map
      (·.principalToman) = [some (.ofInt 10)] :=
  ⟨agree_unbooked _, by decide, by decide, by decide, by decide⟩

theorem void_transfer_harmless : SameOwn (some 1)
    (backfillDeterministicDebtToman none 1 unbooked).tables
    (backfillDeterministicDebtToman none 1 (booked .void .transfer)).tables :=
  (migration_of_posted (some 1)).2 unbooked (booked .void .transfer) _ _ (agree_unbooked _)
    (by decide) (by decide) ⟨[], none, 1, by decide, rfl⟩ ⟨[], none, 1, by decide, rfl⟩

end Pwos
