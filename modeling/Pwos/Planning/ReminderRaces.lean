import Pwos.Ledger.Statements
import Pwos.Ledger.Run
import Pwos.Planning.Reminders
import Pwos.Lib.Interleaving

/-!
# Closing a reminder

Any number of transactions close reminders at once. Where each finds the reminder, when it
overwrites it, as it had read it, every reminder is closed once and every chain has one open
reminder at most (`reminders_closed_once`). Nothing in the code makes them find it so.
-/

namespace Pwos

/-! ## The transactions -/

inductive CloseCall where
  | income (cal : JalaliCalendar) (env : Env) (input : CloseIncome)
  | premium (cal : JalaliCalendar) (env : Env) (input : ClosePremium)

def CloseCall.program : CloseCall → Sql Unit
  | .income cal env input => closeIncomeOccurrence cal env input
  | .premium cal env input => closePremiumOccurrence cal env input

/-- A write that has nothing to do with plans. -/
def Write.SparesPlans (w : Write) : Prop := ∀ db : Db,
  (w.apply db).plannedTransactions = db.plannedTransactions ∧ (w.apply db).closings = db.closings

/-- Recording an entry, for one, has nothing to do with plans. -/
def SparesPlans {α : Type} (p : Sql α) : Prop :=
  p.Yields (fun _ ws _ => ∀ w ∈ ws, w.SparesPlans) [] []

/-- A transaction that closes a reminder, with what it does before and after. -/
inductive Closer : Sql Unit → Prop
  | mk {α : Type} {before : Sql α} {call : α → CloseCall} {after : α → Sql Unit}
    (hbefore : SparesPlans before) (hafter : ∀ a, SparesPlans (after a)) :
    Closer (before >>= fun a => (call a).program >>= fun _ => after a)

/-! ## The invariant -/

/-- Ids are unique, what was closed is there, was closed once and is not pending any more, and
a chain has one open reminder at most. -/
structure Reminders (db : Db) : Prop where
  ids : (db.plannedTransactions.map (·.id)).Nodup
  known : ∀ i ∈ db.closings, ∃ p ∈ db.plannedTransactions, p.id = i ∧ p.status ≠ .pending
  once : db.closings.Nodup
  chains : ∀ p ∈ db.plannedTransactions, ∀ q ∈ db.plannedTransactions, p.Open → q.Open →
    p.chainOf = q.chainOf → p = q

/-- What others leave alone: the plans that are held. -/
def PlansKept (ks : List Row) (s t : Db) : Prop := ∀ i, Row.plan i ∈ ks →
  (∀ p, p.id = i → (p ∈ t.plannedTransactions ↔ p ∈ s.plannedTransactions)) ∧
    (i ∈ t.closings ↔ i ∈ s.closings)

def reminderPromise : Promise Db Row Assumption where
  Assumes := (· = .planAsRead)
  Inv := Reminders
  Rely := PlansKept
  refl := fun _ _ _ _ => ⟨fun _ _ => Iff.rfl, Iff.rfl⟩
  trans := fun h h' i hi => ⟨fun p hp => ((h' i hi).1 p hp).trans ((h i hi).1 p hp),
    (h' i hi).2.trans (h i hi).2⟩
  mono := fun hsub h i hi => h i (hsub hi)

section Commits
variable {ws vs : List Write} {ks : List Row} {s t : Db}

theorem spares_all (h : ∀ w ∈ ws, w.SparesPlans) (db : Db) :
    (applyAll ws db).plannedTransactions = db.plannedTransactions ∧
      (applyAll ws db).closings = db.closings := by
  induction ws generalizing db with
  | nil => exact ⟨rfl, rfl⟩
  | cons w ws ih =>
    obtain ⟨h₁, h₂⟩ := ih (fun v hv => h v (by simp [hv])) (Writable.apply w db)
    obtain ⟨h₃, h₄⟩ := h w (by simp) db
    exact ⟨h₁.trans h₃, h₂.trans h₄⟩

/-- What the writes of a closing come to. -/
structure ClosesPlan (plan : PlannedTransaction) (new : Option PlannedTransaction)
    (ws : List Write) : Prop where
  plans : ∃ status entryId, status ≠ PlanStatus.pending ∧ ∀ db : Db,
    (applyAll ws db).plannedTransactions = (db.plannedTransactions.map fun p =>
      if p.id = plan.id then p.close status entryId else p) ++ new.toList
  closings : ∀ db : Db, (applyAll ws db).closings = db.closings ++ [plan.id]

/-- A closing about to commit: the plan is open and held, and so is the id of the next one. -/
structure Closing (plan : PlannedTransaction) (new : Option PlannedTransaction) (ks : List Row)
    (t : Db) : Prop where
  mem : plan ∈ t.plannedTransactions
  isOpen : plan.Open
  held : Row.plan plan.id ∈ ks
  fresh : ∀ r ∈ new, (∀ p ∈ t.plannedTransactions, p.id ≠ r.id) ∧ Row.plan r.id ∈ ks ∧
    r.chainOf = plan.chainOf

theorem Closing.stable {plan : PlannedTransaction} {new : Option PlannedTransaction}
    (h : Closing plan new ks s) (hr : PlansKept ks s t) : Closing plan new ks t where
  mem := ((hr _ h.held).1 plan rfl).mpr h.mem
  isOpen := h.isOpen
  held := h.held
  fresh r hr' := by
    obtain ⟨hfree, hheld, hchain⟩ := h.fresh r hr'
    exact ⟨fun p hp hid => hfree p (((hr _ hheld).1 p hid).mp hp) hid, hheld, hchain⟩

theorem commits_spared (hinv : Reminders t) (hws : ∀ w ∈ ws, w.SparesPlans) :
    reminderPromise.Commits ws ks t := by
  obtain ⟨hplans, hclosings⟩ := spares_all hws t
  refine ⟨⟨?_, ?_, ?_, ?_⟩, fun others _ i _ => ?_⟩
  · rw [hplans]; exact hinv.ids
  · rw [hplans, hclosings]; exact hinv.known
  · rw [hclosings]; exact hinv.once
  · rw [hplans]; exact hinv.chains
  · rw [hplans, hclosings]
    exact ⟨fun _ _ => Iff.rfl, Iff.rfl⟩

theorem commits_close {plan : PlannedTransaction} {new : Option PlannedTransaction}
    (hinv : Reminders t) (hw : ClosesPlan plan new ws) (hc : Closing plan new ks t) :
    reminderPromise.Commits ws ks t := by
  obtain ⟨⟨status, entryId, hstatus, hplans⟩, hclosings⟩ := hw
  have hplans := hplans t
  have hclosings := hclosings t
  set u := applyAll ws t
  have huniq : ∀ p ∈ t.plannedTransactions, p.id = plan.id → p = plan := fun p hp hid =>
    List.inj_on_of_nodup_map hinv.ids hp hc.mem hid
  have hclosed : ¬ (plan.close status entryId).Open := fun h => hstatus h.1
  have hnever : plan.id ∉ t.closings := by
    intro hin
    obtain ⟨p, hp, hid, hp'⟩ := hinv.known _ hin
    exact hp' (huniq p hp hid ▸ hc.isOpen.1)
  -- A row after the commit is an untouched one, the closed one or the new one.
  have hmem : ∀ p, p ∈ u.plannedTransactions ↔
      (p ∈ t.plannedTransactions ∧ p.id ≠ plan.id) ∨ p = plan.close status entryId ∨ p ∈ new := by
    intro p
    rw [hplans, List.mem_append, Option.mem_toList, List.mem_map, ← or_assoc]
    refine or_congr_left ⟨?_, ?_⟩
    · rintro ⟨q, hq, rfl⟩
      split
      · rename_i hid
        exact .inr (by rw [huniq q hq hid])
      · rename_i hid
        exact .inl ⟨hq, hid⟩
    · rintro (⟨hp, hid⟩ | rfl)
      · exact ⟨p, hp, if_neg hid⟩
      · exact ⟨plan, hc.mem, if_pos rfl⟩
  refine ⟨⟨?_, ?_, ?_, ?_⟩, fun others hfree i hi => ⟨fun p hp => ?_, ?_⟩⟩
  · have hids : u.plannedTransactions.map (·.id) =
        t.plannedTransactions.map (·.id) ++ new.toList.map (·.id) := by
      rw [hplans, List.map_append, List.map_map]
      congr 1
      refine List.map_congr_left fun p _ => ?_
      simp only [Function.comp_apply]
      split <;> rfl
    rw [hids, List.nodup_append]
    refine ⟨hinv.ids, by cases new <;> simp, ?_⟩
    intro a ha b hb
    obtain ⟨p, hp, rfl⟩ := List.mem_map.mp ha
    obtain ⟨r, hr, rfl⟩ := List.mem_map.mp hb
    exact (hc.fresh r (Option.mem_toList.mp hr)).1 p hp
  · intro i hi
    rw [hclosings, List.mem_append, List.mem_singleton] at hi
    rcases hi with hi | rfl
    · obtain ⟨p, hp, hid, hp'⟩ := hinv.known i hi
      have hne : p.id ≠ plan.id := fun h => hp' (huniq p hp h ▸ hc.isOpen.1)
      exact ⟨p, (hmem p).mpr (.inl ⟨hp, hne⟩), hid, hp'⟩
    · exact ⟨_, (hmem _).mpr (.inr (.inl rfl)), rfl, hstatus⟩
  · rw [hclosings, List.nodup_append]
    refine ⟨hinv.once, by simp, ?_⟩
    rintro a ha _ hb rfl
    exact hnever (List.mem_singleton.mp hb ▸ ha)
  · -- The next reminder takes the place of the closed one.
    have hother : ∀ p ∈ t.plannedTransactions, p.id ≠ plan.id → p.Open → ∀ r ∈ new,
        p.chainOf ≠ r.chainOf := by
      intro p hp hne hopen r hr heq
      have hsame := hinv.chains p hp plan hc.mem hopen hc.isOpen (heq.trans (hc.fresh r hr).2.2)
      exact hne (by rw [hsame])
    intro p hp q hq hpo hqo hchain
    rcases (hmem p).mp hp with ⟨hp, hpne⟩ | rfl | hp
    · rcases (hmem q).mp hq with ⟨hq, -⟩ | rfl | hq
      · exact hinv.chains p hp q hq hpo hqo hchain
      · exact absurd hqo hclosed
      · exact absurd hchain (hother p hp hpne hpo q hq)
    · exact absurd hpo hclosed
    · rcases (hmem q).mp hq with ⟨hq, hqne⟩ | rfl | hq
      · exact absurd hchain.symm (hother q hq hqne hqo p hp)
      · exact absurd hqo hclosed
      · exact Option.some.inj (hp.symm.trans hq)
  · have hne : p.id ≠ plan.id := by
      rintro h
      exact hfree _ hi (by rw [← hp, h]; exact hc.held)
    have hnew : p ∉ new := fun hin => hfree _ hi (hp ▸ (hc.fresh p hin).2.1)
    have hclose : p ≠ plan.close status entryId := by
      rintro rfl
      exact hne rfl
    rw [hmem]
    simp only [hne, hnew, hclose, ne_eq, not_false_eq_true, and_true, or_false]
  · have hne : i ≠ plan.id := by
      rintro rfl
      exact hfree _ hi hc.held
    rw [hclosings]
    simp [hne]

end Commits

/-! ## One closing -/

section Programs
variable {plan row : PlannedTransaction} {new : Option PlannedTransaction} {ws vs : List Write}
  {ks : List Row} {s : Db}

/-- A transaction that has closed a reminder, and scheduled the next one or not. -/
def Closed (ws : List Write) (ks : List Row) (t : Db) : Prop :=
  ∃ plan new, ClosesPlan plan new ws ∧ Closing plan new ks t

theorem ClosesPlan.spared (h : ClosesPlan plan new ws) (hvs : ∀ w ∈ vs, w.SparesPlans) :
    ClosesPlan plan new (ws ++ vs) where
  plans := by
    obtain ⟨status, entryId, hstatus, hplans⟩ := h.plans
    refine ⟨status, entryId, hstatus, fun db => ?_⟩
    rw [applyAll_append, (spares_all hvs _).1, hplans]
  closings db := by rw [applyAll_append, (spares_all hvs _).2, h.closings]

theorem closePlanRow_closes (hopen : plan.Open) (hws : ∀ w ∈ ws, w.SparesPlans)
    {status : PlanStatus} (hstatus : status ≠ .pending) (entryId : Option Uuid) :
    reminderPromise.Ok (fun _ vs js t => ClosesPlan plan none vs ∧ Closing plan none js t)
      (closePlanRow plan status entryId) ws ks s := by
  unfold closePlanRow
  refine .writeExpecting ?_
  intro t _ _ hread u _ htu
  have hmem : plan ∈ t.plannedTransactions := (spares_all hws t).1 ▸ hread _ rfl rfl
  have hclosing : Closing plan none (ks ++ [Row.plan plan.id]) t := ⟨hmem, hopen, by simp, by simp⟩
  refine ⟨⟨⟨status, entryId, hstatus, fun db => ?_⟩, fun db => ?_⟩, hclosing.stable htu⟩
  · rw [applyAll_append, Option.toList_none, List.append_nil, ← (spares_all hws db).1]
    rfl
  · rw [applyAll_append, ← (spares_all hws db).2]
    rfl

theorem insertPlanRow_closes (hw : ClosesPlan plan none ws) (hc : Closing plan none ks s)
    (hchain : row.chainOf = plan.chainOf) :
    reminderPromise.Ok (fun _ vs js t => ClosesPlan plan (some row) vs ∧ Closing plan (some row) js t)
      (insertPlanRow row) ws ks s := by
  unfold insertPlanRow
  refine .insert ?_
  intro t _ hst hfits u _ htu
  obtain ⟨status, entryId, hstatus, hplans⟩ := hw.plans
  simp only [Option.toList_none, List.append_nil] at hplans
  have hfree : ∀ p ∈ t.plannedTransactions, p.id ≠ row.id := by
    intro p hp
    have hview := hfits.1 (if p.id = plan.id then p.close status entryId else p)
    rw [hplans] at hview
    have hne := hview (List.mem_map_of_mem hp)
    split at hne <;> exact hne
  have hc := hc.stable hst
  have hclosing : Closing plan (some row) (ks ++ [Row.plan row.id]) t := by
    refine ⟨hc.mem, hc.isOpen, List.mem_append_left _ hc.held, ?_⟩
    rintro _ ⟨⟩
    exact ⟨hfree, by simp, hchain⟩
  refine ⟨⟨⟨status, entryId, hstatus, fun db => ?_⟩, fun db => ?_⟩, hclosing.stable htu⟩
  · rw [applyAll_append, ← hplans]
    rfl
  · rw [applyAll_append, ← hw.closings]
    rfl

theorem closeIncome_closes (cal : JalaliCalendar) (env : Env) (input : CloseIncome)
    (hws : ∀ w ∈ ws, w.SparesPlans) :
    reminderPromise.Ok (fun _ vs js t => Closed vs js t) (closeIncomeOccurrence cal env input)
      ws ks s := by
  unfold closeIncomeOccurrence
  refine .bind (.read ?_)
  intro t _ _ u _ _
  cases hfound : (applyAll ws t).plannedTransactions.find? fun p =>
    p.id = input.planId ∧ p.userId = some input.userId ∧ p.status = .pending ∧ p.deleted = false with
  | none => trivial
  | some plan =>
    have hopen : plan.Open := by
      have h := List.find?_some hfound
      simp only [decide_eq_true_eq] at h
      exact h.2.2
    have hstatus : (if input.entryId.isSome then PlanStatus.executed else .cancelled) ≠ .pending := by
      split <;> decide
    refine .bind ((closePlanRow_closes hopen hws hstatus _).mono ?_)
    rintro _ vs js v _ ⟨hw, hc⟩
    have hlast : ∀ {w}, PlansKept js v w → Closed vs js w := fun h => ⟨_, _, hw, hc.stable h⟩
    cases plan.categoryId with
    | none => exact fun w _ h => hlast h
    | some categoryId =>
    cases plan.toAccountId with
    | none => exact fun w _ h => hlast h
    | some accountId =>
    have hdeposit : (depositUntil plan).ReadOnly := by
      unfold depositUntil
      split
      · trivial
      · exact Tx.readOnly_read _
    refine .bind (.of_readOnly hdeposit ?_)
    intro lastDate w _ hvw
    cases lastDate with
    | none => exact fun x _ h => hlast (reminderPromise.trans hvw h)
    | some lastDate =>
    refine .map ?_
    unfold scheduleNextIncome
    split
    · exact fun x _ h => hlast (reminderPromise.trans hvw h)
    · refine .map ((insertPlanRow_closes hw (hc.stable hvw) ?_).mono ?_)
      · rfl
      · exact fun _ _ _ _ _ h => ⟨_, _, h⟩

theorem closePremium_closes (cal : JalaliCalendar) (env : Env) (input : ClosePremium)
    (hws : ∀ w ∈ ws, w.SparesPlans) :
    reminderPromise.Ok (fun _ vs js t => Closed vs js t) (closePremiumOccurrence cal env input)
      ws ks s := by
  unfold closePremiumOccurrence
  refine .bind (.read ?_)
  intro t _ _ u _ _
  cases hfound : getPremiumPlan input.planId input.userId (applyAll ws t) with
  | none => trivial
  | some found =>
    obtain ⟨plan, held⟩ := found
    have hopen : plan.Open := by
      obtain ⟨p, hp, hq⟩ := Option.bind_eq_some_iff.mp hfound
      obtain ⟨q, -, hpair⟩ := Option.map_eq_some_iff.mp hq
      obtain ⟨rfl, -⟩ := Prod.mk.inj hpair
      have h := List.find?_some hp
      simp only [decide_eq_true_eq] at h
      exact h.2.2
    refine .bind ((closePlanRow_closes hopen hws (by decide) _).mono ?_)
    rintro _ vs js v _ ⟨hw, hc⟩
    have hlast : ∀ {w}, PlansKept js v w → Closed vs js w := fun h => ⟨_, _, hw, hc.stable h⟩
    refine .bind (.of_readOnly (Tx.readOnly_read _) ?_)
    intro policy w _ hvw
    cases policy.filter (·.status = .active) with
    | none => exact fun x _ h => hlast (reminderPromise.trans hvw h)
    | some policy =>
    dsimp only
    split
    · refine .bind (.of_readOnly (Tx.readOnly_read _) ?_)
      intro irt x _ hwx
      refine (insertPlanRow_closes hw (hc.stable (reminderPromise.trans hvw hwx)) ?_).mono ?_
      · rfl
      · exact fun _ _ _ _ _ h => ⟨_, _, h⟩
    · exact fun x _ h => hlast (reminderPromise.trans hvw h)

theorem CloseCall.closes (c : CloseCall) (hws : ∀ w ∈ ws, w.SparesPlans) :
    reminderPromise.Ok (fun _ vs js t => Closed vs js t) c.program ws ks s := by
  cases c with
  | income cal env input => exact closeIncome_closes cal env input hws
  | premium cal env input => exact closePremium_closes cal env input hws

theorem Closer.honours {p : Sql Unit} (hp : Closer p) :
    reminderPromise.Honours (fun _ _ _ _ => True) p := by
  obtain ⟨hbefore, hafter⟩ := hp
  intro s _
  refine .bind (.yields hbefore ?_)
  intro a vs js t _ _ hvs
  refine .bind ((CloseCall.closes _ hvs).mono ?_)
  rintro _ ws ks u _ ⟨plan, new, hw, hc⟩
  refine .yields (hafter a) ?_
  intro _ us ls v hv huv hus
  have hc : Closing plan new (ks ++ ls) v := by
    have hc := hc.stable huv
    refine ⟨hc.mem, hc.isOpen, List.mem_append_left _ hc.held, fun r hr => ?_⟩
    obtain ⟨hfree, hheld, hchain⟩ := hc.fresh r hr
    exact ⟨hfree, List.mem_append_left _ hheld, hchain⟩
  exact ⟨commits_close hv (hw.spared hus) hc, trivial⟩

end Programs

/-! ## Runs -/

theorem Reminders.count_open {db : Db} (h : Reminders db) (chain : Uuid) :
    (db.plannedTransactions.filter fun p => p.Open ∧ p.chainOf = chain).length ≤ 1 := by
  have hnodup : (db.plannedTransactions.filter fun p => p.Open ∧ p.chainOf = chain).Nodup :=
    h.ids.of_map.filter _
  generalize hl : (db.plannedTransactions.filter fun p => p.Open ∧ p.chainOf = chain) = l at hnodup
  have hmem : ∀ p ∈ l, p ∈ db.plannedTransactions ∧ p.Open ∧ p.chainOf = chain := by
    intro p hp
    simpa [← hl] using hp
  match l with
  | [] => simp
  | [_] => simp
  | p :: q :: _ =>
    obtain ⟨hp, hpo, hpc⟩ := hmem p (by simp)
    obtain ⟨hq, hqo, hqc⟩ := hmem q (by simp)
    obtain rfl := h.chains p hp q hq hpo hqo (hpc.trans hqc.symm)
    simp at hnodup

/-- Where every transaction finds the reminder, when it closes it, as it read it, in every
interleaving a reminder is closed once and its chain has one that waits at most. -/
theorem reminders_closed_once {db : Db} (h : Reminders db)
    {sys : System Db Write Row Assumption AppError Unit}
    (hr : System.Reaches Closer (· = .planAsRead) db sys) (i : Uuid) :
    sys.committed.closings.count i ≤ 1 ∧
      (sys.committed.plannedTransactions.filter fun p => p.Open ∧ p.chainOf = i).length ≤ 1 := by
  have hsafe := System.Reaches.safe (P := reminderPromise) h (fun _ hp => hp.honours) hr
  have hinv : Reminders sys.committed := hsafe.inv
  exact ⟨List.nodup_iff_count_le_one.mp hinv.once i, hinv.count_open i⟩

/-- A salary and a premium that are due. -/
def demoReminders : Db :=
  { demo with
    plannedTransactions := [
      { id := 1, userId := some 1, title := "حقوق", plannedDate := 20260401, direction := .inflow
        amountBase := .ofInt 50, toAccountId := some 11, assetId := some 2, recurrence := .monthly
        categoryId := some 13, amountNative := some (.ofInt 50), dayOfMonth := some 12 },
      { id := 2, userId := some 1, title := "حق بیمه «بدنه»", plannedDate := 20260501
        direction := .outflow, amountBase := .ofInt 20, fromAccountId := some 11
        assetId := some 2, recurrence := .monthly, amountNative := some (.ofInt 20)
        insurancePolicyId := some 3 }]
    insurancePolicies := [
      { id := 3, userId := 1, kind := "car_body", title := "بدنه", startDate := 20260501
        premiumToman := .ofInt 20, premiumFrequency := .monthly, payAccountId := some 11 }] }

theorem demoReminders_ok : Reminders demoReminders where
  ids := by decide
  known := by decide
  once := by decide
  chains := by decide

/-- Record an entry, then close the reminder it came from. -/
def recordAndClose (env : Env) (input : PostEntryInput) (call : PostResult → CloseCall) :
    Sql Unit :=
  postEntry env input >>= fun r => (call r).program >>= fun _ => pure ()

theorem recordAndClose_closer (env : Env) (input : PostEntryInput) (call : PostResult → CloseCall) :
    Closer (recordAndClose env input call) := by
  refine .mk ((postEntry_yields env input).mono ?_) fun _ => ?_
  · rintro _ _ _ ⟨⟩
    · simp
    · rename_i onLots _ _ _
      intro w hw db
      simp only [List.nil_append, List.mem_cons] at hw
      rcases hw with rfl | rfl | hw
      · exact ⟨rfl, rfl⟩
      · exact ⟨rfl, rfl⟩
      · have := onLots w hw
        cases w <;> first | exact ⟨rfl, rfl⟩ | exact this.elim
  · exact fun _ hw => absurd hw List.not_mem_nil

/-- `value` dollars move from one account to another. -/
def demoMoved (accountId otherId : Uuid) (value : Int) : PostEntryInput :=
  { entryDate := 1, type := .income, description := "واریز"
    postings := [demoLine accountId 1 value value, demoLine otherId 1 (-value) (-value)] }

def demoSalary (env : Env) (accountId otherId : Uuid) : Sql Unit :=
  recordAndClose env (demoMoved accountId otherId 50) fun r =>
    .income ordinaryYears env { planId := 1, userId := 1, entryId := some r.id }

def demoPremium (env : Env) (accountId otherId : Uuid) : Sql Unit :=
  recordAndClose env (demoMoved accountId otherId 20) fun r =>
    .premium ordinaryYears env { planId := 2, userId := 1, entryId := r.id }

theorem salary_closed_once : ∃ sys : System Db Write Row Assumption AppError Unit,
    System.Reaches Closer (· = .planAsRead) demoReminders sys ∧
      sys.committed.closings = [1] ∧ sys.committed.closings.count 1 ≤ 1 := by
  have hmet : (demoSalary { entryId := 1, planId := 11 } 11 13).Met (· = .planAsRead)
      demoReminders := by
    repeat first
      | exact trivial
      | refine ⟨fun _ _ => trivial, ?_⟩
      | refine ⟨fun _ _ _ => by decide, ?_⟩
  have hidle : System.Reaches Closer (· = .planAsRead) demoReminders
      (System.idle (demoReminders : Db)) := .idle
  obtain ⟨sys, hreach, -, hsys⟩ := hidle.alone (fun _ => rfl) (recordAndClose_closer _ _ _) hmet rfl
  refine ⟨sys, hreach, ?_, (reminders_closed_once demoReminders_ok hreach 1).1⟩
  rw [hsys]
  rfl

/-- Both read the reminder, then one closes it after the other. -/
def bothRead (n m : Nat) (p q : Sql Unit) : List (Move Db Write Row Assumption AppError Unit) :=
  [Move.begin 0 p, Move.begin 1 q] ++ List.replicate n (Move.go 0) ++
    List.replicate n (Move.go 1) ++ List.replicate m (Move.go 0) ++ [Move.commit 0] ++
    List.replicate m (Move.go 1) ++ [Move.commit 1]

theorem begun_bothRead (n m : Nat) (p q : Sql Unit) : Board.begun (bothRead n m p q) = [p, q] := by
  have hgo : ∀ k i, Board.begun (List.replicate k (.go i) :
      List (Move Db Write Row Assumption AppError Unit)) = [] := by
    intro k i
    refine List.filterMap_eq_nil_iff.mpr fun move hmove => ?_
    rw [List.eq_of_mem_replicate hmove]
  unfold Board.begun at hgo
  simp [bothRead, Board.begun, List.filterMap_append, hgo]

/-- Closed twice, and two of its chain wait. -/
def ClosedTwice (i : Uuid) (db : Db) : Bool :=
  db.closings.count i = 2 ∧
    (db.plannedTransactions.filter fun p => p.Open ∧ p.chainOf = i).length = 2

theorem reaches_closed_twice {n m : Nat} {p q : Sql Unit} {i : Uuid} (hp : Closer p) (hq : Closer q)
    (h : ((Board.idle 2 demoReminders).replay (bothRead n m p q)).any
      (fun b => ClosedTwice i b.committed) = true) :
    ∃ sys : System Db Write Row Assumption AppError Unit,
      System.Reaches Closer (fun _ => False) demoReminders sys ∧
      sys.committed.closings.count i = 2 ∧
      (sys.committed.plannedTransactions.filter fun p => p.Open ∧ p.chainOf = i).length = 2 := by
  have hbegun : ∀ r ∈ Board.begun (bothRead n m p q), Closer r := by
    rw [begun_bothRead]
    intro r hr
    rcases List.mem_pair.mp hr with rfl | rfl
    · exact hp
    · exact hq
  obtain ⟨sys, hreach, hcheck⟩ := Board.exists_reaches hbegun h
  exact ⟨sys, hreach, of_decide_eq_true hcheck⟩

/-- Two transactions read the reminder of the salary before either closes it, and so do two
that pay the premium. Both commit, and both schedule the next one. -/
theorem reminders_closed_twice : Reminders demoReminders ∧ ∀ i ∈ [1, 2],
    ∃ sys : System Db Write Row Assumption AppError Unit,
      System.Reaches Closer (fun _ => False) demoReminders sys ∧
      sys.committed.closings.count i = 2 ∧
      (sys.committed.plannedTransactions.filter fun p => p.Open ∧ p.chainOf = i).length = 2 := by
  have hsalary : ((Board.idle 2 demoReminders).replay
      (bothRead 6 2 (demoSalary { entryId := 1, planId := 11 } 11 13)
        (demoSalary { entryId := 2, planId := 12 } 10 15))).any
      (fun b => ClosedTwice 1 b.committed) = true := by decide
  have hpremium : ((Board.idle 2 demoReminders).replay
      (bothRead 6 4 (demoPremium { entryId := 1, planId := 11 } 14 11)
        (demoPremium { entryId := 2, planId := 12 } 15 10))).any
      (fun b => ClosedTwice 2 b.committed) = true := by decide
  refine ⟨demoReminders_ok, ?_⟩
  intro i hi
  rcases List.mem_pair.mp hi with rfl | rfl
  · exact reaches_closed_twice (recordAndClose_closer _ _ _) (recordAndClose_closer _ _ _) hsalary
  · exact reaches_closed_twice (recordAndClose_closer _ _ _) (recordAndClose_closer _ _ _) hpremium

end Pwos
