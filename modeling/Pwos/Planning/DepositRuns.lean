import Pwos.Lib.History
import Pwos.Ledger.Statements
import Pwos.Ledger.Run
import Pwos.Planning.DepositEffects
import Pwos.Planning.ReminderRaces

/-!
# Deposits over whole runs

Deposits are registered, closed and deleted while their interest is recorded and stopped, statement
by statement. Where a reminder that is closed is as it was read, and the reminders of a deposit
are those that were found when they are cancelled, interest stays in order
(`interest_in_order`). Nothing in the code sees to either.
-/

namespace Pwos

variable {ws vs us : List Write} {ks : List Row} {s t : Db}

/-! ## The transactions -/

/-- A program that has nothing to do with plans and deposits. -/
def SparesInterest {α : Type} (p : Sql α) : Prop :=
  p.Yields (fun _ ws _ => ∀ w ∈ ws, w.SparesInterest) [] []

/-- The transactions on deposits and their interest. Interest is recorded with what is done before
and after it, which is how its entry comes about. -/
inductive DepositTransaction : Sql Unit → Prop
  | create (cal : JalaliCalendar) (categoryByCode : String → Option Uuid)
    (isActive : Account → Bool) (isTomanBankAccount : Account → Option Asset → Bool) (env : Env)
    (userId : Uuid) (input : DepositInput) :
    DepositTransaction (createDeposit cal categoryByCode isActive isTomanBankAccount env userId
      input >>= fun _ => pure ())
  | record {α : Type} {before : Sql α} {call : α → CloseIncome} {after : α → Sql Unit}
    (cal : JalaliCalendar) (env : Env) (hbefore : SparesInterest before)
    (hafter : ∀ a, SparesInterest (after a)) :
    DepositTransaction
      (before >>= fun a => closeIncomeOccurrence cal env (call a) >>= fun _ => after a)
  | stop (planId userId : Uuid) : DepositTransaction (stopIncomePlan planId userId)
  | close (userId id : Uuid) : DepositTransaction (closeDeposit userId id)
  | delete (userId id : Uuid) : DepositTransaction (deleteDeposit userId id)

section Record
variable {plan row : PlannedTransaction}

/-- A reminder has been closed, and the next one scheduled or not. -/
def Recorded (ws : List Write) (ks : List Row) (t : Db) : Prop :=
  ∃ plan new status entryId, status ≠ PlanStatus.pending ∧
    (∀ db, (closing plan status entryId new).At ws db) ∧ Recording plan new ks t

/-- The deposit of the reminder, if it has one, is active until `lastDate`. -/
def Hosted (plan : PlannedTransaction) (lastDate : Option IsoDate) (t : Db) : Prop :=
  ∀ i ∈ plan.depositId, ∃ d ∈ t.deposits, d.id = i ∧ d.status = .active ∧
    plan.userId = some d.userId ∧ d.maturityDate = lastDate

theorem Hosted.stable {lastDate : Option IsoDate} (h : Hosted plan lastDate s)
    (hc : Recording plan none ks s) (hr : InterestKept ks s t) : Hosted plan lastDate t := by
  intro i hi
  obtain ⟨d, hd, rfl, hactive, hrest⟩ := h i hi
  exact ⟨d, hr.active plan hc.mem hc.held hc.pending d hd hi hactive, rfl, hactive, hrest⟩

theorem closePlanRow_recording (hpending : plan.status = .pending)
    (hws : ∀ w ∈ ws, w.SparesInterest) (status : PlanStatus) (entryId : Option Uuid) :
    depositPromise.Ok (fun _ vs js t => (∀ db, (closing plan status entryId none).At vs db) ∧
      Recording plan none js t) (closePlanRow plan status entryId) ws ks s := by
  unfold closePlanRow
  refine .writeExpecting ?_
  intro t _ _ hread u _ htu
  have hmem : plan ∈ t.plannedTransactions :=
    (sparesInterest_all hws t).1 ▸ hread .planAsRead (.inl rfl) rfl
  have hclosing : Recording plan none (ks ++ [Row.plan plan.id]) t :=
    ⟨hmem, hpending, by simp, fun r hr => absurd hr (Option.not_mem_none r)⟩
  refine ⟨fun db => ⟨?_, ?_⟩, hclosing.stable htu⟩
  · rw [applyAll_append, ← (sparesInterest_all hws db).1]
    exact (List.append_nil _).symm
  · rw [applyAll_append, ← (sparesInterest_all hws db).2]
    have hsame : (applyAll ws db).deposits = (applyAll ws db).deposits.filterMap some ++ [] := by
      rw [List.filterMap_some, List.append_nil]
    exact hsame

theorem depositUntil_hosted (hc : Recording plan none ks s)
    (hsame : ∀ db : Db, (applyAll ws db).deposits = db.deposits) :
    depositPromise.Ok (fun found vs js t => vs = ws ∧ Recording plan none js t ∧
      ∀ lastDate ∈ found, Hosted plan lastDate t) (depositUntil plan) ws ks s := by
  unfold depositUntil
  cases hdeposit : plan.depositId with
  | none =>
    intro t _ hst
    exact ⟨rfl, hc.stable hst, fun _ _ i hi => by rw [hdeposit] at hi; cases hi⟩
  | some i =>
    refine .read ?_
    intro t ht hst u _ htu
    have hct := hc.stable hst
    refine ⟨rfl, hct.stable htu, fun lastDate hlast => ?_⟩
    rw [hsame, Option.mem_def, Option.map_eq_some_iff] at hlast
    obtain ⟨d, hkept, hmaturity⟩ := hlast
    obtain ⟨hfind, hactive⟩ := Option.filter_eq_some_iff.mp hkept
    have hd := List.mem_of_find?_eq_some hfind
    have hfound := List.find?_some hfind
    have hid : d.id = i := of_decide_eq_true hfound
    have hhosted : Hosted plan lastDate t := by
      intro j hj
      obtain rfl : i = j := Option.some.inj (hdeposit.symm.trans hj)
      obtain ⟨x, hx, hxid, huser, -⟩ := ht.terms plan hct.mem i hdeposit
      obtain rfl := List.inj_on_of_nodup_map ht.ids hx hd (hxid.trans hid.symm)
      exact ⟨x, hd, hid, of_decide_eq_true hactive, huser, hmaturity⟩
    exact hhosted.stable hct htu

theorem insertPlanRow_recorded {lastDate : Option IsoDate} {status : PlanStatus}
    {entryId : Option Uuid} (hstatus : status ≠ .pending)
    (ha : ∀ db, (closing plan status entryId none).At ws db) (hc : Recording plan none ks s)
    (hh : Hosted plan lastDate s) (hdeposit : row.depositId = plan.depositId)
    (huser : row.userId = plan.userId) (hdate : ∀ m ∈ lastDate, row.plannedDate ≤ m) :
    depositPromise.Ok (fun _ vs js t => Recorded vs js t) (insertPlanRow row) ws ks s := by
  unfold insertPlanRow
  refine .insert ?_
  intro t _ hst hfits u _ htu
  have hct := hc.stable hst
  have hfree : ∀ p ∈ t.plannedTransactions, p.id ≠ row.id := by
    intro p hp
    have hview := hfits.1 ((closing plan status entryId none).plan p)
      ((ha t).mem_plans.mpr (.inl ⟨p, hp, rfl⟩))
    simp only [closing] at hview
    split at hview <;> exact hview
  have hrecording : Recording plan (some row) (ks ++ [Row.plan row.id]) t := by
    refine ⟨hct.mem, hct.pending, List.mem_append_left _ hct.held, ?_⟩
    rintro _ ⟨⟩
    refine ⟨by simp, hfree, fun i hi => ?_⟩
    rw [hdeposit] at hi
    obtain ⟨d, hd, hid, hactive, howner, rfl⟩ := hh.stable hc hst i hi
    exact ⟨hi, d, hd, hid, hactive, huser.trans howner, hdate⟩
  refine ⟨plan, some row, status, entryId, hstatus, fun db => ⟨?_, ?_⟩, hrecording.stable htu⟩
  · rw [applyAll_append]
    exact congrArg (· ++ [row]) ((ha db).plans.trans (List.append_nil _))
  · rw [applyAll_append]
    exact (ha db).deposits

/-- A day that is planned is not past the last one. -/
theorem NewIncomePlan.le_lastDate {cal : JalaliCalendar} {plan : NewIncomePlan} {date : IsoDate}
    (h : plan.plannedDate cal = some date) : ∀ m ∈ plan.lastDate, date ≤ m := by
  intro m hm
  obtain hm : plan.lastDate = some m := hm
  simp only [NewIncomePlan.plannedDate, hm, Option.any_some] at h
  split at h
  · cases h
  · cases h
    rename_i hnot
    exact Nat.le_of_not_lt fun hlt => hnot (decide_eq_true hlt)

theorem closeIncome_recorded (cal : JalaliCalendar) (env : Env) (input : CloseIncome)
    (hws : ∀ w ∈ ws, w.SparesInterest) :
    depositPromise.Ok (fun _ vs js t => Recorded vs js t) (closeIncomeOccurrence cal env input)
      ws ks s := by
  unfold closeIncomeOccurrence
  refine .bind (.read ?_)
  intro t _ _ u _ _
  cases hfound : (applyAll ws t).plannedTransactions.find? fun p =>
    p.id = input.planId ∧ p.userId = some input.userId ∧ p.status = .pending ∧ p.deleted = false with
  | none => trivial
  | some plan =>
    have hread := List.find?_some hfound
    simp only [decide_eq_true_eq] at hread
    obtain ⟨-, huser, hpending, -⟩ := hread
    set status := if input.entryId.isSome then PlanStatus.executed else .cancelled
    have hstatus : status ≠ .pending := by
      simp only [status]
      split <;> decide
    refine .bind ((closePlanRow_recording hpending hws status input.entryId).mono ?_)
    rintro _ vs js v _ ⟨ha, hc⟩
    have hlast : ∀ {w}, InterestKept js v w → Recorded vs js w := fun h =>
      ⟨plan, none, status, input.entryId, hstatus, ha, hc.stable h⟩
    cases plan.categoryId with
    | none => exact fun w _ h => hlast h
    | some categoryId =>
    cases plan.toAccountId with
    | none => exact fun w _ h => hlast h
    | some accountId =>
    have hdeposits : ∀ db : Db, (applyAll vs db).deposits = db.deposits := by
      intro db
      rw [(ha db).deposits]
      exact (List.append_nil _).trans List.filterMap_some
    refine .bind ((depositUntil_hosted hc hdeposits).frame.mono ?_)
    rintro lastDate _ ls w _ ⟨⟨rfl, hcw, hhosted⟩, hjs, hvw⟩
    cases lastDate with
    | none => exact fun x _ h => ⟨plan, none, status, input.entryId, hstatus, ha, hcw.stable h⟩
    | some lastDate =>
    refine .map ?_
    unfold scheduleNextIncome
    split
    · exact fun x _ h => ⟨plan, none, status, input.entryId, hstatus, ha, hcw.stable h⟩
    · rename_i date hdate
      refine .map (insertPlanRow_recorded hstatus ha hcw (hhosted lastDate rfl) rfl huser.symm ?_)
      exact NewIncomePlan.le_lastDate hdate

end Record

section Cancel
variable {i userId : Uuid}

/-- The reminders that were found are pending and held; where they are found at all, they are all
there are. -/
theorem cancelPendingInterest_cancels
    (hws : ∀ db : Db, (applyAll ws db).plannedTransactions = db.plannedTransactions) :
    depositPromise.Ok (fun _ vs js t => ∃ ids u, vs = ws ++ [Write.cancelPlans ids] ∧
      Cancelling ids js u ∧ Deposits u ∧ InterestKept ks s u ∧ InterestKept js u t ∧
      ∀ p ∈ u.plannedTransactions, p.IsInterest i userId → p.id ∈ ids)
      (cancelPendingInterest userId i) ws ks s := by
  unfold cancelPendingInterest
  refine .bind (.read ?_)
  intro v _ hsv w _ hvw
  refine .writeExpecting ?_
  intro u hu hwu hfound t _ hut
  rw [hws] at hfound
  refine ⟨_, u, rfl, ?_, hu, hsv.trans (hvw.trans hwu), hut, fun p hp hinterest => ?_⟩
  · intro j hj
    obtain ⟨p, hp, rfl⟩ := List.mem_map.mp hj
    obtain ⟨hmem, hsel⟩ := List.mem_filter.mp hp
    obtain ⟨hid, -, -, hpending⟩ := of_decide_eq_true hsel
    rw [hws] at hmem
    exact ⟨List.mem_append_right _ (List.mem_map_of_mem hid), p, hmem, rfl, hpending⟩
  · have hid := hfound .interestAsFound (.inr rfl) rfl p hp hinterest
    refine List.mem_map_of_mem (List.mem_filter.mpr ⟨?_, decide_eq_true ⟨hid, hinterest⟩⟩)
    rwa [hws]

theorem closeDeposit_honours :
    depositPromise.Honours (fun _ _ _ _ => True) (closeDeposit userId i) := by
  intro s _
  unfold closeDeposit
  refine .bind (.insert ?_)
  intro v _ _ howns w _ hvw
  refine (cancelPendingInterest_cancels fun db => rfl).frame.mono ?_
  rintro _ _ js t ht ⟨⟨ids, u, rfl, hcancels, hu, hwu, hut, hall⟩, hjs, -⟩
  refine ⟨?_, trivial⟩
  have hheld : Row.deposit i ∈ js := hjs (by simp)
  obtain ⟨d, hd, rfl, huser, -⟩ := howns
  have hdu : d ∈ u.deposits := by
    refine (hwu.deposits d (by simp)).mpr ((hvw.deposits d (by simp)).mpr hd)
  have hshut : Shutting d.id ids js u := by
    refine ⟨hcancels, hheld, fun p hp hi hpending => hall p hp ⟨hi, ?_, hpending⟩⟩
    obtain ⟨x, hx, hid, howner, -⟩ := hu.terms p hp d.id hi
    obtain rfl := List.inj_on_of_nodup_map hu.ids hx hdu hid
    rw [howner, huser]
  exact ((hshut.stable hut).fits ht).commits (shutting_at t) ht

theorem deleteDeposit_honours :
    depositPromise.Honours (fun _ _ _ _ => True) (deleteDeposit userId i) := by
  intro s _
  unfold deleteDeposit
  refine .bind ((cancelPendingInterest_cancels fun db => rfl).frame.mono ?_)
  rintro _ _ js t ht ⟨⟨ids, u, rfl, hcancels, hu, -, hut, -⟩, -, -⟩
  refine .insert ?_
  intro v hv htv howns w hw hvw
  have hcancels := (hcancels.stable hut).stable htv
  refine ⟨?_, trivial⟩
  have hdelete : Deleting i userId ids (js ++ Db.rowsOfDeposit i ((Write.cancelPlans ids).apply v))
      v := by
    refine ⟨fun j hj => (hcancels j hj).imp_left (List.mem_append_left _ ·), ?_, howns, ?_⟩
    · simp [Db.rowsOfDeposit]
    · intro p hp hi
      refine List.mem_append_right _ (List.mem_cons_of_mem _ ?_)
      have hmem : stopped ids p ∈ ((Write.cancelPlans ids).apply v).plannedTransactions.filter
          (·.depositId = some i) := by
        refine List.mem_filter.mpr ⟨List.mem_map_of_mem hp, decide_eq_true ?_⟩
        rw [stopped_depositId, hi]
      have hid : (stopped ids p).id = p.id := (hcancels.settles hv hp).key
      exact hid ▸ List.mem_map_of_mem hmem
  have hstable := hdelete.stable hvw
  exact (hstable.fits hw).commits (deleting_at hstable.owned) hw

theorem stopIncomePlan_honours (planId : Uuid) :
    depositPromise.Honours (fun _ _ _ _ => True) (stopIncomePlan planId userId) := by
  intro s _
  unfold stopIncomePlan
  refine .write ?_
  intro t _ _ u hu htu
  have hcancels : Cancelling ((t.plannedTransactions.filter fun p => p.id = planId ∧
      p.userId = some userId ∧ p.status = .pending).map (·.id)) ([] ++
        (t.plannedTransactions.filter fun p => p.id = planId ∧ p.userId = some userId ∧
          p.status = .pending).map (Row.plan ·.id)) t := by
    intro j hj
    obtain ⟨p, hp, rfl⟩ := List.mem_map.mp hj
    obtain ⟨hmem, hsel⟩ := List.mem_filter.mp hp
    exact ⟨List.mem_map_of_mem hp, p, hmem, rfl, (of_decide_eq_true hsel).2.2⟩
  exact ⟨((hcancels.stable htu).fits_stop hu).commits (stopping_at _ u) hu, trivial⟩

end Cancel

section Create
variable {cal : JalaliCalendar} {env : Env} {userId : Uuid}

theorem readOnly_ownAccount (isActive : Account → Bool) (userId accountId : Uuid) :
    (ownAccount isActive userId accountId).ReadOnly :=
  .bind (Tx.readOnly_read _) fun _ => Tx.readOnly_ofExcept _

theorem scheduleNextIncome_creating {row : Deposit} {plan : NewIncomePlan}
    (hc : Creating row none ks s) (huser : plan.userId = row.userId)
    (hdeposit : plan.depositId = some row.id) (hlast : plan.lastDate = row.maturityDate) :
    depositPromise.Ok (fun _ vs js t => ∃ new, Creating row new js t ∧ (registering row new).At vs t)
      (scheduleNextIncome cal env plan none) [.insertDeposit row] ks s := by
  have hfirst : ∀ t : Db, (registering row none).At [.insertDeposit row] t := fun t =>
    ⟨by exact (List.map_id _).symm.trans (List.append_nil _).symm,
      by exact congrArg (· ++ [row]) List.filterMap_some.symm⟩
  unfold scheduleNextIncome
  split
  · exact fun t _ hst => ⟨none, hc.stable hst, hfirst t⟩
  · rename_i date hdate
    refine .map ?_
    unfold insertPlanRow
    refine .insert ?_
    intro t _ hst hfits u _ htu
    have hct := hc.stable hst
    have hnew : Creating row (some (plan.row env none date))
        (ks ++ [Row.plan (plan.row env none date).id]) t := by
      refine ⟨hct.active, List.mem_append_left _ hct.held, hct.free, ?_⟩
      rintro _ ⟨⟩
      refine ⟨by simp, hfits.1, hdeposit, congrArg some huser, ?_⟩
      rw [← hlast]
      exact NewIncomePlan.le_lastDate hdate
    refine ⟨_, hnew.stable htu, ⟨?_, ?_⟩⟩
    · exact congrArg (· ++ [plan.row env none date]) (List.map_id _).symm
    · exact congrArg (· ++ [row]) List.filterMap_some.symm

theorem createDeposit_honours (categoryByCode : String → Option Uuid) (isActive : Account → Bool)
    (isTomanBankAccount : Account → Option Asset → Bool) (input : DepositInput) :
    depositPromise.Honours (fun _ _ _ _ => True) (createDeposit cal categoryByCode isActive
      isTomanBankAccount env userId input >>= fun _ => pure ()) := by
  intro s _
  unfold createDeposit
  generalize input.terms = checked
  refine .map ?_
  refine .bind (.ofExcept fun terms _ t _ _ => ?_)
  refine .bind (.of_readOnly (readOnly_ownAccount _ _ _) fun source t _ _ => ?_)
  refine .bind (.require fun _ t _ _ => ?_)
  refine .bind (.of_readOnly (readOnly_ownAccount _ _ _) fun payout t _ _ => ?_)
  refine .bind (.require fun _ t _ _ => ?_)
  refine .bind (.ofExcept fun categoryId _ t _ _ => ?_)
  unfold insertDeposit
  refine .bind (.insert ?_)
  intro u _ _ hfree v hv huv
  have hcu : Creating (terms.row env userId) none ([] ++ [Row.deposit (terms.row env userId).id]) u :=
    ⟨rfl, by simp, hfree, fun r hr => absurd hr (Option.not_mem_none r)⟩
  have hc := hcu.stable huv
  split
  · intro w hw hvw
    refine ⟨((hc.stable hvw).fits).commits ⟨?_, ?_⟩ hw, trivial⟩
    · exact (List.map_id _).symm.trans (List.append_nil _).symm
    · exact congrArg (· ++ [terms.row env userId]) List.filterMap_some.symm
  · refine .map ((scheduleNextIncome_creating hc rfl rfl rfl).mono ?_)
    rintro _ vs js w hw ⟨new, hcreating, ha⟩
    exact ⟨hcreating.fits.commits ha hw, trivial⟩

end Create

theorem DepositTransaction.honours {p : Sql Unit} (hp : DepositTransaction p) :
    depositPromise.Honours (fun _ _ _ _ => True) p := by
  cases hp with
  | create cal categoryByCode isActive isTomanBankAccount env userId input =>
    have hcreate := @createDeposit_honours cal env userId categoryByCode isActive
      isTomanBankAccount input
    assumption
  | record cal env hbefore hafter =>
    intro s _
    refine .bind (.yields hbefore ?_)
    intro a vs js t _ _ hvs
    refine .bind ((closeIncome_recorded cal env _ hvs).mono ?_)
    rintro _ ws ks u _ ⟨plan, new, status, entryId, hstatus, ha, hc⟩
    refine .yields (hafter a) ?_
    intro _ us ls v hv huv hus
    have hrecording := (hc.stable huv).mono (List.subset_append_left ks ls)
    exact ⟨(hrecording.fits hv hstatus entryId).commits ((ha v).spared hus) hv, trivial⟩
  | stop planId userId => exact stopIncomePlan_honours planId
  | close userId id => exact closeDeposit_honours
  | delete userId id => exact deleteDeposit_honours

/-! ## Runs -/

/-- The pending interest reminders of a deposit. -/
def Db.pendingInterest (i : Uuid) (db : Db) : List PlannedTransaction :=
  db.plannedTransactions.filter fun p => p.depositId = some i ∧ p.status = .pending

theorem mem_pendingInterest {db : Db} {i : Uuid} {p : PlannedTransaction} :
    p ∈ db.pendingInterest i ↔
      p ∈ db.plannedTransactions ∧ p.depositId = some i ∧ p.status = .pending := by
  simp [Db.pendingInterest]

theorem Deposits.pending_closed {db : Db} (h : Deposits db) {d : Deposit} (hd : d ∈ db.deposits)
    (hclosed : d.status = .closed) : db.pendingInterest d.id = [] := by
  refine List.eq_nil_iff_forall_not_mem.mpr fun p hp => ?_
  obtain ⟨hmem, hi, hpending⟩ := mem_pendingInterest.mp hp
  exact h.closed d hd hclosed p hmem hi hpending

theorem Deposits.pending_once {db : Db} (h : Deposits db) (i : Uuid) :
    (db.pendingInterest i).length ≤ 1 := by
  have hnodup : (db.pendingInterest i).Nodup := h.planIds.of_map.filter _
  have hsame : ∀ p ∈ db.pendingInterest i, ∀ q ∈ db.pendingInterest i, p = q := by
    intro p hp q hq
    obtain ⟨hp, hpi, hpp⟩ := mem_pendingInterest.mp hp
    obtain ⟨hq, hqi, hqp⟩ := mem_pendingInterest.mp hq
    exact h.once p hp q hq i hpi hqi hpp hqp
  match hl : db.pendingInterest i with
  | [] => simp
  | [_] => simp
  | p :: q :: _ =>
    obtain rfl := hsame p (by simp [hl]) q (by simp [hl])
    simp [hl] at hnodup

/-- In every run whose closings find the reminder as they read it, and whose cancellations find
all the reminders there are, a closed deposit has no pending interest reminder, an active one has
one at most, no reminder is past the maturity of its deposit, and a reminder that was executed at
any moment keeps its entry. -/
theorem interest_in_order {db : Db} (h : Deposits db)
    {c : System Db Write Row Assumption AppError Unit}
    {past : List (System Db Write Row Assumption AppError Unit)}
    (hr : System.History DepositTransaction (fun a => a = .planAsRead ∨ a = .interestAsFound) db
      (c :: past)) :
    (∀ d ∈ c.committed.deposits, d.status = .closed → c.committed.pendingInterest d.id = []) ∧
    (∀ d ∈ c.committed.deposits, d.status = .active →
      (c.committed.pendingInterest d.id).length ≤ 1) ∧
    (∀ d ∈ c.committed.deposits, ∀ m ∈ d.maturityDate, ∀ p ∈ c.committed.plannedTransactions,
      p.depositId = some d.id → p.plannedDate ≤ m) ∧
    ∀ e ∈ past, ∀ p ∈ e.committed.plannedTransactions, p.status = .executed →
      ∃ q ∈ c.committed.plannedTransactions, p.KeepsEntry q := by
  have hsafe := System.Reaches.safe (P := depositPromise) h (fun _ hp => hp.honours) hr.reaches
  have hinv : Deposits c.committed := hsafe.inv
  refine ⟨fun d hd => hinv.pending_closed hd, fun d _ _ => hinv.pending_once d.id, ?_, ?_⟩
  · intro d hd m hm p hp hi
    obtain ⟨x, hx, hid, -, hterm⟩ := hinv.terms p hp d.id hi
    obtain rfl := List.inj_on_of_nodup_map hinv.ids hx hd hid
    exact hterm m hm
  · intro e he
    have hkept : InterestKept [] e.committed c.committed :=
      hr.rely (P := depositPromise) h (fun _ hp => hp.honours) e he
    exact hkept.entries

/-- A deposit whose first interest is due. -/
def demoDeposits : Db :=
  { demo with
    deposits := [{ id := 40, userId := 1, maturityDate := some 20270101 }]
    plannedTransactions := [
      { id := 1, userId := some 1, title := "سود سپرده «بانک»", plannedDate := 20260401
        direction := .inflow, amountBase := .ofInt 50, toAccountId := some 11, assetId := some 2
        recurrence := .monthly, categoryId := some 13, amountNative := some (.ofInt 50)
        dayOfMonth := some 12, depositId := some 40 }] }

theorem demoDeposits_ok : Deposits demoDeposits where
  planIds := by decide
  ids := by decide
  terms := by decide
  closed := by decide
  once := by decide

/-- The interest arrives, and is recorded with its entry. -/
def demoInterest (env : Env) : Sql Unit :=
  postEntry env (demoMoved 11 13 50) >>= fun r =>
    closeIncomeOccurrence ordinaryYears env { planId := 1, userId := 1, entryId := some r.id } >>=
      fun _ => pure ()

theorem demoInterest_transaction (env : Env) : DepositTransaction (demoInterest env) := by
  refine .record _ _ ((postEntry_writes _ _).mono fun _ _ _ hws w hw => ?_) fun _ => ?_
  · rcases hws w hw with ⟨_, rfl⟩ | ⟨_, rfl⟩ | hlots
    · exact fun _ => ⟨rfl, rfl⟩
    · exact fun _ => ⟨rfl, rfl⟩
    · cases w <;> first | exact fun _ => ⟨rfl, rfl⟩ | exact hlots.elim
  · exact fun _ hw => absurd hw List.not_mem_nil

/-- The interest is recorded, then the deposit is closed. -/
theorem recorded_then_closed : ∃ c past,
    System.History DepositTransaction (fun a => a = .planAsRead ∨ a = .interestAsFound)
      demoDeposits (c :: past) ∧
    c.committed.deposits.map (·.status) = [.closed] ∧
    c.committed.plannedTransactions.map (fun p => (p.status, p.executedEntryId)) =
      [(.executed, some 9), (.cancelled, none)] ∧
    (∀ d ∈ c.committed.deposits, d.status = .closed → c.committed.pendingInterest d.id = []) := by
  have hidle : System.Reaches DepositTransaction (fun a => a = .planAsRead ∨ a = .interestAsFound)
      demoDeposits (System.idle (demoDeposits : Db)) := .idle
  have hmet : (demoInterest { entryId := 9, planId := 12 }).Met
      (fun a => a = .planAsRead ∨ a = .interestAsFound) demoDeposits := by
    repeat first
      | exact trivial
      | refine ⟨fun _ _ => trivial, ?_⟩
      | refine ⟨fun _ _ _ => by decide, ?_⟩
  obtain ⟨c, hc, hquiet, hcommitted⟩ :=
    hidle.alone (fun _ => rfl) (demoInterest_transaction _) hmet rfl
  have hmet' : (closeDeposit 1 40).Met (fun a => a = .planAsRead ∨ a = .interestAsFound)
      c.committed := by
    rw [hcommitted]
    repeat first
      | exact trivial
      | refine ⟨fun _ _ => trivial, ?_⟩
      | refine ⟨fun _ _ _ => by decide, ?_⟩
  obtain ⟨d, hd, -, hlast⟩ := hc.alone hquiet (.close 1 40) hmet' (by rw [hcommitted]; rfl)
  obtain ⟨past, hpast⟩ := hd.history
  refine ⟨d, past, hpast, ?_, ?_, (interest_in_order demoDeposits_ok hpast).1⟩
  · rw [hlast]
    rfl
  · rw [hlast]
    rfl

/-- The interest did not arrive. -/
def demoMissed (env : Env) : Sql Unit :=
  (pure () : Sql Unit) >>= fun _ =>
    closeIncomeOccurrence ordinaryYears env { planId := 1, userId := 1, entryId := none } >>=
      fun _ => pure ()

theorem demoMissed_transaction (env : Env) : DepositTransaction (demoMissed env) :=
  .record _ _ (fun _ hw => absurd hw List.not_mem_nil) fun _ _ hw => absurd hw List.not_mem_nil

/-- The deposit is closed while its interest is recorded: the cancellation waits for the reminder
and does not see the next one. -/
def closedMeanwhile : List (Move Db Write Row Assumption AppError Unit) :=
  [Move.begin 0 (demoInterest { entryId := 9, planId := 12 }), Move.begin 1 (closeDeposit 1 40)] ++
    List.replicate 9 (Move.go 0) ++ [Move.go 1, Move.go 1, Move.commit 0, Move.go 1, Move.commit 1]

/-- Both read the reminder; one records the interest and the other, after it, that there is none. -/
def missedMeanwhile : List (Move Db Write Row Assumption AppError Unit) :=
  [Move.begin 0 (demoInterest { entryId := 9, planId := 12 }),
    Move.begin 1 (demoMissed { entryId := 0, planId := 13 })] ++ List.replicate 6 (Move.go 0) ++
    [Move.go 1] ++ List.replicate 3 (Move.go 0) ++ [Move.commit 0] ++
    List.replicate 3 (Move.go 1) ++ [Move.commit 1]

theorem closed_with_interest : ∃ c past,
    System.History DepositTransaction (fun _ => False) demoDeposits (c :: past) ∧
    ∃ d ∈ c.committed.deposits, d.status = .closed ∧ c.committed.pendingInterest d.id ≠ [] := by
  have hcheck : (Board.record [] (.idle 2 demoDeposits) closedMeanwhile).any (fun all =>
      all.head?.any fun c => decide (∃ d ∈ c.committed.deposits, d.status = .closed ∧
        c.committed.pendingInterest d.id ≠ [])) = true := by decide
  obtain ⟨all, hall, hcheck⟩ := exists_of_any hcheck
  obtain ⟨c, hc, hcheck⟩ := exists_of_any hcheck
  obtain ⟨past, rfl⟩ := List.head?_eq_some_iff.mp hc
  have hbegun : ∀ p ∈ Board.begun closedMeanwhile, DepositTransaction p := by
    have hpair : Board.begun closedMeanwhile =
        [demoInterest { entryId := 9, planId := 12 }, closeDeposit 1 40] := rfl
    rw [hpair]
    intro p hp
    rcases List.mem_pair.mp hp with rfl | rfl
    · exact demoInterest_transaction _
    · exact .close 1 40
  exact ⟨_, _, Board.record_idle hbegun hall, of_decide_eq_true hcheck⟩

theorem recorded_and_missed : ∃ c past,
    System.History DepositTransaction (fun _ => False) demoDeposits (c :: past) ∧
    (∃ d ∈ c.committed.deposits, d.status = .active ∧
      1 < (c.committed.pendingInterest d.id).length) ∧
    ∃ e ∈ past, ∃ p ∈ e.committed.plannedTransactions, p.status = .executed ∧
      ∀ q ∈ c.committed.plannedTransactions, ¬ p.KeepsEntry q := by
  have hcheck : (Board.record [] (.idle 2 demoDeposits) missedMeanwhile).any (fun all =>
      all.head?.any fun c => decide ((∃ d ∈ c.committed.deposits, d.status = .active ∧
        1 < (c.committed.pendingInterest d.id).length) ∧
        ∃ e ∈ all.tail, ∃ p ∈ e.committed.plannedTransactions, p.status = .executed ∧
          ∀ q ∈ c.committed.plannedTransactions, ¬ p.KeepsEntry q)) = true := by decide
  obtain ⟨all, hall, hcheck⟩ := exists_of_any hcheck
  obtain ⟨c, hc, hcheck⟩ := exists_of_any hcheck
  obtain ⟨past, rfl⟩ := List.head?_eq_some_iff.mp hc
  obtain ⟨htwo, e, he, hlost⟩ := of_decide_eq_true hcheck
  have hbegun : ∀ p ∈ Board.begun missedMeanwhile, DepositTransaction p := by
    have hpair : Board.begun missedMeanwhile =
        [demoInterest { entryId := 9, planId := 12 }, demoMissed { entryId := 0, planId := 13 }] :=
      rfl
    rw [hpair]
    intro p hp
    rcases List.mem_pair.mp hp with rfl | rfl
    · exact demoInterest_transaction _
    · exact demoMissed_transaction _
  exact ⟨_, _, Board.record_idle hbegun hall, htwo, e.toSystem, List.mem_map_of_mem he, hlost⟩

/-- Deposits in order are brought out of it: by a closing that overlaps the recording of interest,
and by two that close one reminder. -/
theorem interest_out_of_order : Deposits demoDeposits ∧
    (∃ c past, System.History DepositTransaction (fun _ => False) demoDeposits (c :: past) ∧
      ∃ d ∈ c.committed.deposits, d.status = .closed ∧ c.committed.pendingInterest d.id ≠ []) ∧
    ∃ c past, System.History DepositTransaction (fun _ => False) demoDeposits (c :: past) ∧
      (∃ d ∈ c.committed.deposits, d.status = .active ∧
        1 < (c.committed.pendingInterest d.id).length) ∧
      ∃ e ∈ past, ∃ p ∈ e.committed.plannedTransactions, p.status = .executed ∧
        ∀ q ∈ c.committed.plannedTransactions, ¬ p.KeepsEntry q :=
  ⟨demoDeposits_ok, closed_with_interest, recorded_and_missed⟩

end Pwos
