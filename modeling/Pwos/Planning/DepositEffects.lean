import Pwos.Lib.Interleaving
import Pwos.Planning.Deposits

/-!
# What keeps the deposits in order

The facts about deposits and their interest reminders (`Deposits`), what transactions promise each
other about them (`depositPromise`), and the one way in which the operations change them: rows are
mapped, and at most one plan and one deposit are new (`Effect`).
-/

namespace Pwos

/-- The reminder is of the deposit's owner, and not after the deposit's maturity. -/
def PlannedTransaction.InTerm (p : PlannedTransaction) (d : Deposit) : Prop :=
  p.userId = some d.userId ∧ ∀ m ∈ d.maturityDate, p.plannedDate ≤ m

instance (p : PlannedTransaction) (d : Deposit) : Decidable (p.InTerm d) :=
  inferInstanceAs (Decidable (_ ∧ ∀ m ∈ d.maturityDate, _))

/-- Keys are unique, an interest reminder is of a deposit and in its term, a closed deposit has no
pending one and an active deposit one at most. -/
structure Deposits (db : Db) : Prop where
  planIds : (db.plannedTransactions.map (·.id)).Nodup
  ids : (db.deposits.map (·.id)).Nodup
  terms : ∀ p ∈ db.plannedTransactions, ∀ i ∈ p.depositId,
    ∃ d ∈ db.deposits, d.id = i ∧ p.InTerm d
  closed : ∀ d ∈ db.deposits, d.status = .closed → ∀ p ∈ db.plannedTransactions,
    p.depositId = some d.id → p.status ≠ .pending
  once : ∀ p ∈ db.plannedTransactions, ∀ q ∈ db.plannedTransactions, ∀ i, p.depositId = some i →
    q.depositId = some i → p.status = .pending → q.status = .pending → p = q

/-- The reminder was executed, and another one says so too with the same entry. -/
def PlannedTransaction.KeepsEntry (p q : PlannedTransaction) : Prop :=
  q.id = p.id ∧ q.status = .executed ∧ q.executedEntryId = p.executedEntryId

instance (p q : PlannedTransaction) : Decidable (p.KeepsEntry q) :=
  inferInstanceAs (Decidable (_ ∧ _ ∧ _))

/-- The pending reminders of the deposit are held. -/
def InterestHeld (ks : List Row) (i : Uuid) (db : Db) : Prop :=
  ∀ p ∈ db.plannedTransactions, p.depositId = some i → p.status = .pending → Row.plan p.id ∈ ks

/-- What others leave alone: plans and deposits that are held, the active deposit whose pending
reminder is held, all the plans of a deposit that is held with its pending reminders; and the
entries of executed plans. -/
structure InterestKept (ks : List Row) (s t : Db) : Prop where
  plans : ∀ p : PlannedTransaction, Row.plan p.id ∈ ks →
    (p ∈ t.plannedTransactions ↔ p ∈ s.plannedTransactions)
  deposits : ∀ d : Deposit, Row.deposit d.id ∈ ks → (d ∈ t.deposits ↔ d ∈ s.deposits)
  active : ∀ p ∈ s.plannedTransactions, Row.plan p.id ∈ ks → p.status = .pending →
    ∀ d ∈ s.deposits, p.depositId = some d.id → d.status = .active → d ∈ t.deposits
  quiet : ∀ i, Row.deposit i ∈ ks → InterestHeld ks i s → ∀ p ∈ t.plannedTransactions,
    p.depositId = some i → p ∈ s.plannedTransactions
  entries : ∀ p ∈ s.plannedTransactions, p.status = .executed →
    ∃ q ∈ t.plannedTransactions, p.KeepsEntry q

theorem InterestKept.refl (ks : List Row) (s : Db) : InterestKept ks s s where
  plans _ _ := Iff.rfl
  deposits _ _ := Iff.rfl
  active _ _ _ _ _ hd _ _ := hd
  quiet _ _ _ _ hp _ := hp
  entries p hp hexecuted := ⟨p, hp, rfl, hexecuted, rfl⟩

theorem InterestKept.trans {ks : List Row} {s t u : Db} (h : InterestKept ks s t)
    (h' : InterestKept ks t u) : InterestKept ks s u where
  plans p hp := (h'.plans p hp).trans (h.plans p hp)
  deposits d hd := (h'.deposits d hd).trans (h.deposits d hd)
  active p hp hheld hpending d hd hdeposit hactive :=
    h'.active p ((h.plans p hheld).mpr hp) hheld hpending d
      (h.active p hp hheld hpending d hd hdeposit hactive) hdeposit hactive
  quiet i hi hheld p hp hdeposit := by
    have hlater : InterestHeld ks i t := fun q hq hqi => hheld q (h.quiet i hi hheld q hq hqi) hqi
    exact h.quiet i hi hheld p (h'.quiet i hi hlater p hp hdeposit) hdeposit
  entries p hp hexecuted := by
    obtain ⟨q, hq, hid, hstatus, hentry⟩ := h.entries p hp hexecuted
    obtain ⟨r, hr, hid', hstatus', hentry'⟩ := h'.entries q hq hstatus
    exact ⟨r, hr, hid'.trans hid, hstatus', hentry'.trans hentry⟩

theorem InterestKept.mono {ks js : List Row} {s t : Db} (hsub : ks ⊆ js)
    (h : InterestKept js s t) : InterestKept ks s t where
  plans p hp := h.plans p (hsub hp)
  deposits d hd := h.deposits d (hsub hd)
  active p hp hheld := h.active p hp (hsub hheld)
  quiet i hi hheld := h.quiet i (hsub hi) fun p hp hpi hpending => hsub (hheld p hp hpi hpending)
  entries := h.entries

/-- Reminders are as they were read when they are closed, and those of a deposit as they were
found when they are cancelled. -/
def depositPromise : Promise Db Row Assumption where
  Assumes a := a = .planAsRead ∨ a = .interestAsFound
  Inv := Deposits
  Rely := InterestKept
  refl := .refl
  trans := .trans
  mono := .mono

/-! ## Effects -/

/-- What a transaction comes to: rows that are changed or go, and rows that are new. -/
structure Effect where
  plan : PlannedTransaction → PlannedTransaction := id
  deposit : Deposit → Option Deposit := some
  newPlan : Option PlannedTransaction := none
  newDeposit : Option Deposit := none

/-- The writes come to the effect. -/
structure Effect.At (e : Effect) (ws : List Write) (t : Db) : Prop where
  plans : (applyAll ws t).plannedTransactions =
    t.plannedTransactions.map e.plan ++ e.newPlan.toList
  deposits : (applyAll ws t).deposits = t.deposits.filterMap e.deposit ++ e.newDeposit.toList

/-- A plan is closed, cancelled or loses its deposit. An executed one keeps its entry. -/
structure PlannedTransaction.Settles (p q : PlannedTransaction) : Prop where
  key : q.id = p.id
  userId : q.userId = p.userId
  date : q.plannedDate = p.plannedDate
  deposit : ∀ i, q.depositId = some i → p.depositId = some i
  pending : q.status = .pending → p.status = .pending
  entry : p.status = .executed → p.KeepsEntry q

theorem PlannedTransaction.Settles.refl (p : PlannedTransaction) : p.Settles p :=
  ⟨rfl, rfl, rfl, fun _ h => h, fun h => h, fun h => ⟨rfl, h, rfl⟩⟩

/-- A deposit is closed, or as it was. -/
structure Deposit.Settles (d e : Deposit) : Prop where
  key : e.id = d.id
  userId : e.userId = d.userId
  maturity : e.maturityDate = d.maturityDate
  status : e.status = .active → d.status = .active

theorem Deposit.Settles.refl (d : Deposit) : d.Settles d := ⟨rfl, rfl, rfl, fun h => h⟩

/-- The deposit of a new reminder: a new one, or an active one that stays and whose pending
reminder is held and closed. -/
def Effect.Hosts (e : Effect) (ks : List Row) (t : Db) (d : Deposit) : Prop :=
  e.newDeposit = some d ∨
    (d ∈ t.deposits ∧ e.deposit d = some d ∧
      (∃ p ∈ t.plannedTransactions, p.depositId = some d.id ∧ p.status = .pending ∧
        Row.plan p.id ∈ ks) ∧
      ∀ p ∈ t.plannedTransactions, p.depositId = some d.id → p.status = .pending →
        (e.plan p).status ≠ .pending)

/-- An effect that keeps the order: it changes rows that are held, and a deposit only with all of
its pending reminders. -/
structure Effect.Fits (e : Effect) (ks : List Row) (t : Db) : Prop where
  plan : ∀ p ∈ t.plannedTransactions, p.Settles (e.plan p)
  held : ∀ p ∈ t.plannedTransactions, e.plan p ≠ p →
    Row.plan p.id ∈ ks ∧ (p.status = .pending ∨ (e.plan p).depositId = none)
  deposit : ∀ d ∈ t.deposits, ∀ d' ∈ e.deposit d, d.Settles d'
  heldDeposit : ∀ d ∈ t.deposits, e.deposit d ≠ some d → Row.deposit d.id ∈ ks ∧
    ∀ p ∈ t.plannedTransactions, p.depositId = some d.id → p.status = .pending →
      Row.plan p.id ∈ ks ∧ ((e.plan p).depositId = none ∨ (e.plan p).status ≠ .pending)
  gone : ∀ d ∈ t.deposits, e.deposit d = none → ∀ p ∈ t.plannedTransactions,
    p.depositId = some d.id → (e.plan p).depositId = none
  newPlan : ∀ r ∈ e.newPlan, Row.plan r.id ∈ ks ∧
    (∀ p ∈ t.plannedTransactions, p.id ≠ r.id) ∧ ∀ i ∈ r.depositId,
      ∃ d, e.Hosts ks t d ∧ d.id = i ∧ d.status = .active ∧ r.InTerm d
  newDeposit : ∀ d ∈ e.newDeposit, Row.deposit d.id ∈ ks ∧ d.status = .active ∧
    ∀ x ∈ t.deposits, x.id ≠ d.id

section Commits
variable {e : Effect} {ws : List Write} {ks : List Row} {t : Db}

/-- The keys of the rows that are left. -/
theorem filterMap_keys {α β : Type} {k : α → β} {f : α → Option α} {l : List α}
    (h : ∀ a ∈ l, ∀ b ∈ f a, k b = k a) : ((l.filterMap f).map k).Sublist (l.map k) := by
  induction l with
  | nil => simp
  | cons a l ih =>
    have hrest := ih fun x hx => h x (List.mem_cons_of_mem _ hx)
    cases hf : f a with
    | none =>
      rw [List.filterMap_cons_none hf]
      exact hrest.cons _
    | some b =>
      rw [List.filterMap_cons_some hf, List.map_cons, List.map_cons, h a List.mem_cons_self b hf]
      exact hrest.cons_cons _

theorem Effect.At.mem_plans (ha : e.At ws t) {q : PlannedTransaction} :
    q ∈ (applyAll ws t).plannedTransactions ↔
      (∃ p ∈ t.plannedTransactions, e.plan p = q) ∨ e.newPlan = some q := by
  rw [ha.plans, List.mem_append, List.mem_map, Option.mem_toList]

theorem Effect.At.mem_deposits (ha : e.At ws t) {d : Deposit} :
    d ∈ (applyAll ws t).deposits ↔
      (∃ x ∈ t.deposits, e.deposit x = some d) ∨ e.newDeposit = some d := by
  rw [ha.deposits, List.mem_append, List.mem_filterMap, Option.mem_toList]

/-- The deposit of a new reminder is there afterwards. -/
theorem Effect.Hosts.mem {d : Deposit} (h : e.Hosts ks t d) (ha : e.At ws t) :
    d ∈ (applyAll ws t).deposits := by
  rcases h with h | ⟨hd, hstays, -⟩
  · exact ha.mem_deposits.mpr (.inr h)
  · exact ha.mem_deposits.mpr (.inl ⟨d, hd, hstays⟩)

theorem Effect.Fits.ids (hf : e.Fits ks t) (ha : e.At ws t) (hinv : Deposits t) :
    ((applyAll ws t).plannedTransactions.map (·.id)).Nodup ∧
      ((applyAll ws t).deposits.map (·.id)).Nodup := by
  constructor
  · have hsame : (t.plannedTransactions.map e.plan).map (·.id) =
        t.plannedTransactions.map (·.id) := by
      rw [List.map_map]
      exact List.map_congr_left fun p hp => (hf.plan p hp).key
    rw [ha.plans, List.map_append, List.nodup_append, hsame]
    refine ⟨hinv.planIds, by cases e.newPlan <;> simp, ?_⟩
    intro i hi j hj
    obtain ⟨p, hp, rfl⟩ := List.mem_map.mp hi
    obtain ⟨r, hr, rfl⟩ := List.mem_map.mp hj
    exact (hf.newPlan r (Option.mem_toList.mp hr)).2.1 p hp
  · have hsub := filterMap_keys (k := Deposit.id) fun d hd d' hd' => (hf.deposit d hd d' hd').key
    rw [ha.deposits, List.map_append, List.nodup_append]
    refine ⟨hinv.ids.sublist hsub, by cases e.newDeposit <;> simp, ?_⟩
    intro i hi j hj
    obtain ⟨x, hx, rfl⟩ := List.mem_map.mp (hsub.subset hi)
    obtain ⟨d, hd, rfl⟩ := List.mem_map.mp hj
    exact (hf.newDeposit d (Option.mem_toList.mp hd)).2.2 x hx

theorem Effect.Fits.terms (hf : e.Fits ks t) (ha : e.At ws t) (hinv : Deposits t) :
    ∀ q ∈ (applyAll ws t).plannedTransactions, ∀ i ∈ q.depositId,
      ∃ d ∈ (applyAll ws t).deposits, d.id = i ∧ q.InTerm d := by
  intro q hq i hi
  rcases ha.mem_plans.mp hq with ⟨p, hp, rfl⟩ | hnew
  · have hsettles := hf.plan p hp
    have hpi := hsettles.deposit i hi
    obtain ⟨d, hd, hid, huser, hterm⟩ := hinv.terms p hp i hpi
    cases hstays : e.deposit d with
    | none =>
      have hnone := hf.gone d hd hstays p hp (hid ▸ hpi)
      rw [hnone] at hi
      cases hi
    | some d' =>
      have hd' := hf.deposit d hd d' hstays
      refine ⟨d', ha.mem_deposits.mpr (.inl ⟨d, hd, hstays⟩), hd'.key.trans hid, ?_, ?_⟩
      · rw [hsettles.userId, hd'.userId, huser]
      · rw [hsettles.date, hd'.maturity]
        exact hterm
  · obtain ⟨-, -, hhost⟩ := hf.newPlan q hnew
    obtain ⟨d, hhosts, hid, -, hterm⟩ := hhost i hi
    exact ⟨d, hhosts.mem ha, hid, hterm⟩

/-- A pending reminder of a deposit was pending before, and of it, or is new and hosted by it. -/
theorem Effect.Fits.pending (hf : e.Fits ks t) (ha : e.At ws t) {q : PlannedTransaction} {i : Uuid}
    (hq : q ∈ (applyAll ws t).plannedTransactions) (hi : q.depositId = some i)
    (hpending : q.status = .pending) :
    (∃ p ∈ t.plannedTransactions, e.plan p = q ∧ p.depositId = some i ∧ p.status = .pending) ∨
      (e.newPlan = some q ∧ ∃ d, e.Hosts ks t d ∧ d.id = i ∧ d.status = .active) := by
  rcases ha.mem_plans.mp hq with ⟨p, hp, rfl⟩ | hnew
  · have hsettles := hf.plan p hp
    exact .inl ⟨p, hp, rfl, hsettles.deposit i hi, hsettles.pending hpending⟩
  · obtain ⟨-, -, hhost⟩ := hf.newPlan q hnew
    obtain ⟨d, hhosts, hid, hactive, -⟩ := hhost i hi
    exact .inr ⟨hnew, d, hhosts, hid, hactive⟩

/-- A reminder that was there is not of the new deposit. -/
theorem Effect.Fits.not_new (hf : e.Fits ks t) (hinv : Deposits t) {p : PlannedTransaction}
    (hp : p ∈ t.plannedTransactions) {d : Deposit} (hnew : e.newDeposit = some d) :
    p.depositId ≠ some d.id := by
  intro hi
  obtain ⟨x, hx, hid, -⟩ := hinv.terms p hp d.id hi
  exact (hf.newDeposit d hnew).2.2 x hx hid

/-- The pending reminder of a host is closed. -/
theorem Effect.Hosts.alone {d : Deposit} (h : e.Hosts ks t d) (hf : e.Fits ks t) (hinv : Deposits t)
    {p : PlannedTransaction} (hp : p ∈ t.plannedTransactions) (hi : p.depositId = some d.id)
    (hpending : p.status = .pending) : (e.plan p).status ≠ .pending := by
  rcases h with hnew | ⟨-, -, -, hclosed⟩
  · exact absurd hi (hf.not_new hinv hp hnew)
  · exact hclosed p hp hi hpending

theorem Effect.Fits.inv (hf : e.Fits ks t) (ha : e.At ws t) (hinv : Deposits t) :
    Deposits (applyAll ws t) where
  planIds := (hf.ids ha hinv).1
  ids := (hf.ids ha hinv).2
  terms := hf.terms ha hinv
  closed d hd hclosed q hq hi hpending := by
    rcases hf.pending ha hq hi hpending with ⟨p, hp, rfl, hpi, hpp⟩ | ⟨-, host, hhosts, hid, hactive⟩
    · rcases ha.mem_deposits.mp hd with ⟨x, hx, hstays⟩ | hnew
      · have hkey := (hf.deposit x hx d hstays).key
        rw [hkey] at hpi
        by_cases hsame : e.deposit x = some x
        · obtain rfl : x = d := Option.some.inj (hsame.symm.trans hstays)
          exact hinv.closed x hx hclosed p hp hpi hpp
        · rcases ((hf.heldDeposit x hx hsame).2 p hp hpi hpp).2 with hnone | hclosed
          · rw [hnone] at hi
            cases hi
          · exact hclosed hpending
      · exact hf.not_new hinv hp hnew hpi
    · have hsame : host = d := List.inj_on_of_nodup_map (hf.ids ha hinv).2 (hhosts.mem ha) hd hid
      rw [hsame, hclosed] at hactive
      cases hactive
  once q hq q' hq' i hi hi' hpending hpending' := by
    rcases hf.pending ha hq hi hpending with ⟨p, hp, rfl, hpi, hpp⟩ | ⟨hnew, d, hhosts, hid, -⟩ <;>
      rcases hf.pending ha hq' hi' hpending' with
        ⟨p', hp', rfl, hpi', hpp'⟩ | ⟨hnew', d', hhosts', hid', -⟩
    · rw [hinv.once p hp p' hp' i hpi hpi' hpp hpp']
    · exact absurd hpending (hhosts'.alone hf hinv hp (hid' ▸ hpi) hpp)
    · exact absurd hpending' (hhosts.alone hf hinv hp' (hid ▸ hpi') hpp')
    · exact Option.some.inj (hnew.symm.trans hnew')

/-- What an effect changes, nobody else relies on. -/
theorem Effect.Fits.kept (hf : e.Fits ks t) (ha : e.At ws t) {others : List Row}
    (hfree : ∀ k ∈ others, k ∉ ks) : InterestKept others t (applyAll ws t) where
  plans p hp := by
    have hmine := hfree _ hp
    constructor
    · intro hq
      rcases ha.mem_plans.mp hq with ⟨o, ho, rfl⟩ | hnew
      · have hkey := (hf.plan o ho).key
        by_cases hsame : e.plan o = o
        · rwa [hsame]
        · exact absurd (hkey ▸ (hf.held o ho hsame).1) hmine
      · exact absurd (hf.newPlan p hnew).1 hmine
    · intro ho
      have hsame : e.plan p = p := by
        by_contra hchanged
        exact hmine (hf.held p ho hchanged).1
      exact ha.mem_plans.mpr (.inl ⟨p, ho, hsame⟩)
  deposits d hd := by
    have hmine := hfree _ hd
    constructor
    · intro hd'
      rcases ha.mem_deposits.mp hd' with ⟨x, hx, hstays⟩ | hnew
      · have hkey := (hf.deposit x hx d hstays).key
        by_cases hsame : e.deposit x = some x
        · obtain rfl : x = d := Option.some.inj (hsame.symm.trans hstays)
          exact hx
        · exact absurd (hkey ▸ (hf.heldDeposit x hx hsame).1) hmine
      · exact absurd (hf.newDeposit d hnew).1 hmine
    · intro hx
      have hsame : e.deposit d = some d := by
        by_contra hchanged
        exact hmine (hf.heldDeposit d hx hchanged).1
      exact ha.mem_deposits.mpr (.inl ⟨d, hx, hsame⟩)
  active p hp hheld hpending d hd hi _ := by
    have hsame : e.deposit d = some d := by
      by_contra hchanged
      exact hfree _ hheld ((hf.heldDeposit d hd hchanged).2 p hp hi hpending).1
    exact ha.mem_deposits.mpr (.inl ⟨d, hd, hsame⟩)
  quiet i hi hheld q hq hqi := by
    rcases ha.mem_plans.mp hq with ⟨p, hp, rfl⟩ | hnew
    · by_cases hsame : e.plan p = p
      · rwa [hsame]
      · obtain ⟨hmine, hpending | hnone⟩ := hf.held p hp hsame
        · have hpi := (hf.plan p hp).deposit i hqi
          exact absurd hmine (hfree _ (hheld p hp hpi hpending))
        · rw [hnone] at hqi
          cases hqi
    · obtain ⟨-, -, hhost⟩ := hf.newPlan q hnew
      obtain ⟨d, hhosts, rfl, -⟩ := hhost i hqi
      rcases hhosts with hnewd | ⟨-, -, ⟨p, hp, hpi, hpending, hmine⟩, -⟩
      · exact absurd (hf.newDeposit d hnewd).1 (hfree _ hi)
      · exact absurd hmine (hfree _ (hheld p hp hpi hpending))
  entries p hp hexecuted := ⟨e.plan p, ha.mem_plans.mpr (.inl ⟨p, hp, rfl⟩),
    (hf.plan p hp).entry hexecuted⟩

theorem Effect.Fits.commits (hf : e.Fits ks t) (ha : e.At ws t) (hinv : Deposits t) :
    depositPromise.Commits ws ks t :=
  ⟨hf.inv ha hinv, fun _ hfree => hf.kept ha hfree⟩

end Commits

section Operations
variable {ws vs : List Write} {ks : List Row} {s t : Db}

/-! ## Writes of other tables -/

/-- A write that has nothing to do with plans and deposits. -/
def Write.SparesInterest (w : Write) : Prop := ∀ db : Db,
  (w.apply db).plannedTransactions = db.plannedTransactions ∧ (w.apply db).deposits = db.deposits

theorem sparesInterest_all (h : ∀ w ∈ ws, w.SparesInterest) (db : Db) :
    (applyAll ws db).plannedTransactions = db.plannedTransactions ∧
      (applyAll ws db).deposits = db.deposits :=
  ⟨applyAll_keeps (f := (·.plannedTransactions)) (fun w hw db => (h w hw db).1) db,
    applyAll_keeps (f := (·.deposits)) (fun w hw db => (h w hw db).2) db⟩

theorem Effect.At.spared {e : Effect} (h : e.At ws t) (hvs : ∀ w ∈ vs, w.SparesInterest) :
    e.At (ws ++ vs) t where
  plans := by rw [applyAll_append, (sparesInterest_all hvs _).1, h.plans]
  deposits := by rw [applyAll_append, (sparesInterest_all hvs _).2, h.deposits]

theorem Effect.Fits.mono {e : Effect} {js : List Row} (h : e.Fits ks t) (hsub : ks ⊆ js) :
    e.Fits js t where
  plan := h.plan
  held p hp hne := (h.held p hp hne).imp_left (hsub ·)
  deposit := h.deposit
  heldDeposit d hd hne := ⟨hsub (h.heldDeposit d hd hne).1, fun p hp hi hpending =>
    ((h.heldDeposit d hd hne).2 p hp hi hpending).imp_left (hsub ·)⟩
  gone := h.gone
  newPlan r hr := by
    obtain ⟨hheld, hfree, hhost⟩ := h.newPlan r hr
    refine ⟨hsub hheld, hfree, fun i hi => ?_⟩
    obtain ⟨d, hhosts, hd⟩ := hhost i hi
    refine ⟨d, hhosts.imp_right ?_, hd⟩
    rintro ⟨hmem, hstays, ⟨p, hp, hpi, hpending, hplan⟩, hclosed⟩
    exact ⟨hmem, hstays, ⟨p, hp, hpi, hpending, hsub hplan⟩, hclosed⟩
  newDeposit d hd := (h.newDeposit d hd).imp_left (hsub ·)

/-- An effect without new rows. -/
theorem Effect.Fits.of_old {e : Effect} (hplan : e.newPlan = none) (hdeposit : e.newDeposit = none)
    (plan : ∀ p ∈ t.plannedTransactions, p.Settles (e.plan p))
    (held : ∀ p ∈ t.plannedTransactions, e.plan p ≠ p →
      Row.plan p.id ∈ ks ∧ (p.status = .pending ∨ (e.plan p).depositId = none))
    (deposit : ∀ d ∈ t.deposits, ∀ d' ∈ e.deposit d, d.Settles d')
    (heldDeposit : ∀ d ∈ t.deposits, e.deposit d ≠ some d → Row.deposit d.id ∈ ks ∧
      ∀ p ∈ t.plannedTransactions, p.depositId = some d.id → p.status = .pending →
        Row.plan p.id ∈ ks ∧ ((e.plan p).depositId = none ∨ (e.plan p).status ≠ .pending))
    (gone : ∀ d ∈ t.deposits, e.deposit d = none → ∀ p ∈ t.plannedTransactions,
      p.depositId = some d.id → (e.plan p).depositId = none) : e.Fits ks t where
  plan := plan
  held := held
  deposit := deposit
  heldDeposit := heldDeposit
  gone := gone
  newPlan r hr := by rw [hplan] at hr; cases hr
  newDeposit d hd := by rw [hdeposit] at hd; cases hd

/-! ## Recording interest -/

/-- A reminder is closed, and the next one may be scheduled. -/
def closing (plan : PlannedTransaction) (status : PlanStatus) (entryId : Option Uuid)
    (new : Option PlannedTransaction) : Effect :=
  { plan := fun p => if p.id = plan.id then p.close status entryId else p, newPlan := new }

/-- A recording about to commit: the reminder is pending and held, the id of the next one is held
too, and the deposit of both is active. -/
structure Recording (plan : PlannedTransaction) (new : Option PlannedTransaction) (ks : List Row)
    (t : Db) : Prop where
  mem : plan ∈ t.plannedTransactions
  pending : plan.status = .pending
  held : Row.plan plan.id ∈ ks
  fresh : ∀ r ∈ new, Row.plan r.id ∈ ks ∧ (∀ p ∈ t.plannedTransactions, p.id ≠ r.id) ∧
    ∀ i ∈ r.depositId, plan.depositId = some i ∧
      ∃ d ∈ t.deposits, d.id = i ∧ d.status = .active ∧ r.InTerm d

section Recording
variable {plan : PlannedTransaction} {new : Option PlannedTransaction}

theorem Recording.stable (h : Recording plan new ks s) (hr : InterestKept ks s t) :
    Recording plan new ks t where
  mem := (hr.plans plan h.held).mpr h.mem
  pending := h.pending
  held := h.held
  fresh r hr' := by
    obtain ⟨hheld, hfree, hhost⟩ := h.fresh r hr'
    refine ⟨hheld, fun p hp hid => hfree p ?_ hid, fun i hi => ?_⟩
    · exact (hr.plans p (hid ▸ hheld)).mp hp
    · obtain ⟨hplan, d, hd, hid, hactive, hterm⟩ := hhost i hi
      refine ⟨hplan, d, ?_, hid, hactive, hterm⟩
      exact hr.active plan h.mem h.held h.pending d hd (hid ▸ hplan) hactive

theorem Recording.mono {js : List Row} (h : Recording plan new ks t) (hsub : ks ⊆ js) :
    Recording plan new js t where
  mem := h.mem
  pending := h.pending
  held := hsub h.held
  fresh r hr := (h.fresh r hr).imp_left (hsub ·)

theorem Recording.fits (h : Recording plan new ks t) (hinv : Deposits t) {status : PlanStatus}
    (hstatus : status ≠ .pending) (entryId : Option Uuid) :
    (closing plan status entryId new).Fits ks t := by
  have huniq : ∀ p ∈ t.plannedTransactions, p.id = plan.id → p = plan := fun p hp hid =>
    List.inj_on_of_nodup_map hinv.planIds hp h.mem hid
  refine ⟨fun p hp => ?_, fun p hp hne => ?_, ?_, ?_, ?_, fun r hr => ?_, nofun⟩
  · by_cases hid : p.id = plan.id
    · obtain rfl := huniq p hp hid
      simp only [closing, if_pos]
      refine ⟨rfl, rfl, rfl, fun _ hi => hi, fun hpending => absurd hpending hstatus, ?_⟩
      intro hexecuted
      rw [h.pending] at hexecuted
      cases hexecuted
    · simp only [closing, if_neg hid]
      exact .refl p
  · by_cases hid : p.id = plan.id
    · obtain rfl := huniq p hp hid
      exact ⟨h.held, .inl h.pending⟩
    · simp only [closing, if_neg hid] at hne
      exact absurd rfl hne
  · rintro d hd _ ⟨⟩
    exact .refl d
  · exact fun d _ hne => absurd rfl hne
  · exact fun _ _ => nofun
  · obtain ⟨hheld, hfree, hhost⟩ := h.fresh r hr
    refine ⟨hheld, hfree, fun i hi => ?_⟩
    obtain ⟨hplan, d, hd, rfl, hactive, hterm⟩ := hhost i hi
    refine ⟨d, .inr ⟨hd, rfl, ⟨plan, h.mem, hplan, h.pending, h.held⟩, ?_⟩, rfl, hactive, hterm⟩
    intro p hp hpi hpending
    obtain rfl := hinv.once p hp plan h.mem d.id hpi hplan hpending h.pending
    simp only [closing, if_pos]
    exact hstatus

end Recording

/-! ## Registering -/

/-- A deposit, and its first reminder if there is one. -/
def registering (row : Deposit) (new : Option PlannedTransaction) : Effect :=
  { newPlan := new, newDeposit := some row }

/-- A registration about to commit. -/
structure Creating (row : Deposit) (new : Option PlannedTransaction) (ks : List Row) (t : Db) :
    Prop where
  active : row.status = .active
  held : Row.deposit row.id ∈ ks
  free : ∀ d ∈ t.deposits, d.id ≠ row.id
  fresh : ∀ r ∈ new, Row.plan r.id ∈ ks ∧ (∀ p ∈ t.plannedTransactions, p.id ≠ r.id) ∧
    r.depositId = some row.id ∧ r.InTerm row

section Creating
variable {row : Deposit} {new : Option PlannedTransaction}

theorem Creating.stable (h : Creating row new ks s) (hr : InterestKept ks s t) :
    Creating row new ks t where
  active := h.active
  held := h.held
  free d hd hid := h.free d ((hr.deposits d (hid ▸ h.held)).mp hd) hid
  fresh r hr' := by
    obtain ⟨hheld, hfree, hrest⟩ := h.fresh r hr'
    exact ⟨hheld, fun p hp hid => hfree p ((hr.plans p (hid ▸ hheld)).mp hp) hid, hrest⟩

theorem Creating.fits (h : Creating row new ks t) : (registering row new).Fits ks t := by
  refine ⟨fun p _ => .refl p, fun p _ hne => absurd rfl hne, ?_, ?_, ?_, fun r hr => ?_, ?_⟩
  · rintro d hd _ ⟨⟩
    exact .refl d
  · exact fun d _ hne => absurd rfl hne
  · exact fun _ _ => nofun
  · obtain ⟨hheld, hfree, hdeposit, hterm⟩ := h.fresh r hr
    refine ⟨hheld, hfree, fun i hi => ⟨row, .inl rfl, ?_, h.active, hterm⟩⟩
    exact Option.some.inj (hdeposit.symm.trans hi)
  · rintro _ ⟨⟩
    exact ⟨h.held, h.active, h.free⟩

end Creating

/-! ## Cancelling -/

def stopped (ids : List Uuid) (p : PlannedTransaction) : PlannedTransaction :=
  if p.id ∈ ids then p.stop else p

def stopping (ids : List Uuid) : Effect := { plan := stopped ids }

theorem stopping_at (ids : List Uuid) (t : Db) : (stopping ids).At [.cancelPlans ids] t where
  plans := (List.append_nil _).symm
  deposits := by
    have hsame : t.deposits = t.deposits.filterMap some ++ [] := by
      rw [List.filterMap_some, List.append_nil]
    exact hsame

/-- The plans to be cancelled are pending and held. -/
def Cancelling (ids : List Uuid) (ks : List Row) (t : Db) : Prop :=
  ∀ i ∈ ids, Row.plan i ∈ ks ∧ ∃ p ∈ t.plannedTransactions, p.id = i ∧ p.status = .pending

section Cancelling
variable {ids : List Uuid} {i userId : Uuid}

theorem Cancelling.stable (h : Cancelling ids ks s) (hr : InterestKept ks s t) :
    Cancelling ids ks t := by
  intro i hi
  obtain ⟨hheld, p, hp, rfl, hpending⟩ := h i hi
  exact ⟨hheld, p, (hr.plans p hheld).mpr hp, rfl, hpending⟩

/-- The plan is the one that was pending. -/
theorem Cancelling.plan (h : Cancelling ids ks t) (hinv : Deposits t) {p : PlannedTransaction}
    (hp : p ∈ t.plannedTransactions) (hi : p.id ∈ ids) :
    Row.plan p.id ∈ ks ∧ p.status = .pending := by
  obtain ⟨hheld, q, hq, hid, hpending⟩ := h _ hi
  obtain rfl := List.inj_on_of_nodup_map hinv.planIds hq hp hid
  exact ⟨hheld, hpending⟩

theorem Cancelling.settles (h : Cancelling ids ks t) (hinv : Deposits t) {p : PlannedTransaction}
    (hp : p ∈ t.plannedTransactions) : p.Settles (stopped ids p) := by
  unfold stopped
  split
  · rename_i hi
    obtain ⟨-, hpending⟩ := h.plan hinv hp hi
    refine ⟨rfl, rfl, rfl, fun _ hd => hd, nofun, fun hexecuted => ?_⟩
    rw [hpending] at hexecuted
    cases hexecuted
  · exact .refl p

theorem Cancelling.changed (h : Cancelling ids ks t) (hinv : Deposits t) {p : PlannedTransaction}
    (hp : p ∈ t.plannedTransactions) (hne : stopped ids p ≠ p) :
    Row.plan p.id ∈ ks ∧ p.status = .pending := by
  refine h.plan hinv hp ?_
  by_contra hi
  exact hne (if_neg hi)

theorem stopped_not_pending {p : PlannedTransaction} (hi : p.id ∈ ids) :
    (stopped ids p).status ≠ .pending := by
  unfold stopped
  rw [if_pos hi]
  nofun

/-- `stopIncomePlan`. -/
theorem Cancelling.fits_stop (h : Cancelling ids ks t) (hinv : Deposits t) :
    (stopping ids).Fits ks t := by
  refine .of_old rfl rfl (fun p hp => h.settles hinv hp) (fun p hp hne => ?_) ?_ ?_ ?_
  · exact (h.changed hinv hp hne).imp_right .inl
  · rintro d hd _ ⟨⟩
    exact .refl d
  · exact fun d _ hne => absurd rfl hne
  · exact fun _ _ => nofun

/-! ## Closing a deposit -/

def Deposit.shut (userId i : Uuid) (d : Deposit) : Deposit :=
  if d.id = i ∧ d.userId = userId ∧ d.status = .active then { d with status := .closed } else d

theorem Deposit.settles_shut (d : Deposit) : d.Settles (d.shut userId i) := by
  unfold Deposit.shut
  split
  · exact ⟨rfl, rfl, rfl, nofun⟩
  · exact .refl d

def shutting (i userId : Uuid) (ids : List Uuid) : Effect :=
  { plan := stopped ids, deposit := fun d => some (d.shut userId i) }

theorem shutting_at (t : Db) :
    (shutting i userId ids).At [.closeDeposit i userId, .cancelPlans ids] t where
  plans := (List.append_nil _).symm
  deposits := by
    have hmap : t.deposits.map (·.shut userId i) =
        t.deposits.filterMap (fun x => some (x.shut userId i)) ++ [] := by
      rw [List.append_nil, List.filterMap_eq_map']
    exact hmap

/-- The deposit and its pending reminders are held, and the reminders will be cancelled. -/
structure Shutting (i : Uuid) (ids : List Uuid) (ks : List Row) (t : Db) : Prop where
  cancels : Cancelling ids ks t
  held : Row.deposit i ∈ ks
  all : ∀ p ∈ t.plannedTransactions, p.depositId = some i → p.status = .pending → p.id ∈ ids

theorem Shutting.interestHeld (h : Shutting i ids ks t) : InterestHeld ks i t :=
  fun p hp hi hpending => (h.cancels _ (h.all p hp hi hpending)).1

theorem Shutting.stable (h : Shutting i ids ks s) (hr : InterestKept ks s t) :
    Shutting i ids ks t where
  cancels := h.cancels.stable hr
  held := h.held
  all p hp hi hpending := h.all p (hr.quiet i h.held h.interestHeld p hp hi) hi hpending

theorem Shutting.fits (h : Shutting i ids ks t) (hinv : Deposits t) :
    (shutting i userId ids).Fits ks t := by
  have hstop := h.cancels.fits_stop hinv
  refine .of_old rfl rfl hstop.plan hstop.held ?_ (fun d hd hne => ?_) fun _ _ => nofun
  · rintro d hd _ ⟨⟩
    exact d.settles_shut
  · have hid : d.id = i := by
      by_contra hid
      exact hne (congrArg some (if_neg fun hc => hid hc.1))
    rw [hid]
    refine ⟨h.held, fun p hp hi hpending => ⟨h.interestHeld p hp hi hpending, .inr ?_⟩⟩
    exact stopped_not_pending (h.all p hp hi hpending)

/-! ## Deleting a deposit -/

/-- The plan loses its deposit. -/
def PlannedTransaction.without (i : Uuid) (p : PlannedTransaction) : PlannedTransaction :=
  if p.depositId = some i then { p with depositId := none } else p

theorem PlannedTransaction.settles_without (p : PlannedTransaction) : p.Settles (p.without i) := by
  unfold PlannedTransaction.without
  split
  · exact ⟨rfl, rfl, rfl, nofun, fun h => h, fun h => ⟨rfl, h, rfl⟩⟩
  · exact .refl p

theorem PlannedTransaction.Settles.trans {p q r : PlannedTransaction} (h : p.Settles q)
    (h' : q.Settles r) : p.Settles r where
  key := h'.key.trans h.key
  userId := h'.userId.trans h.userId
  date := h'.date.trans h.date
  deposit i hi := h.deposit i (h'.deposit i hi)
  pending hp := h.pending (h'.pending hp)
  entry hp := by
    obtain ⟨hid, hstatus, hentry⟩ := h.entry hp
    obtain ⟨hid', hstatus', hentry'⟩ := h'.entry hstatus
    exact ⟨hid'.trans hid, hstatus', hentry'.trans hentry⟩

theorem stopped_depositId (p : PlannedTransaction) : (stopped ids p).depositId = p.depositId := by
  unfold stopped
  split <;> rfl

/-- The deposit and all its plans are held. -/
structure Deleting (i userId : Uuid) (ids : List Uuid) (ks : List Row) (t : Db) : Prop where
  cancels : Cancelling ids ks t
  held : Row.deposit i ∈ ks
  owned : ∃ d ∈ t.deposits, d.id = i ∧ d.userId = userId
  all : ∀ p ∈ t.plannedTransactions, p.depositId = some i → Row.plan p.id ∈ ks

theorem Deleting.stable (h : Deleting i userId ids ks s) (hr : InterestKept ks s t) :
    Deleting i userId ids ks t where
  cancels := h.cancels.stable hr
  held := h.held
  owned := by
    obtain ⟨d, hd, rfl, huser⟩ := h.owned
    exact ⟨d, (hr.deposits d h.held).mpr hd, rfl, huser⟩
  all p hp hi := h.all p (hr.quiet i h.held (fun q hq hqi _ => h.all q hq hqi) p hp hi) hi

/-- What a deletion comes to. -/
def deleting (i : Uuid) (ids : List Uuid) : Effect :=
  { plan := fun p => (stopped ids p).without i, deposit := Option.guard (·.id ≠ i) }

theorem deleting_at (howned : ∃ d ∈ t.deposits, d.id = i ∧ d.userId = userId) :
    (deleting i ids).At [.cancelPlans ids, .deleteDeposit i userId] t := by
  have hany : (((Write.cancelPlans ids).apply t).deposits.any fun d =>
      d.id = i ∧ d.userId = userId) = true := by
    obtain ⟨d, hd, howns⟩ := howned
    exact List.any_eq_true.mpr ⟨d, hd, decide_eq_true howns⟩
  have happly : applyAll [.cancelPlans ids, .deleteDeposit i userId] t =
      { (Write.cancelPlans ids).apply t with
        deposits := t.deposits.filter (·.id ≠ i)
        plannedTransactions :=
          (t.plannedTransactions.map (stopped ids)).map (·.without i) } := if_pos hany
  constructor
  · refine (congrArg Db.plannedTransactions happly).trans ?_
    simp only [deleting, List.map_map, Option.toList_none, List.append_nil]
    rfl
  · refine (congrArg Db.deposits happly).trans ?_
    simp only [deleting, Option.toList_none, List.append_nil, List.filterMap_eq_filter]

theorem Deleting.fits (h : Deleting i userId ids ks t) (hinv : Deposits t) :
    (deleting i ids).Fits ks t := by
  have hstop := h.cancels.fits_stop hinv
  have hnone : ∀ p : PlannedTransaction, p.depositId = some i →
      ((deleting i ids).plan p).depositId = none := by
    intro p hi
    simp only [deleting, PlannedTransaction.without, stopped_depositId, hi, if_pos]
  have hgone : ∀ d : Deposit, (deleting i ids).deposit d ≠ some d → d.id = i := by
    intro d hne
    by_contra hid
    exact hne (by simp [deleting, hid])
  refine .of_old rfl rfl (fun p hp => ?_) (fun p hp hne => ?_) (fun d _ d' hd' => ?_)
    (fun d hd hne => ?_) fun d hd hdrop p hp hi => ?_
  · exact (hstop.plan p hp).trans (stopped ids p).settles_without
  · by_cases hi : p.depositId = some i
    · exact ⟨h.all p hp hi, .inr (hnone p hi)⟩
    · refine (h.cancels.changed hinv hp fun hsame => hne ?_).imp_right .inl
      simp only [deleting, PlannedTransaction.without, hsame, if_neg hi]
  · have hstays : Option.guard (fun x : Deposit => x.id ≠ i) d = some d' := hd'
    obtain ⟨rfl, -⟩ := Option.guard_eq_some_iff.mp hstays
    exact .refl d
  · obtain rfl := hgone d hne
    exact ⟨h.held, fun p hp hi _ => ⟨h.all p hp hi, .inl (hnone p hi)⟩⟩
  · obtain rfl := hgone d (by rw [hdrop]; nofun)
    exact hnone p hi

end Cancelling

end Operations

end Pwos
