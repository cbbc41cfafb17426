import Pwos.Lib.Interleaving
import Pwos.Ledger.Statements
import Pwos.Planning.Settlements

/-!
# The last rows of a debt

Payments of different rows of a debt at once. Each locks its own row only; that one of
the last two sees the other's row as paid rests on a row that both lock, the account of
the debt, the paying account, or the bucket of their tenant. Where the payments have such
a row to meet on, the debt is settled once every row is paid, in every interleaving.
-/

namespace Pwos

/-! ## The accounts payments meet on -/

def Db.ownAccount (db : Db) (code : String) (userId : Option Uuid) : Option Account :=
  userId.bind fun u => db.oldestAccount fun a => a.code = code ∧ a.userId = some u ∧ !a.deleted

def Db.sharedAccount (db : Db) (code : String) : Option Account :=
  db.oldestAccount fun a => a.code = code ∧ a.userId = none ∧ !a.deleted

/-- The account `resolveSystemAccount` finds. -/
def Db.systemAccount (db : Db) (code : String) (userId : Option Uuid) : Option Account :=
  db.ownAccount code userId <|> db.sharedAccount code

theorem systemAccount_of_own {db : Db} {code : String} {userId : Option Uuid} {a : Account}
    (h : db.ownAccount code userId = some a) : db.systemAccount code userId = some a := by
  rw [Db.systemAccount, h]
  rfl

theorem systemAccount_of_shared {db : Db} {code : String} {userId : Option Uuid}
    (h : db.ownAccount code userId = none) :
    db.systemAccount code userId = db.sharedAccount code := by
  rw [Db.systemAccount, h]
  rfl

/-- A tenant's own account is not a shared one. -/
theorem own_ne_shared {db db' : Db} {code code' : String} {userId : Option Uuid} {a : Account}
    (h : db.ownAccount code userId = some a) : db'.sharedAccount code' ≠ some a := by
  intro hs
  obtain ⟨u, -, hown⟩ := Option.bind_eq_some_iff.mp h
  have hu := (oldestAccount_spec hown).2
  have hn := (oldestAccount_spec hs).2
  simp_all

/-- The tenant a payment is made for. -/
def PayCall.payer (c : PayCall) (db : Db) : Option Uuid :=
  c.cmd.userId <|> c.env.currentUser <|> match db.users.take 2 with
    | [u] => some u
    | _ => none

/-- The payments of a debt all use an account they can name beforehand, or make one for the
same tenant. -/
def Db.SharesAccount (db : Db) (d : Debt) (calls : PayCall → Prop) : Prop :=
  d.accountId.isSome = true ∨ (∃ a, ∀ c, calls c → c.cmd.cashAccountId = a) ∨
    (∃ b, ∀ c, calls c → db.systemAccount (bucketCode d.direction) (c.payer db) = some b) ∨
    ∃ u, ∀ c, calls c → c.payer db = some u

/-- A row that payments meet on, read off the accounts, and what keeps it. -/
structure Meeting where
  row : Db → Row
  Stable : Db → Db → Prop
  refl : ∀ s, Stable s s
  trans : ∀ {s t u}, Stable s t → Stable t u → Stable s u
  kept : ∀ {s t a}, Stable s t → row s = .account a → row t = .account a
  row_congr : ∀ {s t}, s.accounts = t.accounts → row s = row t
  stable_congr : ∀ {s t t'}, t.accounts = t'.accounts → Stable s t → Stable s t'

namespace Meeting
variable (m : Meeting)

/-- The accounts a payment adds leave the row where it is, or the payment holds the row. -/
def Pending (ws : List Write) (ks : List Row) (t : Db) : Prop :=
  (∀ w ∈ ws, w.AddsAccount) ∧
    ((∀ s, m.Stable s (applyAll ws s) ∧ m.row (applyAll ws s) = m.row s) ∨
      m.row t ∈ ks ∧ ∀ s, m.row s = m.row t → m.Stable s (applyAll ws s))

/-- The payment holds the row, or will by locking its accounts. -/
def Met (accounts : List Uuid) (ks : List Row) (t : Db) : Prop :=
  m.row t ∈ ks ∨ ∃ a ∈ accounts, m.row t = .account a

/-- What others leave alone: the row once it is an account, and the rows of the debt while the
row is held. -/
structure Rely (debtId : Uuid) (ks : List Row) (s t : Db) : Prop where
  stable : m.Stable s t
  held : m.row s ∈ ks → m.row t = m.row s ∧ t.rowsOf debtId = s.rowsOf debtId
  row : ∀ i, Row.installment i ∈ ks → t.findInstallment i = s.findInstallment i

variable {m}

theorem Rely.trans {debtId : Uuid} {ks : List Row} {s t u : Db} (h : m.Rely debtId ks s t)
    (h' : m.Rely debtId ks t u) : m.Rely debtId ks s u where
  stable := m.trans h.stable h'.stable
  held := by
    intro hk
    obtain ⟨hr, hrows⟩ := h.held hk
    obtain ⟨hr', hrows'⟩ := h'.held (hr ▸ hk)
    exact ⟨hr'.trans hr, hrows'.trans hrows⟩
  row := fun i hi => (h'.row i hi).trans (h.row i hi)

theorem Rely.mono {debtId : Uuid} {ks js : List Row} {s t : Db} (hsub : ks ⊆ js)
    (h : m.Rely debtId js s t) : m.Rely debtId ks s t where
  stable := h.stable
  held := fun hk => h.held (hsub hk)
  row := fun i hi => h.row i (hsub hi)

theorem Pending.stable {debtId : Uuid} {ws : List Write} {ks js : List Row} {s t : Db}
    (h : m.Pending ws ks s) (hr : m.Rely debtId ks s t) (hsub : ks ⊆ js) : m.Pending ws js t := by
  refine ⟨h.1, ?_⟩
  rcases h.2 with hall | ⟨hk, hall⟩
  · exact .inl hall
  · have hrow := (hr.held hk).1
    exact .inr ⟨hsub (hrow ▸ hk), fun u hu => hall u (hu.trans hrow)⟩

theorem Met.stable {debtId : Uuid} {accounts : List Uuid} {ks js : List Row} {s t : Db}
    (h : m.Met accounts ks s) (hr : m.Rely debtId ks s t) (hsub : ks ⊆ js) :
    m.Met accounts js t := by
  rcases h with hk | ⟨a, ha, hrow⟩
  · exact .inl (hsub ((hr.held hk).1 ▸ hk))
  · exact .inr ⟨a, ha, m.kept hr.stable hrow⟩

end Meeting

/-! ## The promise -/

section Promise
variable (db : Db) (debtId : Uuid) (d : Debt) (m : Meeting)

/-- What every commit keeps. -/
structure PayInv (t : Db) : Prop where
  users : t.users = db.users
  rows : (t.installments.map fun i => (i.id, i.debtId)) =
    db.installments.map fun i => (i.id, i.debtId)
  debt : ∃ e, t.findDebt debtId = some e ∧ e.accountId = d.accountId ∧ e.direction = d.direction ∧
    ((∀ i ∈ t.rowsOf debtId, i.status = .paid) → e.status = .settled)
  stable : m.Stable db t

def payPromise : Promise Db Row Assumption where
  Assumes := fun _ => False
  Inv := PayInv db debtId d m
  Rely := m.Rely debtId
  refl := fun _ _ => ⟨m.refl _, fun _ => ⟨rfl, rfl⟩, fun _ _ => rfl⟩
  trans := Meeting.Rely.trans
  mono := Meeting.Rely.mono

end Promise

/-- A payment with the call it answers. -/
def PayCall.program (c : PayCall) : Sql (PayCall × PayResult) := do
  let r ← payInstallment c.env c.cmd
  pure (c, r)

/-- A payment posts one entry, for a row that is open; or nothing was left and it posts none. -/
def PaidOnce (debtId : Uuid) (c : PayCall) (r : PayResult) (before after : Db) : Prop :=
  match r with
  | .alreadyPaid _ => after.journalEntries = before.journalEntries
  | .settled entry _ _ _ =>
    (∃ e, e.id = entry.id ∧ e.status = .posted ∧
      after.journalEntries = before.journalEntries ++ [e]) ∧
    ∃ i ∈ before.rowsOf debtId, i.id = c.cmd.installmentId ∧ i.status ≠ .paid

/-! ## Commits -/

theorem findInstallment_result {env : Env} {p : Payment} {u : Db} {accounts : List Account}
    {userId : Option Uuid} {i : Uuid} (hne : i ≠ p.inst.id) :
    (p.result env u accounts userId).findInstallment i = u.findInstallment i := by
  have hid : ((fun r : Installment => decide (r.id = i)) ∘ fun r =>
      if r.id = p.inst.id then r.settle (p.columns env env.entryId) else r) =
        fun r => decide (r.id = i) := by
    funext r
    simp only [Function.comp]
    split <;> rfl
  unfold Db.findInstallment
  rw [result_installments, List.find?_map, hid]
  cases h : u.installments.find? fun r => decide (r.id = i) with
  | none => rfl
  | some r =>
    have hr : r.id = i := by simpa using List.find?_some h
    rw [Option.map_some, if_neg (hr ▸ hne)]

theorem result_users {env : Env} {p : Payment} {u : Db} {accounts : List Account}
    {userId : Option Uuid} : (p.result env u accounts userId).users = u.users := by
  unfold Payment.result Db.closeDebt
  split <;> rfl

theorem result_accounts {env : Env} {p : Payment} {u : Db} {accounts : List Account}
    {userId : Option Uuid} : (p.result env u accounts userId).accounts = u.accounts ++ accounts := by
  unfold Payment.result
  rw [closeDebt_accounts]
  rfl

section Commits
variable {db : Db} {debtId : Uuid} {d : Debt} {m : Meeting} {ws : List Write} {ks : List Row}
  {u : Db}

theorem Meeting.Pending.stable_apply (h : m.Pending ws ks u) : m.Stable u (applyAll ws u) := by
  rcases h.2 with hall | ⟨-, hall⟩
  · exact (hall u).1
  · exact hall u rfl

/-- A payment that found nothing left commits at most a bucket. -/
theorem commits_provision (hi : PayInv db debtId d m u) (hp : m.Pending ws ks u) :
    (payPromise db debtId d m).Commits ws ks u ∧
      (applyAll ws u).journalEntries = u.journalEntries := by
  have hstable := hp.stable_apply
  obtain ⟨accounts, heq⟩ := applyAll_addsAccount hp.1
  unfold Promise.Commits
  rw [heq] at hstable ⊢
  refine ⟨⟨⟨hi.users, hi.rows, hi.debt, m.trans hi.stable hstable⟩, fun others hfree => ?_⟩, rfl⟩
  refine ⟨hstable, fun hk => ⟨?_, rfl⟩, fun _ _ => rfl⟩
  rcases hp.2 with hall | ⟨hheld, -⟩
  · rw [← heq]
    exact (hall u).2
  · exact absurd hheld (hfree _ hk)

/-- A payment that holds its row and the row it meets the others on keeps the promise. -/
theorem commits_payment {env : Env} {p : Payment} {accounts : List Account} {userId : Option Uuid}
    (hi : PayInv db debtId d m u) (hstable : m.Stable u (u.withAccounts accounts))
    (hdebt : p.debt.id = debtId) (hrow : Row.installment p.inst.id ∈ ks) (hmet : m.row u ∈ ks) :
    PayInv db debtId d m (p.result env u accounts userId) ∧
      ∀ others, (∀ k ∈ others, k ∉ ks) →
        m.Rely debtId others u (p.result env u accounts userId) := by
  subst hdebt
  have hstable : m.Stable u (p.result env u accounts userId) :=
    m.stable_congr result_accounts.symm hstable
  constructor
  · refine ⟨result_users.trans hi.users, ?_, ?_, m.trans hi.stable hstable⟩
    · rw [result_installments, List.map_map, ← hi.rows]
      refine List.map_congr_left fun r _ => ?_
      simp only [Function.comp]
      split <;> rfl
    · obtain ⟨e, he, hacc, hdir, -⟩ := hi.debt
      rw [result_findDebt, he]
      refine ⟨_, rfl, ?_, ?_, fun hpaid => ?_⟩
      · split <;> exact hacc
      · split <;> exact hdir
      · simp [outstandingOf_eq_nil.mpr hpaid]
  · refine fun others hfree => ⟨hstable, fun hk => absurd hmet (hfree _ hk), fun i hk => ?_⟩
    refine findInstallment_result ?_
    rintro rfl
    exact hfree _ hk hrow

end Commits

/-! ## The program -/

section Program
variable {db : Db} {debtId : Uuid} {d : Debt} {m : Meeting} {ws : List Write} {ks : List Row}
  {s : Db} {c : PayCall}

theorem outstandingOf_congr {s t : Db} {debtId : Uuid} (h : s.rowsOf debtId = t.rowsOf debtId) :
    s.outstandingOf debtId = [] ↔ t.outstandingOf debtId = [] := by
  rw [outstandingOf_eq_nil, outstandingOf_eq_nil, h]

theorem rowsOf_settledWith (t : Db) (i : Uuid) (cols : SettledColumns) (st : Settlement) :
    (t.settledWith i cols st).rowsOf debtId =
      (t.rowsOf debtId).map fun r => if r.id = i then r.settle cols else r := by
  unfold Db.rowsOf Db.settledWith
  rw [List.filter_map]
  congr 1
  refine List.filter_congr fun r _ => ?_
  simp only [Function.comp]
  split <;> rfl

/-- The database a payment leaves, once it has written all. -/
theorem paid_of_result {p : Payment} {userId : Option Uuid} {accounts : List Account}
    {all : List Write} (hi : PayInv db debtId d m s) (hstable : m.Stable s (s.withAccounts accounts))
    (hmet : m.row s ∈ ks) (hheld : Row.installment p.inst.id ∈ ks)
    (hrow : s.findInstallment p.inst.id = some p.inst) (hopen : p.inst.status ≠ .paid)
    (hid : p.inst.id = c.cmd.installmentId) (hdebtId : p.inst.debtId = debtId)
    (hdebt : p.debt.id = debtId) (hall : applyAll all s = p.result c.env s accounts userId)
    (contra : Contra) (direction : ObligationDirection) (next : PartialPayment) :
    (payPromise db debtId d m).Commits all ks s ∧ PaidOnce debtId c
      (.settled ⟨c.env.entryId, false⟩ contra direction next) s (applyAll all s) := by
  unfold Promise.Commits
  rw [hall]
  refine ⟨commits_payment hi hstable hdebt hheld hmet, ⟨p.entry c.env userId, rfl, rfl, ?_⟩, ?_⟩
  · exact result_journalEntries
  · refine ⟨p.inst, List.mem_filter.mpr ⟨List.mem_of_find?_eq_some hrow, ?_⟩, hid, hopen⟩
    exact decide_eq_true hdebtId

/-- The count that tells whether the debt is paid off is made under the row that payments meet
on, so that it still holds at the commit. -/
theorem settleDebt_keeps {p : Payment} {userId : Option Uuid} (hpend : m.Pending ws ks s)
    (hmet : m.row s ∈ ks) (hheld : Row.installment p.inst.id ∈ ks)
    (hrow : s.findInstallment p.inst.id = some p.inst) (hopen : p.inst.status ≠ .paid)
    (hid : p.inst.id = c.cmd.installmentId) (hdebtId : p.inst.debtId = debtId)
    (hdebt : p.debt.id = debtId) (contra : Contra) (direction : ObligationDirection)
    (next : PartialPayment) :
    (payPromise db debtId d m).Ok (fun r ws ks t => (payPromise db debtId d m).Commits ws ks t ∧
        PaidOnce debtId c r t (applyAll ws t))
      (settleDebtIfPaid p.debt.id >>= fun _ =>
        pure (.settled ⟨c.env.entryId, false⟩ contra direction next))
      (ws ++ p.writes c.env userId) ks s := by
  obtain ⟨accounts, hacc⟩ := applyAll_addsAccount hpend.1
  set B : Db → Db := fun t =>
    ((t.withAccounts accounts).withEntry (p.entry c.env userId) (p.lines c.env)).settledWith
      p.inst.id (p.columns c.env c.env.entryId) (p.settlement c.env.entryId) with hB
  have hafter : ∀ t : Db, applyAll (ws ++ p.writes c.env userId) t = B t := by
    intro t
    rw [applyAll_append, hacc]
    rfl
  -- what holds at a later moment, the commit included
  have hlater : ∀ {js : List Row} {t : Db}, ks ⊆ js → m.Rely debtId ks s t →
      m.Stable t (t.withAccounts accounts) ∧ m.row t ∈ js ∧
        t.findInstallment p.inst.id = some p.inst := by
    intro js t hsub hst
    have hstable := (hpend.stable hst hsub).stable_apply
    rw [hacc] at hstable
    exact ⟨hstable, hsub ((hst.held hmet).1 ▸ hmet), (hst.row _ hheld).trans hrow⟩
  have hcount : ∀ {t v : Db}, m.Rely debtId ks s t → m.Rely debtId ks t v →
      ((B t).outstandingOf debtId = [] ↔ (B v).outstandingOf debtId = []) := by
    intro t v hst htv
    have hrows := (htv.held ((hst.held hmet).1 ▸ hmet)).2
    refine outstandingOf_congr ?_
    simp only [hB, rowsOf_settledWith]
    exact congrArg _ hrows.symm
  unfold settleDebtIfPaid
  rw [Tx.bind_assoc]
  refine .bind (.read ?_)
  intro t ht hst u hu htu
  rw [hafter]
  unfold Tx.when
  by_cases hout : (B t).outstandingOf debtId = []
  · rw [if_pos (by rw [hdebt, hout]; rfl)]
    refine .bind (.write ?_)
    intro v hv huv w hw hvw x hx hwx
    have hsub : ks ⊆ ks ++ [Row.debt p.debt.id] := List.subset_append_left _ _
    have hsx : m.Rely debtId ks s x :=
      ((hst.trans htu).trans huv).trans ((hvw.mono hsub).trans (hwx.mono hsub))
    have htx : m.Rely debtId ks t x := (htu.trans huv).trans ((hvw.mono hsub).trans (hwx.mono hsub))
    obtain ⟨hstable, hmet, hrow⟩ := hlater hsub hsx
    have hall : applyAll (ws ++ p.writes c.env userId ++ [Write.settleDebt p.debt.id]) x =
        p.result c.env x accounts userId := by
      have hresult : p.result c.env x accounts userId = (B x).closeDebt p.debt.id := rfl
      rw [applyAll_append, hafter, hresult, Db.closeDebt, hdebt, if_pos ((hcount hst htx).mp hout)]
      rfl
    exact paid_of_result hx hstable hmet (hsub hheld) hrow hopen hid hdebtId hdebt hall _ _ _
  · rw [if_neg (by rw [hdebt, List.length_eq_zero_iff]; exact hout)]
    intro x hx hux
    obtain ⟨hstable, hmet, hrow⟩ := hlater (List.Subset.refl _) ((hst.trans htu).trans hux)
    have hall : applyAll (ws ++ p.writes c.env userId) x = p.result c.env x accounts userId := by
      have hresult : p.result c.env x accounts userId = (B x).closeDebt p.debt.id := rfl
      have hout' := mt (hcount hst (htu.trans hux)).mpr hout
      rw [hafter, hresult, Db.closeDebt, hdebt, if_neg hout']
    exact paid_of_result hx hstable hmet hheld hrow hopen hid hdebtId hdebt hall _ _ _

theorem payRow_keeps {p : Payment} (hpend : m.Pending ws ks s)
    (hmet : m.Met [p.cashAccountId, p.contra.accountId] ks s)
    (hheld : Row.installment p.inst.id ∈ ks) (hrow : s.findInstallment p.inst.id = some p.inst)
    (hopen : p.inst.status ≠ .paid) (hid : p.inst.id = c.cmd.installmentId)
    (hdebtId : p.inst.debtId = debtId) (hdebt : p.debt.id = debtId) :
    (payPromise db debtId d m).Ok (fun r ws ks t => (payPromise db debtId d m).Commits ws ks t ∧
      PaidOnce debtId c r t (applyAll ws t)) (payRow c.env p) ws ks s := by
  unfold payRow
  refine .bind (.yields (postEntry_yields c.env (p.input c.env)) ?_)
  rintro entry vs js t ht hst hends
  cases hends with
  | replayed id key => exact absurd rfl key
  | posted userId lots js onLots plain held locked =>
  obtain rfl := plain rfl rfl
  have hsub : ks ⊆ ks ++ js := List.subset_append_left _ _
  have hmet' : m.row t ∈ ks ++ js := by
    rcases hmet.stable hst (List.Subset.refl _) with hk | ⟨a, ha, hrow⟩
    · exact hsub hk
    · have hlocked : Row.account a ∈ js := by
        rcases List.mem_cons.mp ha with rfl | ha
        · exact locked p.cashLeg (by simp [Payment.input])
        · obtain rfl := List.mem_singleton.mp ha
          exact locked p.contraLeg (by simp [Payment.input])
      rw [hrow]
      exact List.mem_append_right _ hlocked
  refine .bind (.write ?_)
  intro u hu htu v hv huv
  have hsub' : ks ++ js ⊆ ks ++ js ++ [Row.installment p.inst.id] := List.subset_append_left _ _
  have htv : m.Rely debtId (ks ++ js) t v := htu.trans (huv.mono hsub')
  have hsv : m.Rely debtId ks s v := hst.trans (htv.mono hsub)
  have hwrites : ws ++ ([] ++ Write.insertEntry ((p.input c.env).entryRow c.env.entryId userId) ::
      [Write.insertPostings ((p.input c.env).postings.map (DraftPosting.row c.env.entryId))]) ++
      [Write.settleInstallment p.inst.id (p.columns c.env c.env.entryId),
        Write.noteSettlement (p.settlement c.env.entryId)] = ws ++ p.writes c.env userId := by
    simp [Payment.writes, Payment.entry, Payment.lines]
  rw [hwrites]
  have hall : ks ⊆ ks ++ js ++ [Row.installment p.inst.id] := List.Subset.trans hsub hsub'
  exact settleDebt_keeps (hpend.stable hsv hall) (hsub' ((htv.held hmet').1 ▸ hmet'))
    (hall hheld) ((hsv.row _ hheld).trans hrow) hopen hid hdebtId hdebt _ _ _

theorem payer_keeps {Q : Option Uuid → List Write → List Row → Db → Prop}
    (h : ∀ t, PayInv db debtId d m t → m.Rely debtId ks s t → Q (c.payer db) [] ks t) :
    (payPromise db debtId d m).Ok Q (resolvePlanningUserId c.env c.cmd.userId) [] ks s := by
  unfold PayCall.payer at h
  unfold resolvePlanningUserId
  cases hu : c.cmd.userId <|> c.env.currentUser with
  | some u =>
    intro t ht hst
    have := h t ht hst
    cases hc : c.cmd.userId <;> simp_all
  | none =>
    have hnone : c.cmd.userId = none ∧ c.env.currentUser = none := by
      cases hc : c.cmd.userId <;> simp_all
    refine .bind (.read ?_)
    intro t ht hst u hu htu
    have husers : (applyAll [] t : Db).users = db.users := ht.users
    have hq : ∀ v, PayInv db debtId d m v → m.Rely debtId ks u v →
        Q (match db.users.take 2 with | [u] => some u | _ => none) [] ks v := by
      intro v hv huv
      simpa [hnone] using h v hv ((hst.trans htu).trans huv)
    rw [husers]
    split
    · rename_i w hw
      rw [hw] at hq
      exact hq
    · rename_i hw
      rw [hw] at hq
      exact .bind (.require fun _ v hv huv => fun x hx hvx => hq x hx (huv.trans hvx))
    · trivial

/-- The rows of the debt are the same rows in every state. -/
theorem PayInv.row_debtId (hids : (db.installments.map (·.id)).Nodup) (hon : c.On debtId db)
    (h : PayInv db debtId d m s) {i : Installment}
    (hi : s.findInstallment c.cmd.installmentId = some i) : i.debtId = debtId := by
  obtain ⟨j, hj, hjid⟩ := hon
  obtain ⟨hj, hjd⟩ := List.mem_filter.mp hj
  have hid : i.id = c.cmd.installmentId := by simpa using List.find?_some hi
  have hmem : (i.id, i.debtId) ∈ db.installments.map fun i => (i.id, i.debtId) :=
    h.rows ▸ List.mem_map_of_mem (List.mem_of_find?_eq_some hi)
  obtain ⟨k, hk, heq⟩ := List.mem_map.mp hmem
  obtain ⟨hkid, hkd⟩ := Prod.mk.inj heq
  obtain rfl := List.inj_on_of_nodup_map hids hk hj (hkid.trans (hid.trans hjid.symm))
  exact hkd.symm.trans (of_decide_eq_true hjd)

theorem Meeting.pending_nil (m : Meeting) (ks : List Row) (t : Db) : m.Pending [] ks t :=
  ⟨by simp, .inl fun s => ⟨m.refl s, rfl⟩⟩

/-- A payment that found nothing left. -/
theorem alreadyPaid_keeps {entryId : Option Uuid} (hp : m.Pending ws ks s) :
    (payPromise db debtId d m).Ok (fun r ws ks t => (payPromise db debtId d m).Commits ws ks t ∧
      PaidOnce debtId c r t (applyAll ws t)) (pure (.alreadyPaid entryId) : Sql PayResult) ws ks s :=
  fun _ ht hst => commits_provision ht (hp.stable hst (List.Subset.refl _))

/-- The counter-leg of the payment leads to a row that the payments meet on. -/
def ContraMeets (db : Db) (debtId : Uuid) (d : Debt) (m : Meeting) (c : PayCall) : Prop :=
  ∀ debt : Debt, debt.accountId = d.accountId → debt.direction = d.direction → ∀ ks s,
    PayInv db debtId d m s → (payPromise db debtId d m).Ok (fun contra ws ks t =>
      m.Pending ws ks t ∧ m.Met [c.cmd.cashAccountId, contra.accountId] ks t)
        (resolveContra c.env (c.payer db) debt) [] ks s

theorem payInstallment_keeps (hids : (db.installments.map (·.id)).Nodup) (hon : c.On debtId db)
    (hmeets : ContraMeets db debtId d m c) : (payPromise db debtId d m).Ok
      (fun r ws ks t => (payPromise db debtId d m).Commits ws ks t ∧
        PaidOnce debtId c r t (applyAll ws t)) (payInstallment c.env c.cmd) [] [] s := by
  unfold payInstallment
  refine .bind (payer_keeps ?_)
  intro t₀ _ _
  refine .bind (.lock ?_)
  intro t₁ _ _ t₂ _ _
  refine .bind (.read ?_)
  intro t ht hst u hu htu
  have hheld : Row.installment c.cmd.installmentId ∈
      [] ++ [Row.installment c.cmd.installmentId] := by simp
  have hview : (applyAll [] t : Db).payableRow (c.payer db) c.cmd.installmentId =
      t.payableRow (c.payer db) c.cmd.installmentId := rfl
  rw [hview]
  cases hrow : t.payableRow (c.payer db) c.cmd.installmentId with
  | none => trivial
  | some found =>
  obtain ⟨inst, debt⟩ := found
  obtain ⟨i, hi, hfound⟩ := Option.bind_eq_some_iff.mp hrow
  obtain ⟨e, he, heq⟩ := Option.map_eq_some_iff.mp hfound
  obtain ⟨rfl, rfl⟩ := Prod.mk.inj heq
  obtain ⟨he, -⟩ := Option.filter_eq_some_iff.mp he
  have hdebtId : i.debtId = debtId := ht.row_debtId hids hon hi
  rw [hdebtId] at he
  have hid : i.id = c.cmd.installmentId := by simpa using List.find?_some hi
  have hedebt : e.id = debtId := by simpa using List.find?_some he
  obtain ⟨e', he', hacc, hdir, -⟩ := ht.debt
  obtain rfl := Option.some.inj (he.symm.trans he')
  simp only
  by_cases hpaid : i.status = .paid
  · rw [if_pos hpaid]
    exact alreadyPaid_keeps (m.pending_nil _ _)
  rw [if_neg hpaid, resolve_eq, Tx.bind_assoc]
  refine .bind ((hmeets e hacc hdir _ u hu).frame.mono ?_)
  rintro contra ws js v hv ⟨⟨hpend, hmet⟩, hsub, huv⟩
  refine .bind (.yields (amounts_yields _ _ _ _ _) ?_)
  rintro result _ _ w hw hvw ⟨rfl, rfl, hfits⟩
  rw [List.append_nil, List.append_nil]
  cases result with
  | none => exact alreadyPaid_keeps (hpend.stable hvw (List.Subset.refl _))
  | some p =>
    obtain ⟨-, hcash, rfl, rfl, rfl, -⟩ := hfits p rfl
    have hfoundw : w.findInstallment c.cmd.installmentId = some p.inst :=
      ((hvw.row _ (hsub hheld)).trans ((htu.trans huv).row _ hheld)).trans hi
    rw [← hcash] at hmet
    refine payRow_keeps (hpend.stable hvw (List.Subset.refl _))
      (hmet.stable hvw (List.Subset.refl _)) (hid ▸ hsub hheld) ?_ hpaid hid hdebtId hedebt
    rw [hid]
    exact hfoundw

theorem program_honours (hids : (db.installments.map (·.id)).Nodup) (hon : c.On debtId db)
    (hmeets : ContraMeets db debtId d m c) : (payPromise db debtId d m).Honours
      (fun r ws _ t => PaidOnce debtId r.1 r.2 t (applyAll ws t)) c.program :=
  fun _ _ => .map (payInstallment_keeps hids hon hmeets)

end Program

/-! ## Where payments meet -/

/-- An account they all name. -/
def Meeting.account (a : Uuid) : Meeting where
  row := fun _ => .account a
  Stable := fun _ _ => True
  refl := fun _ => trivial
  trans := fun _ _ => trivial
  kept := fun _ h => h
  row_congr := fun _ => rfl
  stable_congr := fun _ _ => trivial

/-- A bucket they all find, so that nobody adds one. -/
def Meeting.bucket (b : Uuid) : Meeting where
  row := fun _ => .account b
  Stable := fun s t => s.accounts = t.accounts
  refl := fun _ => rfl
  trans := Eq.trans
  kept := fun _ h => h
  row_congr := fun _ => rfl
  stable_congr := fun h hs => hs.trans h

/-- The bucket of one tenant; before there is one, the right to add it. -/
def Meeting.tenant (code : String) (u : Uuid) : Meeting where
  row := fun s => match s.systemAccount code (some u) with
    | some b => .account b.id
    | none => .accountCode u code
  Stable := fun s t => (s.sharedAccount code = none → t.sharedAccount code = none) ∧
    ∀ b, s.systemAccount code (some u) = some b → t.systemAccount code (some u) = some b
  refl := fun _ => ⟨id, fun _ => id⟩
  trans := fun h h' => ⟨fun hs => h'.1 (h.1 hs), fun b hb => h'.2 b (h.2 b hb)⟩
  kept := by
    intro s t a h hrow
    cases hs : s.systemAccount code (some u) with
    | none => rw [hs] at hrow; cases hrow
    | some b => rw [h.2 b hs]; rwa [hs] at hrow
  row_congr := by
    intro s t h
    unfold Db.systemAccount Db.ownAccount Db.sharedAccount Db.oldestAccount
    rw [h]
  stable_congr := by
    intro s t t' h
    unfold Db.systemAccount Db.ownAccount Db.sharedAccount Db.oldestAccount
    rw [h]
    exact id

section Meets
variable {db : Db} {debtId : Uuid} {d : Debt} {m : Meeting} {ks : List Row} {s : Db}
  {c : PayCall}

theorem meets_account {a : Uuid} (h : d.accountId = some a ∨ c.cmd.cashAccountId = a) :
    ContraMeets db debtId d (.account a) c := by
  intro debt hacc _ ks s _
  have hpending : ∀ ws ks t, (∀ w ∈ ws, Write.AddsAccount w) → (Meeting.account a).Pending ws ks t :=
    fun ws ks t hws => ⟨hws, .inl fun _ => ⟨trivial, rfl⟩⟩
  rcases h with h | h
  · have hcontra : resolveContra c.env (c.payer db) debt = .done ⟨a, none⟩ := by
      unfold resolveContra
      rw [hacc, h]
      rfl
    rw [hcontra]
    exact fun t _ _ => ⟨hpending _ _ _ (by simp), .inr ⟨a, by simp, rfl⟩⟩
  · refine .yields ((resolveContra_adds _ _ _).yields (by simp)) ?_
    intro contra ws js t _ _ hws
    refine ⟨hpending _ _ _ fun w hw => ?_, .inr ⟨a, by simp [h], rfl⟩⟩
    obtain ⟨b, -, rfl⟩ := hws w hw
    exact ⟨b, rfl⟩

/-- What a look-up of a system account finds, if commits keep what there is. -/
theorem resolveSystemAccount_keeps {code : String} {userId : Option Uuid}
    {Q : Option Account → List Write → List Row → Db → Prop}
    (hmono : ∀ s t, m.Stable s t → (s.sharedAccount code = none → t.sharedAccount code = none) ∧
      ∀ b, s.systemAccount code userId = some b → t.systemAccount code userId = some b)
    (hsome : ∀ t b, PayInv db debtId d m t → m.Rely debtId ks s t →
      t.systemAccount code userId = some b → Q (some b) [] ks t)
    (hnone : ∀ r t, PayInv db debtId d m r → r.ownAccount code userId = none →
      PayInv db debtId d m t → m.Rely debtId ks s t → t.sharedAccount code = none →
        Q none [] ks t) :
    (payPromise db debtId d m).Ok Q (resolveSystemAccount code userId) [] ks s := by
  unfold resolveSystemAccount
  refine .bind (.read ?_)
  intro r hr hsr t _ hrt
  have hown : (userId.bind fun u => (applyAll [] r : Db).oldestAccount fun a =>
      a.code = code ∧ a.userId = some u ∧ !a.deleted) = r.ownAccount code userId := rfl
  rw [hown]
  cases ho : r.ownAccount code userId with
  | some b =>
    intro v hv htv
    exact hsome v b hv ((hsr.trans hrt).trans htv)
      ((hmono _ _ (hrt.trans htv).stable).2 b (systemAccount_of_own ho))
  | none =>
    refine .read ?_
    intro u hu htu v hv huv
    have hsv := ((hsr.trans hrt).trans htu).trans huv
    have hshared : (applyAll [] u : Db).oldestAccount (fun a =>
      a.code = code ∧ a.userId = none ∧ !a.deleted) = u.sharedAccount code := rfl
    rw [hshared]
    cases hc : u.sharedAccount code with
    | none => exact hnone r v hr ho hv hsv ((hmono _ _ huv.stable).1 hc)
    | some b =>
      -- a shared account found now was there before, when the tenant had no own one
      cases hc' : r.sharedAccount code with
      | none =>
        rw [(hmono _ _ (hrt.trans htu).stable).1 hc'] at hc
        cases hc
      | some b' =>
        have hu := (hmono _ _ (hrt.trans htu).stable).2 b' ((systemAccount_of_shared ho).trans hc')
        have hown : u.ownAccount code userId = none := by
          cases hou : u.ownAccount code userId with
          | none => rfl
          | some o =>
            rw [systemAccount_of_own hou] at hu
            exact absurd hc' (Option.some.inj hu ▸ own_ne_shared hou)
        rw [systemAccount_of_shared hown, hc] at hu
        exact hsome v b hv hsv ((hmono _ _ huv.stable).2 b ((systemAccount_of_shared hown).trans hc))

theorem ensureBucket_eq (env : Env) (userId : Option Uuid) (direction : String) : ∃ name,
    ensureBucket env userId direction =
      ensureSystemAccount env (bucketCode direction) name (bucketType direction) userId := by
  unfold ensureBucket bucketCode bucketType
  split
  · exact ⟨_, rfl⟩
  · exact ⟨_, rfl⟩

theorem systemAccount_congr {s t : Db} (h : s.accounts = t.accounts) (code : String)
    (userId : Option Uuid) : s.systemAccount code userId = t.systemAccount code userId ∧
      s.sharedAccount code = t.sharedAccount code ∧
      s.ownAccount code userId = t.ownAccount code userId := by
  unfold Db.systemAccount Db.ownAccount Db.sharedAccount Db.oldestAccount
  rw [h]
  exact ⟨rfl, rfl, rfl⟩

/-- The counter-leg of a debt without an account is the bucket. -/
theorem resolveContra_bucket {debt : Debt} (hacc : debt.accountId = none) (env : Env)
    (userId : Option Uuid) : ∃ name text, resolveContra env userId debt =
      (ensureSystemAccount env (bucketCode debt.direction) name (bucketType debt.direction) userId >>=
        fun found => match found with
          | some bucket => pure ⟨bucket.id, some bucket.name⟩
          | none => .fail (.contraMissing text)) := by
  obtain ⟨name, heq⟩ := ensureBucket_eq env userId debt.direction
  refine ⟨name, if isReceivable debt.direction then collectionMissing else repaymentMissing, ?_⟩
  unfold resolveContra
  rewrite [hacc, ← heq]
  rfl

theorem meets_bucket {b : Account} (hd : d.accountId = none)
    (h : db.systemAccount (bucketCode d.direction) (c.payer db) = some b) :
    ContraMeets db debtId d (.bucket b.id) c := by
  intro debt hacc hdir ks s _
  obtain ⟨name, text, heq⟩ := resolveContra_bucket (hacc.trans hd) c.env (c.payer db)
  rw [heq, hdir]
  unfold ensureSystemAccount
  refine .bind (.bind (resolveSystemAccount_keeps (fun s t hst => ?_) ?_ ?_))
  · obtain ⟨hsys, hshared, -⟩ := systemAccount_congr hst (bucketCode d.direction) (c.payer db)
    rw [hsys, hshared]
    exact ⟨id, fun _ => id⟩
  · intro t b' ht hst hb'
    obtain ⟨hsys, -⟩ := systemAccount_congr ht.stable (bucketCode d.direction) (c.payer db)
    rw [hsys, hb'] at h
    obtain rfl := Option.some.inj h
    intro u _ _ v _ _
    exact ⟨(Meeting.bucket b'.id).pending_nil _ _, .inr ⟨b'.id, by simp, rfl⟩⟩
  · intro r t hr hown ht _ hshared
    obtain ⟨-, -, hown'⟩ := systemAccount_congr hr.stable (bucketCode d.direction) (c.payer db)
    obtain ⟨-, hshared', -⟩ := systemAccount_congr ht.stable (bucketCode d.direction) (c.payer db)
    rw [systemAccount_of_shared (hown'.trans hown), hshared', hshared] at h
    cases h

/-- A new own account of the tenant is where the look-up finds none. -/
theorem tenant_pending {code : String} {u : Uuid} {a : Account} {t : Db}
    (hcode : a.userId = some u) (hnone : t.systemAccount code (some u) = none)
    (hheld : Row.accountCode u code ∈ ks) :
    (Meeting.tenant code u).Pending [.insertAccount a] ks t := by
  have hrow : (Meeting.tenant code u).row t = .accountCode u code := by
    simp only [Meeting.tenant, hnone]
  refine ⟨by simp [Write.AddsAccount], .inr ⟨hrow ▸ hheld, fun s hs => ?_⟩⟩
  have hsnone : s.systemAccount code (some u) = none := by
    rw [hrow] at hs
    simp only [Meeting.tenant] at hs
    cases hc : s.systemAccount code (some u) with
    | none => rfl
    | some b => rw [hc] at hs; cases hs
  refine ⟨fun hshared => ?_, fun b hb => by rw [hsnone] at hb; cases hb⟩
  have hsame : (applyAll [.insertAccount a] s : Db).accounts.filter
      (fun a => a.code = code ∧ a.userId = none ∧ !a.deleted) =
        s.accounts.filter fun a => a.code = code ∧ a.userId = none ∧ !a.deleted := by
    have happ : (applyAll [.insertAccount a] s : Db).accounts = s.accounts ++ [a] := rfl
    rw [happ, List.filter_append]
    simp [hcode]
  unfold Db.sharedAccount Db.oldestAccount at *
  rw [hsame]
  exact hshared

theorem meets_tenant {u : Uuid} (hd : d.accountId = none) (h : c.payer db = some u) :
    ContraMeets db debtId d (.tenant (bucketCode d.direction) u) c := by
  set code := bucketCode d.direction with hcode
  have hmono : ∀ s t, (Meeting.tenant code u).Stable s t →
      (s.sharedAccount code = none → t.sharedAccount code = none) ∧
        ∀ b, s.systemAccount code (some u) = some b → t.systemAccount code (some u) = some b :=
    fun _ _ h => h
  -- a bucket that the look-up finds
  have hfound : ∀ (b : Account) (ks : List Row) (t : Db), t.systemAccount code (some u) = some b →
      ∀ v, (Meeting.tenant code u).Rely debtId ks t v →
        (Meeting.tenant code u).Pending [] ks v ∧
          (Meeting.tenant code u).Met [c.cmd.cashAccountId, b.id] ks v := by
    intro b ks t hb v htv
    have hv := (hmono _ _ htv.stable).2 b hb
    exact ⟨Meeting.pending_nil _ _ _, .inr ⟨b.id, by simp, by simp only [Meeting.tenant, hv]⟩⟩
  intro debt hacc hdir ks s _
  obtain ⟨name, text, heq⟩ := resolveContra_bucket (hacc.trans hd) c.env (c.payer db)
  rw [heq, hdir, ← hcode, h]
  unfold ensureSystemAccount
  refine .bind (.bind (resolveSystemAccount_keeps hmono ?_ ?_))
  · intro t b _ _ hb v hv htv w _ hvw
    exact hfound b _ t hb w (htv.trans hvw)
  intro _ t₁ _ _ _ _ hshared
  refine .bind (.of_readOnly readOnly_findBaseAssetId ?_)
  intro base t₂ _ h₁₂
  have hshared₂ := (hmono _ _ h₁₂.stable).1 hshared
  refine .bind ?_
  intro t₃ _ h₂₃ _
  have hshared₃ := (hmono _ _ h₂₃.stable).1 hshared₂
  dsimp only
  by_cases htaken : t₃.CodeTaken (some u) code
  · -- somebody else has added one: it is found now
    have htaken' : (applyAll [] t₃ : Db).CodeTaken (some u) code := htaken
    rw [if_pos htaken', if_pos (.inl htaken'), List.append_nil]
    intro t₄ _ _
    refine resolveSystemAccount_keeps hmono ?_ ?_
    · exact fun t b _ _ hb v _ htv => hfound b _ t hb v htv
    · exact fun _ _ _ _ _ _ _ => trivial
  have htaken' : ¬ (applyAll [] t₃ : Db).CodeTaken (some u) code := htaken
  rw [if_neg htaken']
  by_cases hid : ∃ b ∈ (applyAll [] t₃ : Db).accounts, b.id = c.env.accountId
  · rw [if_pos hid]
    trivial
  rw [if_neg (not_or.mpr ⟨htaken', hid⟩), if_neg hid]
  have hnone : t₃.systemAccount code (some u) = none := by
    rw [systemAccount_of_shared, hshared₃]
    cases ho : t₃.ownAccount code (some u) with
    | none => rfl
    | some o =>
      obtain ⟨hmem, hp⟩ := oldestAccount_spec ho
      simp only [decide_eq_true_eq] at hp
      exact absurd ⟨rfl, o, hmem, hp.2.1, hp.1⟩ htaken
  set js := ks ++ (Row.account c.env.accountId ::
    ((some u).map (Row.accountCode · code)).toList) with hjs
  have hheld : Row.accountCode u code ∈ js := by simp [hjs]
  have hmet : (Meeting.tenant code u).Met [c.cmd.cashAccountId, c.env.accountId] js t₃ := by
    refine .inl ?_
    simp only [Meeting.tenant, hnone]
    exact hheld
  intro t₄ _ h₃₄ t₅ _ h₄₅ t₆ _ h₅₆
  have h₃₆ : (Meeting.tenant code u).Rely debtId js t₃ t₆ := (h₃₄.trans h₄₅).trans h₅₆
  exact ⟨(tenant_pending rfl hnone hheld).stable h₃₆ (List.Subset.refl _),
    hmet.stable h₃₆ (List.Subset.refl _)⟩

end Meets

/-! ## Payments at once -/

/-- A debt with its rows, settled if they are all paid. -/
structure Db.Payable (db : Db) (debtId : Uuid) (d : Debt) : Prop where
  ids : (db.installments.map (·.id)).Nodup
  debt : db.findDebt debtId = some d
  settled : (∀ i ∈ db.rowsOf debtId, i.status = .paid) → d.status = .settled

theorem Db.SharesAccount.meeting {db : Db} {debtId : Uuid} {d : Debt} {calls : PayCall → Prop}
    (h : db.SharesAccount d calls) :
    ∃ m : Meeting, ∀ c, calls c → ContraMeets db debtId d m c := by
  cases hacc : d.accountId with
  | some a => exact ⟨.account a, fun c _ => meets_account (.inl hacc)⟩
  | none =>
    rcases h with h | ⟨a, ha⟩ | ⟨b, hb⟩ | ⟨u, hu⟩
    · rw [hacc] at h
      cases h
    · exact ⟨.account a, fun c hc => meets_account (.inr (ha c hc))⟩
    · exact ⟨.bucket b.id, fun c hc => meets_bucket hacc (hb c hc)⟩
    · exact ⟨.tenant _ u, fun c hc => meets_tenant hacc (hu c hc)⟩

/-- Payments that share an account settle the debt with its last row, in every interleaving;
each posts one entry for a row that is open, or none. -/
theorem payments_settle {db : Db} {debtId : Uuid} {d : Debt} {calls : PayCall → Prop}
    (hdb : db.Payable debtId d) (hon : ∀ c, calls c → c.On debtId db)
    (hshare : db.SharesAccount d calls) {sys : System Db Write Row Assumption AppError _}
    (h : System.Reaches (fun p => ∃ c, calls c ∧ p = c.program) (fun _ => False) db sys) :
    ((∀ i ∈ sys.committed.rowsOf debtId, i.status = .paid) →
      ∃ e, sys.committed.findDebt debtId = some e ∧ e.status = .settled) ∧
    ∀ k c r ws ks, sys.sessions k = some ⟨.done (c, r), ws, ks⟩ →
      PaidOnce debtId c r sys.committed (applyAll ws sys.committed) := by
  obtain ⟨m, hm⟩ : ∃ m : Meeting, ∀ c, calls c → ContraMeets db debtId d m c := hshare.meeting
  have hinit : PayInv db debtId d m db :=
    ⟨rfl, rfl, ⟨d, hdb.debt, rfl, rfl, hdb.settled⟩, m.refl _⟩
  have hsafe : System.Safe (payPromise db debtId d m)
      (fun r ws _ t => PaidOnce debtId r.1 r.2 t (applyAll ws t)) sys := by
    refine System.Reaches.safe hinit ?_ h
    rintro _ ⟨c, hc, rfl⟩
    exact program_honours hdb.ids (hon c hc) (hm c hc)
  obtain ⟨e, he, -, -, hsettled⟩ := hsafe.inv.debt
  exact ⟨fun hpaid => ⟨e, he, hsettled hpaid⟩, fun k c r ws ks hk => hsafe.ends hk⟩

/-! ## Two payers -/

/-- A debt of nobody's, with an account to pay from and a bucket for each of two users. -/
def sharedDebt : Db :=
  { demoDebt with
    users := [1, 2]
    accounts := demoDebt.accounts ++ [
      ⟨18, 0, some 1, "5960", "پرداخت اقساط", .expense, some 1, false⟩,
      ⟨21, 0, some 2, "1020", "بانک", .asset, some 2, false⟩,
      ⟨28, 0, some 2, "5960", "پرداخت اقساط", .expense, some 1, false⟩]
    userFxSettings := [⟨1, .ofInt 100000⟩, ⟨2, .ofInt 100000⟩]
    debts := [{ id := 1, userId := none, title := "وام" }] }

/-- What is left of a row, paid by its user. -/
def sharedPay (entryId row u : Uuid) : PayCall :=
  ⟨{ entryId },
    { installmentId := row, cashAccountId := if u = 1 then 11 else 21, userId := some u }⟩

def AllPaid (db : Db) : Bool := ∀ i ∈ db.rowsOf 1, i.status = .paid

def PaidNotSettled (db : Db) : Bool :=
  AllPaid db && (db.findDebt 1).map (·.status) = some .active

/-- One payment after the other, where the second waits for the first. -/
def inTurn (p q : Sql (PayCall × PayResult)) :
    List (Move Db Write Row Assumption AppError (PayCall × PayResult)) :=
  [Move.begin 0 p, Move.begin 1 q] ++ List.replicate 17 (Move.go 0) ++ [Move.commit 0] ++
    List.replicate 18 (Move.go 1) ++ [Move.commit 1]

/-- Both payments run to their end before either commits. -/
def atOnce (p q : Sql (PayCall × PayResult)) :
    List (Move Db Write Row Assumption AppError (PayCall × PayResult)) :=
  [Move.begin 0 p, Move.begin 1 q] ++ List.replicate 17 (Move.go 0) ++
    List.replicate 17 (Move.go 1) ++ [Move.commit 0, Move.commit 1]

theorem begun_inTurn (p q : Sql (PayCall × PayResult)) : Board.begun (inTurn p q) = [p, q] := rfl

theorem begun_atOnce (p q : Sql (PayCall × PayResult)) : Board.begun (atOnce p q) = [p, q] := rfl

theorem one_payer_settles : ∃ sys : System Db Write Row Assumption AppError _,
    System.Reaches (fun p => ∃ c, (∃ e r, c = sharedPay e r 1 ∧ r ∈ [1, 2]) ∧ p = c.program)
      (fun _ => False) sharedDebt sys ∧
      ∃ e, sys.committed.findDebt 1 = some e ∧ e.status = .settled := by
  have hdb : sharedDebt.Payable 1 { id := 1, userId := none, title := "وام" } :=
    ⟨by decide, rfl, by decide⟩
  have hon : ∀ c, (∃ e r, c = sharedPay e r 1 ∧ r ∈ [1, 2]) → c.On 1 sharedDebt := by
    rintro _ ⟨e, r, rfl, hr⟩
    have hrows : ∀ r ∈ [1, 2], ∃ i ∈ sharedDebt.rowsOf 1, i.id = r := by decide
    exact hrows r hr
  have hrun : ((Board.idle 2 sharedDebt).replay
      (inTurn (sharedPay 1 1 1).program (sharedPay 2 2 1).program)).any
      (fun b => AllPaid b.committed) = true := by decide
  have hbegun : ∀ p ∈ Board.begun (inTurn (sharedPay 1 1 1).program (sharedPay 2 2 1).program),
      ∃ c, (∃ e r, c = sharedPay e r 1 ∧ r ∈ [1, 2]) ∧ p = c.program := by
    rw [begun_inTurn]
    intro p hp
    rcases List.mem_pair.mp hp with rfl | rfl
    · exact ⟨_, ⟨1, 1, rfl, by decide⟩, rfl⟩
    · exact ⟨_, ⟨2, 2, rfl, by decide⟩, rfl⟩
  obtain ⟨sys, hreach, hpaid⟩ := Board.exists_reaches hbegun hrun
  refine ⟨sys, hreach, (payments_settle hdb hon ?_ hreach).1 (of_decide_eq_true hpaid)⟩
  refine .inr (.inl ⟨11, ?_⟩)
  rintro _ ⟨e, r, rfl, -⟩
  rfl

/-- Two users pay a row each at once: neither payment sees the other's row as paid, and no
row is locked by both. -/
theorem two_payers_leave_debt_open : ∃ sys : System Db Write Row Assumption AppError _,
    System.Reaches (fun p => ∃ e r u, p = (sharedPay e r u).program) (fun _ => False)
      sharedDebt sys ∧ (∀ i ∈ sys.committed.rowsOf 1, i.status = .paid) ∧
      (sys.committed.findDebt 1).map (·.status) = some .active := by
  have hrun : ((Board.idle 2 sharedDebt).replay
      (atOnce (sharedPay 1 1 1).program (sharedPay 2 2 2).program)).any
      (fun b => PaidNotSettled b.committed) = true := by decide
  have hbegun : ∀ p ∈ Board.begun (atOnce (sharedPay 1 1 1).program (sharedPay 2 2 2).program),
      ∃ e r u, p = (sharedPay e r u).program := by
    rw [begun_atOnce]
    intro p hp
    rcases List.mem_pair.mp hp with rfl | rfl
    · exact ⟨1, 1, 1, rfl⟩
    · exact ⟨2, 2, 2, rfl⟩
  obtain ⟨sys, hreach, hcheck⟩ := Board.exists_reaches hbegun hrun
  obtain ⟨hpaid, hactive⟩ := Bool.and_eq_true_iff.mp hcheck
  exact ⟨sys, hreach, of_decide_eq_true hpaid, of_decide_eq_true hactive⟩

end Pwos
