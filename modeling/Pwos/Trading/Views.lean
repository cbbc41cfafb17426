import Pwos.Trading.Marks

/-!
# The two views of a margin account

The list of trading accounts takes the mark that was recorded last, the valuation the one with the
latest day. They show one value in every run in which no mark is recorded under an earlier day
(`views_agree`), unless it has the open gain of the mark it does not replace.
-/

namespace Pwos

/-- What the open positions of the day add to the account. -/
def Db.openPnl (userId : Uuid) (asOf : IsoDate) (accountId : Uuid) (db : Db) : Decimal :=
  (((db.openPositionMarks userId asOf).filter (·.accountId = accountId)).map
    (·.unrealizedPnl)).sum

/-- On every day that no mark is after, an account is listed with its posted balance and what its
open positions add to it. -/
def ViewsAgree (rules : TradingRules) (db : Db) : Prop :=
  ∀ userId today, (∀ m ∈ db.tradingMarks, m.asOf ≤ today) →
    ∀ a ∈ db.listTradingAccounts rules userId,
      a.accountValue = db.postedQuantity a.accountId + db.openPnl userId today a.accountId

/-! ## Runs -/

structure TradingState where
  now : Nat
  db : Db

inductive TradingOp where
  /-- A call, some time after the one before. -/
  | mark (wait : Nat) (env : Env) (rules : TradingRules) (userId accountId : Uuid)
    (input : MarkInput)
  /-- Anything else: whatever the database is then, its marks are what they were. -/
  | other (db : Db)

def Env.at (env : Env) (now : Nat) : Env := { env with now }

def TradingOp.exec : TradingOp → TradingState → TradingState
  | .mark wait env rules userId accountId input, s =>
    let now := s.now + wait + 1
    { now, db := (recordTradingMark (env.at now) rules userId accountId input).exec s.db }
  | .other db, s => { s with db := { db with tradingMarks := s.db.tradingMarks } }

/-- If the call is accepted, no mark of the account has a later day, or the one with the latest
has the same open gain. -/
def TradingOp.InOrder : TradingOp → TradingState → Prop
  | .mark wait env rules userId accountId input, s =>
    ((recordTradingMark (env.at (s.now + wait + 1)) rules userId accountId input).refusal
        s.db).isNone →
      ∀ m ∈ firstBy TradingMark.later (s.db.marksOf userId accountId), input.day env < m.asOf →
        input.unrealizedPnl = m.unrealizedPnl
  | .other _, _ => True

instance : ∀ (op : TradingOp) (s : TradingState), Decidable (op.InOrder s)
  | .mark _ _ _ _ _ _, _ => inferInstanceAs (Decidable (_ → ∀ m ∈ _, _ → _))
  | .other _, _ => isTrue trivial

/-- Marks are in the order of their times, and the last has the open gain of the latest day. -/
structure MarkHistory (s : TradingState) : Prop where
  times : s.db.tradingMarks.Pairwise fun a b => a.createdAt < b.createdAt
  past : ∀ m ∈ s.db.tradingMarks, m.createdAt ≤ s.now
  agree : ∀ userId accountId,
    (firstBy TradingMark.newer (s.db.marksOf userId accountId)).map (·.unrealizedPnl) =
      (firstBy TradingMark.later (s.db.marksOf userId accountId)).map (·.unrealizedPnl)

instance : Std.Total TradingMark.newer := ⟨fun a b => Nat.le_total b.createdAt a.createdAt⟩
instance : IsTrans TradingMark TradingMark.newer := ⟨fun _ _ _ h h' => Nat.le_trans h' h⟩

instance : Std.Total TradingMark.later where
  total a b := by
    unfold TradingMark.later
    have := Nat.lt_trichotomy a.asOf b.asOf
    have := Nat.le_total a.createdAt b.createdAt
    grind

instance : IsTrans TradingMark TradingMark.later where
  trans a b c := by
    unfold TradingMark.later
    have := @Nat.lt_trans c.asOf b.asOf a.asOf
    have := @Nat.le_trans c.createdAt b.createdAt a.createdAt
    grind

section History
variable {s : TradingState} {rows : List TradingMark} {m l : TradingMark} {db : Db}

theorem createdAt_nodup (h : rows.Pairwise fun a b => a.createdAt < b.createdAt) :
    (rows.map (·.createdAt)).Nodup :=
  List.pairwise_map.mpr (h.imp fun hlt => Nat.ne_of_lt hlt)

theorem later_apart (h : rows.Pairwise fun a b => a.createdAt < b.createdAt) :
    ∀ a ∈ rows, ∀ b ∈ rows, a.later b → b.later a → a = b := by
  intro a ha b hb hab hba
  refine List.inj_on_of_nodup_map (createdAt_nodup h) ha hb ?_
  unfold TradingMark.later at hab hba
  rcases hab with hab | ⟨heq, hab⟩
  · rcases hba with hba | ⟨heq, -⟩
    · exact absurd hab (Nat.lt_asymm hba)
    · exact absurd heq (Nat.ne_of_lt hab)
  · rcases hba with hba | ⟨-, hba⟩
    · exact absurd heq (Nat.ne_of_lt hba)
    · exact Nat.le_antisymm hba hab

theorem marksOf_append (userId accountId : Uuid) (hmarks : db.tradingMarks = rows ++ [m]) :
    db.marksOf userId accountId =
      rows.filter (fun m => m.userId = userId ∧ m.accountId = accountId) ++
        if m.userId = userId ∧ m.accountId = accountId then [m] else [] := by
  rw [Db.marksOf, hmarks, List.filter_append, List.filter_singleton]
  congr 1
  by_cases hm : m.userId = userId ∧ m.accountId = accountId <;> simp [hm]

/-- A new mark is the last one, and it is the one of the latest day or leaves that one. -/
theorem MarkHistory.record (h : MarkHistory s) {now : Nat} (hnow : s.now < now)
    (hmarks : db.tradingMarks = s.db.tradingMarks ++ [m]) (htime : m.createdAt = now)
    (horder : ∀ l ∈ firstBy TradingMark.later (s.db.marksOf m.userId m.accountId), m.asOf < l.asOf →
      m.unrealizedPnl = l.unrealizedPnl) : MarkHistory ⟨now, db⟩ := by
  have hfresh : ∀ b ∈ s.db.tradingMarks, b.createdAt < m.createdAt := by
    intro b hb
    have := h.past b hb
    omega
  refine ⟨?_, ?_, fun userId accountId => ?_⟩
  · rw [hmarks]
    exact List.pairwise_append.mpr ⟨h.times, List.pairwise_singleton _ _, by simpa using hfresh⟩
  · intro b hb
    rw [hmarks] at hb
    rcases List.mem_append.mp hb with hb | hb
    · have := h.past b hb
      simp only
      omega
    · rw [List.mem_singleton.mp hb, htime]
  · rw [marksOf_append userId accountId hmarks]
    by_cases hm : m.userId = userId ∧ m.accountId = accountId
    swap
    · rw [if_neg hm, List.append_nil]
      exact h.agree userId accountId
    obtain ⟨rfl, rfl⟩ := hm
    simp only [and_self, if_true]
    change (firstBy _ (s.db.marksOf m.userId m.accountId ++ [m])).map _ =
      (firstBy _ (s.db.marksOf m.userId m.accountId ++ [m])).map _
    have hrows : ∀ b ∈ s.db.marksOf m.userId m.accountId, b.createdAt < m.createdAt := fun b hb =>
      hfresh b (List.mem_of_mem_filter hb)
    have hnewest : firstBy TradingMark.newer (s.db.marksOf m.userId m.accountId ++ [m]) = some m :=
      firstBy_concat_new fun b hb hbm => by
        have := hrows b hb
        unfold TradingMark.newer at hbm
        omega
    rw [hnewest]
    by_cases hlatest : ∀ b ∈ s.db.marksOf m.userId m.accountId, b.asOf ≤ m.asOf
    · rw [firstBy_concat_new fun b hb hbm => ?_]
      unfold TradingMark.later at hbm
      rcases hbm with hbm | ⟨-, hbm⟩
      · exact absurd (hlatest b hb) (Nat.not_le_of_lt hbm)
      · exact absurd (hrows b hb) (Nat.not_lt_of_le hbm)
    · push Not at hlatest
      obtain ⟨b, hb, hlt⟩ := hlatest
      obtain ⟨l, hl⟩ : ∃ l, firstBy TradingMark.later (s.db.marksOf m.userId m.accountId) = some l := by
        refine Option.ne_none_iff_exists'.mp fun hnone => ?_
        rw [firstBy_eq_none_iff.mp hnone] at hb
        cases hb
      have hlb := firstBy_le hl hb
      have hml : m.asOf < l.asOf := by
        unfold TradingMark.later at hlb
        rcases hlb with hlb | ⟨heq, -⟩
        · exact Nat.lt_trans hlt hlb
        · exact heq ▸ hlt
      have hapart : ∀ a ∈ s.db.marksOf m.userId m.accountId,
          ∀ c ∈ s.db.marksOf m.userId m.accountId, a.later c → c.later a → a = c :=
        later_apart (h.times.sublist List.filter_sublist)
      rw [firstBy_concat_old hapart hl fun hbefore => ?_]
      · exact congrArg some (horder l hl hml)
      · unfold TradingMark.later at hbefore
        rcases hbefore with hbefore | ⟨heq, -⟩
        · exact Nat.lt_asymm hml hbefore
        · exact Nat.ne_of_lt hml heq

theorem TradingOp.exec_history (op : TradingOp) (s : TradingState) (h : MarkHistory s)
    (horder : op.InOrder s) : MarkHistory (op.exec s) := by
  cases op with
  | other db => exact ⟨h.times, h.past, h.agree⟩
  | mark wait env rules userId accountId input =>
    have hnow : s.now < s.now + wait + 1 := by omega
    rcases Tx.ok_or_refused (recordTradingMark (env.at (s.now + wait + 1)) rules userId accountId
      input) s.db with ⟨r, db', hrun⟩ | hrefused
    · obtain ⟨entryId, hmarks⟩ := recordTradingMark_marks hrun
      have hnone : ((recordTradingMark (env.at (s.now + wait + 1)) rules userId accountId
          input).refusal s.db).isNone := by
        simp [Tx.refusal, hrun]
      simp only [TradingOp.exec, Tx.exec_of_ok hrun]
      exact h.record hnow hmarks rfl (horder hnone)
    · simp only [TradingOp.exec, hrefused.exec]
      exact ⟨h.times, fun m hm => (h.past m hm).trans (Nat.le_of_lt hnow), h.agree⟩

end History

/-! ## What the views show -/

section Views
variable {db : Db} {rules : TradingRules} {userId accountId today : Uuid}

theorem openPosition_accountId {p : OpenPosition}
    (h : db.openPosition userId today accountId = some p) : p.accountId = accountId := by
  obtain ⟨a, -, h⟩ := Option.bind_eq_some_iff.mp h
  obtain ⟨h, -⟩ := Option.filter_eq_some_iff.mp h
  obtain ⟨m, -, rfl⟩ := Option.map_eq_some_iff.mp h
  rfl

/-- For a live account, and a day that no mark is after. -/
theorem openPnl_eq (hlive : ∃ a ∈ db.accounts, a.id = accountId ∧ a.deleted = false)
    (htoday : ∀ m ∈ db.tradingMarks, m.asOf ≤ today) :
    db.openPnl userId today accountId =
      ((firstBy TradingMark.later (db.marksOf userId accountId)).map (·.unrealizedPnl)).getD 0 := by
  have hrows : (db.marksOf userId accountId).filter (·.asOf ≤ today) = db.marksOf userId accountId :=
    List.filter_eq_self.mpr fun m hm => decide_eq_true (htoday m (List.mem_of_mem_filter hm))
  have hnd : ((((db.tradingMarks.filter fun m => m.userId = userId ∧ m.asOf ≤ today).map
      (·.accountId)).dedup).insertionSort (· ≤ ·)).Nodup :=
    (List.perm_insertionSort _ _).nodup_iff.mpr (List.nodup_dedup _)
  rw [Db.openPnl, Db.openPositionMarks, sum_filterMap_key (fun _ _ => openPosition_accountId) hnd]
  obtain ⟨a, ha⟩ : ∃ a, db.accounts.find? (fun a => a.id = accountId ∧ !a.deleted) = some a := by
    obtain ⟨a, ha, hid, hdeleted⟩ := hlive
    exact Option.isSome_iff_exists.mp (List.find?_isSome.mpr ⟨a, ha, by simp [hid, hdeleted]⟩)
  split
  · simp only [Db.openPosition, ha, Option.bind_some, hrows]
    cases firstBy TradingMark.later (db.marksOf userId accountId) with
    | none => rfl
    | some m =>
      by_cases hzero : m.unrealizedPnl = 0 <;> simp [Option.filter, hzero]
  · rename_i hnone
    have hempty : db.marksOf userId accountId = [] := by
      refine List.filter_eq_nil_iff.mpr fun m hm hown => hnone ?_
      simp only [decide_eq_true_eq] at hown
      rw [List.mem_insertionSort, List.mem_dedup]
      refine List.mem_map.mpr ⟨m, List.mem_filter.mpr ⟨hm, ?_⟩, hown.2⟩
      simp [hown.1, htoday m hm]
    rw [hempty]
    rfl

theorem viewsAgree_of_history {s : TradingState} (h : MarkHistory s) : ViewsAgree rules s.db := by
  intro userId today htoday row hrow
  obtain ⟨a, ha, hrow⟩ := List.mem_filterMap.mp hrow
  rw [List.mem_insertionSort, List.mem_filter] at ha
  obtain ⟨hmem, hlisted⟩ := ha
  simp only [Bool.not_eq_true', decide_eq_true_eq] at hlisted
  obtain ⟨x, -, hrow⟩ := Option.bind_eq_some_iff.mp hrow
  obtain ⟨venue, -, rfl⟩ := Option.map_eq_some_iff.mp hrow
  simp only
  rw [openPnl_eq ⟨a, hmem, rfl, hlisted.2.2.1⟩ htoday, h.agree]

end Views

/-- As long as no mark is recorded under an earlier day than another of its account, or with the
open gain of that one, the two views show one value in every state. -/
theorem views_agree (rules : TradingRules) (clock : Nat) (db : Db) (ops : List TradingOp)
    (h : EveryCall TradingOp.exec TradingOp.InOrder ops ⟨clock, { db with tradingMarks := [] }⟩) :
    ViewsAgree rules (runAll TradingOp.exec ops ⟨clock, { db with tradingMarks := [] }⟩).db := by
  have hstart : MarkHistory ⟨clock, { db with tradingMarks := [] }⟩ :=
    ⟨List.Pairwise.nil, by simp, fun _ _ => rfl⟩
  exact viewsAgree_of_history
    (runAll_keeps_of (fun op s h => op.exec_history s h) ops hstart h)

/-- The dollar account is a margin account. -/
def marginRules : TradingRules where
  venueOf a := if a.id = 10 then some "هایپرلیکوئید" else none

def demoMark (day : IsoDate) (value upnl : Int) : TradingOp :=
  .mark 0 { entryId := day, today := 20260710 } marginRules 1 10
    { accountValue := .ofInt value, unrealizedPnl := .ofInt upnl, asOf := some day }

/-- Two marks in the order of their days. -/
def twoMarks : List TradingOp := [demoMark 20260705 90 (-10), demoMark 20260710 105 5]

theorem two_marks_agree :
    EveryCall TradingOp.exec TradingOp.InOrder twoMarks
      ⟨0, { demoRated with tradingMarks := [] }⟩ ∧
    (runAll TradingOp.exec twoMarks
      ⟨0, { demoRated with tradingMarks := [] }⟩).db.tradingMarks.length = 2 ∧
    ViewsAgree marginRules
      (runAll TradingOp.exec twoMarks ⟨0, { demoRated with tradingMarks := [] }⟩).db :=
  have h : EveryCall TradingOp.exec TradingOp.InOrder twoMarks
      ⟨0, { demoRated with tradingMarks := [] }⟩ := by decide
  ⟨h, by decide, views_agree marginRules 0 demoRated _ h⟩

/-- The mark of the fifth is recorded after that of the tenth. -/
theorem views_differ : ¬ ∀ clock (db : Db) ops, ViewsAgree marginRules
    (runAll TradingOp.exec ops ⟨clock, { db with tradingMarks := [] }⟩).db := by
  intro h
  have hagree := h 0 demoRated [demoMark 20260710 90 (-10), demoMark 20260705 105 5] 1 20260710
    (by decide) _ (List.mem_of_getElem? (i := 0) rfl)
  revert hagree
  decide

end Pwos
