import Pwos.Lib.Process
import Pwos.Planning.Insurance

/-!
# Money set aside for a goal

`addGoalContribution` of `features/planning/planItems.ts`. Its statements each commit by
themselves: a take-back is checked against a sum that may be old when it is inserted.

## Main statements

* `addGoalContribution_good` — a call whose take-backs are as read keeps every goal's total.
* `set_aside_nonneg` — so does any interleaving of such calls.
-/

namespace Pwos

namespace Db
variable (db : Db) (goalId : Uuid)

def contributionsTo : List GoalContribution := db.goalContributions.filter (·.goalId = goalId)

end Db

/-- `sum(amount_base)`. -/
def contributionTotal (rows : List GoalContribution) : Decimal := (rows.map (·.amountBase)).sum

def takeBacks (rows : List GoalContribution) : List GoalContribution :=
  rows.filter (·.amountBase < 0)

/-- What is set aside for the goal. -/
def Db.setAside (db : Db) (goalId : Uuid) : Decimal := contributionTotal (db.contributionsTo goalId)

/-- `date(occurredAt) ?? todayIso()`. -/
def contributionDay (env : Env) : Option OpenedAt → Except AppError IsoDate
  | none => .ok env.today
  | some .malformed => .error (.failure "تاریخ معتبر نیست.")
  | some (.day d) => .ok d

/-- The contributions a take-back is checked against. -/
def checkTakeBack (goalId : Uuid) (amount : Decimal) : Sql (List GoalContribution) :=
  if amount < 0 then do
    let rows ← Tx.read (·.contributionsTo goalId)
    Tx.require (0 ≤ contributionTotal rows + amount)
      (.failure "بیشتر از مبلغ کنارگذاشته است.")
    pure rows
  else pure []

def insertContribution (c : GoalContribution) (asRead : List GoalContribution) : Sql Unit :=
  Tx.writeExpecting (fun _ => [])
    (fun a db => a = .takeBacksAsRead → c.amountBase < 0 →
      takeBacks (db.contributionsTo c.goalId) = takeBacks asRead)
    (fun _ => [.insertContribution c])

/-- `amountToman` is `none` for a text that is no number. -/
def addGoalContribution (env : Env) (userId : Option Uuid) (goalId : Uuid)
    (amountToman : Option Decimal) (occurredAt : Option OpenedAt) : Sql Unit := do
  let g ← Tx.read fun db => db.goals.find? fun g =>
    g.id = goalId ∧ g.userId = userId ∧ g.deleted = false
  Tx.require (g.isSome = true) (.failure "هدف پیدا نشد.")
  let amount ← Tx.ofExcept (orComplain amountToman "مبلغ معتبر نیست.")
  Tx.require (amount ≠ 0) (.failure "مبلغ معتبر نیست.")
  let asRead ← checkTakeBack goalId amount
  let day ← Tx.ofExcept (contributionDay env occurredAt)
  insertContribution ⟨goalId, amount, day⟩ asRead

/-! ## Totals -/

section Totals
variable {db s t : Db} {goalId : Uuid} {c : GoalContribution}

theorem contributionTotal_append (rows more : List GoalContribution) :
    contributionTotal (rows ++ more) = contributionTotal rows + contributionTotal more := by
  simp [contributionTotal]

theorem contributionTotal_nonneg {rows : List GoalContribution} (h : takeBacks rows = []) :
    0 ≤ contributionTotal rows := by
  refine List.sum_nonneg fun amount hmem => ?_
  obtain ⟨row, hrow, rfl⟩ := List.mem_map.mp hmem
  have := List.filter_eq_nil_iff.mp h row hrow
  simpa using this

theorem contributionsTo_insert :
    (Write.apply (.insertContribution c) db).contributionsTo goalId =
      db.contributionsTo goalId ++ if c.goalId = goalId then [c] else [] := by
  simp only [Db.contributionsTo, Write.apply, List.filter_append]
  split <;> simp_all

theorem setAside_insert :
    (Write.apply (.insertContribution c) db).setAside goalId =
      db.setAside goalId + if c.goalId = goalId then c.amountBase else 0 := by
  unfold Db.setAside
  rw [contributionsTo_insert, contributionTotal_append]
  split <;> simp [contributionTotal]

/-- Contributions are only ever added. -/
def ContributionsAdded (s t : Db) : Prop := s.goalContributions <+: t.goalContributions

/-- As long as nothing more is taken back, a goal's total does not fall. -/
theorem setAside_le_of_takeBacks (hst : ContributionsAdded s t)
    (h : takeBacks (t.contributionsTo goalId) = takeBacks (s.contributionsTo goalId)) :
    s.setAside goalId ≤ t.setAside goalId := by
  obtain ⟨more, hmore⟩ := hst
  have hrows : t.contributionsTo goalId =
      s.contributionsTo goalId ++ more.filter (·.goalId = goalId) := by
    unfold Db.contributionsTo
    rw [← hmore, List.filter_append]
  rw [hrows, takeBacks, List.filter_append] at h
  have hnone : takeBacks (more.filter (·.goalId = goalId)) = [] :=
    List.append_right_eq_self.mp h
  unfold Db.setAside
  rw [hrows, contributionTotal_append]
  exact le_add_of_nonneg_right (contributionTotal_nonneg hnone)

end Totals

/-! ## Interleavings -/

/-- No goal's total is negative, and contributions are only added. -/
def contributionPromise : Promise Db Row Assumption where
  Assumes a := a = .takeBacksAsRead
  Inv db := ∀ goalId, 0 ≤ db.setAside goalId
  Rely _ s t := ContributionsAdded s t
  refl _ _ := List.prefix_rfl
  trans := List.IsPrefix.trans
  mono _ h := h

/-- A contribution that leaves its goal's total alone or lets enough of it. -/
theorem insertContribution_good {c : GoalContribution} {asRead : List GoalContribution}
    {ws : List Write} {ks : List Row} {s : Db}
    (h : ∀ t, ContributionsAdded s t →
      (c.amountBase < 0 → takeBacks (t.contributionsTo c.goalId) = takeBacks asRead) →
      0 ≤ t.setAside c.goalId → 0 ≤ t.setAside c.goalId + c.amountBase) :
    contributionPromise.Good (fun _ _ => True)
      (Process.statements (insertContribution c asRead)) ws ks s := by
  intro t ht hst hexpects
  refine ⟨⟨fun goalId => ?_, fun _ _ => List.prefix_append _ _⟩, fun _ _ _ => trivial⟩
  change 0 ≤ (Write.apply (.insertContribution c) t).setAside goalId
  rw [setAside_insert]
  split
  · rename_i hgoal
    subst hgoal
    exact h t hst (hexpects .takeBacksAsRead rfl rfl) (ht _)
  · simpa using ht goalId

theorem addGoalContribution_good (env : Env) (userId : Option Uuid) (goalId : Uuid)
    (amountToman : Option Decimal) (occurredAt : Option OpenedAt) (s : Db) :
    contributionPromise.Good (fun _ _ => True)
      (Process.statements (addGoalContribution env userId goalId amountToman occurredAt)) [] [] s := by
  refine Promise.Good.statements_read fun t₀ _ _ => ?_
  refine Promise.Good.statements_require (fun _ _ _ => trivial) fun _ => ?_
  refine Promise.Good.statements_ofExcept (fun _ _ _ _ => trivial) fun amount => ?_
  refine Promise.Good.statements_require (fun _ _ _ => trivial) fun _ => ?_
  unfold checkTakeBack
  split
  · rename_i hneg
    simp only [Tx.bind_assoc, Tx.pure_eq, Tx.done_bind]
    refine Promise.Good.statements_read fun t _ _ => ?_
    refine Promise.Good.statements_require (fun _ _ _ => trivial) fun hleft => ?_
    refine Promise.Good.statements_ofExcept (fun _ _ _ _ => trivial) fun day => ?_
    refine insertContribution_good fun u htu hsame _ => ?_
    exact hleft.trans (add_le_add_left (setAside_le_of_takeBacks htu (hsame hneg)) amount)
  · rename_i hpos
    refine Promise.Good.statements_ofExcept (fun _ _ _ _ => trivial) fun day => ?_
    exact insertContribution_good fun u _ _ hu => add_nonneg hu (not_lt.mp hpos)

/-- Nobody else touches the contributions. -/
def SameContributions (s t : Db) : Prop := t.goalContributions = s.goalContributions

/-- A call of `addGoalContribution`. -/
def ContributionProcess (p : Process Db Write Row Assumption (Except AppError Unit)) : Prop :=
  ∃ env userId goalId amountToman occurredAt,
    p = .statements (addGoalContribution env userId goalId amountToman occurredAt)

/-- Whatever else changes in the database meanwhile, if no take-back is inserted after another
one of its goal that it has not seen, no goal's total is ever negative. -/
theorem set_aside_nonneg {db : Db} (hdb : ∀ goalId, 0 ≤ db.setAside goalId)
    {c : World Db Write Row Assumption (Except AppError Unit)}
    (h : World.Reaches ContributionProcess SameContributions (· = .takeBacksAsRead) db c)
    (goalId : Uuid) : 0 ≤ c.committed.setAside goalId := by
  refine (World.Reaches.safe (P := contributionPromise) (Q := fun _ _ => True) hdb ?_ ?_ h).inv goalId
  · rintro _ ⟨env, userId, goalId, amountToman, occurredAt, rfl⟩ s -
    exact addGoalContribution_good env userId goalId amountToman occurredAt s
  · intro s t hs hst
    refine ⟨fun goalId => ?_, fun _ => ?_⟩
    · unfold Db.setAside Db.contributionsTo
      rw [hst]
      exact hs goalId
    · change s.goalContributions <+: t.goalContributions
      rw [hst]

/-- A goal for which 100 is set aside. -/
def demoGoal : Db :=
  { goals := [{ id := 1, userId := some 1 }], goalContributions := [⟨1, .ofInt 100, 20260101⟩] }

def demoContribution (amount : Int) : Process Db Write Row Assumption (Except AppError Unit) :=
  .statements (addGoalContribution { entryId := 0, today := 20260201 } (some 1) 1
    (some (.ofInt amount)) none)

theorem demoGoal_nonneg (goalId : Uuid) : 0 ≤ demoGoal.setAside goalId := by
  by_cases h : goalId = 1
  · subst h
    decide
  · have : demoGoal.contributionsTo goalId = [] := by
      simp [demoGoal, Db.contributionsTo, Ne.symm h]
    simp [Db.setAside, this, contributionTotal]

/-- 60 is taken back, and 40 is left. -/
theorem some_taken_back : ∃ c, World.Reaches ContributionProcess SameContributions
    (· = .takeBacksAsRead) demoGoal c ∧ c.committed.setAside 1 = .ofInt 40 ∧
    0 ≤ c.committed.setAside 1 := by
  have hidle : World.Reaches ContributionProcess SameContributions (· = .takeBacksAsRead) demoGoal
      (.idle demoGoal) := .idle
  have hmet : (demoContribution (-60)).Met (· = .takeBacksAsRead) [] demoGoal :=
    ⟨fun _ _ => trivial, fun _ _ => trivial, fun _ _ _ _ => rfl, trivial⟩
  obtain ⟨c, hc, -, hlast⟩ := hidle.alone (fun _ => rfl) ⟨_, _, _, _, _, rfl⟩ hmet
  exact ⟨c, hc, by rw [hlast]; decide, set_aside_nonneg demoGoal_nonneg hc 1⟩

/-- All of it is taken back twice: both calls see the 100. -/
theorem take_backs_overlap : (∀ goalId, 0 ≤ demoGoal.setAside goalId) ∧
    ∃ c, World.Reaches ContributionProcess SameContributions (fun _ => False) demoGoal c ∧
      c.committed.setAside 1 = .ofInt (-100) := by
  have hreplay : ((Stage.idle 2 demoGoal).replay
      [.start 0 (demoContribution (-100)), .start 1 (demoContribution (-100)), .go 0, .go 0,
        .go 1, .go 1, .go 0, .go 1]).any
      (fun b => b.committed.setAside 1 = .ofInt (-100)) = true := by decide
  have hcalls : ∀ p ∈ [demoContribution (-100), demoContribution (-100)],
      ContributionProcess p := by
    intro p hp
    obtain rfl : p = demoContribution (-100) := by simpa using hp
    exact ⟨_, _, _, _, _, rfl⟩
  obtain ⟨c, hc, hcheck⟩ := Stage.exists_reaches
    (fun db : Db => db.setAside 1 = .ofInt (-100)) hcalls hreplay
  exact ⟨demoGoal_nonneg, c, hc, of_decide_eq_true hcheck⟩

end Pwos
