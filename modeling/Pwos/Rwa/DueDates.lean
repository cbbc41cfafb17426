import Pwos.Domain.Recurrence
import Pwos.Lib.Interleaving

/-!
# Due dates of a vehicle

`completeDueDate` and `cancelDueDate` of `features/vehicles/service.ts` on the due dates that follow
one another, in any interleaving. A successor is counted from the date before it, so a day that a
short month moved back stays back.
-/

namespace Pwos

namespace DueDates

inductive DueStatus where
  | pending | done | cancelled
  deriving DecidableEq, Repr

structure VehicleDueDate where
  id : Uuid
  userId : Uuid
  vehicleId : Uuid
  kind : String
  title : String
  dueDate : IsoDate
  repeatMonths : Option Nat
  status : DueStatus := .pending
  doneAt : Option Nat := none
  deriving DecidableEq, Repr

/-- The table, and the ids of the rows that an update has closed, in its order. -/
structure DueTable where
  rows : List VehicleDueDate
  closings : List Uuid := []

inductive DueWrite where
  | close (id : Uuid) (status : DueStatus) (doneAt : Option Nat)
  | insert (row : VehicleDueDate)

def closeRow (id : Uuid) (status : DueStatus) (doneAt : Option Nat) (row : VehicleDueDate) :
    VehicleDueDate :=
  if row.id = id then { row with status, doneAt := doneAt <|> row.doneAt } else row

instance : Writable DueTable DueWrite where
  apply
    | .close id status doneAt, t =>
      { rows := t.rows.map (closeRow id status doneAt), closings := t.closings ++ [id] }
    | .insert row, t => { t with rows := t.rows ++ [row] }

/-- The row that the condition of an update matches. -/
def DueTable.pendingOf (t : DueTable) (userId id : Uuid) : Option VehicleDueDate :=
  t.rows.find? fun row => row.id = id ∧ row.userId = userId ∧ row.status = .pending

abbrev DueTx (α : Type) : Type := Tx DueTable DueWrite Uuid Empty String α

/-- `UPDATE ... RETURNING` of a pending row. -/
def closePending (userId id : Uuid) (status : DueStatus) (doneAt : Option Nat) :
    DueTx (Option VehicleDueDate) :=
  .stmt (fun t => (t.pendingOf userId id).toList.map (·.id)) (fun _ _ => True)
    (fun t => (t.pendingOf userId id).toList.map fun row => .close row.id status doneAt)
    fun t => .done (t.pendingOf userId id)

/-- The primary key refuses an id that is in use. -/
def insertDue (row : VehicleDueDate) : DueTx Unit :=
  Tx.insert (fun _ => [row.id]) (fun t => row.id ∉ t.rows.map (·.id)) (fun _ => [.insert row])
    "duplicate key value"

section Service
variable (cal : JalaliCalendar) (userId id : Uuid)

/-- The due date that comes after a repeating one. -/
def successor (due : VehicleDueDate) (newId : Uuid) (repeatMonths : Nat) : VehicleDueDate where
  id := newId
  userId := userId
  vehicleId := due.vehicleId
  kind := due.kind
  title := due.title
  dueDate := addJalaliMonths cal due.dueDate repeatMonths (cal.toJalali due.dueDate).d
  repeatMonths := due.repeatMonths

/-- `newId` and `now` are what the database and the clock give. -/
def completeDueDate (newId : Uuid) (now : Nat) : DueTx (Option Uuid) := do
  let due ← closePending userId id .done (some now)
  match due with
  | none => .fail "سررسید پیدا نشد یا قبلاً انجام شده است."
  | some due =>
    match due.repeatMonths.filter (0 < ·) with
    | none => pure none
    | some repeatMonths => do
      insertDue (successor cal userId due newId repeatMonths)
      pure (some newId)

def cancelDueDate : DueTx (Option Uuid) := do
  let due ← closePending userId id .cancelled none
  match due with
  | none => .fail "سررسید پیدا نشد."
  | some _ => pure none

end Service

/-! ## The days of a chain -/

section Days
variable (cal : JalaliCalendar) (first : IsoDate) (months : Nat)

/-- The dates the service gives to the successors. -/
def dueAt : Nat → IsoDate
  | 0 => first
  | k + 1 => addJalaliMonths cal (dueAt k) months (cal.toJalali (dueAt k)).d

/-- The length of the month of the `k`-th due date. -/
def monthLengthAt (k : Nat) : Nat :=
  let target := (cal.toJalali first).monthsLater (k * months)
  cal.jalaliMonthLength target.1 target.2

/-- The day that keeps the cycle: that of the first date, or the last one of the month. -/
def dayAt (k : Nat) : Nat :=
  if k = 0 then (cal.toJalali first).d
  else min (cal.toJalali first).d (monthLengthAt cal first months k)

def cycleAt (k : Nat) : IsoDate :=
  let target := (cal.toJalali first).monthsLater (k * months)
  if k = 0 then first else cal.jalaliToIso target.1 target.2 (dayAt cal first months k)

/-- The day is still the first one, or the next month has no later one. -/
def KeepsDay (k : Nat) : Prop :=
  dayAt cal first months k = (cal.toJalali first).d ∨
    monthLengthAt cal first months (k + 1) ≤ dayAt cal first months k

variable {cal first months}

theorem monthsLater_add (date : JalaliDate) (n j d : Nat) :
    JalaliDate.monthsLater ⟨(date.monthsLater n).1, (date.monthsLater n).2, d⟩ j =
      date.monthsLater (n + j) := by
  unfold JalaliDate.monthsLater
  refine Prod.ext ?_ ?_ <;> dsimp only <;> omega

theorem monthLengthAt_pos (hcal : cal.Inverts) (first : IsoDate) (months k : Nat) :
    0 < monthLengthAt cal first months k := by
  obtain ⟨hpos, hle, -⟩ := monthsLater_spec (cal.toJalali first) (k * months)
  have hdays :=
    (jalaliMonthDays_le hcal ((cal.toJalali first).monthsLater (k * months)).1 hpos hle).1
  have hfew : 0 < jalaliMonthDays ((cal.toJalali first).monthsLater (k * months)).2 := by
    unfold jalaliMonthDays
    split_ifs <;> omega
  exact hfew.trans_le hdays

theorem dayAt_le (cal : JalaliCalendar) (first : IsoDate) (months k : Nat) :
    dayAt cal first months k ≤ (cal.toJalali first).d := by
  unfold dayAt
  split_ifs <;> omega

section Calendar
variable (hcal : cal.Inverts) (hday : 0 < (cal.toJalali first).d) (hiso : isIsoDate first)
  (hmonths : 0 < months)
include hcal hday hiso hmonths

omit hday in
/-- A day of the `k`-th month comes back from its date. -/
theorem toJalali_later {k d : Nat} (hk : k ≠ 0) (hd : 0 < d)
    (hd' : d ≤ monthLengthAt cal first months k) :
    let target := (cal.toJalali first).monthsLater (k * months)
    cal.toJalali (cal.jalaliToIso target.1 target.2 d) = ⟨target.1, target.2, d⟩ := by
  obtain ⟨hpos, hle, -⟩ := monthsLater_spec (cal.toJalali first) (k * months)
  exact hcal.roundTrip first hiso ⟨_, _, _⟩ (monthBefore_monthsLater (hcal.month first hiso).2
    (Nat.mul_pos (by omega) hmonths) _) hpos hle hd hd'

theorem toJalali_cycleAt (k : Nat) :
    let target := (cal.toJalali first).monthsLater (k * months)
    cal.toJalali (cycleAt cal first months k) = ⟨target.1, target.2, dayAt cal first months k⟩ := by
  have hlength := monthLengthAt_pos hcal first months k
  by_cases hk : k = 0
  · subst hk
    obtain ⟨hm, hm'⟩ := hcal.month first hiso
    have hzero : (cal.toJalali first).monthsLater 0 =
        ((cal.toJalali first).y, (cal.toJalali first).m) := by
      unfold JalaliDate.monthsLater
      refine Prod.ext ?_ ?_ <;> dsimp only <;> omega
    simp [cycleAt, dayAt, hzero]
  · unfold cycleAt
    rw [if_neg hk]
    have hdayAt : dayAt cal first months k =
        min (cal.toJalali first).d (monthLengthAt cal first months k) := if_neg hk
    exact toJalali_later hcal hiso hmonths hk (by omega) (by omega)

/-- The date after one that keeps the cycle. -/
theorem dueAt_succ {k : Nat} (h : dueAt cal first months k = cycleAt cal first months k) :
    let target := (cal.toJalali first).monthsLater ((k + 1) * months)
    dueAt cal first months (k + 1) = cal.jalaliToIso target.1 target.2
      (min (dayAt cal first months k) (monthLengthAt cal first months (k + 1))) := by
  have hlater := monthsLater_add (cal.toJalali first) (k * months) months
    (dayAt cal first months k)
  rw [← Nat.succ_mul] at hlater
  have hparts := toJalali_cycleAt hcal hday hiso hmonths k
  dsimp only at hparts ⊢
  rw [dueAt, h, addJalaliMonths, hparts]
  unfold monthLengthAt
  rw [← hlater]
  unfold JalaliDate.monthsLater
  dsimp only
  ring_nf

/-- Where a due date keeps the cycle, the next one does exactly if the day is kept. -/
theorem dueAt_succ_eq_iff {k : Nat} (h : dueAt cal first months k = cycleAt cal first months k) :
    dueAt cal first months (k + 1) = cycleAt cal first months (k + 1) ↔
      KeepsDay cal first months k := by
  have hle := dayAt_le cal first months k
  have hpos : 0 < dayAt cal first months k := by
    have := monthLengthAt_pos hcal first months k
    unfold dayAt
    split_ifs <;> omega
  have hlength := monthLengthAt_pos hcal first months (k + 1)
  have hdue := dueAt_succ hcal hday hiso hmonths h
  have hcycle : dayAt cal first months (k + 1) =
      min (cal.toJalali first).d (monthLengthAt cal first months (k + 1)) := if_neg (by omega)
  have hkeeps : KeepsDay cal first months k ↔
      min (dayAt cal first months k) (monthLengthAt cal first months (k + 1)) =
        dayAt cal first months (k + 1) := by
    unfold KeepsDay
    omega
  rw [hkeeps]
  constructor
  · intro heq
    have hback := toJalali_later hcal hiso hmonths (k := k + 1) (by omega)
      (lt_min hpos hlength) (min_le_right _ _)
    have hback' := toJalali_cycleAt hcal hday hiso hmonths (k + 1)
    dsimp only at hback hback' hdue
    rw [← hdue, heq, hback'] at hback
    exact (congrArg JalaliDate.d hback).symm
  · intro hsame
    rw [hdue, hsame]
    unfold cycleAt
    rw [if_neg (by omega)]

theorem dueAt_eq_cycleAt_iff (n : Nat) :
    (∀ k ≤ n, dueAt cal first months k = cycleAt cal first months k) ↔
      ∀ k < n, KeepsDay cal first months k := by
  induction n with
  | zero =>
    refine iff_of_true (fun k hk => ?_) (fun k hk => absurd hk (Nat.not_lt_zero k))
    obtain rfl := Nat.le_zero.mp hk
    rfl
  | succ n ih =>
    constructor
    · intro h k hk
      exact (dueAt_succ_eq_iff hcal hday hiso hmonths (h k (by omega))).mp (h (k + 1) (by omega))
    · intro h k hk
      have hbefore := ih.mpr fun j hj => h j (by omega)
      rcases Nat.le_succ_iff.mp hk with hk | rfl
      · exact hbefore k hk
      · exact (dueAt_succ_eq_iff hcal hday hiso hmonths (hbefore n le_rfl)).mpr (h n (by omega))

end Calendar

end Days

/-! ## The rows of a chain -/

section Rows
variable {t : DueTable} {rows : List VehicleDueDate} {row due : VehicleDueDate} {id k userId : Uuid}
  {status : DueStatus} {doneAt : Option Nat}

def DueTable.find (t : DueTable) (id : Uuid) : Option VehicleDueDate := t.rows.find? (·.id = id)

@[simp] theorem closeRow_id : (closeRow id status doneAt row).id = row.id := by
  unfold closeRow
  split <;> rfl

theorem closeRow_of_ne (h : row.id ≠ id) : closeRow id status doneAt row = row := if_neg h

@[simp] theorem map_closeRow_id :
    (rows.map (closeRow id status doneAt)).map (·.id) = rows.map (·.id) := by
  simp [Function.comp_def]

theorem map_closeRow_of_not_mem (h : id ∉ rows.map (·.id)) :
    rows.map (closeRow id status doneAt) = rows := by
  refine (List.map_congr_left fun row hrow => closeRow_of_ne fun heq => h ?_).trans
    (List.map_id rows)
  exact List.mem_map.mpr ⟨row, hrow, heq⟩

theorem find_close (h : k ≠ id) :
    DueTable.find (Writable.apply (DueWrite.close id status doneAt) t) k = t.find k := by
  have hrows : ∀ rows : List VehicleDueDate,
      (rows.map (closeRow id status doneAt)).find? (·.id = k) = rows.find? (·.id = k) := by
    intro rows
    induction rows with
    | nil => rfl
    | cons row rows ih =>
      by_cases hrow : row.id = k
      · have hne : row.id ≠ id := hrow ▸ h
        simp [hrow, closeRow_of_ne hne]
      · simp [hrow, ih]
  exact hrows t.rows

theorem find_insert (h : k ≠ row.id) :
    DueTable.find (Writable.apply (DueWrite.insert row) t) k = t.find k := by
  have hnone : [row].find? (·.id = k) = none := by simpa using h.symm
  change (t.rows ++ [row]).find? _ = t.rows.find? _
  rw [List.find?_append, hnone, Option.or_none]

theorem pendingOf_spec (h : t.pendingOf userId id = some due) :
    due ∈ t.rows ∧ due.id = id ∧ due.status = .pending := by
  have hspec := List.find?_some h
  simp only [decide_eq_true_eq] at hspec
  exact ⟨List.mem_of_find?_eq_some h, hspec.1, hspec.2.2⟩

theorem find_of_mem (hnd : (t.rows.map (·.id)).Nodup) (h : due ∈ t.rows) :
    t.find due.id = some due := by
  cases hfind : t.find due.id with
  | none => simpa using List.find?_eq_none.mp hfind due h
  | some row =>
    have hid : row.id = due.id := by simpa using List.find?_some hfind
    rw [List.inj_on_of_nodup_map hnd (List.mem_of_find?_eq_some hfind) h hid]

theorem find_eq_none : t.find id = none ↔ id ∉ t.rows.map (·.id) := by
  simp [DueTable.find, List.find?_eq_none]

theorem mem_of_find (h : t.find id = some due) : due ∈ t.rows := List.mem_of_find?_eq_some h

end Rows

section Chain
variable (cal : JalaliCalendar) (others : List VehicleDueDate) (root : VehicleDueDate)
  (months : Nat)

/-- The due dates that follow one another, after all the other rows. -/
structure Chained (t : DueTable) (chain : List VehicleDueDate) : Prop where
  rows : t.rows = others ++ chain
  nodup : (t.rows.map (·.id)).Nodup
  nonempty : chain ≠ []
  closed : ∀ row ∈ chain.dropLast, row.status ≠ .pending
  dates : ∀ k row, chain[k]? = some row → row.dueDate = dueAt cal root.dueDate months k
  repeats : ∀ row ∈ chain, row.repeatMonths = some months
  closings : t.closings = (chain.filter (·.status ≠ .pending)).map (·.id)

variable {cal others root months} {t : DueTable} {chain : List VehicleDueDate}
  {due : VehicleDueDate}

/-- A pending row of the chain is its last one. -/
theorem Chained.eq_concat (h : Chained cal others root months t chain) (hdue : due ∈ t.rows)
    (hother : due.id ∉ others.map (·.id)) (hpending : due.status = .pending) :
    ∃ earlier, chain = earlier ++ [due] := by
  have hmem : due ∈ chain := by
    rw [h.rows] at hdue
    rcases List.mem_append.mp hdue with hdue | hdue
    · exact absurd (List.mem_map_of_mem hdue) hother
    · exact hdue
  have hsplit := List.dropLast_append_getLast h.nonempty
  rw [← hsplit] at hmem
  rcases List.mem_append.mp hmem with hearly | hlast
  · exact absurd hpending (h.closed due hearly)
  · refine ⟨chain.dropLast, ?_⟩
    rw [List.mem_singleton.mp hlast]
    exact hsplit.symm

theorem Chained.close {earlier : List VehicleDueDate} {status : DueStatus} {doneAt : Option Nat}
    (h : Chained cal others root months t (earlier ++ [due])) (hpending : due.status = .pending)
    (hstatus : status ≠ .pending) :
    Chained cal others root months (Writable.apply (DueWrite.close due.id status doneAt) t)
      (earlier ++ [closeRow due.id status doneAt due]) := by
  have hnd := h.nodup
  rw [h.rows, ← List.append_assoc, List.map_append, List.nodup_append] at hnd
  have hbefore : due.id ∉ (others ++ earlier).map (·.id) := fun hmem =>
    hnd.2.2 due.id hmem due.id (by simp) rfl
  rw [List.map_append, List.mem_append, not_or] at hbefore
  have hchain : earlier ++ [closeRow due.id status doneAt due] =
      (earlier ++ [due]).map (closeRow due.id status doneAt) := by
    rw [List.map_append, map_closeRow_of_not_mem hbefore.2, List.map_singleton]
  have hrows : (Writable.apply (DueWrite.close due.id status doneAt) t).rows =
      others ++ (earlier ++ [closeRow due.id status doneAt due]) := by
    change t.rows.map _ = _
    rw [h.rows, List.map_append, map_closeRow_of_not_mem hbefore.1, hchain]
  have hclosed : (closeRow due.id status doneAt due).status = status := by simp [closeRow]
  refine ⟨hrows, ?_, by simp, ?_, ?_, ?_, ?_⟩
  · change ((t.rows.map _).map _).Nodup
    rw [map_closeRow_id]
    exact h.nodup
  · have hearlier := h.closed
    rw [List.dropLast_concat] at hearlier ⊢
    exact hearlier
  · intro k row hk
    rw [hchain, List.getElem?_map] at hk
    obtain ⟨row, hrow, rfl⟩ := Option.map_eq_some_iff.mp hk
    have hdate : (closeRow due.id status doneAt row).dueDate = row.dueDate := by
      unfold closeRow
      split <;> rfl
    rw [hdate]
    exact h.dates k row hrow
  · intro row hrow
    rw [hchain] at hrow
    obtain ⟨row, hmem, rfl⟩ := List.mem_map.mp hrow
    have hrepeat : (closeRow due.id status doneAt row).repeatMonths = row.repeatMonths := by
      unfold closeRow
      split <;> rfl
    rw [hrepeat]
    exact h.repeats row hmem
  · have hclosings := h.closings
    change t.closings ++ [due.id] = _
    simp only [List.filter_append, List.filter_singleton, List.map_append] at hclosings ⊢
    simp [hclosings, hpending, hclosed, hstatus]

theorem Chained.insert {newId userId : Uuid} {earlier : List VehicleDueDate}
    (h : Chained cal others root months t (earlier ++ [due])) (hclosed : due.status ≠ .pending)
    (hnew : newId ∉ t.rows.map (·.id)) :
    Chained cal others root months (Writable.apply (DueWrite.insert
      (successor cal userId due newId months)) t)
      (earlier ++ [due] ++ [successor cal userId due newId months]) := by
  refine ⟨?_, ?_, by simp, ?_, ?_, ?_, ?_⟩
  · change t.rows ++ _ = _
    rw [h.rows, List.append_assoc]
  · change ((t.rows ++ [_]).map _).Nodup
    rw [List.map_append, List.nodup_append]
    refine ⟨h.nodup, by simp, ?_⟩
    rintro id hid j hj rfl
    have hid' : id = newId := List.mem_singleton.mp hj
    exact hnew (hid' ▸ hid)
  · have hearlier := h.closed
    rw [List.dropLast_concat] at hearlier ⊢
    intro row hrow
    rcases List.mem_append.mp hrow with hrow | hrow
    · exact hearlier row hrow
    · exact List.mem_singleton.mp hrow ▸ hclosed
  · intro k row hk
    rcases Nat.lt_or_ge k (earlier ++ [due]).length with hlt | hge
    · rw [List.getElem?_append_left hlt] at hk
      exact h.dates k row hk
    · rw [List.getElem?_append_right hge, List.getElem?_singleton] at hk
      split at hk
      · rename_i hlast
        cases hk
        have hindex : k = earlier.length + 1 := by
          rw [List.length_append, List.length_singleton] at hge hlast
          omega
        have hdue := h.dates earlier.length due (by simp)
        rw [hindex, dueAt, ← hdue]
        rfl
      · cases hk
  · intro row hrow
    rcases List.mem_append.mp hrow with hrow | hrow
    · exact h.repeats row hrow
    · rw [List.mem_singleton.mp hrow]
      exact h.repeats due (by simp)
  · change t.closings = _
    have hpending : (successor cal userId due newId months).status = .pending := rfl
    rw [h.closings]
    simp [hpending, hclosed]

/-! ## Interleavings -/

variable (cal others root months) in
/-- The rows follow one another, and a row that is held stays as it is. -/
def duePromise : Promise DueTable Uuid Empty where
  Assumes _ := False
  Inv t := ∃ chain, Chained cal others root months t chain
  Rely ids s t := ∀ id ∈ ids, t.find id = s.find id
  refl _ _ _ _ := rfl
  trans h h' id hid := (h' id hid).trans (h id hid)
  mono hsub h id hid := h id (hsub hid)

/-- A pending row that is held can be closed. -/
theorem close_commits {userId id : Uuid} {s u : DueTable} (status : DueStatus) (doneAt : Option Nat)
    (hs : s.pendingOf userId id = some due) (hother : id ∉ others.map (·.id))
    (hstatus : status ≠ .pending) (hinv : (duePromise cal others root months).Inv s)
    (hu : ∃ chain, Chained cal others root months u chain) (hrely : u.find due.id = s.find due.id) :
    ∃ earlier, Chained cal others root months
      (Writable.apply (DueWrite.close due.id status doneAt) u)
      (earlier ++ [closeRow due.id status doneAt due]) := by
  obtain ⟨hmem, rfl, hpending⟩ := pendingOf_spec hs
  obtain ⟨chain, hchain⟩ := hinv
  obtain ⟨chain', hchain'⟩ := hu
  rw [find_of_mem hchain.nodup hmem] at hrely
  obtain ⟨earlier, rfl⟩ := hchain'.eq_concat (mem_of_find hrely) hother hpending
  exact ⟨earlier, hchain'.close hpending hstatus⟩

theorem closePending_ok {P : Promise DueTable Uuid Empty} {userId id : Uuid} {status : DueStatus}
    {doneAt : Option Nat} {s : DueTable}
    {Q : Option VehicleDueDate → List DueWrite → List Uuid → DueTable → Prop}
    (hnone : ∀ u, Q none [] [] u)
    (hsome : ∀ t due, P.Inv t → t.pendingOf userId id = some due → ∀ u, P.Inv u →
      P.Rely [due.id] t u → Q (some due) [.close due.id status doneAt] [due.id] u) :
    P.Ok Q (closePending userId id status doneAt) [] [] s := by
  intro t ht _ _ u hu hrely
  cases hpending : t.pendingOf userId id with
  | none => simpa [hpending] using hnone u
  | some due =>
    simp only [applyAll_nil, hpending, Option.toList_some, List.map_cons, List.map_nil,
      List.nil_append] at hrely ⊢
    exact hsome t due ht hpending u hu hrely

theorem cancelDueDate_honours {userId id : Uuid} (hother : id ∉ others.map (·.id)) :
    (duePromise cal others root months).Honours (fun _ _ _ _ => True)
      (cancelDueDate userId id) := by
  intro s _
  refine Promise.Ok.bind (closePending_ok (fun _ => trivial) ?_)
  intro t due ht hpending u hu hrely v hv hrely'
  have hsame := (hrely' due.id (by simp)).trans (hrely due.id (by simp))
  refine ⟨⟨?_, ?_⟩, trivial⟩
  · obtain ⟨earlier, hchain⟩ := close_commits .cancelled none hpending hother (by decide) ht hv
      hsame
    exact ⟨_, hchain⟩
  · intro ids hids k hk
    have hne : k ≠ due.id := fun heq => hids k hk (by simp [heq])
    exact find_close hne

theorem completeDueDate_honours {userId id newId : Uuid} {now : Nat} (hmonths : 0 < months)
    (hother : id ∉ others.map (·.id)) :
    (duePromise cal others root months).Honours (fun _ _ _ _ => True)
      (completeDueDate cal userId id newId now) := by
  intro s _
  refine Promise.Ok.bind (closePending_ok (fun _ => trivial) ?_)
  intro t due ht hpending u hu hrely
  have hrepeat : due.repeatMonths.filter (0 < ·) = some months := by
    obtain ⟨hmem, rfl, hstatus⟩ := pendingOf_spec hpending
    obtain ⟨chain, hchain⟩ := ht
    obtain ⟨earlier, rfl⟩ := hchain.eq_concat hmem hother hstatus
    rw [hchain.repeats due (by simp), Option.filter_some, if_pos (by simpa using hmonths)]
  dsimp only
  rw [hrepeat]
  refine Promise.Ok.bind (Promise.Ok.insert fun v hv huv hfresh w hw hvw => ?_)
  intro x hx hwx
  -- the closed row is still the one that was read, and the new id is still free
  have hsame : x.find due.id = t.find due.id :=
    (hwx due.id (by simp)).trans ((hvw due.id (by simp)).trans
      ((huv due.id (by simp)).trans (hrely due.id (by simp))))
  have hfree : newId ∉ x.rows.map (·.id) := by
    have hids : (applyAll [DueWrite.close due.id .done (some now)] v).rows.map (·.id) =
        v.rows.map (·.id) := map_closeRow_id
    rw [hids] at hfresh
    rw [← find_eq_none, hwx newId (by simp [successor]), hvw newId (by simp [successor])]
    exact find_eq_none.mpr hfresh
  refine ⟨⟨?_, ?_⟩, trivial⟩
  · obtain ⟨earlier, hchain⟩ :=
      close_commits .done (some now) hpending hother (by decide) ht hx hsame
    have hclosed : (closeRow due.id .done (some now) due).status ≠ .pending := by simp [closeRow]
    have hnext : successor cal userId due newId months =
        successor cal userId (closeRow due.id .done (some now) due) newId months := by
      simp [successor, closeRow]
    have hids : newId ∉
        (Writable.apply (DueWrite.close due.id .done (some now)) x).rows.map (·.id) := by
      change newId ∉ (x.rows.map _).map _
      rwa [map_closeRow_id]
    rw [List.singleton_append, applyAll_cons, applyAll_cons, applyAll_nil, hnext]
    exact ⟨_, hchain.insert hclosed hids⟩
  · intro ids hids k hk
    have hne : k ≠ due.id := fun heq => hids k hk (by simp [heq])
    have hne' : k ≠ newId := fun heq => hids k hk (by simp [heq, successor])
    exact (find_insert hne').trans (find_close hne)

/-! ## The chain in every interleaving -/

variable (cal others) in
/-- A call on a due date that is none of the other rows. -/
inductive ChainCall : DueTx (Option Uuid) → Prop
  | complete (userId id newId : Uuid) (now : Nat) : id ∉ others.map (·.id) →
      ChainCall (completeDueDate cal userId id newId now)
  | cancel (userId id : Uuid) : id ∉ others.map (·.id) → ChainCall (cancelDueDate userId id)

variable (others root months) in
/-- The first due date of the chain is pending, and repeats. -/
structure ChainStart : Prop where
  distinct : ((others ++ [root]).map (·.id)).Nodup
  pending : root.status = .pending
  repeats : root.repeatMonths = some months
  months_pos : 0 < months
  date : isIsoDate root.dueDate

theorem ChainStart.chained (h : ChainStart others root months) :
    Chained cal others root months ⟨others ++ [root], []⟩ [root] where
  rows := rfl
  nodup := h.distinct
  nonempty := by simp
  closed := by simp
  dates k row hk := by
    obtain ⟨rfl, rfl⟩ : k = 0 ∧ root = row := by
      cases k <;> simp_all
    rfl
  repeats := by simpa using h.repeats
  closings := by simp [h.pending]

theorem Chained.closings_nodup (h : Chained cal others root months t chain) : t.closings.Nodup := by
  have hnd := h.nodup
  rw [h.rows, List.map_append] at hnd
  rw [h.closings]
  exact (List.Nodup.of_append_right hnd).sublist (List.filter_sublist.map _)

theorem Chained.one_pending (h : Chained cal others root months t chain) :
    (chain.filter (·.status = .pending)).length ≤ 1 := by
  have hearlier : chain.dropLast.filter (·.status = .pending) = [] := by
    simpa using h.closed
  rw [← List.dropLast_append_getLast h.nonempty, List.filter_append, hearlier, List.nil_append]
  exact List.length_filter_le _ _

/-- However the calls interleave, a due date is closed once and one is pending at most. The dates
keep the cycle exactly as far as no day was moved back before a longer month. -/
theorem chain_keeps_cycle_iff (hcal : cal.Inverts) (hord : cal.Ordered)
    (hstart : ChainStart others root months) {c : System DueTable DueWrite Uuid Empty String
      (Option Uuid)}
    (h : System.Reaches (ChainCall cal others) (fun _ => False) ⟨others ++ [root], []⟩ c) :
    ∃ chain, c.committed.rows = others ++ chain ∧
      ((c.committed.closings.Nodup ∧ (chain.filter (·.status = .pending)).length ≤ 1 ∧
          ∀ k row, chain[k]? = some row → row.dueDate = cycleAt cal root.dueDate months k) ↔
        ∀ k, k + 1 < chain.length → KeepsDay cal root.dueDate months k) := by
  have hhonours : ∀ p, ChainCall cal others p →
      (duePromise cal others root months).Honours (fun _ _ _ _ => True) p := by
    rintro p (⟨userId, id, newId, now, hother⟩ | ⟨userId, id, hother⟩)
    · exact completeDueDate_honours hstart.months_pos hother
    · exact cancelDueDate_honours hother
  have hsafe := System.Reaches.safe (P := duePromise cal others root months)
    ⟨[root], hstart.chained⟩ hhonours h
  obtain ⟨chain, hchain⟩ := hsafe.inv
  have hiff := dueAt_eq_cycleAt_iff hcal (hord.day root.dueDate hstart.date).2.2 hstart.date
    hstart.months_pos (chain.length - 1)
  have hpos := List.length_pos_iff.mpr hchain.nonempty
  refine ⟨chain, hchain.rows, ?_⟩
  constructor
  · rintro ⟨-, -, hdates⟩ k hk
    refine hiff.mp (fun j hj => ?_) k (by omega)
    have hrow : chain[j]? = some chain[j] := List.getElem?_eq_getElem (by omega)
    exact (hchain.dates j _ hrow).symm.trans (hdates j _ hrow)
  · intro hkeeps
    refine ⟨hchain.closings_nodup, hchain.one_pending, fun k row hk => ?_⟩
    obtain ⟨hlt, -⟩ := List.getElem?_eq_some_iff.mp hk
    rw [hchain.dates k row hk]
    exact hiff.mpr (fun j hj => hkeeps j (by omega)) k (by omega)

end Chain

/-! ## A day that is lost -/

/-- A half-yearly inspection, first on 31 Shahrivar 1404. -/
def inspection : VehicleDueDate where
  id := 1
  userId := 1
  vehicleId := 1
  kind := "inspection"
  title := "معاینه فنی"
  dueDate := 20250922
  repeatMonths := some 6

theorem inspection_start : ChainStart [] inspection 6 :=
  ⟨by decide, rfl, rfl, by decide, by decide⟩

/-- It is done twice. -/
def twoInspections : List (Move DueTable DueWrite Uuid Empty String (Option Uuid)) :=
  [Move.begin 0 (completeDueDate recentYears 1 1 2 0), Move.go 0, Move.go 0, Move.commit 0,
    Move.begin 0 (completeDueDate recentYears 1 2 3 1), Move.go 0, Move.go 0, Move.commit 0]

def DueTable.thirdIsEarly (t : DueTable) : Bool := t.rows[2]?.map (·.dueDate) = some 20260920

theorem twoInspections_reaches :
    ∃ c, System.Reaches (ChainCall recentYears []) (fun _ => False) ⟨[inspection], []⟩ c ∧
      c.committed.thirdIsEarly = true := by
  have hreplay : ((Board.idle 1 ⟨[inspection], []⟩).replay twoInspections).any
      (fun b => b.committed.thirdIsEarly) = true := by decide
  refine Board.exists_reaches ?_ hreplay
  intro p hp
  simp only [twoInspections, Board.begun, List.filterMap_cons, List.filterMap_nil,
    List.mem_cons, List.not_mem_nil, or_false] at hp
  rcases hp with rfl | rfl
  · exact .complete 1 1 2 0 (by simp)
  · exact .complete 1 2 3 1 (by simp)

theorem inspection_keeps_cycle_iff :
    ∃ c, System.Reaches (ChainCall recentYears []) (fun _ => False) ⟨[inspection], []⟩ c ∧
      ∃ chain, c.committed.rows = [] ++ chain ∧
        ((c.committed.closings.Nodup ∧ (chain.filter (·.status = .pending)).length ≤ 1 ∧
            ∀ k row, chain[k]? = some row →
              row.dueDate = cycleAt recentYears inspection.dueDate 6 k) ↔
          ∀ k, k + 1 < chain.length → KeepsDay recentYears inspection.dueDate 6 k) := by
  obtain ⟨c, hreaches, -⟩ := twoInspections_reaches
  exact ⟨c, hreaches, chain_keeps_cycle_iff recentYears_inverts recentYears_ordered
    inspection_start hreaches⟩

/-- The inspections come back on 29 Shahrivar, and not on the 31st. -/
theorem inspection_is_early :
    ∃ c, System.Reaches (ChainCall recentYears []) (fun _ => False) ⟨[inspection], []⟩ c ∧
      (c.committed.rows[2]?.map (·.dueDate)) = some 20260920 ∧
      cycleAt recentYears inspection.dueDate 6 2 = 20260922 ∧
      ¬∀ k row, c.committed.rows[k]? = some row →
        row.dueDate = cycleAt recentYears inspection.dueDate 6 k := by
  obtain ⟨c, hreaches, hcheck⟩ := twoInspections_reaches
  have hthird := of_decide_eq_true hcheck
  have hcycle : cycleAt recentYears inspection.dueDate 6 2 = 20260922 := by decide
  refine ⟨c, hreaches, hthird, hcycle, fun hall => ?_⟩
  obtain ⟨row, hrow, hdate⟩ := Option.map_eq_some_iff.mp hthird
  have hsame := hall 2 row hrow
  rw [hdate, hcycle] at hsame
  exact absurd hsame (by decide)

end DueDates

end Pwos
