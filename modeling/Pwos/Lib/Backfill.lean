import Mathlib.Data.List.Sort
import Mathlib.Tactic

/-!
# Filling a table in batches

A loop picks the open rows of a table in the order of their keys, above a cursor and a batch at a
time, and fills those there is evidence for. However often it is stopped between two batches, a run
that comes to its end leaves the table filled row by row, whatever the sizes of the batches.
-/

namespace Pwos

/-- How a table of rows `α` is filled from evidence `ε`. -/
structure Backfill (α ε : Type) where
  key : α → Nat
  /-- What is selected. -/
  isOpen : α → Bool
  /-- What an update asks for once more. -/
  isNull : α → Bool
  evidence : α → Option ε
  fill : ε → α → α

namespace Backfill
variable {α ε : Type} (B : Backfill α ε)

/-- The key is above the cursor. -/
def Above (cursor : Option Nat) (k : Nat) : Prop := ∀ c ∈ cursor, c < k

instance (cursor : Option Nat) : DecidablePred (Above cursor) :=
  fun _ => inferInstanceAs (Decidable (∀ c ∈ cursor, _))

/-- `where … and id > cursor order by id limit n`. -/
def select (n : Nat) (cursor : Option Nat) (rows : List α) : List α :=
  ((rows.filter fun r => B.isOpen r ∧ Above cursor (B.key r)).insertionSort
    fun a b => B.key a ≤ B.key b).take n

/-- The update for a row that was selected, and how many rows it touched so far. -/
def update (acc : List α × Nat) (picked : α) : List α × Nat :=
  match B.evidence picked with
  | none => acc
  | some e =>
    (acc.1.map fun r => if B.key r = B.key picked ∧ B.isNull r then B.fill e r else r,
      acc.2 + acc.1.countP fun r => B.key r = B.key picked ∧ B.isNull r)

/-- What a run has done: the table, how many rows each batch scanned and filled, and how many
more batches it could have committed if it came to its end. -/
structure Outcome (α : Type) where
  rows : List α
  batches : List (Nat × Nat) := []
  left : Option Nat

/-- The loop, stopped after `k` batches. -/
def loop (n : Nat) : Nat → Option Nat → List α → Outcome α
  | k, cursor, rows =>
    let picked := B.select n cursor rows
    if picked = [] then { rows, left := some k } else
    match k with
    | 0 => { rows, left := none }
    | k + 1 =>
      let (rows', migrated) := picked.foldl B.update (rows, 0)
      if picked.length < n then
        { rows := rows', batches := [(picked.length, migrated)], left := some k }
      else
        let rest := loop n k (picked.getLast?.map B.key) rows'
        { rest with batches := (picked.length, migrated) :: rest.batches }

/-- A row that is open is filled if there is evidence. -/
def filled (r : α) : α := if B.isOpen r then (B.evidence r).elim r (B.fill · r) else r

/-- A filled row keeps its key and is open no more; what is open is null. -/
structure Lawful (B : Backfill α ε) : Prop where
  key_fill : ∀ e r, B.key (B.fill e r) = B.key r
  isNull : ∀ {r}, B.isOpen r → B.isNull r
  closed : ∀ e r, B.isOpen (B.fill e r) = false

section Laws
variable {B} {rows picked : List α} {r s : α} {cursor : Option Nat} {n k : Nat}

theorem filled_of_closed (h : B.isOpen r = false) : B.filled r = r := by simp [filled, h]

theorem Lawful.key_filled (hB : B.Lawful) (r : α) : B.key (B.filled r) = B.key r := by
  unfold filled
  cases B.evidence r <;> grind [hB.key_fill]

theorem Lawful.filled_filled (hB : B.Lawful) (r : α) : B.filled (B.filled r) = B.filled r := by
  cases ho : B.isOpen r with
  | false => simp only [filled_of_closed ho]
  | true =>
    cases he : B.evidence r with
    | none => simp [filled, ho, he]
    | some e =>
      have hfilled : B.filled r = B.fill e r := by simp [filled, ho, he]
      rw [hfilled, filled_of_closed (hB.closed e r)]

/-! ## One batch -/

/-- The rows whose key is in `ks` are filled. -/
def fillAt (B : Backfill α ε) (P : Nat → Prop) [DecidablePred P] (rows : List α) : List α :=
  rows.map fun r => if P (B.key r) then B.filled r else r

/-- What no filling changes no batch changes. -/
theorem map_fillAt {β : Type} {g : α → β} (hg : ∀ e r, g (B.fill e r) = g r) (P : Nat → Prop)
    [DecidablePred P] (rows : List α) : (B.fillAt P rows).map g = rows.map g := by
  simp only [fillAt, List.map_map]
  refine List.map_congr_left fun r _ => ?_
  simp only [Function.comp_apply, filled]
  cases B.evidence r <;> grind

theorem Lawful.key_fillAt (hB : B.Lawful) (P : Nat → Prop) [DecidablePred P] (rows : List α) :
    (B.fillAt P rows).map B.key = rows.map B.key := map_fillAt hB.key_fill P rows

theorem key_injective (h : (rows.map B.key).Nodup) (hr : r ∈ rows) (hs : s ∈ rows)
    (hkey : B.key r = B.key s) : r = s :=
  List.inj_on_of_nodup_map h hr hs hkey

/-- The update fills the row, if it is still as it was selected. -/
theorem Lawful.update_eq (hB : B.Lawful) (h : (rows.map B.key).Nodup) (hs : s ∈ rows)
    (hopen : B.isOpen s) (m : Nat) : (B.update (rows, m) s).1 = B.fillAt (· = B.key s) rows := by
  have hsame : ∀ r ∈ rows, B.key r = B.key s → r = s := fun r hr => key_injective h hr hs
  have hnull := hB.isNull hopen
  cases he : B.evidence s with
  | none =>
    have hkeep : ∀ r ∈ rows, (if B.key r = B.key s then B.filled r else r) = r := by
      grind [filled]
    simp only [update, he, fillAt]
    simp [List.map_congr_left hkeep]
  | some e =>
    simp only [update, he, fillAt]
    refine List.map_congr_left fun r hr => ?_
    grind [filled]

theorem fillAt_fillAt (hB : B.Lawful) (P Q : Nat → Prop) [DecidablePred P] [DecidablePred Q]
    (rows : List α) : B.fillAt Q (B.fillAt P rows) = B.fillAt (fun k => P k ∨ Q k) rows := by
  simp only [fillAt, List.map_map]
  refine List.map_congr_left fun r _ => ?_
  have := hB.key_filled r
  have := hB.filled_filled r
  simp only [Function.comp_apply]
  grind

theorem fillAt_congr {P Q : Nat → Prop} [DecidablePred P] [DecidablePred Q]
    (h : ∀ r ∈ rows, B.isOpen r → (P (B.key r) ↔ Q (B.key r))) : B.fillAt P rows = B.fillAt Q rows := by
  refine List.map_congr_left fun r hr => ?_
  cases ho : B.isOpen r with
  | true => simp only [h r hr ho]
  | false => simp [filled_of_closed ho]

theorem fillAt_never {P : Nat → Prop} [DecidablePred P] (h : ∀ r ∈ rows, B.isOpen r → ¬ P (B.key r)) :
    B.fillAt P rows = rows := by
  rw [fillAt_congr (Q := fun _ => False) (fun r hr ho => by simp [h r hr ho])]
  simp [fillAt]

/-- A batch fills the rows it was given. -/
theorem Lawful.batch_eq (hB : B.Lawful) (hkeys : (rows.map B.key).Nodup)
    (hnodup : (picked.map B.key).Nodup) (hmem : picked ⊆ rows)
    (hopen : ∀ s ∈ picked, B.isOpen s) (m : Nat) :
    (picked.foldl B.update (rows, m)).1 = B.fillAt (· ∈ picked.map B.key) rows := by
  induction picked generalizing rows m with
  | nil => exact (fillAt_never (by simp)).symm
  | cons s picked ih =>
    have hs : s ∈ rows := hmem List.mem_cons_self
    have hfirst := hB.update_eq hkeys hs (hopen s (by simp)) m
    rw [List.map_cons, List.nodup_cons] at hnodup
    cases hrow : B.update (rows, m) s with | mk rows' m' =>
    obtain rfl : rows' = B.fillAt (· = B.key s) rows := by rw [← hfirst, hrow]
    have hkeys' : ((B.fillAt (· = B.key s) rows).map B.key).Nodup := by rwa [hB.key_fillAt]
    rw [List.foldl_cons, hrow, ih hkeys' hnodup.2 ?_ (fun r hr => hopen r (by simp [hr])),
      fillAt_fillAt hB]
    · simp [fillAt]
    · intro r hr
      have hne : B.key r ≠ B.key s := fun heq =>
        hnodup.1 (heq ▸ List.mem_map_of_mem hr)
      exact List.mem_map.mpr ⟨r, hmem (by simp [hr]), if_neg hne⟩

/-! ## What is selected -/

theorem mem_select (h : r ∈ B.select n cursor rows) :
    r ∈ rows ∧ B.isOpen r ∧ Above cursor (B.key r) := by
  have := List.mem_of_mem_take h
  simpa using this

theorem select_keys_nodup (h : (rows.map B.key).Nodup) :
    ((B.select n cursor rows).map B.key).Nodup := by
  have hfilter : ((rows.filter fun r => B.isOpen r ∧ Above cursor (B.key r)).map B.key).Nodup :=
    (List.filter_sublist.map B.key).nodup h
  have hsort := ((List.perm_insertionSort (fun a b => B.key a ≤ B.key b) _).map B.key).nodup_iff.mpr
    hfilter
  exact ((List.take_sublist n _).map B.key).nodup hsort

/-- What is left out of a selection comes after it. -/
theorem le_of_not_selected (hs : s ∈ B.select n cursor rows) (hr : r ∈ rows) (hopen : B.isOpen r)
    (habove : Above cursor (B.key r)) (hout : r ∉ B.select n cursor rows) : B.key s ≤ B.key r := by
  have hsorted := List.pairwise_insertionSort (fun a b => B.key a ≤ B.key b)
    (rows.filter fun r => B.isOpen r ∧ Above cursor (B.key r))
  have hmem : r ∈ (rows.filter fun r => B.isOpen r ∧ Above cursor (B.key r)).insertionSort
      fun a b => B.key a ≤ B.key b := by
    simp [hr, hopen, habove]
  unfold select at hs hout
  generalize (rows.filter fun r => B.isOpen r ∧ Above cursor (B.key r)).insertionSort
    (fun a b => B.key a ≤ B.key b) = sorted at *
  rw [← List.take_append_drop n sorted] at hsorted hmem
  have hdrop : r ∈ sorted.drop n := (List.mem_append.mp hmem).resolve_left hout
  exact (List.pairwise_append.mp hsorted).2.2 s hs r hdrop

/-- A selection that is not full leaves nothing out. -/
theorem mem_select_of_short (hshort : (B.select n cursor rows).length < n) (hr : r ∈ rows)
    (hopen : B.isOpen r) (habove : Above cursor (B.key r)) : r ∈ B.select n cursor rows := by
  have hmem : r ∈ (rows.filter fun r => B.isOpen r ∧ Above cursor (B.key r)).insertionSort
      fun a b => B.key a ≤ B.key b := by
    simp [hr, hopen, habove]
  unfold select at hshort ⊢
  rw [List.length_take] at hshort
  rwa [List.take_of_length_le (by omega)]

/-! ## The loop -/

theorem loop_nil (h : B.select n cursor rows = []) :
    B.loop n k cursor rows = { rows, left := some k } := by
  rw [loop.eq_def]
  simp [h]

theorem loop_zero (h : B.select n cursor rows ≠ []) :
    B.loop n 0 cursor rows = { rows, left := none } := by
  rw [loop.eq_def]
  simp [h]

/-- The batch that is selected fills its rows, and the loop goes on above it unless it was the
last. -/
theorem Lawful.loop_succ (hB : B.Lawful) (hkeys : (rows.map B.key).Nodup)
    (hpicked : B.select n cursor rows = picked) (hne : picked ≠ []) :
    let after := B.fillAt (· ∈ picked.map B.key) rows
    let rest := B.loop n k (picked.getLast?.map B.key) after
    (B.loop n (k + 1) cursor rows).rows = (if picked.length < n then after else rest.rows) ∧
      (B.loop n (k + 1) cursor rows).left = if picked.length < n then some k else rest.left := by
  have hbatch : (picked.foldl B.update (rows, 0)).1 = B.fillAt (· ∈ picked.map B.key) rows := by
    subst picked
    exact hB.batch_eq hkeys (select_keys_nodup hkeys) (fun _ hr => (mem_select hr).1)
      (fun _ hs => (mem_select hs).2.1) 0
  rw [loop.eq_def]
  simp only [hpicked, hne, if_false, hbatch]
  split <;> exact ⟨rfl, rfl⟩

/-- Whenever it is stopped, the loop has filled some of the rows. -/
theorem Lawful.loop_fills (hB : B.Lawful) (n k : Nat) (cursor : Option Nat)
    (hkeys : (rows.map B.key).Nodup) :
    ∃ ks : List Nat, (B.loop n k cursor rows).rows = B.fillAt (· ∈ ks) rows := by
  induction k generalizing cursor rows with
  | zero =>
    refine ⟨[], ?_⟩
    rw [fillAt_never (by simp)]
    by_cases h : B.select n cursor rows = []
    · rw [loop_nil h]
    · rw [loop_zero h]
  | succ k ih =>
    by_cases h : B.select n cursor rows = []
    · exact ⟨[], by rw [loop_nil h, fillAt_never (by simp)]⟩
    · generalize hpicked : B.select n cursor rows = picked at h
      rw [(hB.loop_succ hkeys hpicked h).1]
      split
      · exact ⟨_, rfl⟩
      · have hkeys' : ((B.fillAt (· ∈ picked.map B.key) rows).map B.key).Nodup := by
          rwa [hB.key_fillAt]
        obtain ⟨ks, hks⟩ := ih (picked.getLast?.map B.key) hkeys'
        refine ⟨picked.map B.key ++ ks, ?_⟩
        simp only [hks, fillAt_fillAt hB, List.mem_append]

/-- A selection of nothing finds no open row. -/
theorem not_above_of_select_nil (hn : 0 < n) (h : B.select n cursor rows = []) (hr : r ∈ rows)
    (hopen : B.isOpen r) : ¬ Above cursor (B.key r) := by
  intro habove
  have := mem_select_of_short (B := B) (by rw [h]; exact hn) hr hopen habove
  rw [h] at this
  cases this

/-- Above the last row of a full batch are the open rows above the cursor that it left out. -/
theorem above_last_iff (hkeys : (rows.map B.key).Nodup) (hs : (B.select n cursor rows).getLast? = some s)
    (hr : r ∈ rows) (hopen : B.isOpen r) :
    (B.key r ∈ (B.select n cursor rows).map B.key ∨ Above (some (B.key s)) (B.key r)) ↔
      Above cursor (B.key r) := by
  have hlast : s ∈ B.select n cursor rows := List.mem_of_getLast? hs
  obtain ⟨hsrows, -, hsabove⟩ := mem_select hlast
  constructor
  · rintro (hin | hlt)
    · obtain ⟨q, hq, hkey⟩ := List.mem_map.mp hin
      exact hkey ▸ (mem_select hq).2.2
    · exact fun c hc => (hsabove c hc).trans (hlt _ rfl)
  · intro habove
    by_cases hin : r ∈ B.select n cursor rows
    · exact .inl (List.mem_map_of_mem hin)
    · right
      rintro c ⟨rfl⟩
      have hne : B.key s ≠ B.key r := fun heq => hin (key_injective hkeys hsrows hr heq ▸ hlast)
      have := le_of_not_selected hlast hr hopen habove hin
      omega

/-- The loop that comes to its end has filled all rows above the cursor. -/
theorem Lawful.loop_complete (hB : B.Lawful) (hn : 0 < n) (hkeys : (rows.map B.key).Nodup)
    (hend : (B.loop n k cursor rows).left.isSome) :
    (B.loop n k cursor rows).rows = B.fillAt (Above cursor) rows := by
  have hempty : ∀ {k cursor} {rows : List α}, B.select n cursor rows = [] →
      (B.loop n k cursor rows).rows = B.fillAt (Above cursor) rows := by
    intro k cursor rows h
    rw [loop_nil h]
    exact (fillAt_never fun r hr hopen => not_above_of_select_nil hn h hr hopen).symm
  induction k generalizing cursor rows with
  | zero =>
    by_cases h : B.select n cursor rows = []
    · exact hempty h
    · rw [loop_zero h] at hend
      cases hend
  | succ k ih =>
    by_cases h : B.select n cursor rows = []
    · exact hempty h
    · have hstep := hB.loop_succ (k := k) hkeys rfl h
      simp only [hstep] at hend ⊢
      split
      · rename_i hshort
        refine fillAt_congr fun r hr hopen => ⟨fun hin => ?_, fun habove => ?_⟩
        · obtain ⟨q, hq, hkey⟩ := List.mem_map.mp hin
          exact hkey ▸ (mem_select hq).2.2
        · exact List.mem_map_of_mem (mem_select_of_short hshort hr hopen habove)
      · rename_i hfull
        rw [if_neg hfull] at hend
        obtain ⟨s, hs⟩ : ∃ s, (B.select n cursor rows).getLast? = some s :=
          ⟨_, List.getLast?_eq_some_getLast h⟩
        rw [ih (by rwa [hB.key_fillAt]) hend, fillAt_fillAt hB, hs]
        exact fillAt_congr fun r hr hopen => above_last_iff hkeys hs hr hopen

theorem countP_above_lt {keys : List Nat} {c : Nat} (hmem : c ∈ keys) (habove : Above cursor c) :
    keys.countP (Above (some c) ·) < keys.countP (Above cursor ·) := by
  have hmono : ∀ m, Above (some c) m → Above cursor m := fun m hm d hd => (habove d hd).trans (hm c rfl)
  have hself : ¬ Above (some c) c := fun h => (h c rfl).false
  induction keys with
  | nil => cases hmem
  | cons m keys ih =>
    have hle : keys.countP (Above (some c) ·) ≤ keys.countP (Above cursor ·) :=
      List.countP_mono_left fun m _ => by simpa using hmono m
    have := hmono m
    simp only [List.countP_cons]
    grind

/-- With a batch for every row above the cursor and `j` more, the loop comes to its end and leaves
at least `j`. -/
theorem Lawful.loop_ends (hB : B.Lawful) (n : Nat) (cursor : Option Nat) {j : Nat}
    (hkeys : (rows.map B.key).Nodup)
    (hk : (rows.map B.key).countP (Above cursor ·) + j ≤ k) :
    ∃ k', (B.loop n k cursor rows).left = some k' ∧ j ≤ k' := by
  induction k generalizing cursor rows with
  | zero =>
    have hnone : B.select n cursor rows = [] := by
      refine List.eq_nil_iff_forall_not_mem.mpr fun r hr => ?_
      obtain ⟨hmem, -, habove⟩ := mem_select hr
      have hcount : (rows.map B.key).countP (Above cursor ·) = 0 := by omega
      exact List.countP_eq_zero.mp hcount _ (List.mem_map_of_mem hmem) (by simpa using habove)
    exact ⟨0, by rw [loop_nil hnone], by omega⟩
  | succ k ih =>
    by_cases h : B.select n cursor rows = []
    · exact ⟨k + 1, by rw [loop_nil h], by omega⟩
    · obtain ⟨s, hs⟩ : ∃ s, (B.select n cursor rows).getLast? = some s :=
        ⟨_, List.getLast?_eq_some_getLast h⟩
      obtain ⟨hmem, -, habove⟩ := mem_select (List.mem_of_getLast? hs)
      have hlt := countP_above_lt (List.mem_map_of_mem (f := B.key) hmem) habove
      rw [(hB.loop_succ hkeys rfl h).2]
      split
      · exact ⟨k, rfl, by omega⟩
      · refine ih _ (by rwa [hB.key_fillAt]) ?_
        rw [hB.key_fillAt, hs, Option.map_some]
        omega

/-- There is nothing to do for rows that are filled. -/
theorem fillAt_filled {P : Nat → Prop} [DecidablePred P] (h : ∀ r ∈ rows, B.filled r = r) :
    B.fillAt P rows = rows := by
  have hkeep : ∀ r ∈ rows, (if P (B.key r) then B.filled r else r) = r := by
    intro r hr
    rw [h r hr, ite_self]
  simp [fillAt, List.map_congr_left hkeep]

end Laws

end Backfill

end Pwos
