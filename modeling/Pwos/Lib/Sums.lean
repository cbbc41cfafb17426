import Mathlib.Algebra.Order.BigOperators.Group.List
import Mathlib.Data.List.Nodup
import Mathlib.Tactic

/-!
# Sums over selected rows

`((rows.filter p).map f).sum` is what `select sum(f) from rows where p` computes. How such
sums split over the rows, by the value of a column, and over two tables joined by a key.
-/

namespace Pwos

section Sums
variable {α κ M : Type} [AddCommMonoid M]

theorem sum_filter_cons (p : α → Bool) (f : α → M) (x : α) (xs : List α) :
    (((x :: xs).filter p).map f).sum = (if p x then f x else 0) + ((xs.filter p).map f).sum := by
  by_cases h : p x <;> simp [h]

theorem sum_filter_single (p : α → Bool) (f : α → M) (x : α) :
    (([x].filter p).map f).sum = if p x then f x else 0 := by
  rw [sum_filter_cons, List.filter_nil, List.map_nil, List.sum_nil, add_zero]

theorem sum_filter_eq_zero {p : α → Bool} {xs : List α} (h : ∀ x ∈ xs, p x = false) (f : α → M) :
    ((xs.filter p).map f).sum = 0 := by
  rw [List.filter_eq_nil_iff.mpr (by simpa using h)]; rfl

/-- A sum over some rows, over those that satisfy `q` and those that do not. -/
theorem sum_filter_split (p q : α → Bool) (f : α → M) (xs : List α) :
    ((xs.filter p).map f).sum =
      ((xs.filter fun x => p x && q x).map f).sum +
        ((xs.filter fun x => p x && !q x).map f).sum := by
  induction xs with
  | nil => simp
  | cons x xs ih =>
    rw [sum_filter_cons, sum_filter_cons, sum_filter_cons, ih]
    cases p x <;> cases q x <;> simp [add_left_comm, add_assoc]

theorem sum_filter_eq_ite (p : α → Bool) (f : α → M) (xs : List α) :
    ((xs.filter p).map f).sum = (xs.map fun x => if p x then f x else 0).sum := by
  induction xs with
  | nil => rfl
  | cons x xs ih => rw [sum_filter_cons, ih, List.map_cons, List.sum_cons]

/-- A sum after one row is replaced. -/
theorem sum_map_set (f : α → M) {xs : List α} {i : Nat} {x : α} (h : xs[i]? = some x) (y : α) :
    ((xs.set i y).map f).sum + f x = (xs.map f).sum + f y := by
  induction xs generalizing i with
  | nil => simp at h
  | cons z xs ih =>
    cases i with
    | zero =>
      obtain rfl : z = x := by simpa using h
      simp only [List.set_cons_zero, List.map_cons, List.sum_cons]
      rw [add_right_comm, add_comm (f y), add_right_comm, add_comm (f z)]
    | succ i =>
      simp only [List.set_cons_succ, List.map_cons, List.sum_cons, add_assoc]
      rw [ih (by simpa using h)]

variable [DecidableEq κ]

theorem sum_ite_eq_zero {keys : List κ} {i : κ} (h : i ∉ keys) (m : M) :
    (keys.map fun k => if i = k then m else 0).sum = 0 := by
  apply List.sum_eq_zero
  intro y hy
  obtain ⟨k, hk, rfl⟩ := List.mem_map.mp hy
  rw [if_neg]
  rintro rfl
  exact h hk

theorem sum_ite_eq_single {keys : List κ} (hnd : keys.Nodup) {i : κ} (h : i ∈ keys) (m : M) :
    (keys.map fun k => if i = k then m else 0).sum = m := by
  induction keys with
  | nil => cases h
  | cons j keys ih =>
    obtain ⟨hj, hnd⟩ := List.nodup_cons.mp hnd
    rw [List.map_cons, List.sum_cons]
    by_cases hij : i = j
    · rw [if_pos hij, sum_ite_eq_zero (hij ▸ hj), add_zero]
    · rw [if_neg hij, zero_add, ih hnd ((List.mem_cons.mp h).resolve_left hij)]

/-- Grouping: a sum over the rows whose key is one of `keys`, key by key. -/
theorem sum_group {keys : List κ} (hnd : keys.Nodup) (key : α → κ) (f : α → M) (xs : List α) :
    ((xs.filter fun x => decide (key x ∈ keys)).map f).sum =
      (keys.map fun k => ((xs.filter fun x => decide (key x = k)).map f).sum).sum := by
  induction xs with
  | nil => simp
  | cons x xs ih =>
    simp only [sum_filter_cons, List.sum_map_add, ih, decide_eq_true_eq]
    congr 1
    by_cases h : key x ∈ keys
    · rw [if_pos h, sum_ite_eq_single hnd h]
    · rw [if_neg h, sum_ite_eq_zero h]

/-- A sum over the rows that some keys have, for one of the keys. -/
theorem sum_filterMap_key {f : κ → Option α}
    {key : α → κ} (hkey : ∀ k x, f k = some x → key x = k) {keys : List κ} (hnd : keys.Nodup)
    (g : α → M) (i : κ) : (((keys.filterMap f).filter (key · = i)).map g).sum =
      if i ∈ keys then ((f i).map g).getD 0 else 0 := by
  induction keys with
  | nil => simp
  | cons k keys ih =>
    obtain ⟨hk, hnd⟩ := List.nodup_cons.mp hnd
    have hrest := ih hnd
    cases hx : f k with
    | none =>
      rw [List.filterMap_cons_none hx, hrest]
      by_cases hik : i = k
      · subst hik
        simp [hk, hx]
      · simp [hik]
    | some x =>
      rw [List.filterMap_cons_some hx]
      by_cases hik : i = k
      · subst hik
        rw [if_neg hk] at hrest
        simp [hkey i x hx, hx, hrest]
      · have hne : key x ≠ i := fun h => hik (h.symm.trans (hkey k x hx))
        rw [List.filter_cons_of_neg (by simpa using hne), hrest]
        simp [hik]

end Sums

/-- A figure to which every step of a loop adds its own. -/
theorem foldl_figure {σ α M : Type} [AddMonoid M] {step : σ → α → σ} {f : σ → M} {w : α → M}
    (h : ∀ s x, f (step s x) = f s + w x) (s : σ) (xs : List α) :
    f (xs.foldl step s) = f s + (xs.map w).sum := by
  induction xs generalizing s with
  | nil => simp
  | cons x xs ih => rw [List.foldl_cons, ih, h, List.map_cons, List.sum_cons, add_assoc]

/-- A list to which every step of a loop appends its own. -/
theorem foldl_appended {σ α β : Type} {step : σ → α → σ} {f : σ → List β} {w : α → List β}
    (h : ∀ s x, f (step s x) = f s ++ w x) (s : σ) (xs : List α) :
    f (xs.foldl step s) = f s ++ xs.flatMap w := by
  induction xs generalizing s with
  | nil => simp
  | cons x xs ih => rw [List.foldl_cons, ih, h, List.flatMap_cons, List.append_assoc]

theorem sum_flatMap {α M : Type} [AddMonoid M] (f : α → List M) (xs : List α) :
    (xs.flatMap f).sum = (xs.map fun x => (f x).sum).sum := by
  induction xs with
  | nil => rfl
  | cons x xs ih => rw [List.flatMap_cons, List.sum_append, ih, List.map_cons, List.sum_cons]

theorem sum_modify {M : Type} [AddCommMonoid M] {l : List M} {i : Nat} (h : i < l.length) (a : M) :
    (l.modify i (· + a)).sum = l.sum + a := by
  induction l generalizing i with
  | nil => cases h
  | cons x l ih =>
    cases i with
    | zero => simp [add_right_comm]
    | succ i => simp [ih (Nat.lt_of_succ_lt_succ h), add_assoc]

theorem modify_add_comm {M : Type} [AddCommMonoid M] (l : List M) (i j : Nat) (a b : M) :
    (l.modify i (· + a)).modify j (· + b) = (l.modify j (· + b)).modify i (· + a) := by
  apply List.ext_getElem?
  intro k
  simp only [List.getElem?_modify]
  cases l[k]? with
  | none => simp
  | some x => split_ifs <;> simp [add_right_comm]

theorem sum_map_neg {α M : Type} [AddCommGroup M] (f : α → M) (xs : List α) :
    (xs.map fun x => -f x).sum = -(xs.map f).sum := by
  induction xs with
  | nil => simp
  | cons x xs ih => simp [ih, add_comm]

theorem sum_map_sub {α M : Type} [AddCommGroup M] (f g : α → M) (xs : List α) :
    (xs.map fun x => f x - g x).sum = (xs.map f).sum - (xs.map g).sum := by
  induction xs with
  | nil => simp
  | cons x xs ih => simp only [List.map_cons, List.sum_cons, ih]; abel

theorem sum_eq_zero_iff_of_nonneg {α M : Type} [AddCommGroup M] [LinearOrder M]
    [IsOrderedAddMonoid M] {f : α → M} {xs : List α} (h : ∀ x ∈ xs, 0 ≤ f x) :
    (xs.map f).sum = 0 ↔ ∀ x ∈ xs, f x = 0 := by
  constructor
  · intro hsum x hx
    refine List.all_zero_of_le_zero_le_of_sum_eq_zero ?_ hsum (List.mem_map_of_mem hx)
    intro y hy
    obtain ⟨z, hz, rfl⟩ := List.mem_map.mp hy
    exact h z hz
  · intro hzero
    apply List.sum_eq_zero
    intro y hy
    obtain ⟨z, hz, rfl⟩ := List.mem_map.mp hy
    exact hzero z hz

/-- A sum of terms within `[-b, b]`. -/
theorem sum_within {M : Type} [AddCommGroup M] [LinearOrder M] [IsOrderedAddMonoid M] {b : M}
    {ms : List M} (h : ∀ m ∈ ms, -b ≤ m ∧ m ≤ b) :
    -(ms.length • b) ≤ ms.sum ∧ ms.sum ≤ ms.length • b := by
  refine ⟨?_, List.sum_le_card_nsmul ms b fun m hm => (h m hm).2⟩
  rw [← smul_neg]
  exact List.card_nsmul_le_sum ms (-b) fun m hm => (h m hm).1

/-- Some term is no more than its share of the sum. -/
theorem exists_ratio_le {α R : Type} [CommRing R] [LinearOrder R] [IsStrictOrderedRing R]
    {xs : List α} (hne : xs ≠ []) (f g : α → R) :
    ∃ x ∈ xs, f x * (xs.map g).sum ≤ (xs.map f).sum * g x := by
  by_contra hall
  push Not at hall
  have hlt := List.sum_lt_sum_of_ne_nil hne (fun x => (xs.map f).sum * g x)
    (fun x => f x * (xs.map g).sum) hall
  rw [List.sum_map_mul_left, List.sum_map_mul_right] at hlt
  exact lt_irrefl _ hlt

/-- And some term is no less. -/
theorem exists_le_ratio {α R : Type} [CommRing R] [LinearOrder R] [IsStrictOrderedRing R]
    {xs : List α} (hne : xs ≠ []) (f g : α → R) :
    ∃ x ∈ xs, (xs.map f).sum * g x ≤ f x * (xs.map g).sum := by
  obtain ⟨x, hx, hle⟩ := exists_ratio_le hne g f
  exact ⟨x, hx, by linarith⟩

end Pwos
