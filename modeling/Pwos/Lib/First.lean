import Mathlib.Data.List.Sort
import Mathlib.Tactic

/-!
# The first row

`order by … limit 1`, or the row that `distinct on` keeps. What it is after another row has been
added depends on where the new row comes in the order.
-/

namespace Pwos

section First
variable {α : Type} (r : α → α → Prop) [DecidableRel r]

/-- The first of the rows in the order. -/
def firstBy (rows : List α) : Option α := (rows.insertionSort r).head?

variable {r} {rows : List α} {a b : α}

theorem mem_of_firstBy (h : firstBy r rows = some a) : a ∈ rows := by
  have hmem := List.mem_of_mem_head? h
  rwa [List.mem_insertionSort] at hmem

theorem firstBy_eq_none_iff : firstBy r rows = none ↔ rows = [] := by
  rw [firstBy, List.head?_eq_none_iff]
  constructor
  · intro h
    exact List.perm_nil.mp (h ▸ (List.perm_insertionSort r rows).symm)
  · rintro rfl
    rfl

variable [Std.Total r] [IsTrans α r]

theorem firstBy_le (h : firstBy r rows = some a) (hb : b ∈ rows) : r a b := by
  have hsorted := List.pairwise_insertionSort r rows
  have hmem : b ∈ rows.insertionSort r := (List.mem_insertionSort r).mpr hb
  unfold firstBy at h
  generalize rows.insertionSort r = sorted at *
  cases sorted with
  | nil => cases h
  | cons c cs =>
    obtain rfl : c = a := Option.some.inj h
    rcases List.mem_cons.mp hmem with rfl | hmem
    · exact (Std.Total.total (r := r) b b).elim id id
    · exact (List.pairwise_cons.mp hsorted).1 b hmem

/-- A row that no other comes before is the first. -/
theorem firstBy_eq_some (ha : a ∈ rows) (h : ∀ b ∈ rows, r b a → b = a) :
    firstBy r rows = some a := by
  cases hfirst : firstBy r rows with
  | none =>
    rw [firstBy_eq_none_iff.mp hfirst] at ha
    cases ha
  | some b => rw [h b (mem_of_firstBy hfirst) (firstBy_le hfirst ha)]

/-- A new row that comes before all others. -/
theorem firstBy_concat_new (h : ∀ b ∈ rows, ¬ r b a) : firstBy r (rows ++ [a]) = some a := by
  refine firstBy_eq_some (by simp) fun b hb hba => ?_
  rcases List.mem_append.mp hb with hb | hb
  · exact absurd hba (h b hb)
  · exact List.mem_singleton.mp hb

/-- A new row that comes after the first, where no two rows are in one place. -/
theorem firstBy_concat_old (hapart : ∀ b ∈ rows, ∀ c ∈ rows, r b c → r c b → b = c)
    (hb : firstBy r rows = some b) (h : ¬ r a b) : firstBy r (rows ++ [a]) = some b := by
  have hmem := mem_of_firstBy hb
  refine firstBy_eq_some (List.mem_append_left _ hmem) fun c hc hcb => ?_
  rcases List.mem_append.mp hc with hc | hc
  · exact hapart c hc b hmem hcb (firstBy_le hb hc)
  · obtain rfl := List.mem_singleton.mp hc
    exact absurd hcb h

end First

end Pwos
