import Mathlib.Data.List.Sort
import Mathlib.Tactic

/-!
# Stable sorting by a preorder

Sorting by a total preorder leaves elements that tie in the order they came in. So two lists
are sorted into one list exactly when each class of ties stands in them as the same subsequence
(`insertionSort_eq_iff`).
-/

namespace Pwos

variable {α : Type} {r : α → α → Prop}

def Ties (r : α → α → Prop) (a b : α) : Prop := r a b ∧ r b a

instance [DecidableRel r] : DecidableRel (Ties r) :=
  fun _ _ => inferInstanceAs (Decidable (_ ∧ _))

variable {a b : α} {xs ys : List α} [DecidableRel r]

/-- The elements that tie with `a`, in their order. -/
def tiesWith (r : α → α → Prop) [DecidableRel r] (a : α) (xs : List α) : List α :=
  xs.filter fun b => Ties r a b

theorem mem_tiesWith : b ∈ tiesWith r a xs ↔ b ∈ xs ∧ Ties r a b := by
  simp [tiesWith]

theorem pairwise_tiesWith [IsTrans α r] : (tiesWith r a xs).Pairwise r := by
  apply List.pairwise_of_forall_mem_list
  intro b hb c hc
  have hab : r b a := (mem_tiesWith.mp hb).2.2
  exact trans_of r hab (mem_tiesWith.mp hc).2.1

/-- Sorting keeps the order of ties. -/
theorem tiesWith_insertionSort [Std.Total r] [IsTrans α r] :
    tiesWith r a (xs.insertionSort r) = tiesWith r a xs := by
  have hsub : (tiesWith r a xs).Sublist (xs.insertionSort r) :=
    List.sublist_insertionSort pairwise_tiesWith List.filter_sublist
  have hties : (tiesWith r a xs).Sublist (tiesWith r a (xs.insertionSort r)) := by
    have hfilter := hsub.filter fun b => Ties r a b
    simpa only [tiesWith, List.filter_filter, Bool.and_self] using hfilter
  have hperm := (List.perm_insertionSort r xs).filter fun b => Ties r a b
  exact (hties.eq_of_length hperm.length_eq.symm).symm

theorem mem_iff_of_tiesWith_eq [Std.Refl r] (h : tiesWith r a xs = tiesWith r a ys) :
    a ∈ xs ↔ a ∈ ys := by
  have hself : Ties r a a := ⟨refl_of r a, refl_of r a⟩
  have hxs : a ∈ tiesWith r a xs ↔ a ∈ xs := by simp [mem_tiesWith, hself]
  have hys : a ∈ tiesWith r a ys ↔ a ∈ ys := by simp [mem_tiesWith, hself]
  rw [← hxs, ← hys, h]

/-- A sorted list is known from its classes of ties. -/
theorem eq_of_tiesWith_eq [Std.Refl r] (hxs : xs.Pairwise r) (hys : ys.Pairwise r)
    (h : ∀ a, tiesWith r a xs = tiesWith r a ys) : xs = ys := by
  have hmem : ∀ a, a ∈ xs ↔ a ∈ ys := fun a => mem_iff_of_tiesWith_eq (h a)
  induction xs generalizing ys with
  | nil => exact (List.eq_nil_iff_forall_not_mem.mpr fun b hb =>
      List.not_mem_nil ((hmem b).mpr hb)).symm
  | cons a xs ih =>
    cases ys with
    | nil => exact absurd ((hmem a).mp List.mem_cons_self) List.not_mem_nil
    | cons b ys =>
      rw [List.pairwise_cons] at hxs hys
      have hself : ∀ c, r c c := refl_of r
      -- each head stands in the other list, so the two heads tie
      have hab : Ties r a b := by
        have ha := (hmem a).mp List.mem_cons_self
        have hb := (hmem b).mpr List.mem_cons_self
        exact ⟨by grind, by grind⟩
      have hhead : a = b := by
        have hclass := h a
        grind [tiesWith, Ties]
      subst hhead
      have htails : ∀ c, tiesWith r c xs = tiesWith r c ys := by
        intro c
        have hclass := h c
        grind [tiesWith]
      rw [ih hxs.2 hys.2 htails fun c => mem_iff_of_tiesWith_eq (htails c)]

theorem insertionSort_eq_iff [Std.Total r] [IsTrans α r] :
    xs.insertionSort r = ys.insertionSort r ↔ ∀ a, tiesWith r a xs = tiesWith r a ys := by
  constructor
  · intro h a
    rw [← tiesWith_insertionSort, h, tiesWith_insertionSort]
  · intro h
    apply eq_of_tiesWith_eq (List.pairwise_insertionSort r xs) (List.pairwise_insertionSort r ys)
    intro a
    rw [tiesWith_insertionSort, tiesWith_insertionSort, h a]

/-- Lists with the same classes of ties hold the same elements. -/
theorem perm_of_tiesWith_eq [Std.Total r] [IsTrans α r]
    (h : ∀ a, tiesWith r a xs = tiesWith r a ys) : xs.Perm ys := by
  have hsorted := insertionSort_eq_iff.mpr h
  exact (List.perm_insertionSort r xs).symm.trans (hsorted ▸ List.perm_insertionSort r ys)

/-- Where elements that tie are equal, the order of the list does not matter. -/
theorem tiesWith_eq_of_perm [IsTrans α r] (h : xs.Perm ys)
    (hties : ∀ b ∈ xs, ∀ c ∈ xs, Ties r b c → b = c) : ∀ a, tiesWith r a xs = tiesWith r a ys := by
  intro a
  apply List.Perm.eq_of_pairwise _ pairwise_tiesWith pairwise_tiesWith (h.filter _)
  intro b c hb hc hbc hcb
  have hcx : c ∈ xs := h.mem_iff.mpr (mem_tiesWith.mp hc).1
  exact hties b (mem_tiesWith.mp hb).1 c hcx ⟨hbc, hcb⟩

end Pwos
