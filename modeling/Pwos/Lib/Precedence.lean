import Mathlib.Data.Set.Finite.List
import Mathlib.Order.WellFounded
import Mathlib.Tactic

/-!
# What comes first

A list in which each element stands after what it needs. Such a list can be laid out layer by
layer: whatever needs only what is placed can be placed next (`NeedsFirst.append`). It shows that
no element needs itself over others (`NeedsFirst.acyclic`), and where a layer would be empty some
element does (`exists_cycle`).
-/

namespace Pwos

variable {α : Type*} {r : α → α → Prop} {xs ys : List α}

/-- Each element stands after the elements it needs. -/
def NeedsFirst (r : α → α → Prop) (xs : List α) : Prop :=
  ∀ placed a rest, xs = placed ++ a :: rest → ∀ b, r a b → b ∈ placed

namespace NeedsFirst

theorem nil : NeedsFirst r [] := by
  intro placed a rest h
  simp at h

/-- A layer that needs only what is placed. -/
theorem append (hxs : NeedsFirst r xs) (hys : ∀ a ∈ ys, ∀ b, r a b → b ∈ xs) :
    NeedsFirst r (xs ++ ys) := by
  intro placed a rest h b hab
  rcases List.append_eq_append_iff.mp h with ⟨more, rfl, hmore⟩ | ⟨more, hplaced, hmore⟩
  · have ha : a ∈ ys := by simp [hmore]
    exact List.mem_append_left _ (hys a ha b hab)
  · cases more with
    | nil =>
      rw [List.nil_append] at hmore
      have ha : a ∈ ys := hmore ▸ List.mem_cons_self
      simpa [hplaced] using hys a ha b hab
    | cons c more =>
      rw [List.cons_append, List.cons.injEq] at hmore
      rw [hplaced, ← hmore.1] at hxs
      exact hxs placed a more rfl b hab

theorem mem (hxs : NeedsFirst r xs) {a b : α} (ha : a ∈ xs) (h : r a b) : b ∈ xs := by
  obtain ⟨placed, rest, rfl⟩ := List.append_of_mem ha
  exact List.mem_append_left _ (hxs placed a rest rfl b h)

/-- What is needed over others comes first, too. -/
theorem transGen (hxs : NeedsFirst r xs) : NeedsFirst (Relation.TransGen r) xs := by
  intro placed a rest h b hab
  induction hab with
  | single hab => exact hxs placed a rest h _ hab
  | tail _ hbc ih =>
    obtain ⟨before, after, rfl⟩ := List.append_of_mem ih
    have hb := hxs before _ (after ++ a :: rest) (by rw [h]; simp) _ hbc
    exact List.mem_append_left _ hb

theorem acyclic (hxs : NeedsFirst r xs) (hmem : ∀ a b, r a b → a ∈ xs) (a : α) :
    ¬ Relation.TransGen r a a := by
  intro h
  have ha : a ∈ xs := by
    obtain ⟨b, hab, -⟩ := Relation.TransGen.head'_iff.mp h
    exact hmem a b hab
  -- the first time `a` is placed, it is not placed yet
  obtain ⟨placed, rest, hxs', hfirst⟩ := List.eq_append_cons_of_mem ha
  exact hfirst (hxs.transGen placed a rest hxs' a h)

end NeedsFirst

/-- Where every one of finitely many needs another of them, some need themselves. -/
theorem exists_cycle (hne : xs ≠ []) (h : ∀ a ∈ xs, ∃ b ∈ xs, r a b) :
    ∃ a, Relation.TransGen r a a := by
  by_contra hnone
  push Not at hnone
  let below (a b : {a // a ∈ xs}) : Prop := Relation.TransGen r b.1 a.1
  have htrans : IsTrans _ below := ⟨fun a b c hab hbc => hbc.trans hab⟩
  have hirrefl : Std.Irrefl below := ⟨fun a => hnone a.1⟩
  have : Finite {a // a ∈ xs} := (List.finite_toSet xs).to_subtype
  have hwf : WellFounded below := Finite.wellFounded_of_trans_of_irrefl below
  have : Nonempty {a // a ∈ xs} := ⟨⟨xs.head hne, List.head_mem hne⟩⟩
  obtain ⟨⟨a, ha⟩, -, hmin⟩ := hwf.has_min Set.univ Set.univ_nonempty
  obtain ⟨b, hb, hab⟩ := h a ha
  exact hmin ⟨b, hb⟩ trivial (.single hab)

end Pwos
