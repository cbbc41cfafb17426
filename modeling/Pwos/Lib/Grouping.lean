import Pwos.Lib.OrderedMap
import Pwos.Lib.Sums

/-!
# Grouping in one pass

Items are put one by one into the group of their key, in a map that keeps the order in which the
keys came in. A group holds what its own items make of it, so the groups are the same, up to that
order, however the items are ordered.
-/

namespace Pwos

section Grouping
variable {κ α ι M : Type} [DecidableEq κ] (key : ι → κ) (start : α) (add : α → ι → α)

/-- Put one item into its group. -/
def groupOne (m : OrderedMap κ α) (x : ι) : OrderedMap κ α :=
  m.set (key x) (add ((m.lookup (key x)).getD start) x)

def groupInto (xs : List ι) : OrderedMap κ α := xs.foldl (groupOne key start add) .empty

/-- What the items of a key make of a group. -/
def groupOf (xs : List ι) (k : κ) : α := (xs.filter fun x => key x = k).foldl add start

variable {key start add} {xs ys : List ι} {k : κ} {x : ι}

theorem groupOf_concat_self : groupOf key start add (xs ++ [x]) (key x) =
    add (groupOf key start add xs (key x)) x := by
  simp [groupOf, List.filter_append]

theorem groupOf_concat_of_ne (h : key x ≠ k) :
    groupOf key start add (xs ++ [x]) k = groupOf key start add xs k := by
  simp [groupOf, List.filter_append, h]

theorem groupOf_of_notMem (h : k ∉ xs.map key) : groupOf key start add xs k = start := by
  have hnone : (xs.filter fun x => key x = k) = [] := by
    refine List.filter_eq_nil_iff.mpr fun x hx => ?_
    simp only [decide_eq_true_eq]
    rintro rfl
    exact h (List.mem_map_of_mem hx)
  rw [groupOf, hnone, List.foldl_nil]

theorem lookup_groupInto (xs : List ι) (k : κ) : (groupInto key start add xs).lookup k =
    if k ∈ xs.map key then some (groupOf key start add xs k) else none := by
  induction xs using List.reverseRecOn with
  | nil => simp [groupInto]
  | append_singleton xs x ih =>
    have hstep : groupInto key start add (xs ++ [x]) =
        groupOne key start add (groupInto key start add xs) x := List.foldl_concat ..
    rw [hstep, groupOne]
    by_cases hk : k = key x
    · subst hk
      have hvalue : ((groupInto key start add xs).lookup (key x)).getD start =
          groupOf key start add xs (key x) := by
        rw [ih]
        split
        · rfl
        · exact (groupOf_of_notMem ‹_›).symm
      rw [OrderedMap.lookup_set_self, hvalue, groupOf_concat_self,
        if_pos (List.mem_map_of_mem (by simp))]
    · rw [OrderedMap.lookup_set_of_ne hk, ih, groupOf_concat_of_ne (Ne.symm hk)]
      simp [hk]

/-- The groups, one for each key. -/
theorem groupInto_perm (xs : List ι) : (groupInto key start add xs).entries.Perm
    ((xs.map key).dedup.map fun k => (k, groupOf key start add xs k)) := by
  have hleft : (groupInto key start add xs).entries.Nodup :=
    (groupInto key start add xs).nodup.of_map _
  have hright : ((xs.map key).dedup.map fun k => (k, groupOf key start add xs k)).Nodup :=
    (List.nodup_dedup _).map fun a b h => congrArg Prod.fst h
  rw [List.perm_ext_iff_of_nodup hleft hright]
  rintro ⟨k, g⟩
  rw [← OrderedMap.lookup_eq_some, lookup_groupInto]
  refine Iff.trans ?_ List.mem_map.symm
  constructor
  · intro h
    split at h
    · exact ⟨k, List.mem_dedup.mpr ‹_›, Prod.ext rfl (Option.some.inj h)⟩
    · cases h
  · rintro ⟨j, hj, heq⟩
    cases heq
    rw [if_pos (List.mem_dedup.mp hj)]

theorem eq_groupOf {e : κ × α} (h : e ∈ (groupInto key start add xs).entries) :
    e.2 = groupOf key start add xs e.1 := by
  obtain ⟨k, -, rfl⟩ := List.mem_map.mp ((groupInto_perm xs).mem_iff.mp h)
  rfl

/-- Whatever an item adds to its group is added up over the groups. -/
theorem sum_groupInto [AddCommMonoid M] {f : α → M} {w : ι → M} (hstart : f start = 0)
    (hadd : ∀ g x, f (add g x) = f g + w x) (xs : List ι) :
    ((groupInto key start add xs).entries.map fun e => f e.2).sum = (xs.map w).sum := by
  have hgroup : ∀ l : List ι, f (l.foldl add start) = (l.map w).sum := by
    intro l
    induction l using List.reverseRecOn with
    | nil => exact hstart
    | append_singleton l x ih => rw [List.foldl_concat, hadd, ih]; simp
  rw [((groupInto_perm xs).map _).sum_eq, List.map_map]
  have hkeys : (xs.filter fun x => decide (key x ∈ (xs.map key).dedup)) = xs := by
    refine List.filter_eq_self.mpr fun x hx => ?_
    simpa using ⟨x, hx, rfl⟩
  calc ((xs.map key).dedup.map fun k => f (groupOf key start add xs k)).sum
      = ((xs.map key).dedup.map fun k => ((xs.filter fun x => decide (key x = k)).map w).sum).sum :=
        congrArg List.sum (List.map_congr_left fun k _ => hgroup _)
    _ = ((xs.filter fun x => decide (key x ∈ (xs.map key).dedup)).map w).sum :=
        (sum_group (List.nodup_dedup _) key w xs).symm
    _ = (xs.map w).sum := by rw [hkeys]

theorem groupOf_perm {β : Type} {g : α → β} (h : xs.Perm ys)
    (hg : ∀ l l' : List ι, l.Perm l' → g (l.foldl add start) = g (l'.foldl add start)) (k : κ) :
    g (groupOf key start add xs k) = g (groupOf key start add ys k) :=
  hg _ _ (h.filter _)

variable (key start add) in
/-- What can be read off a group in any order of its items, can be read off all in any order. -/
theorem groupInto_perm_of_perm {β : Type} {g : α → β} (h : xs.Perm ys)
    (hg : ∀ l l' : List ι, l.Perm l' → g (l.foldl add start) = g (l'.foldl add start)) :
    ((groupInto key start add xs).entries.map fun e => (e.1, g e.2)).Perm
      ((groupInto key start add ys).entries.map fun e => (e.1, g e.2)) := by
  have hread : ∀ zs : List ι, ((groupInto key start add zs).entries.map fun e => (e.1, g e.2)).Perm
      ((zs.map key).dedup.map fun k => (k, g (groupOf key start add zs k))) := by
    intro zs
    have hgroups : (groupInto key start add zs).entries.Perm _ := groupInto_perm zs
    simpa [List.map_map, Function.comp_def] using hgroups.map fun e => (e.1, g e.2)
  refine (hread xs).trans (List.Perm.trans ?_ (hread ys).symm)
  have hsame : (fun k => (k, g (groupOf key start add xs k))) =
      fun k => (k, g (groupOf key start add ys k)) :=
    funext fun k => Prod.ext rfl (groupOf_perm h hg k)
  rw [hsame]
  exact ((h.map key).dedup).map _

end Grouping

end Pwos
