import Mathlib.Data.List.Nodup
import Mathlib.Tactic

/-!
# Maps that keep the order of insertion

A map lists its entries in the order in which the keys came in. To set a key that is there
changes its value in place.
-/

namespace Pwos

structure OrderedMap (κ α : Type) where
  entries : List (κ × α)
  nodup : (entries.map Prod.fst).Nodup

namespace OrderedMap
variable {κ α : Type} [DecidableEq κ] {m : OrderedMap κ α} {k j : κ} {v : α}

def empty : OrderedMap κ α := ⟨[], List.nodup_nil⟩

def size (m : OrderedMap κ α) : Nat := m.entries.length

def lookup (m : OrderedMap κ α) (k : κ) : Option α :=
  (m.entries.find? (·.1 = k)).map Prod.snd

/-- Keep the entries that pass. -/
def filter (p : κ → α → Bool) (m : OrderedMap κ α) : OrderedMap κ α :=
  ⟨m.entries.filter fun e => p e.1 e.2, m.nodup.sublist (List.filter_sublist.map _)⟩

def delete (m : OrderedMap κ α) (k : κ) : OrderedMap κ α := m.filter fun j _ => j ≠ k

def update (m : OrderedMap κ α) (k : κ) (v : α) : OrderedMap κ α where
  entries := m.entries.map fun e => if e.1 = k then (e.1, v) else e
  nodup := by
    have hkeys : (Prod.fst ∘ fun e : κ × α => if e.1 = k then (e.1, v) else e) = Prod.fst := by
      funext e
      simp only [Function.comp_apply]
      split <;> rfl
    rw [List.map_map, hkeys]
    exact m.nodup

def append (m : OrderedMap κ α) (k : κ) (v : α) (h : k ∉ m.entries.map Prod.fst) :
    OrderedMap κ α where
  entries := m.entries ++ [(k, v)]
  nodup := by
    rw [List.map_append, List.nodup_append]
    refine ⟨m.nodup, List.nodup_singleton _, ?_⟩
    grind

def set (m : OrderedMap κ α) (k : κ) (v : α) : OrderedMap κ α :=
  if h : k ∈ m.entries.map Prod.fst then m.update k v else m.append k v h

@[simp] theorem lookup_empty : (empty : OrderedMap κ α).lookup k = none := rfl

omit [DecidableEq κ] in
@[simp] theorem size_empty : (empty : OrderedMap κ α).size = 0 := rfl

theorem lookup_eq_some : m.lookup k = some v ↔ (k, v) ∈ m.entries := by
  constructor
  · intro h
    obtain ⟨⟨j, w⟩, he, rfl⟩ := Option.map_eq_some_iff.mp h
    have hj := List.find?_some he
    simp only [decide_eq_true_eq] at hj
    exact hj ▸ List.mem_of_find?_eq_some he
  · intro h
    cases hfind : m.entries.find? (·.1 = k) with
    | none =>
      have := List.find?_eq_none.mp hfind _ h
      simp at this
    | some e =>
      have he := List.mem_of_find?_eq_some hfind
      have hk := List.find?_some hfind
      simp only [decide_eq_true_eq] at hk
      have : e = (k, v) := List.inj_on_of_nodup_map m.nodup he h hk
      simp [lookup, hfind, this]

theorem lookup_eq_none : m.lookup k = none ↔ k ∉ m.entries.map Prod.fst := by
  rw [Option.eq_none_iff_forall_ne_some]
  simp only [ne_eq, lookup_eq_some, List.mem_map, Prod.exists]
  grind

theorem lookup_filter {p : κ → α → Bool} : (m.filter p).lookup k = (m.lookup k).filter (p k) := by
  ext v
  rw [lookup_eq_some, Option.filter_eq_some_iff, lookup_eq_some]
  simp [filter]

@[simp] theorem lookup_delete_self : (m.delete k).lookup k = none := by
  simp [delete, lookup_filter]

theorem lookup_delete_of_ne (h : k ≠ j) : (m.delete j).lookup k = m.lookup k := by
  rw [delete, lookup_filter]
  simp only [ne_eq, h, not_false_eq_true, decide_true]
  cases m.lookup k <;> rfl

theorem mem_update {e : κ × α} :
    e ∈ (m.update k v).entries ↔ (e.1 = k ∧ e.2 = v ∧ k ∈ m.entries.map Prod.fst) ∨
      (e.1 ≠ k ∧ e ∈ m.entries) := by
  obtain ⟨j, w⟩ := e
  simp only [update, List.mem_map]
  grind

@[simp] theorem lookup_set_self : (m.set k v).lookup k = some v := by
  rw [lookup_eq_some, set]
  split
  · rename_i h
    exact mem_update.mpr (.inl ⟨rfl, rfl, h⟩)
  · simp [append]

theorem lookup_set_of_ne (h : k ≠ j) : (m.set j v).lookup k = m.lookup k := by
  ext w
  rw [lookup_eq_some, lookup_eq_some, set]
  split
  · rw [mem_update]
    grind
  · simp [append, h]

omit [DecidableEq κ] in
theorem size_filter_le (p : κ → α → Bool) : (m.filter p).size ≤ m.size :=
  List.length_filter_le _ _

theorem size_delete_of_some (h : m.lookup k = some v) : (m.delete k).size < m.size := by
  apply List.length_filter_lt_length_iff_exists.mpr
  exact ⟨_, lookup_eq_some.mp h, by simp⟩

theorem size_set_le : (m.set k v).size ≤ m.size + 1 := by
  unfold set
  split <;> simp [size, update, append]

theorem size_set_of_some {w : α} (h : m.lookup k = some w) : (m.set k v).size = m.size := by
  have hmem : k ∈ m.entries.map Prod.fst := List.mem_map_of_mem (lookup_eq_some.mp h)
  rw [set, dif_pos hmem]
  simp [size, update]

theorem size_le_one (h : ∀ j, j ≠ k → m.lookup j = none) : m.size ≤ 1 := by
  have hkeys : m.entries.map Prod.fst ⊆ [k] := by
    intro j hj
    by_contra hne
    exact lookup_eq_none.mp (h j (by simpa using hne)) hj
  simpa [size] using (m.nodup.subperm hkeys).length_le

section SetAll
variable {β : Type} {f : β → κ × α} {xs : List β}

/-- What is there after many entries were set. -/
theorem lookup_setAll (h : (xs.foldl (fun m x => m.set (f x).1 (f x).2) m).lookup k = some v) :
    (∃ x ∈ xs, f x = (k, v)) ∨ m.lookup k = some v := by
  induction xs generalizing m with
  | nil => exact .inr h
  | cons x xs ih =>
    rcases ih h with ⟨y, hy, hf⟩ | hset
    · exact .inl ⟨y, List.mem_cons_of_mem _ hy, hf⟩
    · by_cases hk : k = (f x).1
      · rw [hk, lookup_set_self] at hset
        exact .inl ⟨x, List.mem_cons_self, Prod.ext hk.symm (Option.some.inj hset)⟩
      · rw [lookup_set_of_ne hk] at hset
        exact .inr hset

theorem isSome_lookup_setAll (h : (m.lookup k).isSome ∨ k ∈ xs.map fun x => (f x).1) :
    ((xs.foldl (fun m x => m.set (f x).1 (f x).2) m).lookup k).isSome := by
  induction xs generalizing m with
  | nil => simpa using h
  | cons x xs ih =>
    refine ih ?_
    by_cases hk : k = (f x).1
    · exact .inl (by rw [hk, lookup_set_self]; rfl)
    · rw [lookup_set_of_ne hk]
      simpa [hk] using h

end SetAll

/-- Different keys that are there all make room. -/
theorem size_deleteAll {ks : List κ} (hks : ks.Nodup) (h : ∀ k ∈ ks, (m.lookup k).isSome) :
    (ks.foldl delete m).size + ks.length ≤ m.size := by
  induction ks generalizing m with
  | nil => simp
  | cons k ks ih =>
    obtain ⟨hk, hks⟩ := List.nodup_cons.mp hks
    obtain ⟨v, hv⟩ := Option.isSome_iff_exists.mp (h k List.mem_cons_self)
    have hsize := size_delete_of_some hv
    have hrest := ih (m := m.delete k) hks fun j hj => by
      have hne : j ≠ k := fun e => hk (e ▸ hj)
      rw [lookup_delete_of_ne hne]
      exact h j (List.mem_cons_of_mem _ hj)
    rw [List.foldl_cons, List.length_cons]
    omega

theorem lookup_deleteAll {ks : List κ} (h : k ∉ ks) : (ks.foldl delete m).lookup k = m.lookup k := by
  induction ks generalizing m with
  | nil => rfl
  | cons j ks ih =>
    rw [List.mem_cons, not_or] at h
    rw [List.foldl_cons, ih h.2, lookup_delete_of_ne h.1]

theorem lookup_deleteAll_of_mem {ks : List κ} (h : k ∈ ks) :
    (ks.foldl delete m).lookup k = none := by
  induction ks generalizing m with
  | nil => cases h
  | cons j ks ih =>
    rw [List.foldl_cons]
    by_cases hk : k ∈ ks
    · exact ih hk
    · obtain rfl : k = j := (List.mem_cons.mp h).resolve_right hk
      rw [lookup_deleteAll hk, lookup_delete_self]

end OrderedMap

end Pwos
