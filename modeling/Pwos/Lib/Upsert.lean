import Mathlib.Algebra.BigOperators.Group.List.Basic
import Mathlib.Data.List.Perm.Basic
import Mathlib.Tactic

/-!
# Upserts

`upserted` is `INSERT … ON CONFLICT DO UPDATE` on a table that is a list of rows. When rows conflict
is a relation, of which `Keyed` says that it compares a key. Then a table without conflicts stays
one, and sums over it change by the rows that are set (`sum_upsertAll`).
-/

namespace Pwos

/-- `on conflict do update`: the rows that conflict with the new one are set to it, or it is
appended. -/
def upserted {α : Type} (conflicts : α → Bool) (update : α → α) (new : α) (rows : List α) : List α :=
  if rows.any conflicts then rows.map fun r => if conflicts r then update r else r
  else rows ++ [new]

section Upserts
variable {α : Type} {conflicts : α → α → Bool} {update : α → α → α} {rows ms : List α} {m : α}

/-- Rows conflict that have the same key. An update keeps it. -/
structure Keyed (conflicts : α → α → Bool) (update : α → α → α) : Prop where
  symm : ∀ {r m}, conflicts r m = true → conflicts m r = true
  trans : ∀ {r m n}, conflicts r m = true → conflicts m n = true → conflicts r n = true
  update : ∀ {r m}, conflicts r m = true → conflicts (update r m) m = true

/-- No two rows conflict. -/
def Distinct (conflicts : α → α → Bool) (rows : List α) : Prop :=
  rows.Pairwise fun r m => conflicts r m = false

def upsertAll (conflicts : α → α → Bool) (update : α → α → α) (ms rows : List α) : List α :=
  ms.foldl (fun rows m => upserted (conflicts · m) (update · m) m rows) rows

theorem Keyed.perm (h : Keyed conflicts update) {xs ys : List α} (hp : xs.Perm ys) :
    Distinct conflicts xs ↔ Distinct conflicts ys := by
  apply hp.pairwise_iff
  intro r m hrm
  by_contra hmr
  rw [Bool.not_eq_false] at hmr
  exact absurd (h.symm hmr) (by simp [hrm])

/-- What conflicts with a row conflicts with what conflicts with it. -/
theorem Keyed.congr (h : Keyed conflicts update) {r m : α} (hrm : conflicts r m = true) (n : α) :
    conflicts r n = conflicts m n := by
  by_cases hmn : conflicts m n = true
  · rw [hmn, h.trans hrm hmn]
  · by_cases hrn : conflicts r n = true
    · exact absurd (h.trans (h.symm hrm) hrn) hmn
    · simp_all

/-- One row is the new one or has been set to it; the others do not conflict with it. -/
theorem Keyed.upserted_perm (h : Keyed conflicts update) (hrows : Distinct conflicts rows) :
    ∃ x, (upserted (conflicts · m) (update · m) m rows).Perm
        (x :: rows.filter (!conflicts · m)) ∧
      (x = m ∨ ∃ r ∈ rows, conflicts r m = true ∧ x = update r m) := by
  unfold upserted
  by_cases hany : rows.any (conflicts · m) = true
  · rw [if_pos hany]
    obtain ⟨r, hr, hrm⟩ := List.any_eq_true.mp hany
    refine ⟨update r m, ?_, .inr ⟨r, hr, hrm, rfl⟩⟩
    obtain ⟨xs, ys, rfl⟩ := List.append_of_mem hr
    have hothers : ∀ t ∈ xs ++ ys, conflicts t m = false := by
      intro t ht
      have hsplit : Distinct conflicts (r :: (xs ++ ys)) := (h.perm List.perm_middle).mp hrows
      by_contra htm
      rw [Bool.not_eq_false] at htm
      have hrt := (List.pairwise_cons.mp hsplit).1 t ht
      rw [h.trans hrm (h.symm htm)] at hrt
      cases hrt
    have hkeep : ∀ zs : List α, (∀ t ∈ zs, conflicts t m = false) →
        zs.map (fun t => if conflicts t m = true then update t m else t) = zs ∧
          zs.filter (!conflicts · m) = zs := by
      intro zs hzs
      constructor
      · conv_rhs => rw [← List.map_id zs]
        apply List.map_congr_left
        intro t ht
        simp [hzs t ht]
      · apply List.filter_eq_self.mpr
        intro t ht
        simp [hzs t ht]
    obtain ⟨hmapx, hfilterx⟩ := hkeep xs fun t ht => hothers t (List.mem_append_left _ ht)
    obtain ⟨hmapy, hfiltery⟩ := hkeep ys fun t ht => hothers t (List.mem_append_right _ ht)
    rw [List.map_append, List.map_cons, if_pos hrm, hmapx, hmapy, List.filter_append,
      List.filter_cons_of_neg (by simp [hrm]), hfilterx, hfiltery]
    exact List.perm_middle
  · rw [if_neg hany]
    refine ⟨m, ?_, .inl rfl⟩
    have hnone : rows.filter (!conflicts · m) = rows := by
      apply List.filter_eq_self.mpr
      intro t ht
      have hno : ¬ conflicts t m = true := fun htm => hany (List.any_eq_true.mpr ⟨t, ht, htm⟩)
      simpa using hno
    rw [hnone]
    exact List.perm_append_singleton m rows

/-- The row that was set has the key of the new one, if rows conflict with themselves. -/
theorem Keyed.distinct_upserted (h : Keyed conflicts update) (hrows : Distinct conflicts rows)
    (hself : conflicts m m = true) :
    Distinct conflicts (upserted (conflicts · m) (update · m) m rows) := by
  obtain ⟨x, hperm, hx⟩ := @Keyed.upserted_perm _ _ _ _ m h hrows
  have hxm : conflicts x m = true := by
    rcases hx with rfl | ⟨r, -, hrm, rfl⟩
    · exact hself
    · exact h.update hrm
  rw [h.perm hperm]
  refine List.pairwise_cons.mpr ⟨?_, hrows.filter _⟩
  intro t ht
  obtain ⟨-, htm⟩ := List.mem_filter.mp ht
  rw [h.congr hxm]
  by_contra hmt
  rw [Bool.not_eq_false] at hmt
  simp [h.symm hmt] at htm

theorem Keyed.distinct_upsertAll (h : Keyed conflicts update)
    (hself : ∀ m ∈ ms, conflicts m m = true) (hrows : Distinct conflicts rows) :
    Distinct conflicts (upsertAll conflicts update ms rows) := by
  induction ms generalizing rows with
  | nil => exact hrows
  | cons m ms ih =>
    exact ih (fun n hn => hself n (List.mem_cons_of_mem m hn))
      (h.distinct_upserted hrows (hself m List.mem_cons_self))

/-- Over rows that are chosen by their key: what is set counts as it is set, what is left as
it was. -/
theorem Keyed.sum_upsertAll {M : Type} [AddCommMonoid M] (h : Keyed conflicts update)
    {p : α → Bool} {f : α → M} (hp : ∀ {r m}, conflicts r m = true → p r = p m)
    (hf : ∀ r m, f (update r m) = f m) (hself : ∀ m ∈ ms, conflicts m m = true)
    (hms : Distinct conflicts ms) (hrows : Distinct conflicts rows) :
    (((upsertAll conflicts update ms rows).filter p).map f).sum =
      ((rows.filter fun r => p r && !ms.any (conflicts r ·)).map f).sum +
        ((ms.filter p).map f).sum := by
  induction ms generalizing rows with
  | nil => simp [upsertAll]
  | cons m ms ih =>
    have hm := hself m List.mem_cons_self
    obtain ⟨hfirst, hrest⟩ := List.pairwise_cons.mp hms
    obtain ⟨x, hperm, hx⟩ := @Keyed.upserted_perm _ _ _ _ m h hrows
    have hxm : conflicts x m = true ∧ f x = f m := by
      rcases hx with rfl | ⟨r, -, hrm, rfl⟩
      · exact ⟨hm, rfl⟩
      · exact ⟨h.update hrm, hf r m⟩
    have hxms : ms.any (conflicts x ·) = false := by
      apply Bool.eq_false_iff.mpr
      intro hany
      obtain ⟨n, hn, hxn⟩ := List.any_eq_true.mp hany
      rw [h.congr hxm.1, hfirst n hn] at hxn
      cases hxn
    have hnext := ih (fun n hn => hself n (List.mem_cons_of_mem m hn)) hrest
      (h.distinct_upserted hrows hm)
    refine hnext.trans ?_
    rw [((hperm.filter _).map f).sum_eq]
    have hleft : (rows.filter (!conflicts · m)).filter (fun r => p r && !ms.any (conflicts r ·)) =
        rows.filter fun r => p r && !(m :: ms).any (conflicts r ·) := by
      rw [List.filter_filter]
      apply List.filter_congr
      intro r _
      simp only [List.any_cons, Bool.not_or]
      grind
    by_cases hpm : p m = true
    · have hpx : (p x && !ms.any (conflicts x ·)) = true := by rw [hp hxm.1, hpm, hxms]; rfl
      simp only [List.filter_cons, hpx, hpm, if_true, hleft, List.map_cons, List.sum_cons, hxm.2]
      abel
    · have hpx : (p x && !ms.any (conflicts x ·)) = false := by rw [hp hxm.1]; simp [hpm]
      simp only [List.filter_cons, hpx, hpm, Bool.false_eq_true, if_false, hleft]

/-! ### Updates that overwrite -/

/-- An element that no later one conflicts with. -/
def LastOf (conflicts : α → α → Bool) (ms : List α) (r : α) : Prop :=
  ∃ before after, ms = before ++ r :: after ∧ ∀ m ∈ after, conflicts r m = false

theorem lastOf_cons {r : α} : LastOf conflicts (m :: ms) r ↔
    (r = m ∧ ∀ n ∈ ms, conflicts r n = false) ∨ LastOf conflicts ms r := by
  constructor
  · rintro ⟨before, after, hsplit, hlast⟩
    cases before with
    | nil =>
      obtain ⟨rfl, rfl⟩ := List.cons.inj hsplit
      exact .inl ⟨rfl, hlast⟩
    | cons n before =>
      obtain ⟨-, rfl⟩ := List.cons.inj hsplit
      exact .inr ⟨before, after, rfl, hlast⟩
  · rintro (⟨rfl, hlast⟩ | ⟨before, after, rfl, hlast⟩)
    · exact ⟨[], ms, rfl, hlast⟩
    · exact ⟨m :: before, after, rfl, hlast⟩

/-- Of every key there is a last element. -/
theorem exists_lastOf (hself : ∀ r, conflicts r r = true)
    (htrans : ∀ r m n, conflicts r m = true → conflicts m n = true → conflicts r n = true)
    (hm : m ∈ ms) : ∃ r, LastOf conflicts ms r ∧ conflicts m r = true := by
  induction ms generalizing m with
  | nil => cases hm
  | cons n ms ih =>
    simp only [lastOf_cons]
    rcases List.mem_cons.mp hm with rfl | hm
    · by_cases hlast : ∀ n ∈ ms, conflicts m n = false
      · exact ⟨m, .inl ⟨rfl, hlast⟩, hself m⟩
      · push Not at hlast
        obtain ⟨n, hn, hmn⟩ := hlast
        obtain ⟨r, hr, hnr⟩ := ih hn
        exact ⟨r, .inr hr, htrans m n r (by simpa using hmn) hnr⟩
    · obtain ⟨r, hr, hmr⟩ := ih hm
      exact ⟨r, .inr hr, hmr⟩

theorem LastOf.mem {r : α} (h : LastOf conflicts ms r) : r ∈ ms := by
  obtain ⟨before, after, rfl, -⟩ := h
  exact List.mem_append_right _ List.mem_cons_self

theorem mem_upserted_overwrite (hover : ∀ r, conflicts r m = true → update r m = m) {r : α} :
    r ∈ upserted (conflicts · m) (update · m) m rows ↔
      r = m ∨ r ∈ rows ∧ conflicts r m = false := by
  unfold upserted
  split
  · rename_i hany
    obtain ⟨t, ht, htm⟩ := List.any_eq_true.mp hany
    constructor
    · intro hr
      obtain ⟨s, hs, rfl⟩ := List.mem_map.mp hr
      grind
    · rintro (rfl | ⟨hr, hrm⟩)
      · exact List.mem_map.mpr ⟨t, ht, by simpa [htm] using hover t htm⟩
      · exact List.mem_map.mpr ⟨r, hr, by simp [hrm]⟩
  · rename_i hnone
    have hno : ∀ r ∈ rows, conflicts r m = false := by
      simpa using hnone
    grind

/-- What overwriting leaves is the last of each key. -/
theorem mem_upsertAll_overwrite (hover : ∀ r m, conflicts r m = true → update r m = m) {r : α} :
    r ∈ upsertAll conflicts update ms rows ↔
      LastOf conflicts ms r ∨ r ∈ rows ∧ ∀ m ∈ ms, conflicts r m = false := by
  induction ms generalizing rows with
  | nil => simp [upsertAll, LastOf]
  | cons m ms ih =>
    have hstep : upsertAll conflicts update (m :: ms) rows =
        upsertAll conflicts update ms (upserted (conflicts · m) (update · m) m rows) := rfl
    rw [hstep, ih, mem_upserted_overwrite fun r => hover r m, lastOf_cons]
    grind

end Upserts

end Pwos
