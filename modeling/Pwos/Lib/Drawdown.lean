import Mathlib.Algebra.Order.Field.Basic
import Mathlib.Order.Bounds.Basic
import Mathlib.Tactic

/-!
# Drawdown

By which part of a value a later value of the series is below it. The largest such fall is found
in one pass that keeps the peak so far (`isGreatest_worst`).
-/

namespace Pwos

variable {K : Type*} [Field K] [LinearOrder K]

/-- The falls from a positive value of the series to a later one. -/
def falls (vs : List K) : Set K :=
  {q | ∃ a b, [a, b].Sublist vs ∧ 0 < a ∧ q = (a - b) / a}

/-- How far the pass has come. -/
structure Course (K : Type*) where
  peak : K
  worst : K

namespace Course

def start : Course K := ⟨0, 0⟩

def next (c : Course K) (v : K) : Course K :=
  if c.peak < v then { c with peak := v }
  else if 0 < c.peak then { c with worst := max c.worst ((c.peak - v) / c.peak) }
  else c

def along (vs : List K) : Course K := vs.foldl next start

@[simp] theorem along_concat (vs : List K) (v : K) : along (vs ++ [v]) = (along vs).next v := by
  simp [along]

variable {c : Course K} {vs : List K} {v : K}

theorem peak_next : (c.next v).peak = max c.peak v := by
  unfold next
  split_ifs with hpeak hpos
  · exact (max_eq_right hpeak.le).symm
  · exact (max_eq_left (not_lt.mp hpeak)).symm
  · exact (max_eq_left (not_lt.mp hpeak)).symm

theorem worst_le_next : c.worst ≤ (c.next v).worst := by
  unfold next
  split_ifs
  · exact le_rfl
  · exact le_max_left _ _
  · exact le_rfl

end Course

variable {vs : List K} {v : K}

theorem mem_falls_concat {q : K} : q ∈ falls (vs ++ [v]) ↔
    q ∈ falls vs ∨ ∃ a ∈ vs, 0 < a ∧ q = (a - v) / a := by
  have hpair : ∀ a b, [a, b].Sublist (vs ++ [v]) ↔ [a, b].Sublist vs ∨ a ∈ vs ∧ b = v := by
    intro a b
    rw [List.sublist_append_iff]
    constructor
    · rintro ⟨l, l', hsplit, hl, hl'⟩
      rcases List.sublist_singleton.mp hl' with rfl | rfl
      · rw [List.append_nil] at hsplit
        exact .inl (hsplit ▸ hl)
      · have hsplit : [a] ++ [b] = l ++ [v] := hsplit
        obtain ⟨rfl, hb⟩ := List.append_inj' hsplit rfl
        exact .inr ⟨List.singleton_sublist.mp hl, (List.cons.inj hb).1⟩
    · rintro (h | ⟨ha, rfl⟩)
      · exact ⟨[a, b], [], rfl, h, List.nil_sublist _⟩
      · exact ⟨[a], [b], rfl, List.singleton_sublist.mpr ha, .refl _⟩
  unfold falls
  constructor
  · rintro ⟨a, b, hsub, ha, rfl⟩
    rcases (hpair a b).mp hsub with h | ⟨hmem, rfl⟩
    · exact .inl ⟨a, b, h, ha, rfl⟩
    · exact .inr ⟨a, hmem, ha, rfl⟩
  · rintro (⟨a, b, h, ha, rfl⟩ | ⟨a, hmem, ha, rfl⟩)
    · exact ⟨a, b, (hpair a b).mpr (.inl h), ha, rfl⟩
    · exact ⟨a, v, (hpair a v).mpr (.inr ⟨hmem, rfl⟩), ha, rfl⟩

/-- The peak is the largest value so far. -/
theorem isGreatest_peak (hvs : ∀ v ∈ vs, 0 ≤ v) :
    IsGreatest {a | a = 0 ∨ a ∈ vs} (Course.along vs).peak := by
  induction vs using List.reverseRecOn with
  | nil => exact ⟨.inl rfl, by rintro a (rfl | ha); exacts [le_rfl, absurd ha List.not_mem_nil]⟩
  | append_singleton vs v ih =>
    have ih := ih fun w hw => hvs w (List.mem_append_left _ hw)
    rw [Course.along_concat, Course.peak_next]
    constructor
    · rcases max_choice (Course.along vs).peak v with h | h <;> rw [h]
      · rcases ih.1 with h0 | hmem
        · exact .inl h0
        · exact .inr (List.mem_append_left _ hmem)
      · exact .inr (by simp)
    · rintro a (rfl | ha)
      · exact (ih.2 (.inl rfl)).trans (le_max_left _ _)
      · rcases List.mem_append.mp ha with ha | ha
        · exact (ih.2 (.inr ha)).trans (le_max_left _ _)
        · exact (List.mem_singleton.mp ha).trans_le (le_max_right _ _)

variable [IsStrictOrderedRing K]

/-- From a higher value the fall is larger. -/
theorem fall_le {a b v : K} (ha : 0 < a) (hab : a ≤ b) (hv : 0 ≤ v) :
    (a - v) / a ≤ (b - v) / b := by
  have hb : 0 < b := ha.trans_le hab
  rw [sub_div, sub_div, div_self ha.ne', div_self hb.ne']
  exact sub_le_sub_left (div_le_div_of_nonneg_left hv ha hab) 1

theorem isGreatest_worst (hvs : ∀ v ∈ vs, 0 ≤ v) :
    IsGreatest (insert 0 (falls vs)) (Course.along vs).worst := by
  induction vs using List.reverseRecOn with
  | nil =>
    refine ⟨.inl rfl, ?_⟩
    rintro q (rfl | ⟨a, b, hsub, -⟩)
    · exact le_rfl
    · exact absurd hsub (by simp)
  | append_singleton vs v ih =>
    have hvs' : ∀ w ∈ vs, 0 ≤ w := fun w hw => hvs w (List.mem_append_left _ hw)
    have hv : 0 ≤ v := hvs v (by simp)
    have ih := ih hvs'
    have hpeak := isGreatest_peak hvs'
    have hold : ∀ q, q = 0 ∨ q ∈ falls vs → q ≤ ((Course.along vs).next v).worst :=
      fun q hq => (ih.2 hq).trans Course.worst_le_next
    rw [Course.along_concat]
    constructor
    · unfold Course.next
      split_ifs with hup hpos
      · exact ih.1.imp id fun h => mem_falls_concat.mpr (.inl h)
      · rcases max_choice (Course.along vs).worst
          (((Course.along vs).peak - v) / (Course.along vs).peak) with h | h
        · dsimp only
          rw [h]
          exact ih.1.imp id fun h => mem_falls_concat.mpr (.inl h)
        · refine .inr (mem_falls_concat.mpr (.inr ⟨_, ?_, hpos, h⟩))
          exact hpeak.1.resolve_left hpos.ne'
      · exact ih.1.imp id fun h => mem_falls_concat.mpr (.inl h)
    · rintro q (rfl | hq)
      · exact hold 0 (.inl rfl)
      · rcases mem_falls_concat.mp hq with h | ⟨a, ha, hpos, rfl⟩
        · exact hold q (.inr h)
        · have hle : a ≤ (Course.along vs).peak := hpeak.2 (.inr ha)
          unfold Course.next
          split_ifs with hup hzero
          -- a new peak: there is no fall to it
          · have hnofall : (a - v) / a ≤ 0 :=
              div_nonpos_of_nonpos_of_nonneg (sub_nonpos.mpr (hle.trans hup.le)) hpos.le
            exact hnofall.trans (ih.2 (.inl rfl))
          · exact (fall_le hpos hle hv).trans (le_max_right _ _)
          · exact absurd (hpos.trans_le hle) hzero

/-- A fall is at most the whole value. -/
theorem falls_le_one (hvs : ∀ v ∈ vs, 0 ≤ v) {q : K} (hq : q ∈ falls vs) : q ≤ 1 := by
  obtain ⟨a, b, hsub, ha, rfl⟩ := hq
  have hb : 0 ≤ b := hvs b (hsub.subset (by simp))
  rw [div_le_one ha]
  linarith

end Pwos
