import Mathlib.Tactic

/-!
# Binary search

The last index that passes a test which, from some index on, no index passes.
-/

namespace Pwos

/-- The loop over the window from `lo` to `hi`; `hit` is the last index found to pass. -/
def lastPassing (p : Int → Bool) (lo hi hit : Int) : Int :=
  if lo ≤ hi then
    let mid := (lo + hi) / 2
    if p mid then lastPassing p (mid + 1) hi mid else lastPassing p lo (mid - 1) hit
  else hit
termination_by (hi + 1 - lo).toNat

variable {p : Int → Bool} {lo hi hit n : Int}

/-- What holds of a window: below it everything passes, above it nothing does. -/
structure Window (p : Int → Bool) (n lo hi hit : Int) : Prop where
  start : 0 ≤ lo
  stop : hi < n
  order : lo ≤ hi + 1
  hit : hit = lo - 1
  below : ∀ i, 0 ≤ i → i < lo → p i = true
  above : ∀ i, hi < i → i < n → p i = false

theorem Window.last (hp : ∀ i j, 0 ≤ i → i ≤ j → j < n → p j = true → p i = true)
    (h : Window p n lo hi hit) :
    -1 ≤ lastPassing p lo hi hit ∧ lastPassing p lo hi hit < n ∧
      (∀ i, 0 ≤ i → i ≤ lastPassing p lo hi hit → p i = true) ∧
      ∀ i, lastPassing p lo hi hit < i → i < n → p i = false := by
  have hstart := h.start
  have hstop := h.stop
  fun_induction lastPassing p lo hi hit with
  | case1 lo hi hit hle mid hmid ih =>
    have hdef : mid = (lo + hi) / 2 := rfl
    -- what passes at the middle passes below it
    refine ih ⟨by omega, hstop, by omega, by omega, fun i h0 hi' => ?_, h.above⟩ (by omega) hstop
    exact hp i mid h0 (by omega) (by omega) hmid
  | case2 lo hi hit hle mid hmid ih =>
    have hdef : mid = (lo + hi) / 2 := rfl
    refine ih ⟨hstart, by omega, by omega, h.hit, h.below, fun i hi' hn => ?_⟩ hstart (by omega)
    by_contra hpass
    exact hmid (hp mid i (by omega) (by omega) hn (by simpa using hpass))
  | case3 lo hi hit hle =>
    have horder := h.order
    have hhit := h.hit
    exact ⟨by omega, by omega, fun i h0 hi' => h.below i h0 (by omega),
      fun i hi' hn => h.above i (by omega) hn⟩

/-- From the whole range. -/
theorem window_start (hn : 0 ≤ n) : Window p n 0 (n - 1) (-1) :=
  ⟨le_rfl, by omega, by omega, by omega, fun i h0 hlt => by omega, fun i h hlt => by omega⟩

end Pwos
