import Mathlib.Algebra.Ring.GeomSum
import Mathlib.Tactic

/-!
# Equal payments

The payment that settles a debt of one unit in equal parts, written through the worth of the
payments. In this form it moves no faster than the rate, and it is easy to say how far it is from
a payment computed with powers that were rounded at every step.
-/

namespace Pwos

namespace Annuity

open Finset

variable {K : Type*} [Field K] {n : ℕ} {r s ε F : K}

/-- What `n` payments of one are worth at the end, the last one without interest. -/
def worth (n : ℕ) (r : K) : K := ∑ k ∈ range n, (1 + r) ^ k

/-- The interest of a period, and the share that leaves nothing after `n` of them. -/
def payment (n : ℕ) (r : K) : K := r + 1 / worth n r

@[simp] theorem worth_zero : worth 0 r = 0 := by simp [worth]

theorem worth_succ : worth (n + 1) r = (1 + r) * worth n r + 1 := geom_sum_succ

theorem mul_worth (n : ℕ) (r : K) : r * worth n r = (1 + r) ^ n - 1 := by
  simpa [worth] using mul_geom_sum (1 + r) n

theorem payment_zero (n : ℕ) : payment n (0 : K) = 1 / n := by simp [payment, worth]

section Ordered
variable [LinearOrder K] [IsStrictOrderedRing K]

theorem le_worth (hr : 0 ≤ r) : (n : K) ≤ worth n r := by
  have hone : ∀ k ∈ range n, 1 ≤ (1 + r) ^ k := fun k _ => one_le_pow₀ (by linarith)
  calc (n : K) = ∑ _k ∈ range n, (1 : K) := by simp
    _ ≤ worth n r := sum_le_sum hone

theorem worth_pos (hn : 0 < n) (hr : 0 ≤ r) : 0 < worth n r :=
  (Nat.cast_pos.mpr hn).trans_le (le_worth hr)

theorem worth_mono (hr : 0 ≤ r) (hrs : r ≤ s) : worth n r ≤ worth n s :=
  sum_le_sum fun k _ => pow_le_pow_left₀ (by linarith) (by linarith) k

/-- The usual form. -/
theorem payment_eq (hn : 0 < n) (hr : 0 < r) :
    payment n r = r * (1 + r) ^ n / ((1 + r) ^ n - 1) := by
  have hworth := worth_pos hn hr.le
  rw [← mul_worth, payment, eq_div_iff (by positivity)]
  have hpow : (1 + r) ^ n = r * worth n r + 1 := by rw [mul_worth]; ring
  rw [hpow]
  field_simp

theorem worth_sub_le (hr : 0 ≤ r) (hrs : r ≤ s) :
    worth n s - worth n r ≤ (s - r) * (n * worth n s) := by
  have hpow : ∀ k ∈ range n, (1 + s) ^ k - (1 + r) ^ k ≤ (s - r) * (n * (1 + s) ^ k) := by
    intro k hk
    have hle := (le_abs_self _).trans (abs_pow_sub_pow_le (1 + s) (1 + r) k)
    have hk' : (k : K) ≤ n := by exact_mod_cast (mem_range.mp hk).le
    rw [add_sub_add_left_eq_sub, abs_of_nonneg (sub_nonneg.mpr hrs), abs_of_nonneg (by linarith),
      abs_of_nonneg (by linarith), max_eq_left (by linarith), mul_assoc] at hle
    refine hle.trans (mul_le_mul_of_nonneg_left ?_ (sub_nonneg.mpr hrs))
    have hstep : (1 + s) ^ (k - 1) ≤ (1 + s) ^ k := pow_le_pow_right₀ (by linarith) (by omega)
    have hpos : 0 ≤ (1 + s) ^ (k - 1) := pow_nonneg (by linarith) _
    gcongr
  calc worth n s - worth n r = ∑ k ∈ range n, ((1 + s) ^ k - (1 + r) ^ k) :=
        (sum_sub_distrib _ _).symm
    _ ≤ ∑ k ∈ range n, (s - r) * (n * (1 + s) ^ k) := sum_le_sum hpow
    _ = (s - r) * (n * worth n s) := by rw [worth, mul_sum, mul_sum]

/-- A payment moves no faster than the rate. -/
theorem abs_payment_sub_le (hn : 0 < n) (hr : 0 ≤ r) (hrs : r ≤ s) :
    |payment n s - payment n r| ≤ s - r := by
  have hworth := worth_pos hn hr
  have hworth' := worth_pos hn (hr.trans hrs)
  have hfall : 1 / worth n s ≤ 1 / worth n r := one_div_le_one_div_of_le hworth (worth_mono hr hrs)
  have hslow : 1 / worth n r - 1 / worth n s ≤ s - r := by
    have heq : 1 / worth n r - 1 / worth n s =
        (worth n s - worth n r) / (worth n r * worth n s) := by field_simp
    rw [heq, div_le_iff₀ (mul_pos hworth hworth')]
    have hn' : (n : K) * worth n s ≤ worth n r * worth n s :=
      mul_le_mul_of_nonneg_right (le_worth hr) hworth'.le
    exact (worth_sub_le hr hrs).trans (mul_le_mul_of_nonneg_left hn' (sub_nonneg.mpr hrs))
  unfold payment
  rw [abs_le]
  constructor <;> linarith

/-- A power built by products that are each off by at most `ε`. -/
theorem abs_loop_sub_pow_le (hr : 0 ≤ r) {f : ℕ → K} (hzero : f 0 = 1)
    (hstep : ∀ k, |f (k + 1) - f k * (1 + r)| ≤ ε) (n : ℕ) :
    |f n - (1 + r) ^ n| ≤ ε * worth n r := by
  induction n with
  | zero => simp [hzero]
  | succ n ih =>
    have hgrow : |(f n - (1 + r) ^ n) * (1 + r)| ≤ ε * worth n r * (1 + r) := by
      rw [abs_mul, abs_of_nonneg (by linarith : 0 ≤ 1 + r)]
      exact mul_le_mul_of_nonneg_right ih (by linarith)
    calc |f (n + 1) - (1 + r) ^ (n + 1)|
        = |(f (n + 1) - f n * (1 + r)) + (f n - (1 + r) ^ n) * (1 + r)| := by ring_nf
      _ ≤ ε + ε * worth n r * (1 + r) := (abs_add_le _ _).trans (add_le_add (hstep n) hgrow)
      _ = ε * worth (n + 1) r := by rw [worth_succ]; ring

/-- What is left of the power less one. -/
theorem mul_worth_le (hF : |F - (1 + r) ^ n| ≤ ε * worth n r) :
    worth n r * (r - ε) ≤ F - 1 := by
  have hlow := (abs_le.mp hF).1
  have hpow := mul_worth n r
  linarith

section Near
variable (hn : 0 < n) (hε : 0 ≤ ε) (hεr : ε < r) (hF : |F - (1 + r) ^ n| ≤ ε * worth n r)
include hn hε hεr hF

theorem le_sub_one : r - ε ≤ F - 1 := by
  have hone : (1 : K) ≤ worth n r :=
    (Nat.one_le_cast.mpr hn).trans (le_worth (hε.trans hεr.le))
  exact (le_mul_of_one_le_left (sub_pos.mpr hεr).le hone).trans (mul_worth_le hF)

/-- The payment from a power that is near. -/
theorem abs_quotient_sub_payment_le :
    |r * F / (F - 1) - payment n r| ≤ ε / (n * (r - ε)) := by
  have hr : 0 ≤ r := hε.trans hεr.le
  have hworth := worth_pos hn hr
  have hgap : 0 < r - ε := sub_pos.mpr hεr
  have hF1 : 0 < F - 1 := hgap.trans_le (le_sub_one hn hε hεr hF)
  have heq : r * F / (F - 1) - payment n r =
      ((1 + r) ^ n - F) / (worth n r * (F - 1)) := by
    have hpow : (1 + r) ^ n = r * worth n r + 1 := by rw [mul_worth]; ring
    rw [hpow, payment]
    field_simp
    ring
  have hcast : (0 : K) < n := Nat.cast_pos.mpr hn
  rw [heq, abs_div, abs_of_pos (mul_pos hworth hF1), abs_sub_comm]
  calc |F - (1 + r) ^ n| / (worth n r * (F - 1))
      ≤ ε * worth n r / (worth n r * (worth n r * (r - ε))) := by
        have hle := mul_worth_le hF
        gcongr
    _ = ε / (worth n r * (r - ε)) := by field_simp
    _ ≤ ε / (n * (r - ε)) := by
        have hle := le_worth (n := n) hr
        gcongr

end Near

end Ordered

end Annuity

end Pwos
