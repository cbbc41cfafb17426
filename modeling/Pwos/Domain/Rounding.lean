import Pwos.Domain.Decimal
import Mathlib.Data.Int.Log

/-!
# How far roundings go

Amounts read as rational numbers: sums are exact, a product or a quotient is off by at most one
unit of the last place, and printing whole units moves an amount by at most a half.
-/

namespace Pwos

/-- The integer next to `q`, of two the even one. -/
def roundHalfEven (q : ℚ) : Int :=
  if q - ⌊q⌋ < 1 / 2 ∨ (q - ⌊q⌋ = 1 / 2 ∧ ⌊q⌋ % 2 = 0) then ⌊q⌋ else ⌊q⌋ + 1

namespace Decimal

def toRat (a : Decimal) : ℚ := a.raw / 10 ^ 18

/-- `Number(text)` of an amount: 53 binary digits, in the range of a double. -/
def toNumber (a : Decimal) : ℚ :=
  if a = 0 then 0
  else
    let unit := (2 : ℚ) ^ (Int.log 2 |a.toRat| - 52)
    roundHalfEven (a.toRat / unit) * unit

/-- One unit of the last place. -/
def ulp : ℚ := 1 / 10 ^ 18

@[simp] theorem toRat_zero : toRat 0 = 0 := by simp [toRat]

@[simp] theorem toRat_add (a b : Decimal) : (a + b).toRat = a.toRat + b.toRat := by
  simp [toRat, add_div]

@[simp] theorem toRat_sub (a b : Decimal) : (a - b).toRat = a.toRat - b.toRat := by
  simp [toRat, sub_div]

@[simp] theorem toRat_zsmul (n : Int) (a : Decimal) : (n • a).toRat = n * a.toRat := by
  simp [toRat, mul_div_assoc]

@[simp] theorem toRat_ofInt (n : Int) : (ofInt n).toRat = n := by
  rw [toRat, raw_ofInt, ONE]
  push_cast
  exact mul_div_cancel_right₀ _ (by positivity)

theorem toRat_sum (l : List Decimal) : l.sum.toRat = (l.map toRat).sum := by
  induction l with
  | nil => simp
  | cons a l ih => rw [List.sum_cons, toRat_add, ih, List.map_cons, List.sum_cons]

theorem toRat_nonneg {a : Decimal} (h : 0 ≤ a) : 0 ≤ a.toRat := by
  have hraw : (0 : ℚ) ≤ a.raw := by exact_mod_cast h
  exact (le_div_iff₀ (by positivity)).mpr (by simpa using hraw)

/-- What a truncated division leaves. -/
theorem abs_tdiv_sub_div_le (n : Int) {d : Int} (hd : d ≠ 0) :
    |((n.tdiv d : Int) : ℚ) - n / d| ≤ 1 := by
  have hsplit : d * n.tdiv d + n.tmod d = n := Int.mul_tdiv_add_tmod n d
  have hne : (d : ℚ) ≠ 0 := by exact_mod_cast hd
  have hcast : (d : ℚ) * (n.tdiv d : Int) + (n.tmod d : Int) = n := by exact_mod_cast hsplit
  have hmod : |((n.tmod d : Int) : ℚ)| ≤ |(d : ℚ)| := by
    have hlt : |n.tmod d| ≤ |d| := by
      rw [Int.abs_eq_natAbs, Int.abs_eq_natAbs, Int.natAbs_tmod]
      exact_mod_cast (Nat.mod_lt _ (Int.natAbs_pos.mpr hd)).le
    exact_mod_cast hlt
  have heq : ((n.tdiv d : Int) : ℚ) - n / d = -(n.tmod d : Int) / d := by
    rw [← hcast]
    field_simp
    ring
  rw [heq, abs_div, abs_neg]
  exact div_le_one_of_le₀ hmod (abs_nonneg _)

theorem abs_tdiv_sub_le (n : Int) : |((n.tdiv ONE : Int) : ℚ) - n / 10 ^ 18| ≤ 1 := by
  have hone : (ONE : ℚ) = 10 ^ 18 := by norm_num [ONE]
  rw [← hone]
  exact abs_tdiv_sub_div_le n one_pos.ne'

theorem ulp_pos : 0 < ulp := by unfold ulp; positivity

theorem toRat_eq (a : Decimal) : a.toRat = a.raw * ulp := by rw [toRat, ulp, mul_one_div]

theorem toRat_ne_zero {a : Decimal} (h : a ≠ 0) : a.toRat ≠ 0 := by
  have hraw : (a.raw : ℚ) ≠ 0 := by
    intro hzero
    exact h (raw_injective (by exact_mod_cast hzero))
  rw [toRat_eq]
  exact mul_ne_zero hraw ulp_pos.ne'

theorem toRat_pos {a : Decimal} (h : 0 < a) : 0 < a.toRat :=
  lt_of_le_of_ne (toRat_nonneg h.le) (toRat_ne_zero h.ne').symm

/-- A quotient, before its digits are cut to units of the last place. -/
theorem div_raw_eq (a b : Decimal) :
    a.toRat / b.toRat = ((a.raw * ONE : Int) : ℚ) / b.raw * ulp := by
  have hone : ((ONE : Int) : ℚ) * ulp = 1 := by norm_num [ONE, ulp]
  calc a.toRat / b.toRat = a.raw / b.raw := by
        rw [toRat_eq, toRat_eq, mul_div_mul_right _ _ ulp_pos.ne']
    _ = a.raw * ((ONE : Int) * ulp) / b.raw := by rw [hone, mul_one]
    _ = ((a.raw * ONE : Int) : ℚ) / b.raw * ulp := by push_cast; ring

theorem abs_div_sub_le (a : Decimal) {b : Decimal} (hb : b ≠ 0) :
    |(a.div b).toRat - a.toRat / b.toRat| ≤ ulp := by
  have hraw : b.raw ≠ 0 := fun hzero => hb (raw_injective hzero)
  have h := abs_tdiv_sub_div_le (a.raw * ONE) hraw
  rw [div_raw_eq, div, if_neg hraw, toRat_eq, ← sub_mul, abs_mul, abs_of_pos ulp_pos]
  exact mul_le_of_le_one_left ulp_pos.le h

/-- A quotient of amounts that are not negative is cut downwards. -/
theorem div_le_div {a b : Decimal} (ha : 0 ≤ a) (hb : 0 < b) :
    (a.div b).toRat ≤ a.toRat / b.toRat := by
  have hraw : 0 < b.raw := hb
  have hnonneg : 0 ≤ a.raw * ONE := Int.mul_nonneg ha one_pos.le
  have hle : b.raw * (a.raw * ONE).tdiv b.raw ≤ a.raw * ONE := by
    rw [Int.tdiv_eq_ediv_of_nonneg hnonneg]
    exact Int.mul_ediv_self_le hraw.ne'
  have hcast : (((a.raw * ONE).tdiv b.raw : Int) : ℚ) ≤ ((a.raw * ONE : Int) : ℚ) / b.raw := by
    rw [le_div_iff₀ (by exact_mod_cast hraw), mul_comm]
    exact_mod_cast hle
  rw [div_raw_eq, div, if_neg hraw.ne', toRat_eq]
  exact mul_le_mul_of_nonneg_right hcast ulp_pos.le

theorem abs_mul_sub_le (a b : Decimal) : |(a.mul b).toRat - a.toRat * b.toRat| ≤ ulp := by
  have h := abs_tdiv_sub_le (a.raw * b.raw)
  have heq : (a.mul b).toRat - a.toRat * b.toRat =
      (((a.raw * b.raw).tdiv ONE : Int) - ((a.raw * b.raw : Int) : ℚ) / 10 ^ 18) * ulp := by
    simp only [toRat, raw_mul, ulp, Int.cast_mul]
    ring
  rw [heq, abs_mul, ulp, abs_of_pos (by positivity : (0 : ℚ) < 1 / 10 ^ 18)]
  exact mul_le_of_le_one_left (by positivity) h

/-- Two products of which the second factor is not negative. -/
theorem abs_mul_mul_sub_le (a b : Decimal) {c : Decimal} (hc : 0 ≤ c) :
    |((a.mul b).mul c).toRat - a.toRat * b.toRat * c.toRat| ≤ (c.toRat + 1) * ulp := by
  have hout := abs_mul_sub_le (a.mul b) c
  have hin := mul_le_mul_of_nonneg_right (abs_mul_sub_le a b) (toRat_nonneg hc)
  rw [← abs_of_nonneg (toRat_nonneg hc), ← abs_mul, abs_of_nonneg (toRat_nonneg hc)] at hin
  calc |((a.mul b).mul c).toRat - a.toRat * b.toRat * c.toRat|
      = |(((a.mul b).mul c).toRat - (a.mul b).toRat * c.toRat) +
          ((a.mul b).toRat - a.toRat * b.toRat) * c.toRat| := by ring_nf
    _ ≤ ulp + ulp * c.toRat := (abs_add_le _ _).trans (add_le_add hout hin)
    _ = (c.toRat + 1) * ulp := by ring

theorem abs_toFixed_sub_le (a : Decimal) : |(a.toFixed 0).toRat - a.toRat| ≤ 1 / 2 := by
  have hraw : |(a.toFixed 0).raw - a.raw| ≤ 5 * 10 ^ 17 := by
    unfold toFixed SCALE
    dsimp only
    rw [abs_le, raw_abs]
    split
    · rw [abs_of_neg (by omega)]
      dsimp only
      omega
    · rw [abs_of_nonneg (by omega)]
      dsimp only
      omega
  have hcast : |(((a.toFixed 0).raw - a.raw : Int) : ℚ)| ≤ 5 * 10 ^ 17 := by exact_mod_cast hraw
  have heq : (a.toFixed 0).toRat - a.toRat = (((a.toFixed 0).raw - a.raw : Int) : ℚ) / 10 ^ 18 := by
    simp only [toRat, Int.cast_sub]
    ring
  rw [heq, abs_div, abs_of_pos (by positivity : (0 : ℚ) < 10 ^ 18), div_le_iff₀ (by positivity)]
  linarith

/-- The error of a sum is at most the sum of the errors. -/
theorem abs_sum_sub_le {α : Type} {f g err : α → ℚ} {l : List α}
    (h : ∀ x ∈ l, |f x - g x| ≤ err x) :
    |(l.map f).sum - (l.map g).sum| ≤ (l.map err).sum := by
  induction l with
  | nil => simp
  | cons x l ih =>
    have hx := h x (by simp)
    have hl := ih fun y hy => h y (by simp [hy])
    simp only [List.map_cons, List.sum_cons]
    calc |f x + (l.map f).sum - (g x + (l.map g).sum)|
        = |(f x - g x) + ((l.map f).sum - (l.map g).sum)| := by ring_nf
      _ ≤ err x + (l.map err).sum := (abs_add_le _ _).trans (add_le_add hx hl)

end Decimal

end Pwos
