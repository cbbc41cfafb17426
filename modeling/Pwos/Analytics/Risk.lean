import Pwos.Domain.DecimalText
import Pwos.Domain.Rounding
import Pwos.Lib.Drawdown
import Mathlib.Algebra.Order.Floor.Ring

/-!
# Maximum drawdown

`calculateMaxDrawdown` of `features/analytics/risk.ts`, over amounts as they are typed. Its one
pass is the pass over rational numbers, up to the truncation of each division, and truncation
keeps the order.
-/

namespace Pwos

open Decimal

structure Drawdown where
  peak : Decimal
  maxDrawdownPct : Decimal
  deriving DecidableEq, Repr

def Drawdown.next (d : Drawdown) (val : Decimal) : Drawdown :=
  if d.peak < val then { d with peak := val }
  else if 0 < d.peak then
    let drawdown := d.peak - val
    let drawdownPct := (drawdown.div d.peak).mul (.ofInt 100)
    if d.maxDrawdownPct < drawdownPct then { d with maxDrawdownPct := drawdownPct } else d
  else d

/-- The largest percentage by which a value is below an earlier peak. -/
def calculateMaxDrawdown (historicalValues : List (List Char)) : List Char :=
  if historicalValues.length < 2 then ['0']
  else
    let last := (historicalValues.map parse).foldl Drawdown.next ⟨0, 0⟩
    toFixedText 2 last.maxDrawdownPct

/-- A part as a percentage, cut after 18 digits of the part. -/
def truncatedPct (q : ℚ) : Decimal := ⟨100 * ⌊q * 10 ^ 18⌋⟩

section Drawdown
variable {peak val : Decimal} {p q : ℚ}

theorem truncatedPct_mono (h : p ≤ q) : truncatedPct p ≤ truncatedPct q := by
  have hscaled : p * 10 ^ 18 ≤ q * 10 ^ 18 := by gcongr
  have hfloor := Int.floor_mono hscaled
  rw [le_iff]
  dsimp only [truncatedPct]
  omega

theorem truncatedPct_zero : truncatedPct 0 = 0 := by
  simp [truncatedPct, Decimal.ext_iff]

theorem truncatedPct_one : truncatedPct 1 = .ofInt 100 := by
  have hone : ⌊(1 : ℚ) * 10 ^ 18⌋ = 10 ^ 18 := by
    rw [one_mul]
    exact_mod_cast Int.floor_natCast (10 ^ 18)
  unfold truncatedPct
  rw [hone]
  decide

/-- The code's percentage is the exact one, truncated. -/
theorem drawdownPct_eq (hpeak : 0 < peak) (hval : val ≤ peak) :
    ((peak - val).div peak).mul (.ofInt 100) =
      truncatedPct ((toRat peak - toRat val) / toRat peak) := by
  have hpos : 0 < peak.raw := hpeak
  have hle : val.raw ≤ peak.raw := hval
  obtain ⟨n, hn⟩ := Int.eq_ofNat_of_zero_le hpos.le
  have hscaled : (toRat peak - toRat val) / toRat peak * 10 ^ 18 =
      (((peak.raw - val.raw) * ONE : Int) : ℚ) / (n : ℚ) := by
    have hcast : (peak.raw : ℚ) = n := by exact_mod_cast congrArg (Int.cast : Int → ℚ) hn
    have hne : (n : ℚ) ≠ 0 := by
      rw [← hcast]
      exact_mod_cast hpos.ne'
    unfold toRat
    rw [hcast]
    push_cast [ONE]
    rw [hcast]
    field_simp
    ring
  have hdiv : (peak - val).div peak = ⟨(peak.raw - val.raw) * ONE / n⟩ := by
    unfold Decimal.div
    rw [if_neg hpos.ne', raw_sub, Int.tdiv_eq_ediv_of_nonneg, hn]
    have hone : (0 : Int) ≤ ONE := by decide
    exact Int.mul_nonneg (by omega) hone
  rw [truncatedPct, hscaled, Rat.floor_intCast_div_natCast, hdiv, mul_ofInt]
  rfl

/-- The pass over amounts against the pass over rational numbers. -/
structure Drawdown.Follows (d : Drawdown) (c : Course ℚ) : Prop where
  peak : toRat d.peak = c.peak
  pct : d.maxDrawdownPct = truncatedPct c.worst

theorem toRat_lt {a b : Decimal} : toRat a < toRat b ↔ a < b := by
  unfold toRat
  rw [div_lt_div_iff_of_pos_right (by positivity), lt_iff]
  exact Int.cast_lt

theorem Drawdown.Follows.next {d : Drawdown} {c : Course ℚ} (h : d.Follows c) (val : Decimal) :
    (d.next val).Follows (c.next (toRat val)) := by
  have hup : d.peak < val ↔ c.peak < toRat val := by rw [← h.peak, toRat_lt]
  have hpos : 0 < d.peak ↔ 0 < c.peak := by rw [← h.peak, ← toRat_zero, toRat_lt]
  unfold Drawdown.next Course.next
  by_cases hnew : d.peak < val
  · rw [if_pos hnew, if_pos (hup.mp hnew)]
    exact ⟨rfl, h.pct⟩
  rw [if_neg hnew, if_neg (mt hup.mpr hnew)]
  by_cases hpeak : 0 < d.peak
  · rw [if_pos hpeak, if_pos (hpos.mp hpeak)]
    dsimp only
    rw [drawdownPct_eq hpeak (not_lt.mp hnew), h.peak, h.pct]
    have hmax := Monotone.map_max (f := truncatedPct) (fun _ _ => truncatedPct_mono)
      (a := c.worst) (b := (c.peak - toRat val) / c.peak)
    split_ifs with hlt
    · exact ⟨h.peak, by rw [hmax, max_eq_right hlt.le]⟩
    · exact ⟨h.peak, by rw [hmax, max_eq_left (not_lt.mp hlt), h.pct]⟩
  · rw [if_neg hpeak, if_neg (mt hpos.mpr hpeak)]
    exact h

theorem follows_along (vals : List Decimal) :
    (vals.foldl Drawdown.next ⟨0, 0⟩).Follows (Course.along (vals.map toRat)) := by
  induction vals using List.reverseRecOn with
  | nil => exact ⟨toRat_zero, truncatedPct_zero.symm⟩
  | append_singleton vals val ih =>
    rw [List.foldl_append, List.map_append, List.map_singleton, Course.along_concat]
    exact ih.next val

variable {historicalValues : List (List Char)}

/-- The amounts, as rational numbers. -/
def amounts (texts : List (List Char)) : List ℚ := (texts.map parse).map toRat

theorem calculateMaxDrawdown_eq (h : 2 ≤ historicalValues.length) :
    calculateMaxDrawdown historicalValues =
      toFixedText 2 (truncatedPct (Course.along (amounts historicalValues)).worst) := by
  unfold calculateMaxDrawdown
  rw [if_neg (by omega)]
  dsimp only
  rw [(follows_along _).pct]
  rfl

/-- The largest fall from a value to a later one, truncated once and rounded to two digits; it
is a percentage, and further values do not lower it. -/
theorem calculateMaxDrawdown_spec (historicalValues : List (List Char))
    (hlen : 2 ≤ historicalValues.length) (hvals : ∀ text ∈ historicalValues, 0 ≤ parse text) :
    (∃ q, IsGreatest (insert 0 (falls (amounts historicalValues))) q ∧
      calculateMaxDrawdown historicalValues = toFixedText 2 (truncatedPct q)) ∧
    0 ≤ parse (calculateMaxDrawdown historicalValues) ∧
    parse (calculateMaxDrawdown historicalValues) ≤ .ofInt 100 ∧
    ∀ text, parse (calculateMaxDrawdown historicalValues) ≤
      parse (calculateMaxDrawdown (historicalValues ++ [text])) := by
  have hnonneg : ∀ v ∈ amounts historicalValues, 0 ≤ v := by
    intro v hv
    obtain ⟨a, ha, rfl⟩ := List.mem_map.mp hv
    obtain ⟨text, htext, rfl⟩ := List.mem_map.mp ha
    exact toRat_nonneg (hvals text htext)
  have hgreatest := isGreatest_worst hnonneg
  have hle : (Course.along (amounts historicalValues)).worst ≤ 1 := by
    rcases hgreatest.1 with hzero | hfall
    · rw [hzero]
      exact zero_le_one
    · exact falls_le_one hnonneg hfall
  rw [calculateMaxDrawdown_eq hlen, parse_toFixedText _ (by decide)]
  refine ⟨⟨_, hgreatest, rfl⟩, ?_, ?_, fun text => ?_⟩
  · have hzero := truncatedPct_mono (hgreatest.2 (.inl rfl))
    rw [truncatedPct_zero] at hzero
    exact toFixed_nonneg hzero 2
  · have hhundred := toFixed_mono (truncatedPct_mono hle) 2
    rw [truncatedPct_one] at hhundred
    exact hhundred.trans (by decide)
  · rw [calculateMaxDrawdown_eq (by simp; omega), parse_toFixedText _ (by decide)]
    apply toFixed_mono
    apply truncatedPct_mono
    have hsplit : amounts (historicalValues ++ [text]) =
        amounts historicalValues ++ [toRat (parse text)] := by simp [amounts]
    rw [hsplit, Course.along_concat]
    exact Course.worst_le_next

/-- From 4 to 3 is a quarter. -/
theorem calculateMaxDrawdown_quarter :
    parse (calculateMaxDrawdown [['4'], ['3']]) ≤ .ofInt 100 ∧
      calculateMaxDrawdown [['4'], ['3']] = ['2', '5', '.', '0', '0'] :=
  ⟨(calculateMaxDrawdown_spec [['4'], ['3']] (by decide) (by decide)).2.2.1, by decide⟩

end Drawdown

end Pwos
