import Pwos.Domain.Decimal
import Pwos.Lib.Digits

/-!
# Amounts as texts

`toString` and `toFixed` of `domain/decimal.ts` write texts which `parse` reads back. The first
writes every amount in one way only; the second rounds half away from zero.
-/

namespace Pwos

namespace Decimal

/-! ## The canonical text -/

/-- A sign only before an amount that is not zero, no zeros in front of the whole part, and none
at the end of the fraction. -/
def Canonical (text : List Char) : Prop :=
  ∃ (neg : Bool) (whole frac : List Char), text = written (neg = true) whole frac ∧
    (∀ c ∈ whole, c.isDigit) ∧ (∀ c ∈ frac, c.isDigit) ∧ whole ≠ [] ∧
    (whole.head? = some '0' → whole = ['0']) ∧ frac.getLast? ≠ some '0' ∧
    (neg = true → ¬ (whole = ['0'] ∧ frac = []))

theorem toDigits_head {n : Nat} (h : (Nat.toDigits 10 n).head? = some '0') :
    Nat.toDigits 10 n = ['0'] := by
  obtain ⟨v, hv⟩ := List.head?_eq_some_iff.mp h
  have hdigits : ∀ c ∈ v, c.isDigit := fun c hc =>
    Nat.isDigit_of_mem_toDigits (b := 10) (n := n) (by decide) (by decide)
      (hv ▸ List.mem_cons_of_mem '0' hc)
  have hvalue : n = Nat.ofDigitChars 10 v 0 := by
    have hall := Nat.ofDigitChars_ten_toDigits (n := n)
    rw [hv, Nat.ofDigitChars_cons] at hall
    exact hall.symm
  rcases Nat.eq_zero_or_pos v.length with hnil | hpos
  · rw [hv, List.length_eq_zero_iff.mp hnil]
  · -- fewer digits would have done
    have hfew := (Nat.length_toDigits_le_iff (b := 10) (by decide) hpos).mpr
      (hvalue ▸ ofDigitChars_lt hdigits)
    rw [hv, List.length_cons] at hfew
    omega

theorem getLast_rdropWhile (v : List Char) :
    (v.rdropWhile (· == '0')).getLast? ≠ some '0' := by
  intro h
  have hne : v.rdropWhile (· == '0') ≠ [] := by
    intro hnil
    rw [hnil] at h
    cases h
  have hlast := List.rdropWhile_last_not (· == '0') v hne
  rw [List.getLast?_eq_some_getLast hne] at h
  rw [Option.some.inj h] at hlast
  exact hlast rfl

theorem canonical_toText (d : Decimal) : Canonical (toText d) := by
  refine ⟨decide (d.raw < 0), Nat.toDigits 10 (d.raw.natAbs / 10 ^ 18),
    (padded (d.raw.natAbs % 10 ^ 18)).rdropWhile (· == '0'), ?_, ?_, ?_, Nat.toDigits_ne_nil,
    toDigits_head, getLast_rdropWhile _, ?_⟩
  · simp only [toText, decide_eq_true_eq]
  · exact fun c hc => Nat.isDigit_of_mem_toDigits (by decide) (by decide) hc
  · exact fun c hc => isDigit_padded ((List.rdropWhile_prefix _ _).subset hc)
  · rintro hneg ⟨hwhole, hfrac⟩
    have hread := parse_toText d
    have hnone : toText d = ['-', '0'] := by
      unfold toText
      rw [hwhole, hfrac, written, if_pos (of_decide_eq_true hneg), if_pos rfl]
      rfl
    have hzero : parse ['-', '0'] = 0 := by decide
    rw [hnone, hzero] at hread
    rw [← hread] at hneg
    cases hneg

/-! ## A fixed number of digits -/

/-- `toFixed` for `dp` up to 18. -/
def toFixedText (dp : Nat) (a : Decimal) : List Char :=
  let factor := 10 ^ (SCALE - dp)
  let rounded := (a.raw.natAbs + factor / 2) / factor
  let s := padStart (dp + 1) rounded
  let whole := s.take (s.length - dp)
  let frac := if 0 < dp then s.drop (s.length - dp) else []
  (if a.raw < 0 ∧ rounded ≠ 0 then ['-'] else []) ++
    ((if whole = [] then ['0'] else whole) ++ if 0 < dp then '.' :: frac else [])

example : toFixedText 2 ⟨-1005 * 10 ^ 15⟩ = "-1.01".toList := by decide
example : toFixedText 0 ⟨-4 * 10 ^ 17⟩ = "0".toList := by decide

section Fixed
variable {dp : Nat} (a : Decimal)

/-- The magnitude in units of the last digit kept. -/
def roundedUnits (dp : Nat) (a : Decimal) : Nat :=
  (a.raw.natAbs + 10 ^ (SCALE - dp) / 2) / 10 ^ (SCALE - dp)

theorem raw_toFixed (dp : Nat) : (a.toFixed dp).raw =
    if a.raw < 0 then -((roundedUnits dp a : Int) * 10 ^ (SCALE - dp))
    else (roundedUnits dp a : Int) * 10 ^ (SCALE - dp) := by
  have habs : a.abs.raw = (a.raw.natAbs : Int) := by
    rw [raw_abs]
    exact Int.abs_eq_natAbs a.raw
  have hunits : (a.abs.raw + 10 ^ (SCALE - dp) / 2) / 10 ^ (SCALE - dp) =
      (roundedUnits dp a : Int) := by
    unfold roundedUnits
    rw [habs]
    push_cast
    rfl
  unfold toFixed
  dsimp only
  rw [hunits]
  split <;> rfl

/-- The digits, cut in front of the last `dp`. -/
theorem toFixedText_eq (dp : Nat) : ∃ whole frac : List Char,
    toFixedText dp a = written (a.raw < 0 ∧ roundedUnits dp a ≠ 0) whole frac ∧
      whole ++ frac = padStart (dp + 1) (roundedUnits dp a) ∧ whole ≠ [] ∧ frac.length = dp := by
  have hlen := le_length_padStart (w := dp + 1) (n := roundedUnits dp a)
  have hunits : (a.raw.natAbs + 10 ^ (SCALE - dp) / 2) / 10 ^ (SCALE - dp) =
    roundedUnits dp a := rfl
  generalize hs : padStart (dp + 1) (roundedUnits dp a) = s at hlen
  have hwhole : s.take (s.length - dp) ≠ [] := by
    intro hnil
    have htake := congrArg List.length hnil
    rw [List.length_take, List.length_nil] at htake
    omega
  have hfrac : (s.drop (s.length - dp)).length = dp := by
    rw [List.length_drop]
    omega
  refine ⟨_, _, ?_, List.take_append_drop _ _, hwhole, hfrac⟩
  unfold toFixedText written
  dsimp only
  rw [hunits, hs, if_neg hwhole]
  rcases Nat.eq_zero_or_pos dp with rfl | hpos
  · rw [List.length_eq_zero_iff.mp hfrac]
    rfl
  · have hsome : s.drop (s.length - dp) ≠ [] := by
      intro hnil
      rw [hnil] at hfrac
      exact hpos.ne hfrac
    rw [if_pos hpos, if_pos hpos, if_neg hsome]

/-- The zeros that `parse` adds behind a shorter fraction. -/
theorem digitsOnly_filled {v : List Char} (hv : ∀ c ∈ v, c.isDigit) (hle : v.length ≤ SCALE) :
    digitsOnly ((v ++ List.replicate SCALE '0').take SCALE) =
      Nat.ofDigitChars 10 v 0 * 10 ^ (SCALE - v.length) := by
  have htake : (v ++ List.replicate SCALE '0').take SCALE =
      v ++ List.replicate (SCALE - v.length) '0' := by
    rw [List.take_append, List.take_of_length_le hle, List.take_replicate,
      Nat.min_eq_left (Nat.sub_le _ _)]
  have hall : ∀ c ∈ v ++ List.replicate (SCALE - v.length) '0', c.isDigit := by
    intro c hc
    rcases List.mem_append.mp hc with hc | hc
    · exact hv c hc
    · rw [List.eq_of_mem_replicate hc]
      rfl
  rw [htake, digitsOnly_of_digits hall, Nat.ofDigitChars_append,
    Nat.ofDigitChars_replicate_zero, mul_comm]

theorem parse_toFixedText (h : dp ≤ SCALE) : parse (toFixedText dp a) = a.toFixed dp := by
  obtain ⟨whole, frac, heq, hsplit, hne, hlen⟩ := toFixedText_eq a dp
  have hdigits : ∀ c ∈ whole ++ frac, c.isDigit := by
    rw [hsplit]
    exact fun c hc => isDigit_of_mem_padStart hc
  have hw : ∀ c ∈ whole, c.isDigit := fun c hc => hdigits c (List.mem_append_left _ hc)
  have hf : ∀ c ∈ frac, c.isDigit := fun c hc => hdigits c (List.mem_append_right _ hc)
  -- the digits of both parts in a row are the rounded units
  have hvalue : Nat.ofDigitChars 10 (whole ++ frac) 0 =
      Nat.ofDigitChars 10 (padStart (dp + 1) (roundedUnits dp a)) 0 := by rw [hsplit]
  rw [ofDigitChars_padStart, Nat.ofDigitChars_append, Nat.ofDigitChars_eq_ofDigitChars_zero, hlen]
    at hvalue
  have hpow : (10 : Int) ^ dp * 10 ^ (SCALE - dp) = ONE := by
    rw [← pow_add, Nat.add_sub_cancel' h]
    rfl
  have hsum : (digitsOnly whole : Int) * ONE +
      digitsOnly ((frac ++ List.replicate SCALE '0').take SCALE) =
        roundedUnits dp a * 10 ^ (SCALE - dp) := by
    rw [digitsOnly_of_digits hw, digitsOnly_filled hf (by omega), hlen, ← hvalue, ← hpow]
    push_cast
    ring
  rw [heq, parse_written hne hw hf]
  apply Decimal.ext
  dsimp only
  rw [hsum, raw_toFixed]
  by_cases hneg : a.raw < 0
  · by_cases hzero : roundedUnits dp a = 0
    · simp [hzero]
    · rw [if_pos ⟨hneg, hzero⟩, if_pos hneg]
  · rw [if_neg fun hboth => hneg hboth.1, if_neg hneg]

/-! ## Rounding -/

theorem half_scale (dp : Nat) : 10 ^ (SCALE - dp) = 1 ∨ ∃ h, 10 ^ (SCALE - dp) = 2 * h := by
  rcases Nat.eq_zero_or_pos (SCALE - dp) with hzero | hpos
  · left
    rw [hzero, pow_zero]
  · right
    obtain ⟨k, hk⟩ := Nat.exists_eq_add_of_lt hpos
    refine ⟨5 * 10 ^ k, ?_⟩
    rw [hk, Nat.zero_add, pow_succ]
    ring

/-- The nearest number of units; of two as near the larger one. -/
theorem roundedUnits_near (dp : Nat) :
    2 * |(roundedUnits dp a * 10 ^ (SCALE - dp) : Nat) - (a.raw.natAbs : Int)| ≤
        (10 ^ (SCALE - dp) : Nat) ∧
      (2 * |(roundedUnits dp a * 10 ^ (SCALE - dp) : Nat) - (a.raw.natAbs : Int)| =
          (10 ^ (SCALE - dp) : Nat) →
        a.raw.natAbs < roundedUnits dp a * 10 ^ (SCALE - dp)) := by
  have hpos : 0 < 10 ^ (SCALE - dp) := by positivity
  have hdiv : roundedUnits dp a * 10 ^ (SCALE - dp) +
      (a.raw.natAbs + 10 ^ (SCALE - dp) / 2) % 10 ^ (SCALE - dp) =
        a.raw.natAbs + 10 ^ (SCALE - dp) / 2 := Nat.div_add_mod' _ _
  have hlt := Nat.mod_lt (a.raw.natAbs + 10 ^ (SCALE - dp) / 2) hpos
  have hhalf := half_scale dp
  rw [Int.abs_eq_natAbs]
  generalize roundedUnits dp a * 10 ^ (SCALE - dp) = units at *
  generalize (a.raw.natAbs + 10 ^ (SCALE - dp) / 2) % 10 ^ (SCALE - dp) = rest at *
  generalize 10 ^ (SCALE - dp) = factor at *
  rcases hhalf with rfl | ⟨h, rfl⟩ <;> constructor <;> omega

theorem toFixed_near (dp : Nat) :
    2 * |(a.toFixed dp).raw - a.raw| ≤ 10 ^ (SCALE - dp) ∧
      (2 * |(a.toFixed dp).raw - a.raw| = 10 ^ (SCALE - dp) →
        |a.raw| < |(a.toFixed dp).raw|) := by
  have hnear := roundedUnits_near a dp
  have hraw := raw_toFixed a dp
  push_cast at hnear
  have hunits : (0 : Int) ≤ (roundedUnits dp a : Int) * 10 ^ (SCALE - dp) := by positivity
  have hcast : a.raw.natAbs < roundedUnits dp a * 10 ^ (SCALE - dp) ↔
      |a.raw| < (roundedUnits dp a : Int) * 10 ^ (SCALE - dp) := by
    rw [Int.abs_eq_natAbs]
    exact_mod_cast Iff.rfl
  rw [hcast] at hnear
  generalize (roundedUnits dp a : Int) * 10 ^ (SCALE - dp) = units at *
  generalize (10 : Int) ^ (SCALE - dp) = factor at *
  rw [hraw]
  split_ifs with hneg
  · have heq : |(-units) - a.raw| = |units - (|a.raw|)| := by
      rw [abs_of_neg hneg, ← abs_neg]
      congr 1
      ring
    rw [heq, abs_neg, abs_of_nonneg hunits]
    exact hnear
  · rw [abs_of_nonneg hunits]
    rw [abs_of_nonneg (not_lt.mp hneg)] at hnear ⊢
    exact hnear

theorem roundedUnits_mono {a b : Decimal} (h : a.raw.natAbs ≤ b.raw.natAbs) (dp : Nat) :
    roundedUnits dp a ≤ roundedUnits dp b :=
  Nat.div_le_div_right (Nat.add_le_add_right h _)

theorem toFixed_mono {a b : Decimal} (h : a ≤ b) (dp : Nat) : a.toFixed dp ≤ b.toFixed dp := by
  have hraw : a.raw ≤ b.raw := h
  have hpos : (0 : Int) ≤ 10 ^ (SCALE - dp) := by positivity
  rw [le_iff, raw_toFixed, raw_toFixed]
  have hunits (c : Decimal) : (0 : Int) ≤ (roundedUnits dp c : Int) * 10 ^ (SCALE - dp) := by
    positivity
  have ha := hunits a
  have hb := hunits b
  split_ifs with hnega hnegb hnegb
  · have hle := roundedUnits_mono (a := b) (b := a) (by omega) dp
    exact neg_le_neg (mul_le_mul_of_nonneg_right (by exact_mod_cast hle) hpos)
  · linarith
  · omega
  · have hle := roundedUnits_mono (a := a) (b := b) (by omega) dp
    exact mul_le_mul_of_nonneg_right (by exact_mod_cast hle) hpos

theorem toFixedText_shape (dp : Nat) : ∃ (neg : Bool) (whole frac : List Char),
    toFixedText dp a = written (neg = true) whole frac ∧ (∀ c ∈ whole, c.isDigit) ∧
      (∀ c ∈ frac, c.isDigit) ∧ whole ≠ [] ∧ frac.length = dp := by
  obtain ⟨whole, frac, heq, hsplit, hne, hlen⟩ := toFixedText_eq a dp
  have hdigits : ∀ c ∈ whole ++ frac, c.isDigit := by
    rw [hsplit]
    exact fun c hc => isDigit_of_mem_padStart hc
  refine ⟨decide (a.raw < 0 ∧ roundedUnits dp a ≠ 0), whole, frac, ?_,
    fun c hc => hdigits c (List.mem_append_left _ hc),
    fun c hc => hdigits c (List.mem_append_right _ hc), hne, hlen⟩
  simp only [heq, decide_eq_true_eq]

/-- `toString` writes an amount in its canonical text, which reads back as the amount. `toFixed`
writes exactly the digits asked for, and they read back as the nearest such number, of two as
near the one away from zero; larger amounts are written as larger numbers. -/
theorem amount_texts (h : dp ≤ SCALE) :
    parse (toText a) = a ∧ Canonical (toText a) ∧
    (∃ (neg : Bool) (whole frac : List Char),
      toFixedText dp a = written (neg = true) whole frac ∧ (∀ c ∈ whole, c.isDigit) ∧
        (∀ c ∈ frac, c.isDigit) ∧ whole ≠ [] ∧ frac.length = dp) ∧
    2 * |(parse (toFixedText dp a)).raw - a.raw| ≤ 10 ^ (SCALE - dp) ∧
    (2 * |(parse (toFixedText dp a)).raw - a.raw| = 10 ^ (SCALE - dp) →
      |a.raw| < |(parse (toFixedText dp a)).raw|) ∧
    ∀ b, a ≤ b → parse (toFixedText dp a) ≤ parse (toFixedText dp b) := by
  rw [parse_toFixedText a h]
  obtain ⟨hnear, haway⟩ := toFixed_near a dp
  refine ⟨parse_toText a, canonical_toText a, toFixedText_shape a dp, hnear, haway, ?_⟩
  intro b hab
  rw [parse_toFixedText b h]
  exact toFixed_mono hab dp

/-- Half a cent, rounded away from zero. -/
theorem amount_texts_of_half :
    |(⟨-5 * 10 ^ 15⟩ : Decimal).raw| < |(parse (toFixedText 2 ⟨-5 * 10 ^ 15⟩)).raw| ∧
      toFixedText 2 ⟨-5 * 10 ^ 15⟩ = "-0.01".toList := by
  have htie : 2 * |(parse (toFixedText 2 ⟨-5 * 10 ^ 15⟩)).raw - (⟨-5 * 10 ^ 15⟩ : Decimal).raw| =
      10 ^ (SCALE - 2) := by decide
  exact ⟨(amount_texts ⟨-5 * 10 ^ 15⟩ (by decide)).2.2.2.2.1 htie, by decide⟩

end Fixed

end Decimal

end Pwos
