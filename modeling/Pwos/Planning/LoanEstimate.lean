import Pwos.Domain.Rounding
import Pwos.Lib.Annuity

/-!
# The estimate of a loan

`estimateLoan` of `features/planning/loanEstimate.ts`: the power is a loop of products that are
each cut at 18 digits, and the payment a quotient over that power less one.
-/

namespace Pwos

namespace LoanEstimate

open Decimal Annuity

structure Estimate where
  monthly : Decimal
  total : Decimal
  netReceived : Decimal
  cost : Decimal
  deriving DecidableEq, Repr

def invalidLoan : String := "مبلغ، نرخ، تعداد ماه یا کارمزد معتبر نیست."

/-- `factor` after so many turns of the loop. -/
def factorAfter (r : Decimal) : Nat → Decimal
  | 0 => .ofInt 1
  | k + 1 => (factorAfter r k).mul (.ofInt 1 + r)

def monthlyPayment (p r : Decimal) (months : Nat) : Decimal :=
  if r = 0 then p.div (.ofInt months)
  else
    let factor := factorAfter r months
    ((p.mul r).mul factor).div (factor - .ofInt 1)

/-- Equal monthly payments; excludes penalties, insurance and changing rates. -/
def estimateLoan (principal annualRate : Decimal) (months : ℚ) (fees : Decimal := 0) :
    Except String Estimate :=
  if ¬0 < principal ∨ annualRate < 0 ∨ .ofInt 100 < annualRate ∨ ¬months.isInt ∨ months < 1 ∨
      600 < months ∨ fees < 0 ∨ ¬0 < principal - fees then
    .error invalidLoan
  else
    let r := annualRate.div (.ofInt 1200)
    let monthly := monthlyPayment principal r months.num.toNat
    let total := monthly.mul (.ofInt months.num)
    .ok
      { monthly := monthly.toFixed 0
        total := total.toFixed 0
        netReceived := (principal - fees).toFixed 0
        cost := (total - principal + fees).toFixed 0 }

/-! ## The exact payment -/

/-- The annuity of `n` months, and equal parts where there is no interest. -/
def exactPayment (p rate : ℚ) (n : Nat) : ℚ :=
  let r := rate / 1200
  if r = 0 then p / n else p * r * (1 + r) ^ n / ((1 + r) ^ n - 1)

section Payment
variable {p rate r : Decimal} {n : Nat}

theorem exactPayment_eq {p rate : ℚ} (hn : 0 < n) (hrate : 0 ≤ rate) :
    exactPayment p rate n = p * payment n (rate / 1200) := by
  unfold exactPayment
  dsimp only
  split_ifs with hzero
  · rw [hzero, payment_zero, mul_one_div]
  · have hpos : 0 < rate / 1200 := lt_of_le_of_ne (by positivity) (Ne.symm hzero)
    rw [payment_eq hn hpos]
    ring

theorem abs_factorAfter_sub_le (hr : 0 ≤ r) (n : Nat) :
    |(factorAfter r n).toRat - (1 + r.toRat) ^ n| ≤ ulp * worth n r.toRat := by
  have hstep : ∀ k, |(factorAfter r (k + 1)).toRat - (factorAfter r k).toRat * (1 + r.toRat)| ≤
      ulp := by
    intro k
    have hcut := abs_mul_sub_le (factorAfter r k) (.ofInt 1 + r)
    rwa [toRat_add, toRat_ofInt, Int.cast_one] at hcut
  exact abs_loop_sub_pow_le (f := fun k => (factorAfter r k).toRat) (toRat_nonneg hr)
    (by simp [factorAfter]) hstep n

theorem pos_of_toRat_pos {a : Decimal} (h : 0 < a.toRat) : 0 < a := by
  by_contra hle
  have hneg : 0 ≤ (-a).toRat := toRat_nonneg (neg_nonneg.mpr (not_lt.mp hle))
  have hsplit : (-a).toRat = -a.toRat := by simp [toRat, neg_div]
  linarith

/-- The payment computed from a rate that is at least 10^-5 is near that of the same rate. -/
theorem abs_monthlyPayment_sub_le (hp : 0 ≤ p) (hp' : p.toRat ≤ 10 ^ 12) (hn : 0 < n)
    (hr : 1 / 125000 ≤ r.toRat) :
    |(monthlyPayment p r n).toRat - p.toRat * payment n r.toRat| ≤ 13 / 100 / n + 1 / 10 ^ 6 := by
  have hulp : ulp = 1 / 10 ^ 18 := rfl
  have hgap : 1 / 130000 ≤ r.toRat - ulp := by rw [hulp]; linarith
  have hrpos : 0 < r := pos_of_toRat_pos (by linarith)
  have hnear := abs_factorAfter_sub_le hrpos.le n
  rw [monthlyPayment, if_neg hrpos.ne']
  dsimp only
  generalize factorAfter r n = F at *
  have hF : r.toRat - ulp ≤ F.toRat - 1 := le_sub_one hn ulp_pos.le (by linarith) hnear
  have hpower := abs_quotient_sub_payment_le hn ulp_pos.le (by linarith) hnear
  have hFpos : 0 < F := pos_of_toRat_pos (by linarith)
  have hone : (F - .ofInt 1).toRat = F.toRat - 1 := by simp
  have hden : F - .ofInt 1 ≠ 0 := (pos_of_toRat_pos (by rw [hone]; linarith)).ne'
  have hcut := abs_div_sub_le ((p.mul r).mul F) hden
  rw [hone] at hcut
  have hproduct : |((p.mul r).mul F).toRat / (F.toRat - 1) -
      p.toRat * (r.toRat * F.toRat / (F.toRat - 1))| ≤ ulp * 260001 := by
    have hprod := abs_mul_mul_sub_le p r hFpos.le
    have heq : ((p.mul r).mul F).toRat / (F.toRat - 1) -
        p.toRat * (r.toRat * F.toRat / (F.toRat - 1)) =
        (((p.mul r).mul F).toRat - p.toRat * r.toRat * F.toRat) / (F.toRat - 1) := by ring
    rw [heq, abs_div, abs_of_pos (by linarith : 0 < F.toRat - 1), div_le_iff₀ (by linarith)]
    refine hprod.trans ?_
    rw [mul_comm, mul_assoc]
    exact mul_le_mul_of_nonneg_left (by linarith) ulp_pos.le
  have hscaled : |p.toRat * (r.toRat * F.toRat / (F.toRat - 1)) - p.toRat * payment n r.toRat| ≤
      13 / 100 / n := by
    have hcast : (0 : ℚ) < n := Nat.cast_pos.mpr hn
    rw [← mul_sub, abs_mul, abs_of_nonneg (toRat_nonneg hp)]
    calc p.toRat * |r.toRat * F.toRat / (F.toRat - 1) - payment n r.toRat|
        ≤ 10 ^ 12 * (ulp / (n * (1 / 130000))) := by
          refine mul_le_mul hp' (hpower.trans ?_) (abs_nonneg _) (by positivity)
          have hulpos := ulp_pos
          gcongr
      _ = 13 / 100 / n := by rw [hulp]; field_simp; norm_num
  have hsum := (abs_sub_le _ _ _).trans
    (add_le_add hcut ((abs_sub_le _ _ _).trans (add_le_add hproduct hscaled)))
  refine hsum.trans ?_
  rw [hulp]
  linarith

/-- What the loop and the quotient are off, before anything is printed. -/
theorem abs_payment_off (hp : 0 ≤ p) (hp' : p.toRat ≤ 10 ^ 12) (hn : 0 < n)
    (hrate : rate = 0 ∨ 1 / 100 ≤ rate.toRat) :
    |(monthlyPayment p (rate.div (.ofInt 1200)) n).toRat - exactPayment p.toRat rate.toRat n| ≤
      13 / 100 / n + 1 / 500000 := by
  have hcast : (0 : ℚ) < n := Nat.cast_pos.mpr hn
  have hshare : 0 < 13 / 100 / (n : ℚ) := by positivity
  have hulp : ulp = 1 / 10 ^ 18 := rfl
  rcases hrate with rfl | hrate
  · have hdiv : (0 : Decimal).div (.ofInt 1200) = 0 := by decide
    have hne : ofInt (n : Int) ≠ 0 := by
      rw [← ofInt_zero, Ne, ofInt_inj]
      omega
    have hcut := abs_div_sub_le p hne
    rw [toRat_ofInt, Int.cast_natCast] at hcut
    rw [hdiv, monthlyPayment, if_pos rfl, exactPayment, toRat_zero, zero_div,
      if_pos rfl]
    refine hcut.trans ?_
    rw [hulp]
    linarith
  · have hrpos : 0 < rate := pos_of_toRat_pos (by linarith)
    have h1200 : (0 : Decimal) < .ofInt 1200 := by decide
    have hle := div_le_div hrpos.le h1200
    have hcut := abs_div_sub_le rate h1200.ne'
    rw [toRat_ofInt] at hle hcut
    push_cast at hle hcut
    have hlow := (abs_le.mp hcut).1
    rw [hulp] at hlow
    have hr : 1 / 125000 ≤ (rate.div (.ofInt 1200)).toRat := by linarith
    have hsame := abs_monthlyPayment_sub_le hp hp' hn hr
    have hmoved := abs_payment_sub_le hn (by linarith) hle
    have hscaled : |p.toRat * payment n (rate.div (.ofInt 1200)).toRat -
        p.toRat * payment n (rate.toRat / 1200)| ≤ 10 ^ 12 * ulp := by
      rw [← mul_sub, abs_mul, abs_of_nonneg (toRat_nonneg hp), abs_sub_comm]
      refine mul_le_mul hp' (hmoved.trans ?_) (abs_nonneg _) (by positivity)
      rw [hulp]
      linarith
    rw [exactPayment_eq hn (by linarith)]
    refine (abs_sub_le _ _ _).trans ((add_le_add hsame hscaled).trans ?_)
    rw [hulp]
    linarith

end Payment

/-! ## The estimate -/

/-- The estimate of a valid loan: never an error, a payment within one Toman of the annuity and
a total within two of that of the annuity. -/
theorem estimateLoan_near {p rate fees : Decimal} {n : Nat} (hp : 0 < p)
    (hp' : p ≤ .ofInt (10 ^ 12))
    (hrate : rate = 0 ∨ 1 / 100 ≤ rate.toRat ∧ rate.toRat ≤ 100) (hn : 1 ≤ n) (hn' : n ≤ 600)
    (hfees : 0 ≤ fees) (hfees' : fees < p) :
    ∃ e : Estimate, estimateLoan p rate n fees = .ok e ∧
      |e.monthly.toRat - exactPayment p.toRat rate.toRat n| ≤ 1 ∧
      |e.total.toRat - n * exactPayment p.toRat rate.toRat n| ≤ 2 := by
  have hmost : p.toRat ≤ 10 ^ 12 := by
    have hgap := toRat_nonneg (sub_nonneg.mpr hp')
    rw [toRat_sub, toRat_ofInt] at hgap
    push_cast at hgap
    linarith
  have hrate' : 0 ≤ rate ∧ rate ≤ .ofInt 100 := by
    rcases hrate with rfl | ⟨hlow, hhigh⟩
    · exact ⟨le_rfl, by decide⟩
    · refine ⟨(pos_of_toRat_pos (by linarith)).le, not_lt.mp fun hover => ?_⟩
      have hgap := toRat_pos (sub_pos.mpr hover)
      rw [toRat_sub, toRat_ofInt] at hgap
      push_cast at hgap
      linarith
  have hoff := abs_payment_off hp.le hmost hn (hrate.imp_right And.left)
  have hcast : (1 : ℚ) ≤ n := by exact_mod_cast hn
  have hcast' : (n : ℚ) ≤ 600 := by exact_mod_cast hn'
  have hvalid : ¬(¬0 < p ∨ rate < 0 ∨ .ofInt 100 < rate ∨ ¬(n : ℚ).isInt ∨ (n : ℚ) < 1 ∨
      600 < (n : ℚ) ∨ fees < 0 ∨ ¬0 < p - fees) := by
    have hint : (n : ℚ).isInt := by simp [Rat.isInt]
    push Not
    exact ⟨hp, hrate'.1, hrate'.2, hint, hcast, hcast', hfees, sub_pos.mpr hfees'⟩
  have hnum : (n : ℚ).num = n := Rat.num_natCast n
  refine ⟨_, if_neg hvalid, ?_, ?_⟩
  · dsimp only
    rw [hnum, Int.toNat_natCast]
    have hshare : 13 / 100 / (n : ℚ) ≤ 13 / 100 := div_le_self (by norm_num) hcast
    refine (abs_sub_le _ _ _).trans ((add_le_add (abs_toFixed_sub_le _) hoff).trans ?_)
    linarith
  · dsimp only
    rw [hnum, Int.toNat_natCast, mul_ofInt]
    have htotal : |((n : Int) • monthlyPayment p (rate.div (.ofInt 1200)) n).toRat -
        n * exactPayment p.toRat rate.toRat n| ≤ 13 / 100 + 600 / 500000 := by
      rw [toRat_zsmul, Int.cast_natCast, ← mul_sub, abs_mul, abs_of_nonneg (by positivity)]
      calc n * |(monthlyPayment p (rate.div (.ofInt 1200)) n).toRat -
            exactPayment p.toRat rate.toRat n|
          ≤ n * (13 / 100 / n + 1 / 500000) := mul_le_mul_of_nonneg_left hoff (by positivity)
        _ = 13 / 100 + n / 500000 := by field_simp
        _ ≤ 13 / 100 + 600 / 500000 := by linarith
    refine (abs_sub_le _ _ _).trans ((add_le_add (abs_toFixed_sub_le _) htotal).trans ?_)
    norm_num

theorem estimateLoan_near_at_eighteen : ∃ e : Estimate,
    estimateLoan (.ofInt 12000000) (.ofInt 18) (12 : Nat) (.ofInt 200000) = .ok e ∧
      |e.monthly.toRat - exactPayment (ofInt 12000000).toRat (ofInt 18).toRat 12| ≤ 1 ∧
      |e.total.toRat - (12 : Nat) * exactPayment (ofInt 12000000).toRat (ofInt 18).toRat 12| ≤
        2 :=
  estimateLoan_near (by decide) (by decide) (.inr (by norm_num)) (by decide) (by decide)
    (by decide) (by decide)

example : estimateLoan (.ofInt 12000000) 0 12 (.ofInt 200000) =
    .ok ⟨.ofInt 1000000, .ofInt 12000000, .ofInt 11800000, .ofInt 200000⟩ := by
  decide

end LoanEstimate

end Pwos
