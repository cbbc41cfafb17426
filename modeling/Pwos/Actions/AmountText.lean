import Pwos.Actions.PostTransaction
import Pwos.Domain.LiteralText
import Pwos.Domain.Rounding

/-!
# What a validated amount denotes

`validateAmount` of `lib/validation.ts` asks `Number` whether a text is a finite number and then
lets `parse` of `domain/decimal.ts` read it, which drops the characters it does not know. The
two readings agree on plain decimal texts; an exponent or a base other than ten is accepted and
misread.
-/

namespace Pwos

/-- How `validateAmount` sees a text. -/
def AmountField.ofText (val : List Char) : AmountField :=
  let str := jsTrim val
  if str = [] then .blank
  else
    match readNumber str with
    | none => .notFinite
    | some l => if l.isFinite then .number (Decimal.parse str) else .notFinite

/-! ## Where the two readings agree -/

/-- Without an exponent, when no digit behind the 18th is lost. With one only where it does not
matter: its mark stands behind a point, and its value is 0, or its mark takes the place of the
zero that a value of -1 or -2 would put there. -/
def DecimalLiteral.ReadAlike (l : DecimalLiteral) : Prop :=
  match l.exponent with
  | none => digitsValue (l.fraction.drop 18) = 0
  | some e =>
    l.frac ≠ none ∧
      (e.value = 0 ∧ (digitsValue l.fraction = 0 ∨
        18 ≤ l.fraction.length ∧ digitsValue (l.fraction.drop 18) = 0) ∨
      digitsValue l.whole = 0 ∧ (e.value = -1 ∧ l.fraction.length = 17 ∨
        e.value = -2 ∧ l.fraction.length ≤ 16 ∧
          digitsValue (e.digits.take (16 - l.fraction.length)) = 0))

/-- A literal to another base has one digit that counts. -/
def RadixLiteral.ReadAlike (l : RadixLiteral) : Prop := l.value < l.base ∧ l.value < 10

def NumberLiteral.ReadAlike : NumberLiteral → Prop
  | .infinity _ => False
  | .decimal l => l.ReadAlike
  | .radix l => l.ReadAlike

/-! ## When a reading with an exponent is right

`W` and `F` are the digits around the point, `P` is ten to the number of the latter, `T` ten to the
exponent, `r` what `parse` reads. -/

section Arithmetic
variable {W F G P M T E R r n : Nat}

theorem row_of_digits_ne (hE : E < 10 ^ n) (hn : 0 < n) (h : W * 10 ^ n + E = W * 10 ^ E) :
    W * 10 ^ n + E = 0 := by
  rcases Nat.lt_or_ge E n with hlt | hge
  · -- the exponent is less than its length: the product is too small
    have hpow : 10 ^ E < 10 ^ n := Nat.pow_lt_pow_right (by decide) hlt
    rcases Nat.eq_zero_or_pos W with rfl | hW
    · omega
    · have := Nat.mul_lt_mul_of_pos_left hpow hW
      omega
  · -- otherwise the exponent is a multiple of what it is less than
    have hdvd : 10 ^ n ∣ E := by
      have hsum : 10 ^ n ∣ W * 10 ^ n + E := h ▸ Dvd.dvd.mul_left (Nat.pow_dvd_pow 10 hge) W
      exact (Nat.dvd_add_right (Dvd.intro_left W rfl)).mp hsum
    have hzero := Nat.eq_zero_of_dvd_of_lt hdvd hE
    omega

theorem row_of_digits_ne_neg (hn : 0 < n) (h : (W * 10 ^ n + E) * 10 ^ E = W) :
    W * 10 ^ n + E = 0 := by
  have hten : 10 ≤ 10 ^ n := Nat.le_self_pow hn.ne' 10
  have hone : 1 ≤ 10 ^ E := Nat.one_le_pow' E 9
  have hrow : W * 10 ≤ W * 10 ^ n := Nat.mul_le_mul_left W hten
  have hle : W * 10 ^ n + E ≤ (W * 10 ^ n + E) * 10 ^ E := Nat.le_mul_of_pos_right _ hone
  omega

theorem long_fraction (hr : 0 < r) (hP : 0 < P) (hT : 0 < T) :
    r * P = (r * P + R * 10 ^ 18) * T ↔ T = 1 ∧ R = 0 := by
  have hrP : 0 < r * P := Nat.mul_pos hr hP
  constructor
  · intro h
    have hone : T = 1 := by
      by_contra hne
      have htwo : 2 ≤ T := by omega
      have := Nat.mul_le_mul_left (r * P + R * 10 ^ 18) htwo
      omega
    rw [hone, Nat.mul_one] at h
    exact ⟨hone, by omega⟩
  · rintro ⟨rfl, rfl⟩
    omega

theorem long_fraction_neg (hr : 0 < r) (hR : R * 10 ^ 18 < P) (hT : T = 1 ∨ 10 ≤ T) :
    r * P * T = r * P + R * 10 ^ 18 ↔ T = 1 ∧ R = 0 := by
  have hrP : P ≤ r * P := Nat.le_mul_of_pos_left P hr
  rcases hT with rfl | hten
  · omega
  · have := Nat.mul_le_mul_left (r * P) hten
    omega

section Short

theorem short_lt (hF : F < P) (hG : G < M) (hPM : P * M ≤ 10 ^ 17) : F * M + G < 10 ^ 17 := by
  have hle : (F + 1) * M ≤ P * M := Nat.mul_le_mul_right M hF
  rw [Nat.add_mul] at hle
  omega

theorem short_fraction_pos (hF : F < P) (hG : G < M) (hPM : P * M ≤ 10 ^ 17) (hT : 10 ≤ T)
    (h : (W * 10 ^ 18 + (F * M + G)) * P = (W * P + F) * T * 10 ^ 18) :
    W * 10 ^ 18 + (F * M + G) = 0 := by
  have hlt := short_lt hF hG hPM
  have hbig : (W * P + F) * 10 * 10 ^ 18 ≤ (W * P + F) * T * 10 ^ 18 :=
    Nat.mul_le_mul_right _ (Nat.mul_le_mul_left _ hT)
  rcases Nat.eq_zero_or_pos W with rfl | hW
  · rw [Nat.zero_mul, Nat.zero_add, Nat.zero_mul, Nat.zero_add] at h
    rw [Nat.zero_mul, Nat.zero_add] at hbig ⊢
    rcases Nat.eq_zero_or_pos F with rfl | hpos
    · rw [Nat.zero_mul, Nat.zero_add, Nat.zero_mul, Nat.zero_mul] at h
      rw [Nat.zero_mul, Nat.zero_add]
      exact (Nat.mul_eq_zero.mp h).resolve_right (by omega)
    · -- the digits behind the point are read as too small a number
      have hone : G * P ≤ P * M := by
        rw [Nat.mul_comm P M]
        exact Nat.mul_le_mul_right P hG.le
      have hmany : F * (P * M) ≤ F * 10 ^ 17 := Nat.mul_le_mul_left F hPM
      have hread : (F * M + G) * P = F * (P * M) + G * P := by ring
      omega
  · have hread := Nat.mul_le_mul_right P (Nat.add_le_add_left hlt.le (W * 10 ^ 18))
    have hWP : P ≤ W * P := Nat.le_mul_of_pos_left P hW
    have hexpand (a b : Nat) : (W * a + b) * P = W * P * a + P * b := by ring
    simp only [hexpand] at hread h
    have hP : 0 < P := Nat.zero_lt_of_lt hF
    exfalso
    linarith

theorem short_fraction_neg (hF : F < P) (hT : 10 ≤ T)
    (h : (W * 10 ^ 18 + (F * M + G)) * P * T = (W * P + F) * 10 ^ 18) : W = 0 := by
  by_contra hne
  have hWP : P ≤ W * P := Nat.le_mul_of_pos_left P (Nat.pos_of_ne_zero hne)
  have hread : W * 10 ^ 18 * P * 10 ≤ (W * 10 ^ 18 + (F * M + G)) * P * T :=
    Nat.mul_le_mul (Nat.mul_le_mul_right P (Nat.le_add_right _ _)) hT
  have hexpand : W * 10 ^ 18 * P * 10 = W * P * 10 ^ 19 := by ring
  omega

theorem short_fraction_plain (hPM : P * M ≤ 10 ^ 17) :
    (W * 10 ^ 18 + F * M) * P = (W * P + F) * 10 ^ 18 ↔ F = 0 := by
  have hexpand (a : Nat) : (W * a + F * M) * P = W * P * a + F * (P * M) := by ring
  have hmany : F * (P * M) ≤ F * 10 ^ 17 := Nat.mul_le_mul_left F hPM
  rw [hexpand, Nat.add_mul]
  constructor
  · intro h
    omega
  · rintro rfl
    omega

/-- The mark alone is within reach: it takes the place of one zero. -/
theorem one_place (hF : 0 < F) : F * 10 ^ 17 * 10 ^ E = F * 10 ^ 18 ↔ E = 1 := by
  constructor
  · intro h
    have hpow : 10 ^ (17 + E) = 10 ^ 18 := by
      rw [pow_add]
      exact Nat.eq_of_mul_eq_mul_left hF (by rw [← h, Nat.mul_assoc])
    have := Nat.pow_right_injective (by decide : 2 ≤ 10) hpow
    omega
  · rintro rfl
    ring

/-- The mark and a sign are: they take the places of two. -/
theorem two_places (hG : G < M) (hPM : P * M = 10 ^ 16) (hr : 0 < F * M + G) (hE : 0 < E) :
    (F * M + G) * P * 10 ^ E = F * 10 ^ 18 ↔ E = 2 ∧ G = 0 := by
  have hP : 0 < P := by
    rcases Nat.eq_zero_or_pos P with rfl | hP
    · rw [Nat.zero_mul] at hPM
      exact absurd hPM (by decide)
    · exact hP
  have hGP : G * P < 10 ^ 16 := by
    rw [← hPM, Nat.mul_comm P M]
    exact Nat.mul_lt_mul_of_pos_right hG hP
  have hread : (F * M + G) * P = F * 10 ^ 16 + G * P := by
    rw [← hPM]
    ring
  have hsome : 0 < F * 10 ^ 16 + G * P := by
    rw [← hread]
    exact Nat.mul_pos hr hP
  rw [hread]
  constructor
  · intro h
    obtain rfl | rfl | hmore : E = 1 ∨ E = 2 ∨ 3 ≤ E := by omega
    · rw [pow_one] at h
      omega
    · have hzero : G * P = 0 := by omega
      exact ⟨rfl, (Nat.mul_eq_zero.mp hzero).resolve_right hP.ne'⟩
    · have hpow : 10 ^ 3 ≤ 10 ^ E := Nat.pow_le_pow_right (by decide) hmore
      have hlarge := Nat.mul_le_mul_left (F * 10 ^ 16 + G * P) hpow
      omega
  · rintro ⟨rfl, rfl⟩
    ring

theorem short_fraction_minus {k : Nat} (hk : k < 18) (hF : F < 10 ^ k) (hG : G < 10 ^ (16 - k))
    (hr : 0 < W * 10 ^ 18 + (F * 10 ^ (16 - k) + G)) (hE : 0 < E) :
    (W * 10 ^ 18 + (F * 10 ^ (16 - k) + G)) * 10 ^ k * 10 ^ E = (W * 10 ^ k + F) * 10 ^ 18 ↔
      W = 0 ∧ (E = 1 ∧ k = 17 ∨ E = 2 ∧ k ≤ 16 ∧ G = 0) := by
  have hten : 10 ≤ 10 ^ E := Nat.le_self_pow hE.ne' 10
  by_cases hW : W = 0
  swap
  · exact iff_of_false (fun h => hW (short_fraction_neg hF hten h)) fun h => hW h.1
  subst hW
  simp only [Nat.zero_mul, Nat.zero_add, true_and] at hr ⊢
  rcases Nat.lt_or_ge 16 k with hlarge | hsmall
  · obtain rfl : k = 17 := by omega
    obtain rfl : G = 0 := Nat.lt_one_iff.mp hG
    have hpos : 0 < F := Nat.pos_of_mul_pos_right hr
    have hiff := one_place (E := E) hpos
    rw [Nat.add_zero, Nat.sub_eq_zero_of_le hlarge.le, pow_zero, Nat.mul_one, hiff]
    omega
  · have hPM : 10 ^ k * 10 ^ (16 - k) = 10 ^ 16 := by
      rw [← pow_add, Nat.add_sub_cancel' hsmall]
    rw [two_places hG hPM hr hE]
    omega

end Short

end Arithmetic

/-! ## The two readings -/

section Readings

theorem toRat_eq_iff (r N k E : Nat) :
    (r : ℚ) / 10 ^ 18 = N * (10 : ℚ) ^ ((E : Int) - k) ↔ r * 10 ^ k = N * 10 ^ E * 10 ^ 18 := by
  rw [zpow_sub₀ (by norm_num), zpow_natCast, zpow_natCast, ← mul_div_assoc,
    div_eq_div_iff (by positivity) (by positivity)]
  exact_mod_cast Iff.rfl

theorem toRat_eq_iff_neg (r N k E : Nat) :
    (r : ℚ) / 10 ^ 18 = N * (10 : ℚ) ^ (-(E : Int) - k) ↔ r * 10 ^ k * 10 ^ E = N * 10 ^ 18 := by
  rw [zpow_sub₀ (by norm_num), zpow_neg, zpow_natCast, zpow_natCast, div_eq_mul_inv (_⁻¹),
    ← mul_inv, ← div_eq_mul_inv, div_eq_div_iff (by positivity) (by positivity)]
  constructor
  · intro h
    have hnat : r * (10 ^ E * 10 ^ k) = N * 10 ^ 18 := by exact_mod_cast h
    rw [← hnat]
    ring
  · intro h
    have hnat : r * (10 ^ E * 10 ^ k) = N * 10 ^ 18 := by
      rw [← h]
      ring
    exact_mod_cast hnat

theorem one_or_ten_le (E : Nat) : 10 ^ E = 1 ∨ 10 ≤ 10 ^ E := by
  rcases Nat.eq_zero_or_pos E with rfl | hpos
  · exact .inl (pow_zero 10)
  · exact .inr (Nat.le_self_pow hpos.ne' 10)

theorem digitsValue_lt {v : List Char} (h : ∀ c ∈ v, c.isDigit) : digitsValue v < 10 ^ v.length :=
  ofDigitChars_lt h

variable {l : DecimalLiteral}

theorem value_unsigned (hsign : l.sign ≠ ['-']) : l.value =
    (digitsValue l.whole * 10 ^ l.fraction.length + digitsValue l.fraction : Nat) *
      (10 : ℚ) ^ (l.exponent.elim 0 Exponent.value - l.fraction.length) := by
  rw [DecimalLiteral.value, if_neg hsign, DecimalLiteral.magnitude, digitsValue_append]
  rfl

/-- Without an exponent the reading is right when nothing is cut off. -/
theorem reads_plain (h : l.WellFormed) (hsign : l.sign ≠ ['-']) (he : l.exponent = none) :
    (Decimal.parse l.text).toRat = l.value ↔ digitsValue (l.fraction.drop 18) = 0 := by
  have hvalue := value_unsigned hsign
  rw [he, Option.elim_none] at hvalue
  have htail : l.tail = [] := by
    unfold DecimalLiteral.tail
    rw [he]
    rfl
  have hzero (N k : Nat) : (N : ℚ) * (10 : ℚ) ^ ((0 : Int) - k) =
    N * (10 : ℚ) ^ (((0 : Nat) : Int) - k) := rfl
  cases hfrac : l.frac with
  | none =>
    have hnone : l.fraction = [] := by
      unfold DecimalLiteral.fraction
      rw [hfrac]
      rfl
    rw [Decimal.toRat, raw_parse_none h hsign hfrac, hvalue, hnone, he, Int.cast_natCast, hzero,
      toRat_eq_iff]
    have hnil : digitsValue [] = 0 := rfl
    simp [hnil]
  | some f =>
    have hcut := cut_value (w := []) h.fraction (.inl rfl)
    rw [Decimal.toRat, raw_parse_some h hsign hfrac, hvalue, htail, Int.cast_natCast, hzero,
      toRat_eq_iff]
    generalize Decimal.digitsOnly _ = read at *
    generalize digitsValue (l.fraction.drop 18) = lost at *
    generalize digitsValue l.fraction = F at *
    generalize 10 ^ l.fraction.length = P at *
    generalize digitsValue l.whole = W at *
    constructor
    · intro heq
      have hexpand : (W * 10 ^ 18 + read) * P = W * P * 10 ^ 18 + read * P := by ring
      have hexpand' : (W * P + F) * 10 ^ 0 * 10 ^ 18 = W * P * 10 ^ 18 + F * 10 ^ 18 := by ring
      rw [hexpand, hexpand', hcut] at heq
      omega
    · rintro rfl
      have hexpand : (W * P + F) * 10 ^ 0 * 10 ^ 18 = W * 10 ^ 18 * P + F * 10 ^ 18 := by ring
      rw [hexpand, hcut]
      ring

/-- A row of digits that runs into its exponent. -/
theorem reads_no_point (h : l.WellFormed) (hsign : l.sign ≠ ['-']) {e : Exponent}
    (he : l.exponent = some e) (hfrac : l.frac = none) (hpos : 0 < Decimal.parse l.text) :
    (Decimal.parse l.text).toRat ≠ l.value := by
  have hexp := h.exponent e he
  have hlen : 0 < e.digits.length := List.length_pos_of_ne_nil hexp.nonempty
  have hlt := digitsValue_lt hexp.digits
  have hraw := raw_parse_none h hsign hfrac
  have hnone : l.fraction = [] := by
    unfold DecimalLiteral.fraction
    rw [hfrac]
    rfl
  have hvalue := value_unsigned hsign
  rw [he, Option.elim_some, hnone, List.length_nil, pow_zero, Nat.mul_one] at hvalue
  rw [he, Option.elim_some, digitsValue_append] at hraw
  have hsome : 0 < digitsValue l.whole * 10 ^ e.digits.length + digitsValue e.digits := by
    rw [Decimal.lt_iff, hraw, Decimal.raw_zero] at hpos
    exact Nat.pos_of_mul_pos_right (by exact_mod_cast hpos)
  have hnil : digitsValue [] = 0 := rfl
  intro heq
  rw [Decimal.toRat, hraw, hvalue, hnil, Nat.add_zero, Int.cast_natCast] at heq
  by_cases hneg : e.sign = ['-']
  · rw [Exponent.value, if_pos hneg, toRat_eq_iff_neg, pow_zero, Nat.mul_one] at heq
    have hrow : (digitsValue l.whole * 10 ^ e.digits.length + digitsValue e.digits) *
        10 ^ digitsValue e.digits = digitsValue l.whole := by
      refine Nat.eq_of_mul_eq_mul_right (by positivity : 0 < 10 ^ 18) ?_
      rw [← heq]
      ring
    exact hsome.ne' (row_of_digits_ne_neg hlen hrow)
  · rw [Exponent.value, if_neg hneg, toRat_eq_iff, pow_zero, Nat.mul_one] at heq
    have hrow := Nat.eq_of_mul_eq_mul_right (by positivity : 0 < 10 ^ 18) heq
    exact hsome.ne' (row_of_digits_ne hlt hlen hrow)

/-- A long fraction leaves the exponent out of the reading. -/
theorem reads_long (h : l.WellFormed) (hsign : l.sign ≠ ['-']) {e : Exponent}
    (he : l.exponent = some e) {f : List Char} (hfrac : l.frac = some f)
    (hlong : 18 ≤ l.fraction.length) (hpos : 0 < Decimal.parse l.text) :
    (Decimal.parse l.text).toRat = l.value ↔
      e.value = 0 ∧ digitsValue (l.fraction.drop 18) = 0 := by
  have hraw := raw_parse_some h hsign hfrac
  have hvalue := value_unsigned hsign
  have hcut := cut_value (w := l.tail) h.fraction (.inr hlong)
  have hlost := digitsValue_lt (v := l.fraction.drop 18)
    fun c hc => h.fraction c (List.mem_of_mem_drop hc)
  rw [List.length_drop] at hlost
  have hpow : 10 ^ (l.fraction.length - 18) * 10 ^ 18 = 10 ^ l.fraction.length := by
    rw [← pow_add, Nat.sub_add_cancel hlong]
  have hless : digitsValue (l.fraction.drop 18) * 10 ^ 18 < 10 ^ l.fraction.length := by
    rw [← hpow]
    exact Nat.mul_lt_mul_of_pos_right hlost (by positivity)
  have hP : 0 < 10 ^ l.fraction.length := by positivity
  rw [he, Option.elim_some] at hvalue
  have hr : 0 < digitsValue l.whole * 10 ^ 18 + Decimal.digitsOnly
      ((l.fraction ++ l.tail ++ List.replicate SCALE '0').take SCALE) := by
    rw [Decimal.lt_iff, hraw, Decimal.raw_zero] at hpos
    exact_mod_cast hpos
  rw [Decimal.toRat, hraw, hvalue, Int.cast_natCast]
  clear hvalue hraw hpos hlost hpow
  generalize Decimal.digitsOnly _ = read at *
  generalize digitsValue (l.fraction.drop 18) = lost at *
  generalize digitsValue l.fraction = F at *
  generalize digitsValue l.whole = W at *
  generalize hk : l.fraction.length = k at *
  have hN : (W * 10 ^ k + F) * 10 ^ 18 = (W * 10 ^ 18 + read) * 10 ^ k + lost * 10 ^ 18 := by
    have hexpand : (W * 10 ^ k + F) * 10 ^ 18 = W * 10 ^ 18 * 10 ^ k + F * 10 ^ 18 := by ring
    rw [hexpand, hcut]
    ring
  by_cases hneg : e.sign = ['-']
  · rw [Exponent.value, if_pos hneg, toRat_eq_iff_neg, hN, long_fraction_neg hr hless]
    · simp
    · exact one_or_ten_le _
  · rw [Exponent.value, if_neg hneg, toRat_eq_iff, Nat.mul_right_comm, hN,
      long_fraction hr hP (by positivity)]
    simp

theorem value_take_filled {v : List Char} {n : Nat} :
    digitsValue ((v ++ List.replicate SCALE '0').take n) = 0 ↔ digitsValue (v.take n) = 0 := by
  rw [List.take_append, List.take_replicate, digitsValue_append, digitsValue_zeros, Nat.add_zero]
  exact Nat.mul_eq_zero.trans (or_iff_left (by positivity))

theorem value_take_of_zero {v : List Char} (h : digitsValue v = 0) (n : Nat) :
    digitsValue (v.take n) = 0 := by
  have hsplit := digitsValue_append (v.take n) (v.drop n)
  rw [List.take_append_drop, h] at hsplit
  exact (Nat.mul_eq_zero.mp (Nat.add_eq_zero_iff.mp hsplit.symm).1).resolve_right (by positivity)

/-- Of a shorter fraction the 18 characters reach the mark of the exponent, which moves the
digits behind it. -/
theorem reads_short (h : l.WellFormed) (hsign : l.sign ≠ ['-']) {e : Exponent}
    (he : l.exponent = some e) {f : List Char} (hfrac : l.frac = some f)
    (hshort : l.fraction.length < 18) (hpos : 0 < Decimal.parse l.text) :
    (Decimal.parse l.text).toRat = l.value ↔
      e.value = 0 ∧ digitsValue l.fraction = 0 ∨
        digitsValue l.whole = 0 ∧ (e.value = -1 ∧ l.fraction.length = 17 ∨
          e.value = -2 ∧ l.fraction.length ≤ 16 ∧
            digitsValue (e.digits.take (16 - l.fraction.length)) = 0) := by
  have hexp := h.exponent e he
  have hraw := raw_parse_some h hsign hfrac
  have hvalue := value_unsigned hsign
  have htail : l.tail = e.text := by
    unfold DecimalLiteral.tail
    rw [he]
    rfl
  have hF := digitsValue_lt h.fraction
  have hwindow := window_value h.fraction hshort hexp
  rw [he, Option.elim_some] at hvalue
  rw [htail, hwindow] at hraw
  have hr : 0 < digitsValue l.whole * 10 ^ 18 + (digitsValue l.fraction *
      10 ^ e.reached l.fraction.length + digitsValue ((e.digits ++ List.replicate SCALE '0').take
        (e.reached l.fraction.length))) := by
    rw [Decimal.lt_iff, hraw, Decimal.raw_zero] at hpos
    exact_mod_cast hpos
  have hG : digitsValue ((e.digits ++ List.replicate SCALE '0').take
      (e.reached l.fraction.length)) < 10 ^ e.reached l.fraction.length := by
    refine (digitsValue_lt fun c hc => ?_).trans_le
      (Nat.pow_le_pow_right (by decide) (List.length_take_le _ _))
    rcases List.mem_append.mp (List.mem_of_mem_take hc) with hc | hc
    · exact hexp.digits c hc
    · rw [List.eq_of_mem_replicate hc]
      rfl
  have hPM : 10 ^ l.fraction.length * 10 ^ e.reached l.fraction.length ≤ 10 ^ 17 := by
    rw [← pow_add]
    refine Nat.pow_le_pow_right (by decide) ?_
    unfold Exponent.reached
    split <;> omega
  have hP : 0 < 10 ^ l.fraction.length := by positivity
  -- an exponent of zero leaves zeros behind its mark
  have hplain : digitsValue e.digits = 0 → digitsValue ((e.digits ++ List.replicate SCALE '0').take
      (e.reached l.fraction.length)) = 0 :=
    fun hzero => value_take_filled.mpr (value_take_of_zero hzero _)
  rw [Decimal.toRat, hraw, hvalue, Int.cast_natCast]
  clear hraw hvalue hwindow hpos
  by_cases hneg : e.sign = ['-']
  · have hreached : e.reached l.fraction.length = 16 - l.fraction.length := by
      unfold Exponent.reached
      rw [if_neg]
      rw [hneg]
      exact List.cons_ne_nil _ _
    rw [hreached] at hr hG hPM hplain ⊢
    rw [Exponent.value, if_pos hneg, toRat_eq_iff_neg, ← value_take_filled (n := 16 - _)]
    generalize digitsValue ((e.digits ++ List.replicate SCALE '0').take _) = G at *
    generalize digitsValue l.fraction = F at *
    generalize digitsValue l.whole = W at *
    generalize digitsValue e.digits = E at *
    generalize l.fraction.length = k at *
    rcases Nat.eq_zero_or_pos E with rfl | hE
    · have hiff := short_fraction_plain (W := W) (F := F) hPM
      rw [hplain rfl, Nat.add_zero, pow_zero, Nat.mul_one, hiff]
      omega
    · rw [short_fraction_minus hshort hF hG hr hE]
      omega
  · rw [Exponent.value, if_neg hneg, toRat_eq_iff]
    generalize digitsValue ((e.digits ++ List.replicate SCALE '0').take _) = G at *
    generalize digitsValue l.fraction = F at *
    generalize digitsValue l.whole = W at *
    generalize digitsValue e.digits = E at *
    generalize l.fraction.length = k at *
    rcases Nat.eq_zero_or_pos E with rfl | hE
    · have hiff := short_fraction_plain (W := W) (F := F) hPM
      rw [hplain rfl, Nat.add_zero, pow_zero, Nat.mul_one, hiff]
      omega
    · have hten : 10 ≤ 10 ^ E := Nat.le_self_pow hE.ne' 10
      constructor
      · intro heq
        exact absurd (short_fraction_pos hF hG hPM hten heq) hr.ne'
      · omega

theorem decimal_reads_iff (h : l.WellFormed) (hsign : l.sign ≠ ['-'])
    (hpos : 0 < Decimal.parse l.text) :
    (Decimal.parse l.text).toRat = l.value ↔ l.ReadAlike := by
  unfold DecimalLiteral.ReadAlike
  cases he : l.exponent with
  | none => exact reads_plain h hsign he
  | some e =>
    dsimp only
    cases hfrac : l.frac with
    | none => exact iff_of_false (reads_no_point h hsign he hfrac hpos) fun hno => hno.1 rfl
    | some f =>
      rcases Nat.lt_or_ge l.fraction.length 18 with hshort | hlong
      · rw [reads_short h hsign he hfrac hshort hpos]
        grind
      · rw [reads_long h hsign he hfrac hlong hpos]
        have hzero : digitsValue l.fraction = 0 → digitsValue (l.fraction.drop 18) = 0 := by
          intro hzero
          have hsplit := digitsValue_append (l.fraction.take 18) (l.fraction.drop 18)
          rw [List.take_append_drop, hzero] at hsplit
          exact (Nat.add_eq_zero_iff.mp hsplit.symm).2
        grind

theorem radixOf_spec {c : Char} {b : Nat} (h : radixOf c = some b) : c.isDigit = false ∧
    c.isWhitespace = false ∧ (c != '.') = true ∧ (b = 16 ∨ b = 8 ∨ b = 2) := by
  unfold radixOf at h
  split_ifs at h with hx ho hb
  · refine ⟨?_, ?_, ?_, .inl (Option.some.inj h).symm⟩ <;> rcases hx with rfl | rfl <;> rfl
  · refine ⟨?_, ?_, ?_, .inr (.inl (Option.some.inj h).symm)⟩ <;> rcases ho with rfl | rfl <;> rfl
  · refine ⟨?_, ?_, ?_, .inr (.inr (Option.some.inj h).symm)⟩ <;> rcases hb with rfl | rfl <;> rfl

theorem radix_chars {r : RadixLiteral} (h : r.WellFormed) :
    ∀ c ∈ '0' :: r.mark :: r.digits, c.isWhitespace = false ∧ (c != '.') = true := by
  obtain ⟨-, hblank, hpoint, hbase⟩ := radixOf_spec h.base
  intro c hc
  rcases List.mem_cons.mp hc with rfl | hc
  · decide
  rcases List.mem_cons.mp hc with rfl | hc
  · exact ⟨hblank, hpoint⟩
  · have hvalue : digitValue c < 16 := (h.digits c hc).trans_le (by omega)
    constructor
    · by_contra hblank
      simp only [Char.isWhitespace, Bool.not_eq_false, Bool.or_eq_true, decide_eq_true_eq] at hblank
      rcases hblank with ((rfl | rfl) | rfl) | rfl <;> exact absurd hvalue (by decide)
    · rw [bne_iff_ne]
      rintro rfl
      exact absurd hvalue (by decide)

theorem radix_reads_iff {r : RadixLiteral} (h : r.WellFormed) :
    (Decimal.parse ('0' :: r.mark :: r.digits)).toRat = r.value ↔ r.ReadAlike := by
  have hchars := radix_chars h
  have hall : ('0' :: r.mark :: r.digits).takeWhile (· != '.') = '0' :: r.mark :: r.digits :=
    List.takeWhile_eq_self_iff.mpr fun c hc => (hchars c hc).2
  have hnone : ('0' :: r.mark :: r.digits).dropWhile (· != '.') = [] :=
    List.dropWhile_eq_nil_iff.mpr fun c hc => (hchars c hc).2
  have hnothing : Decimal.digitsOnly ([] ++ List.replicate SCALE '0' |>.take SCALE) = 0 := by
    decide
  obtain ⟨hletter, -, -, hbase⟩ := radixOf_spec h.base
  have hmark : ¬ r.mark.isDigit = true := by
    rw [hletter]
    exact Bool.false_ne_true
  have hread : digitsValue ('0' :: r.digits.filter Char.isDigit) =
      digitsValue (r.digits.filter Char.isDigit) := by
    unfold digitsValue
    rw [Nat.ofDigitChars_cons]
    rfl
  have hraw : (Decimal.parse ('0' :: r.mark :: r.digits)).raw =
      (digitsValue (r.digits.filter Char.isDigit) : Int) * ONE := by
    rw [parse_unsigned List.mem_cons_self rfl (fun c hc => (hchars c hc).1) (by simp), hall, hnone,
      List.drop_nil, List.takeWhile_nil, hnothing, digitsOnly_eq, List.filter_cons_of_pos rfl,
      List.filter_cons_of_neg hmark, hread]
    push_cast
    rw [add_zero]
  have hrat : (Decimal.parse ('0' :: r.mark :: r.digits)).toRat =
      digitsValue (r.digits.filter Char.isDigit) := by
    have hwhole := Decimal.toRat_ofInt (digitsValue (r.digits.filter Char.isDigit))
    rw [Decimal.toRat, Decimal.raw_ofInt, ← hraw] at hwhole
    rw [Decimal.toRat, hwhole]
    norm_cast
  have hcast : ((digitsValue (r.digits.filter Char.isDigit) : Nat) : ℚ) = r.value ↔
      digitsValue (r.digits.filter Char.isDigit) = r.value := Nat.cast_inj
  have hdigits := h.digits
  rw [hrat, hcast]
  unfold RadixLiteral.ReadAlike RadixLiteral.value
  rcases hbase with hb | hb | hb <;> rw [hb] at hdigits ⊢
  · rw [(filter_value_le r.digits).2]
    omega
  · rw [(low_base_value_le (by decide) (by decide) hdigits).2]
    omega
  · rw [(low_base_value_le (by decide) (by decide) hdigits).2]
    omega

/-- What an accepted text gives: the two readings of it are the same number exactly when the
literal is one of those that they read alike. -/
theorem validateAmount_reads {val : List Char} {label : String} {amount : Decimal}
    (h : validateAmount (.ofText val) label = .ok amount) :
    ∃ literal v, readNumber (jsTrim val) = some literal ∧ literal.value = some v ∧
      ((Decimal.parse amount.toText).toRat = v ↔ literal.ReadAlike) := by
  unfold validateAmount AmountField.ofText at h
  dsimp only at h
  by_cases hblank : jsTrim val = []
  · rw [if_pos hblank] at h
    cases h
  rw [if_neg hblank] at h
  cases hread : readNumber (jsTrim val) with
  | none =>
    rw [hread] at h
    cases h
  | some literal =>
    rw [hread] at h
    dsimp only at h
    by_cases hfinite : literal.isFinite
    swap
    · rw [if_neg hfinite] at h
      cases h
    rw [if_pos hfinite] at h
    dsimp only at h
    split at h
    · cases h
    rename_i hpos
    obtain rfl := Except.ok.inj h
    rw [Decimal.parse_toText]
    rw [not_le] at hpos
    unfold readNumber at hread
    split at hread
    · obtain rfl := Option.some.inj hread
      cases hfinite
    cases hradix : readRadix (jsTrim val) with
    | some r =>
      rw [hradix] at hread
      obtain rfl := Option.some.inj hread
      obtain ⟨htext, hwf⟩ := readRadix_spec hradix
      refine ⟨.radix r, r.value, rfl, rfl, ?_⟩
      rw [htext]
      exact radix_reads_iff hwf
    | none =>
      rw [hradix] at hread
      obtain ⟨d, hd, rfl⟩ := Option.map_eq_some_iff.mp hread
      obtain ⟨htext, hwf⟩ := readDecimal_spec hd
      refine ⟨.decimal d, d.value, rfl, rfl, ?_⟩
      rw [htext] at hpos ⊢
      have hsign : d.sign ≠ ['-'] := by
        intro hminus
        obtain ⟨⟨c, hc, hdigit⟩, hchars⟩ := hwf.text_chars
        exact absurd (parse_signed hc hdigit hchars (hwf.head_sign.mpr hminus)) (not_le.mpr hpos)
      exact decimal_reads_iff hwf hsign hpos

/-- A plain amount, read alike. -/
theorem validateAmount_reads_plain :
    validateAmount (.ofText " 12.50 ".toList) "مبلغ" = .ok ⟨12500000000000000000⟩ ∧
      ∃ literal v, readNumber (jsTrim " 12.50 ".toList) = some literal ∧ literal.value = some v ∧
        ((Decimal.parse (Decimal.toText ⟨12500000000000000000⟩)).toRat = v ↔ literal.ReadAlike) := by
  have haccepted : validateAmount (.ofText " 12.50 ".toList) "مبلغ" =
      .ok ⟨12500000000000000000⟩ := by decide +kernel
  exact ⟨haccepted, validateAmount_reads haccepted⟩

/-- A hundred thousand, written with an exponent, is accepted as fifteen. -/
theorem validateAmount_of_exponent :
    validateAmount (.ofText "1e5".toList) "مبلغ" = .ok (.ofInt 15) ∧
      (readNumber (jsTrim "1e5".toList)).bind NumberLiteral.value = some 100000 ∧
      (Decimal.parse (Decimal.toText (.ofInt 15))).toRat ≠ 100000 := by
  decide +kernel

end Readings

end Pwos
