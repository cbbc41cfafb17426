import Pwos.Domain.DecimalText
import Pwos.Lib.NumberText

/-!
# Literals as amounts

What `parse` of `domain/decimal.ts` makes of the texts that `Number` reads: it drops letters and
signs, so that the digits of an exponent follow those of the number, and of a fraction it takes
the first 18 characters, whatever they are.
-/

namespace Pwos

/-! ## Numbers to another base -/

section Radix

/-- The digits of a literal as `parse` reads them: letters are dropped. -/
theorem filter_value_le (ds : List Char) :
    digitsValue (ds.filter Char.isDigit) ≤ ds.foldl (fun n c => 16 * n + digitValue c) 0 ∧
    (digitsValue (ds.filter Char.isDigit) = ds.foldl (fun n c => 16 * n + digitValue c) 0 ↔
      ds.foldl (fun n c => 16 * n + digitValue c) 0 < 10) := by
  induction ds using List.reverseRecOn with
  | nil => simp [digitsValue]
  | append_singleton ds c ih =>
    rw [List.filter_append, List.foldl_append, List.foldl_cons, List.foldl_nil]
    unfold digitsValue at *
    rw [Nat.ofDigitChars_append]
    generalize Nat.ofDigitChars 10 (ds.filter Char.isDigit) 0 = read at *
    generalize ds.foldl (fun n c => 16 * n + digitValue c) 0 = value at *
    by_cases hc : c.isDigit
    · have hle := digit_le hc
      have hdigit : digitValue c = c.toNat - 48 := if_pos hc
      have hzero : '0'.toNat = 48 := rfl
      rw [List.filter_cons_of_pos hc, List.filter_nil, Nat.ofDigitChars_cons,
        Nat.ofDigitChars_nil, hdigit, hzero]
      omega
    · have hletter : 10 ≤ digitValue c := by
        unfold digitValue
        rw [if_neg hc]
        split_ifs <;> omega
      rw [List.filter_cons_of_neg hc, List.filter_nil, Nat.ofDigitChars_nil]
      omega

/-- To a base below ten all digits are read, as if to the base ten. -/
theorem low_base_value_le {base : Nat} (hb : 2 ≤ base) (hb' : base < 10) {ds : List Char}
    (h : ∀ c ∈ ds, digitValue c < base) :
    ds.foldl (fun n c => base * n + digitValue c) 0 ≤ digitsValue (ds.filter Char.isDigit) ∧
    (digitsValue (ds.filter Char.isDigit) = ds.foldl (fun n c => base * n + digitValue c) 0 ↔
      ds.foldl (fun n c => base * n + digitValue c) 0 < base) := by
  induction ds using List.reverseRecOn with
  | nil =>
    simp [digitsValue]
    omega
  | append_singleton ds c ih =>
    have hrest := ih fun d hd => h d (List.mem_append_left _ hd)
    have hsmall := h c (List.mem_append_right _ List.mem_cons_self)
    have hc : c.isDigit := by
      by_contra hno
      unfold digitValue at hsmall
      rw [if_neg hno] at hsmall
      split_ifs at hsmall <;> omega
    have hdigit : digitValue c = c.toNat - 48 := if_pos hc
    have hzero : '0'.toNat = 48 := rfl
    rw [List.filter_append, List.foldl_append, List.foldl_cons, List.foldl_nil,
      List.filter_cons_of_pos hc, List.filter_nil]
    rw [hdigit] at hsmall ⊢
    unfold digitsValue at *
    rw [Nat.ofDigitChars_append, Nat.ofDigitChars_cons, Nat.ofDigitChars_nil, hzero]
    generalize Nat.ofDigitChars 10 (ds.filter Char.isDigit) 0 = read at *
    generalize ds.foldl (fun n c => base * n + digitValue c) 0 = value at *
    obtain ⟨hle, hiff⟩ := hrest
    have hmul : base * value ≤ 10 * read := Nat.mul_le_mul (by omega) hle
    rcases Nat.eq_zero_or_pos value with rfl | hpos
    · have hread : read = 0 := hiff.mpr (by omega)
      omega
    · have hmore : base * value < 10 * value := Nat.mul_lt_mul_of_pos_right hb' hpos
      have hbase : base ≤ base * value := Nat.le_mul_of_pos_right base hpos
      omega

end Radix

/-! ## The parts of a text -/

section Parse
open Decimal

theorem digitsOnly_eq (v : List Char) : digitsOnly v = digitsValue (v.filter Char.isDigit) := rfl

theorem filter_digits {v : List Char} (h : ∀ c ∈ v, c.isDigit) : v.filter Char.isDigit = v :=
  List.filter_eq_self.mpr h

/-- A text without a minus sign in front. -/
theorem parse_unsigned {s : List Char} {c : Char} (hc : c ∈ s) (hd : c.isDigit)
    (hblank : ∀ c ∈ s, c.isWhitespace = false) (hsign : s.head? ≠ some '-') :
    (parse s).raw = digitsOnly (s.takeWhile (· != '.')) * ONE +
      digitsOnly (((((s.dropWhile (· != '.')).drop 1).takeWhile (· != '.')) ++
        List.replicate SCALE '0').take SCALE) := by
  unfold parse
  rw [trim_self hblank, if_neg (not_special hc hd)]
  simp only [if_neg hsign]

theorem parse_signed {s : List Char} {c : Char} (hc : c ∈ s) (hd : c.isDigit)
    (hblank : ∀ c ∈ s, c.isWhitespace = false) (hsign : s.head? = some '-') :
    parse s ≤ 0 := by
  unfold parse
  rw [trim_self hblank, if_neg (not_special hc hd), le_iff]
  simp only [if_pos hsign, raw_zero]
  have hone : (0 : Int) ≤ ONE := by decide
  have hnonneg := Int.mul_nonneg (Int.natCast_nonneg
    (digitsOnly (s.tail.takeWhile (· != '.')))) hone
  omega

end Parse

/-! ## Decimal literals -/

section Literal
variable {l : DecimalLiteral}

/-- What a character of a literal can be. -/
def Plain (c : Char) : Prop := c.isDigit ∨ c ∈ ['+', '-', 'e', 'E']

theorem Plain.not_blank {c : Char} (h : Plain c) : c.isWhitespace = false := by
  rcases h with h | h
  · exact Decimal.digit_not_whitespace h
  · simp only [List.mem_cons, List.not_mem_nil, or_false] at h
    rcases h with rfl | rfl | rfl | rfl <;> rfl

theorem Plain.ne_point {c : Char} (h : Plain c) : (c != '.') = true := by
  rcases h with h | h
  · exact bne_iff_ne.mpr (Decimal.digit_ne h rfl)
  · simp only [List.mem_cons, List.not_mem_nil, or_false] at h
    rcases h with rfl | rfl | rfl | rfl <;> rfl

theorem Sign.plain {s : List Char} (h : Sign s) {c : Char} (hc : c ∈ s) : Plain c := by
  rcases h with rfl | rfl | rfl
  · cases hc
  · rw [List.mem_singleton.mp hc]
    exact .inr (by decide)
  · rw [List.mem_singleton.mp hc]
    exact .inr (by decide)

theorem Sign.filter {s : List Char} (h : Sign s) : s.filter Char.isDigit = [] := by
  rcases h with rfl | rfl | rfl <;> rfl

theorem Exponent.WellFormed.plain {e : Exponent} (h : e.WellFormed) {c : Char} (hc : c ∈ e.text) :
    Plain c := by
  rcases List.mem_cons.mp hc with rfl | hc
  · rcases h.mark with heq | heq <;> (rw [heq]; exact .inr (by decide))
  rcases List.mem_append.mp hc with hc | hc
  · exact h.sign.plain hc
  · exact .inl (h.digits c hc)

theorem Exponent.WellFormed.filter {e : Exponent} (h : e.WellFormed) :
    e.text.filter Char.isDigit = e.digits := by
  have hmark : e.mark.isDigit = false := by
    rcases h.mark with heq | heq <;> (rw [heq]; rfl)
  unfold Exponent.text
  rw [List.filter_cons_of_neg (by rw [hmark]; decide), List.filter_append, h.sign.filter,
    filter_digits h.digits, List.nil_append]

/-- The text behind the fraction. -/
def DecimalLiteral.tail (l : DecimalLiteral) : List Char := l.exponent.elim [] Exponent.text

theorem DecimalLiteral.WellFormed.plain_tail (h : l.WellFormed) {c : Char} (hc : c ∈ l.tail) :
    Plain c := by
  unfold DecimalLiteral.tail at hc
  cases he : l.exponent with
  | none =>
    rw [he] at hc
    cases hc
  | some e =>
    rw [he] at hc
    exact (h.exponent e he).plain hc

theorem takeWhile_plain {v w : List Char} (hv : ∀ c ∈ v, Plain c) (hw : w.head?.all (· == '.')) :
    (v ++ w).takeWhile (· != '.') = v ∧ (v ++ w).dropWhile (· != '.') = w := by
  have hne : ∀ c ∈ v, (c != '.') = true := fun c hc => (hv c hc).ne_point
  rw [List.takeWhile_append_of_pos hne, List.dropWhile_append_of_pos hne]
  cases w with
  | nil => simp
  | cons d w =>
    simp only [List.head?_cons, Option.all_some, beq_iff_eq] at hw
    simp [hw]

theorem DecimalLiteral.WellFormed.plain_front (h : l.WellFormed) {c : Char}
    (hc : c ∈ l.sign ++ l.whole) : Plain c := by
  rcases List.mem_append.mp hc with hc | hc
  · exact h.sign.plain hc
  · exact .inl (h.whole c hc)

theorem DecimalLiteral.WellFormed.plain_back (h : l.WellFormed) {c : Char}
    (hc : c ∈ l.fraction ++ l.tail) : Plain c := by
  rcases List.mem_append.mp hc with hc | hc
  · exact .inl (h.fraction c hc)
  · exact h.plain_tail hc

/-- The text is a front part and, behind a point, a back part. -/
theorem DecimalLiteral.text_none (hfrac : l.frac = none) :
    l.text = (l.sign ++ l.whole ++ l.tail) ++ [] := by
  simp [DecimalLiteral.text, DecimalLiteral.tail, hfrac]

theorem DecimalLiteral.text_some {f : List Char} (hfrac : l.frac = some f) :
    l.text = (l.sign ++ l.whole) ++ '.' :: (l.fraction ++ l.tail) := by
  simp [DecimalLiteral.text, DecimalLiteral.tail, DecimalLiteral.fraction, hfrac]

theorem DecimalLiteral.WellFormed.text_chars (h : l.WellFormed) :
    (∃ c ∈ l.text, c.isDigit) ∧ ∀ c ∈ l.text, c.isWhitespace = false := by
  constructor
  · rcases h.nonempty with hne | hne
    · obtain ⟨c, hc⟩ := List.exists_mem_of_ne_nil _ hne
      exact ⟨c, by simp [DecimalLiteral.text, hc], h.whole c hc⟩
    · obtain ⟨c, hc⟩ := List.exists_mem_of_ne_nil _ hne
      refine ⟨c, ?_, h.fraction c hc⟩
      unfold DecimalLiteral.fraction at hc
      cases hfrac : l.frac with
      | none =>
        rw [hfrac] at hc
        cases hc
      | some f =>
        rw [hfrac] at hc
        simp only [DecimalLiteral.text, hfrac, Option.elim_some, List.mem_append, List.mem_cons]
        exact .inr (.inr (.inl (.inr hc)))
  · intro c hc
    cases hfrac : l.frac with
    | none =>
      rw [l.text_none hfrac, List.append_nil] at hc
      rcases List.mem_append.mp hc with hc | hc
      · exact (h.plain_front hc).not_blank
      · exact (h.plain_tail hc).not_blank
    | some f =>
      rw [l.text_some hfrac] at hc
      rcases List.mem_append.mp hc with hc | hc
      · exact (h.plain_front hc).not_blank
      rcases List.mem_cons.mp hc with rfl | hc
      · rfl
      · exact (h.plain_back hc).not_blank

theorem DecimalLiteral.WellFormed.head_sign (h : l.WellFormed) :
    l.text.head? = some '-' ↔ l.sign = ['-'] := by
  unfold DecimalLiteral.text
  rcases h.sign with hs | hs | hs
  · rw [hs, List.nil_append]
    refine ⟨fun hhead => ?_, fun hno => by cases hno⟩
    rcases h.nonempty with hne | hne
    · obtain ⟨c, v, hv⟩ := List.exists_cons_of_ne_nil hne
      rw [hv, List.cons_append, List.head?_cons] at hhead
      have hdigit := h.whole c (hv ▸ List.mem_cons_self)
      rw [Option.some.inj hhead] at hdigit
      cases hdigit
    · cases hw : l.whole with
      | cons c v =>
        rw [hw, List.cons_append, List.head?_cons] at hhead
        have hdigit := h.whole c (hw ▸ List.mem_cons_self)
        rw [Option.some.inj hhead] at hdigit
        cases hdigit
      | nil =>
        unfold DecimalLiteral.fraction at hne
        cases hfrac : l.frac with
        | none =>
          rw [hfrac] at hne
          exact absurd rfl hne
        | some f =>
          rw [hw, hfrac] at hhead
          cases hhead
  · rw [hs]
    simp
  · rw [hs]
    simp

theorem DecimalLiteral.WellFormed.filter_tail (h : l.WellFormed) :
    l.tail.filter Char.isDigit = l.exponent.elim [] Exponent.digits := by
  unfold DecimalLiteral.tail
  cases he : l.exponent with
  | none => rfl
  | some e => exact (h.exponent e he).filter

theorem ONE_eq : ONE = ((10 ^ 18 : Nat) : Int) := rfl

/-- What `parse` reads without a point: all digits of the text in a row. -/
theorem raw_parse_none (h : l.WellFormed) (hsign : l.sign ≠ ['-']) (hfrac : l.frac = none) :
    (Decimal.parse l.text).raw =
      (digitsValue (l.whole ++ l.exponent.elim [] Exponent.digits) * 10 ^ 18 : Nat) := by
  obtain ⟨⟨c, hc, hd⟩, hblank⟩ := h.text_chars
  rw [parse_unsigned hc hd hblank (mt h.head_sign.mp hsign)]
  have hfront : ∀ c ∈ l.sign ++ l.whole ++ l.tail, Plain c := by
    intro c hc
    rcases List.mem_append.mp hc with hc | hc
    · exact h.plain_front hc
    · exact h.plain_tail hc
  obtain ⟨htake, hdrop⟩ := takeWhile_plain (w := []) hfront rfl
  have hnothing : Decimal.digitsOnly ([] ++ List.replicate SCALE '0' |>.take SCALE) = 0 := by
    decide
  rw [l.text_none hfrac, htake, hdrop, List.drop_nil, List.takeWhile_nil, hnothing, digitsOnly_eq,
    List.filter_append, List.filter_append, h.sign.filter, filter_digits h.whole, h.filter_tail,
    List.nil_append, ONE_eq]
  push_cast
  rw [add_zero]

/-- With a point: of what follows it the first 18 characters count. -/
theorem raw_parse_some (h : l.WellFormed) (hsign : l.sign ≠ ['-']) {f : List Char}
    (hfrac : l.frac = some f) :
    (Decimal.parse l.text).raw = (digitsValue l.whole * 10 ^ 18 + Decimal.digitsOnly
      ((l.fraction ++ l.tail ++ List.replicate SCALE '0').take SCALE) : Nat) := by
  obtain ⟨⟨c, hc, hd⟩, hblank⟩ := h.text_chars
  rw [parse_unsigned hc hd hblank (mt h.head_sign.mp hsign)]
  obtain ⟨htake, hdrop⟩ := takeWhile_plain (w := '.' :: (l.fraction ++ l.tail))
    (fun c hc => h.plain_front hc) rfl
  have hback : (l.fraction ++ l.tail).takeWhile (· != '.') = l.fraction ++ l.tail := by
    have hall := (takeWhile_plain (w := []) (fun c hc => h.plain_back hc) rfl).1
    rwa [List.append_nil] at hall
  rw [l.text_some hfrac, htake, hdrop, List.drop_one, List.tail_cons, hback, digitsOnly_eq,
    List.filter_append, h.sign.filter, filter_digits h.whole, List.nil_append, ONE_eq]
  push_cast
  rfl

end Literal

/-! ## Digits -/

section Digits
variable {v w : List Char}

theorem digitsValue_append (v w : List Char) :
    digitsValue (v ++ w) = digitsValue v * 10 ^ w.length + digitsValue w := by
  unfold digitsValue
  rw [Nat.ofDigitChars_append, Nat.ofDigitChars_eq_ofDigitChars_zero, mul_comm]

theorem digitsValue_zeros (n : Nat) : digitsValue (List.replicate n '0') = 0 := by
  unfold digitsValue
  rw [Nat.ofDigitChars_replicate_zero, Nat.mul_zero]

/-- A fraction that is cut after 18 digits, or filled up to them. -/
theorem cut_value (hv : ∀ c ∈ v, c.isDigit) (h : w = [] ∨ SCALE ≤ v.length) :
    digitsValue v * 10 ^ 18 = Decimal.digitsOnly
      ((v ++ w ++ List.replicate SCALE '0').take SCALE) * 10 ^ v.length +
        digitsValue (v.drop 18) * 10 ^ 18 := by
  rcases Nat.lt_or_ge v.length SCALE with hlt | hge
  · obtain rfl := h.resolve_right (Nat.not_le.mpr hlt)
    have hdrop : v.drop 18 = [] := List.drop_eq_nil_of_le hlt.le
    have hpow : 10 ^ (SCALE - v.length) * 10 ^ v.length = 10 ^ 18 := by
      rw [← pow_add, Nat.sub_add_cancel hlt.le]
      rfl
    have hnil : digitsValue [] = 0 := rfl
    rw [List.append_nil, Decimal.digitsOnly_filled hv hlt.le, hdrop, mul_assoc, hpow, hnil,
      Nat.zero_mul, Nat.add_zero]
    rfl
  · have htake : (v ++ w ++ List.replicate SCALE '0').take SCALE = v.take SCALE := by
      rw [List.append_assoc, List.take_append_of_le_length hge]
    have hfirst : ∀ c ∈ v.take SCALE, c.isDigit := fun c hc => hv c (List.mem_of_mem_take hc)
    have hsplit := digitsValue_append (v.take SCALE) (v.drop SCALE)
    rw [List.take_append_drop, List.length_drop] at hsplit
    have hpow : 10 ^ (v.length - SCALE) * 10 ^ 18 = 10 ^ v.length := by
      rw [← pow_add]
      congr 1
      exact Nat.sub_add_cancel hge
    have hscale : SCALE = 18 := rfl
    rw [htake, digitsOnly_eq, filter_digits hfirst, hsplit, add_mul, mul_assoc, hpow, hscale]

/-- The digits of an exponent that the 18 characters still reach: its mark and its sign take
their places too. -/
def Exponent.reached (e : Exponent) (n : Nat) : Nat := if e.sign = [] then 17 - n else 16 - n

theorem window_value (hv : ∀ c ∈ v, c.isDigit) (hlt : v.length < SCALE) {e : Exponent}
    (he : e.WellFormed) :
    Decimal.digitsOnly ((v ++ e.text ++ List.replicate SCALE '0').take SCALE) =
      digitsValue v * 10 ^ e.reached v.length +
        digitsValue ((e.digits ++ List.replicate SCALE '0').take (e.reached v.length)) := by
  have hdigits : ∀ c ∈ e.digits ++ List.replicate SCALE '0', c.isDigit := by
    intro c hc
    rcases List.mem_append.mp hc with hc | hc
    · exact he.digits c hc
    · rw [List.eq_of_mem_replicate hc]
      rfl
  have hrest : ((e.text ++ List.replicate SCALE '0').take (SCALE - v.length)).filter Char.isDigit =
      (e.digits ++ List.replicate SCALE '0').take (e.reached v.length) := by
    have hmark : ¬ e.mark.isDigit = true := by
      rcases he.mark with heq | heq <;> (rw [heq]; decide)
    obtain ⟨n, hn⟩ : ∃ n, SCALE - v.length = n + 1 := ⟨SCALE - v.length - 1, by omega⟩
    have hn' : n = 17 - v.length := by
      unfold SCALE at hn
      omega
    unfold Exponent.text Exponent.reached
    rw [hn, List.cons_append, List.take_succ_cons, List.filter_cons_of_neg hmark,
      List.append_assoc]
    by_cases hsign : e.sign = []
    · rw [hsign, List.nil_append, if_pos rfl, ← hn',
        filter_digits fun c hc => hdigits c (List.mem_of_mem_take hc)]
    · rw [if_neg hsign]
      obtain ⟨c, hc, hno⟩ : ∃ c, e.sign = [c] ∧ ¬ c.isDigit = true := by
        rcases he.sign with h | h | h
        · exact absurd h hsign
        · exact ⟨_, h, by decide⟩
        · exact ⟨_, h, by decide⟩
      rw [hc, List.cons_append, List.nil_append]
      cases n with
      | zero =>
        rw [List.take_zero, show 16 - v.length = 0 by omega]
        rfl
      | succ n =>
        rw [List.take_succ_cons, List.filter_cons_of_neg hno,
          filter_digits fun c hc => hdigits c (List.mem_of_mem_take hc)]
        congr 1
        omega
  have hlen : ((e.digits ++ List.replicate SCALE '0').take (e.reached v.length)).length =
      e.reached v.length := by
    rw [List.length_take, List.length_append, List.length_replicate]
    unfold Exponent.reached SCALE
    split <;> omega
  rw [List.append_assoc, List.take_append, List.take_of_length_le hlt.le, digitsOnly_eq,
    List.filter_append, filter_digits hv, hrest, digitsValue_append, hlen]

end Digits

end Pwos
