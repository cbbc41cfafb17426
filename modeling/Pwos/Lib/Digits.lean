import Mathlib.Data.Char
import Mathlib.Tactic

/-!
# Texts of digits

Numbers written in decimal with leading zeros, the value of a text of digits, and the order of
such texts: those of one length compare as their values do.
-/

namespace Pwos

/-! ## Padded numbers -/

/-- At least `width` digits, filled up with zeros at the start. -/
def padStart (width n : Nat) : List Char := (Nat.toDigits 10 n).leftpad width '0'

section PadStart
variable {n k w : Nat}

theorem isDigit_of_mem_padStart {c : Char} (h : c ∈ padStart w n) : c.isDigit := by
  unfold padStart List.leftpad at h
  rcases List.mem_append.mp h with h | h
  · rw [List.eq_of_mem_replicate h]
    rfl
  · exact Nat.isDigit_of_mem_toDigits (by decide) (by decide) h

@[simp] theorem ofDigitChars_padStart : Nat.ofDigitChars 10 (padStart w n) 0 = n := by
  simp [padStart, List.leftpad, Nat.ofDigitChars_append, Nat.ofDigitChars_replicate_zero,
    Nat.ofDigitChars_ten_toDigits]

theorem padStart_injective : Function.Injective (padStart w) := by
  intro n k h
  have hvalue := congrArg (Nat.ofDigitChars 10 · 0) h
  simpa using hvalue

theorem le_length_padStart : w ≤ (padStart w n).length := by
  unfold padStart
  rw [List.length_leftpad]
  exact le_max_left _ _

theorem length_padStart (hw : 0 < w) (h : n < 10 ^ w) : (padStart w n).length = w := by
  have hdigits := (Nat.length_toDigits_le_iff (b := 10) (by decide) hw).mpr h
  unfold padStart
  rw [List.length_leftpad]
  exact max_eq_left hdigits

/-- Nothing is filled up where the digits suffice. -/
theorem padStart_eq (hw : 0 < w) (h : 10 ^ w ≤ n) : padStart (w + 1) n = Nat.toDigits 10 n := by
  have hdigits := (Nat.length_toDigits_le_iff (b := 10) (n := n) (by decide) hw).not.mpr
    (Nat.not_lt.mpr h)
  unfold padStart List.leftpad
  rw [Nat.sub_eq_zero_of_le (by omega), List.replicate_zero, List.nil_append]

end PadStart

/-! ## The order of texts -/

section Order

theorem append_lt_append_iff {a b x y : List Char} (h : a.length = b.length) :
    a ++ x < b ++ y ↔ a < b ∨ a = b ∧ x < y := by
  induction a generalizing b with
  | nil =>
    obtain rfl := List.length_eq_zero_iff.mp h.symm
    simp
  | cons c a ih =>
    cases b with
    | nil => cases h
    | cons d b =>
      have hrest := ih (Nat.succ.inj h)
      simp only [List.cons_append, List.cons_lt_cons_iff, hrest, List.cons.injEq]
      grind

theorem digit_lt_iff {c d : Char} (hc : c.isDigit) (hd : d.isDigit) :
    c < d ↔ c.toNat - 48 < d.toNat - 48 := by
  simp only [Char.isDigit, Bool.and_eq_true, decide_eq_true_eq, UInt32.le_iff_toNat_le] at hc hd
  have hlow : 48 ≤ c.toNat := hc.1
  have hlow' : 48 ≤ d.toNat := hd.1
  rw [Char.lt_def, UInt32.lt_iff_toNat_lt]
  change c.toNat < d.toNat ↔ _
  omega

theorem digit_le {c : Char} (hc : c.isDigit) : c.toNat - 48 ≤ 9 := by
  simp only [Char.isDigit, Bool.and_eq_true, decide_eq_true_eq, UInt32.le_iff_toNat_le] at hc
  have hhigh : c.toNat ≤ 57 := hc.2
  omega

theorem ofDigitChars_lt {v : List Char} (h : ∀ c ∈ v, c.isDigit) :
    Nat.ofDigitChars 10 v 0 < 10 ^ v.length := by
  induction v with
  | nil => simp
  | cons c v ih =>
    have hv := ih fun d hd => h d (List.mem_cons_of_mem c hd)
    have hc := digit_le (h c List.mem_cons_self)
    rw [Nat.ofDigitChars_cons, Nat.ofDigitChars_eq_ofDigitChars_zero, List.length_cons, pow_succ]
    have hzero : '0'.toNat = 48 := rfl
    rw [hzero]
    nlinarith

/-- Texts of one length compare as the numbers they stand for. -/
theorem lt_iff_value {a b : List Char} (h : a.length = b.length) (ha : ∀ c ∈ a, c.isDigit)
    (hb : ∀ c ∈ b, c.isDigit) :
    a < b ↔ Nat.ofDigitChars 10 a 0 < Nat.ofDigitChars 10 b 0 := by
  induction a generalizing b with
  | nil =>
    obtain rfl := List.length_eq_zero_iff.mp h.symm
    simp
  | cons c a ih =>
    cases b with
    | nil => cases h
    | cons d b =>
      have hlen : a.length = b.length := Nat.succ.inj h
      have hrest := ih hlen (fun e he => ha e (List.mem_cons_of_mem c he))
        fun e he => hb e (List.mem_cons_of_mem d he)
      have hlow := ofDigitChars_lt fun e he => ha e (List.mem_cons_of_mem c he)
      have hhigh := ofDigitChars_lt fun e he => hb e (List.mem_cons_of_mem d he)
      have hlt := digit_lt_iff (ha c List.mem_cons_self) (hb d List.mem_cons_self)
      have hlt' := digit_lt_iff (hb d List.mem_cons_self) (ha c List.mem_cons_self)
      have hzero : '0'.toNat = 48 := rfl
      rw [Nat.ofDigitChars_cons, Nat.ofDigitChars_cons, Nat.ofDigitChars_eq_ofDigitChars_zero,
        Nat.ofDigitChars_eq_ofDigitChars_zero (l := b), hlen, hzero, List.cons_lt_cons_iff, hrest]
      rw [hlen] at hlow
      generalize 10 ^ b.length = p at *
      rcases lt_trichotomy c d with hcd | rfl | hcd
      · have := hlt.mp hcd
        constructor
        · intro _
          nlinarith
        · exact fun _ => .inl hcd
      · simp
      · have hdc := hlt'.mp hcd
        constructor
        · rintro (hno | ⟨rfl, -⟩)
          · exact absurd hno (lt_asymm hcd)
          · exact absurd hcd (lt_irrefl _)
        · intro hno
          exfalso
          nlinarith

end Order

end Pwos
