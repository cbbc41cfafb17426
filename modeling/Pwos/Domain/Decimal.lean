import Mathlib.Algebra.Order.Group.Defs
import Mathlib.Algebra.Order.BigOperators.Group.List
import Mathlib.Data.List.DropRight
import Mathlib.Tactic

/-!
# Exact decimals

`domain/decimal.ts`: amounts are integers scaled by 10^18. Addition is exact;
multiplication and division truncate toward zero, as BigInt division does. `parse`
reads any text and never fails.
-/

namespace Pwos

def SCALE : Nat := 18

def ONE : Int := 10 ^ 18

/-- An amount, as its number of 10^-18 units. -/
@[ext] structure Decimal where
  raw : Int
  deriving DecidableEq, Repr

namespace Decimal

instance : Zero Decimal := ⟨⟨0⟩⟩
instance : Add Decimal := ⟨fun a b => ⟨a.raw + b.raw⟩⟩
instance : Neg Decimal := ⟨fun a => ⟨-a.raw⟩⟩
instance : Sub Decimal := ⟨fun a b => ⟨a.raw - b.raw⟩⟩
instance : SMul ℕ Decimal := ⟨fun n a => ⟨n * a.raw⟩⟩
instance : SMul ℤ Decimal := ⟨fun n a => ⟨n * a.raw⟩⟩
instance : Inhabited Decimal := ⟨0⟩

/-- The whole number `n`. -/
def ofInt (n : Int) : Decimal := ⟨n * ONE⟩

@[simp] theorem raw_zero : (0 : Decimal).raw = 0 := rfl
@[simp] theorem raw_add (a b : Decimal) : (a + b).raw = a.raw + b.raw := rfl
@[simp] theorem raw_neg (a : Decimal) : (-a).raw = -a.raw := rfl
@[simp] theorem raw_sub (a b : Decimal) : (a - b).raw = a.raw - b.raw := rfl
@[simp] theorem raw_ofInt (n : Int) : (ofInt n).raw = n * ONE := rfl
@[simp] theorem raw_nsmul (n : ℕ) (a : Decimal) : (n • a).raw = n * a.raw := rfl
@[simp] theorem raw_zsmul (n : ℤ) (a : Decimal) : (n • a).raw = n * a.raw := rfl

theorem raw_injective : Function.Injective raw := fun _ _ h => Decimal.ext h

instance : AddCommGroup Decimal :=
  raw_injective.addCommGroup raw rfl (fun _ _ => rfl) (fun _ => rfl) (fun _ _ => rfl)
    (fun _ _ => by simp) (fun _ _ => by simp)

instance : LinearOrder Decimal := LinearOrder.lift' raw raw_injective

theorem le_iff {a b : Decimal} : a ≤ b ↔ a.raw ≤ b.raw := Iff.rfl
theorem lt_iff {a b : Decimal} : a < b ↔ a.raw < b.raw := by
  rw [lt_iff_le_not_ge, le_iff, le_iff]; omega

instance : IsOrderedAddMonoid Decimal where
  add_le_add_left a b h c := by rw [le_iff] at *; simp; omega

/-- `raw` as an additive map, to read sums in units. -/
def rawHom : Decimal →+ Int where
  toFun := raw
  map_zero' := rfl
  map_add' _ _ := rfl

theorem raw_sum (l : List Decimal) : l.sum.raw = (l.map raw).sum :=
  map_list_sum rawHom l

/-- `this.raw < 0n ? -this.raw : this.raw`. -/
def abs (a : Decimal) : Decimal := if a.raw < 0 then -a else a

def mul (a b : Decimal) : Decimal := ⟨(a.raw * b.raw).tdiv ONE⟩

/-- Division by zero is zero. -/
def div (a b : Decimal) : Decimal := if b.raw = 0 then 0 else ⟨(a.raw * ONE).tdiv b.raw⟩

@[simp] theorem raw_mul (a b : Decimal) : (a.mul b).raw = (a.raw * b.raw).tdiv ONE := rfl

theorem raw_abs (a : Decimal) : a.abs.raw = |a.raw| := by
  unfold abs; split
  · simp [abs_of_neg ‹_›]
  · rw [abs_of_nonneg (by omega)]

theorem abs_le_iff {a b : Decimal} : a.abs ≤ b ↔ -b ≤ a ∧ a ≤ b := by
  rw [le_iff, le_iff, le_iff, raw_abs, raw_neg]; exact abs_le

/-- `toFixed dp`, read back: rounding half up on the magnitude, `dp ≤ 18`. -/
def toFixed (dp : Nat) (a : Decimal) : Decimal :=
  let factor : Int := 10 ^ (SCALE - dp)
  let rounded := (a.abs.raw + factor / 2) / factor * factor
  if a.raw < 0 then ⟨-rounded⟩ else ⟨rounded⟩

/-- Rounding a whole number to whole units changes nothing. -/
theorem toFixed_ofInt (n : Int) : (ofInt n).toFixed 0 = ofInt n := by
  have hf : (10 : Int) ^ (SCALE - 0) = ONE := by decide
  have h (m : Int) : (m * ONE + ONE / 2) / ONE * ONE = m * ONE := by
    rw [Int.add_comm, Int.add_mul_ediv_right _ _ (by decide)]; simp [ONE]
  apply Decimal.ext
  unfold toFixed
  simp only [hf, raw_abs]
  by_cases hn : (ofInt n).raw < 0
  · have := h (-n)
    rw [neg_mul] at this
    rw [if_pos hn, abs_of_neg hn, raw_ofInt, this, neg_neg]
  · rw [if_neg hn, abs_of_nonneg (by omega), raw_ofInt, h]

/-! Whole numbers. -/

@[simp] theorem ofInt_zero : ofInt 0 = 0 := by ext; simp
theorem ofInt_add (m n : Int) : ofInt m + ofInt n = ofInt (m + n) := by ext; simp [add_mul]
theorem ofInt_sub (m n : Int) : ofInt m - ofInt n = ofInt (m - n) := by ext; simp [sub_mul]

theorem one_pos : 0 < ONE := by decide

@[simp] theorem ofInt_le {m n : Int} : ofInt m ≤ ofInt n ↔ m ≤ n := by
  rw [le_iff, raw_ofInt, raw_ofInt]
  exact mul_le_mul_iff_left₀ one_pos

@[simp] theorem ofInt_lt {m n : Int} : ofInt m < ofInt n ↔ m < n := by
  rw [← not_le, ofInt_le, not_le]

@[simp] theorem ofInt_inj {m n : Int} : ofInt m = ofInt n ↔ m = n := by
  refine ⟨fun h => ?_, fun h => by rw [h]⟩
  exact le_antisymm (ofInt_le.mp h.le) (ofInt_le.mp h.ge)

theorem zsmul_ofInt (z n : Int) : z • ofInt n = ofInt (z * n) := by ext; simp [mul_assoc]

theorem ofInt_mul (m n : Int) : (ofInt m).mul (ofInt n) = ofInt (m * n) := by
  ext
  have h : m * ONE * (n * ONE) = m * n * ONE * ONE := by ring
  rw [raw_mul, raw_ofInt, raw_ofInt, raw_ofInt, h, Int.mul_tdiv_cancel _ one_pos.ne']

theorem mul_ofInt (a : Decimal) (n : Int) : a.mul (ofInt n) = n • a := by
  ext
  have h : a.raw * (n * ONE) = n * a.raw * ONE := by ring
  rw [raw_mul, raw_ofInt, raw_zsmul, h, Int.mul_tdiv_cancel _ one_pos.ne']

theorem ofInt_div {m n : Int} (hn : n ≠ 0) : (ofInt (m * n)).div (ofInt n) = ofInt m := by
  have hne : n * ONE ≠ 0 := mul_ne_zero hn one_pos.ne'
  ext
  have h : m * n * ONE * ONE = m * ONE * (n * ONE) := by ring
  unfold div
  rw [raw_ofInt, raw_ofInt, if_neg hne, raw_ofInt, h, Int.mul_tdiv_cancel _ hne]

theorem sum_ofInt (ns : List Nat) : (ns.map fun n : Nat => ofInt n).sum = ofInt ns.sum := by
  induction ns with
  | nil => simp
  | cons n ns ih => rw [List.map_cons, List.sum_cons, ih, ofInt_add, List.sum_cons, Nat.cast_add]

/-- Dividing by one changes nothing. -/
theorem div_ofInt_one (a : Decimal) : a.div (ofInt 1) = a := by
  ext
  rw [div, if_neg (by decide), raw_ofInt, one_mul, Int.mul_tdiv_cancel _ one_pos.ne']

/-- What is rounded to whole units is a whole number. -/
theorem exists_toFixed_zero (a : Decimal) : ∃ n : Int, a.toFixed 0 = ofInt n := by
  have hf : (10 : Int) ^ (SCALE - 0) = ONE := by decide
  unfold toFixed
  simp only [hf]
  split
  · exact ⟨-((a.abs.raw + ONE / 2) / ONE), by ext; simp⟩
  · exact ⟨(a.abs.raw + ONE / 2) / ONE, rfl⟩

theorem toFixed_nonneg {a : Decimal} (h : 0 ≤ a) (dp : Nat) : 0 ≤ a.toFixed dp := by
  have hraw : 0 ≤ a.raw := h
  have habs : 0 ≤ a.abs.raw := by rw [raw_abs]; exact abs_nonneg _
  unfold toFixed
  rw [if_neg hraw.not_gt, le_iff, raw_zero]
  positivity

/-! Products and quotients of what is not negative. -/

theorem mul_nonneg {a b : Decimal} (ha : 0 ≤ a) (hb : 0 ≤ b) : 0 ≤ a.mul b := by
  rw [le_iff, raw_zero] at *
  exact Int.tdiv_nonneg (Int.mul_nonneg ha hb) one_pos.le

theorem div_nonneg {a b : Decimal} (ha : 0 ≤ a) (hb : 0 ≤ b) : 0 ≤ a.div b := by
  unfold div
  split
  · exact le_rfl
  · rw [le_iff, raw_zero] at *
    exact Int.tdiv_nonneg (Int.mul_nonneg ha one_pos.le) hb

protected theorem neg_mul (a b : Decimal) : (-a).mul b = -a.mul b := by
  ext
  simp [Int.neg_tdiv]

protected theorem abs_neg (a : Decimal) : (-a).abs = a.abs := by
  ext
  rw [raw_abs, raw_abs, raw_neg, abs_neg]

theorem zero_le_abs (a : Decimal) : 0 ≤ a.abs := by
  rw [le_iff, raw_abs, raw_zero]
  positivity

theorem pos_of_toFixed_pos {a : Decimal} {dp : Nat} (h : 0 < a.toFixed dp) : 0 < a := by
  by_contra hle
  have hraw : a.raw ≤ 0 := not_lt.mp hle
  rw [lt_iff, raw_zero] at h
  unfold toFixed at h
  dsimp only at h
  split at h
  · have hround : 0 ≤ (a.abs.raw + 10 ^ (SCALE - dp) / 2) / 10 ^ (SCALE - dp) * 10 ^ (SCALE - dp) := by
      have habs : 0 ≤ a.abs.raw := zero_le_abs a
      positivity
    dsimp only at h
    omega
  · have hzero : a.abs.raw = 0 := by rw [raw_abs, abs_eq_zero]; omega
    have hhalf : (10 : Int) ^ (SCALE - dp) / 2 / 10 ^ (SCALE - dp) = 0 := by
      have hpos : (0 : Int) < 10 ^ (SCALE - dp) := by positivity
      exact Int.ediv_eq_zero_of_lt (by omega) (by omega)
    rw [hzero, zero_add, hhalf, zero_mul] at h
    exact lt_irrefl _ h

/-! ## Text

The program passes amounts between functions as text. `parse_toText` is why the model
passes the amounts themselves. -/

/-- `BigInt(v.replace(/[^0-9]/g, "") || "0")`. -/
def digitsOnly (v : List Char) : Nat := Nat.ofDigitChars 10 (v.filter Char.isDigit) 0

/-- `parse` of decimal.ts. A second dot and what follows it are ignored, other
characters inside the number are dropped. -/
def parse (text : List Char) : Decimal :=
  let s := (text.dropWhile Char.isWhitespace).rdropWhile Char.isWhitespace
  if s = [] ∨ s = ['-'] ∨ s = ['.'] ∨ s.map Char.toLower = ['n', 'a', 'n'] then 0
  else
    let neg := s.head? = some '-'
    let body := if neg then s.tail else s
    let intPart := body.takeWhile (· != '.')
    let fracRaw := ((body.dropWhile (· != '.')).drop 1).takeWhile (· != '.')
    let frac := (fracRaw ++ List.replicate SCALE '0').take SCALE
    let value : Int := digitsOnly intPart * ONE + digitsOnly frac
    ⟨if neg then -value else value⟩

/-- The fraction below 10^18, padded to 18 digits. -/
def padded (m : Nat) : List Char :=
  List.replicate (SCALE - (Nat.toDigits 10 m).length) '0' ++ Nat.toDigits 10 m

/-- `neg ? "-" : ""`, the whole part, and `frac ? "." + frac : ""`. -/
def written (neg : Prop) [Decidable neg] (whole frac : List Char) : List Char :=
  (if neg then ['-'] else []) ++ (whole ++ if frac = [] then [] else '.' :: frac)

/-- `toString` of decimal.ts: no trailing zeros, no dot without a fraction. -/
def toText (d : Decimal) : List Char :=
  written (d.raw < 0) (Nat.toDigits 10 (d.raw.natAbs / 10 ^ 18))
    ((padded (d.raw.natAbs % 10 ^ 18)).rdropWhile (· == '0'))

theorem digitsOnly_of_digits {v : List Char} (h : ∀ c ∈ v, c.isDigit) :
    digitsOnly v = Nat.ofDigitChars 10 v 0 := by
  unfold digitsOnly; rw [List.filter_eq_self.mpr h]

theorem digitsOnly_toDigits (n : Nat) : digitsOnly (Nat.toDigits 10 n) = n := by
  rw [digitsOnly_of_digits fun c hc => Nat.isDigit_of_mem_toDigits (by decide) (by decide) hc]
  exact Nat.ofDigitChars_ten_toDigits

theorem isDigit_padded {m : Nat} {c : Char} (hc : c ∈ padded m) : c.isDigit := by
  rcases List.mem_append.mp hc with h | h
  · rw [List.eq_of_mem_replicate h]; rfl
  · exact Nat.isDigit_of_mem_toDigits (by decide) (by decide) h

theorem length_padded {m : Nat} (h : m < 10 ^ 18) : (padded m).length = SCALE := by
  have := (Nat.length_toDigits_le_iff (by decide : 1 < 10) (by decide : 0 < 18)).mpr h
  simp [padded, SCALE]; omega

theorem digitsOnly_padded (m : Nat) : digitsOnly (padded m) = m := by
  rw [digitsOnly_of_digits fun c hc => isDigit_padded hc, padded, Nat.ofDigitChars_append]
  simp [Nat.ofDigitChars_ten_toDigits]

/-- Filling the stripped zeros up again. -/
theorem take_stripped {v : List Char} (h : v.length = SCALE) :
    (v.rdropWhile (· == '0') ++ List.replicate SCALE '0').take SCALE = v := by
  have hz : v.rtakeWhile (· == '0') =
      List.replicate (v.rtakeWhile (· == '0')).length '0' :=
    List.eq_replicate_of_mem fun c hc => by simpa using List.mem_rtakeWhile_imp hc
  have hv := List.rdropWhile_append_rtakeWhile (p := (· == '0')) (l := v)
  have hl : (v.rdropWhile (· == '0')).length + (v.rtakeWhile (· == '0')).length = SCALE := by
    rw [← h, ← List.length_append, hv]
  rw [List.take_append, List.take_of_length_le (by omega), List.take_replicate]
  conv_rhs => rw [← hv, hz]
  congr 2
  omega

theorem digit_ne {c d : Char} (hc : c.isDigit) (hd : d.isDigit = false) : c ≠ d := by
  rintro rfl; simp [hc] at hd

theorem toLower_digit {c : Char} (hc : c.isDigit) : c.toLower = c := by
  have h : ¬ (c.toNat ≥ 'A'.toNat ∧ c.toNat ≤ 'Z'.toNat) := by
    simp only [Char.isDigit, Bool.and_eq_true, decide_eq_true_eq, UInt32.le_iff_toNat_le] at hc
    have h9 : c.toNat ≤ 57 := hc.2
    have hA : 'A'.toNat = 65 := rfl
    omega
  unfold Char.toLower
  rw [dif_neg]
  simpa [UInt32.le_iff_toNat_le] using h

/-- A text around at least one digit is none of the special ones. -/
theorem not_special {s : List Char} {c : Char} (hc : c ∈ s) (hd : c.isDigit) :
    ¬ (s = [] ∨ s = ['-'] ∨ s = ['.'] ∨ s.map Char.toLower = ['n', 'a', 'n']) := by
  rintro (rfl | rfl | rfl | h)
  · simp at hc
  · rw [List.mem_singleton.mp hc] at hd; cases hd
  · rw [List.mem_singleton.mp hc] at hd; cases hd
  · have hm : c ∈ s.map Char.toLower := toLower_digit hd ▸ List.mem_map_of_mem hc
    rw [h] at hm
    rcases List.mem_cons.mp hm with rfl | hm
    · cases hd
    rcases List.mem_cons.mp hm with rfl | hm
    · cases hd
    · rw [List.mem_singleton.mp hm] at hd; cases hd

theorem digit_not_whitespace {c : Char} (h : c.isDigit) : c.isWhitespace = false := by
  rw [Bool.eq_false_iff]
  intro hw
  simp only [Char.isWhitespace, Bool.or_eq_true, decide_eq_true_eq] at hw
  rcases hw with ((rfl | rfl) | rfl) | rfl <;> cases h

theorem trim_self {s : List Char} (h : ∀ c ∈ s, c.isWhitespace = false) :
    (s.dropWhile Char.isWhitespace).rdropWhile Char.isWhitespace = s := by
  have hd : s.dropWhile Char.isWhitespace = s := by
    cases s with
    | nil => rfl
    | cons c cs => simp [h c (by simp)]
  rw [hd, List.rdropWhile_eq_self_iff]
  intro hne
  simp [h _ (List.getLast_mem hne)]

theorem takeWhile_digits {v w : List Char} (h : ∀ c ∈ v, c.isDigit)
    (hw : w.head?.all (· == '.')) :
    (v ++ w).takeWhile (· != '.') = v ∧ (v ++ w).dropWhile (· != '.') = w := by
  have hv : ∀ c ∈ v, (c != '.') = true := fun c hc => by
    simpa using digit_ne (h c hc) (by rfl : ('.' : Char).isDigit = false)
  rw [List.takeWhile_append_of_pos hv, List.dropWhile_append_of_pos hv]
  cases w with
  | nil => simp
  | cons d w => simp at hw; simp [hw]

theorem written_not_whitespace {neg : Prop} [Decidable neg] {whole frac : List Char}
    (hw : ∀ c ∈ whole, c.isDigit) (hf : ∀ c ∈ frac, c.isDigit) :
    ∀ c ∈ written neg whole frac, c.isWhitespace = false := by
  intro c hc
  rw [written, List.mem_append, List.mem_append] at hc
  rcases hc with hc | hc | hc
  · split at hc
    · rw [List.mem_singleton.mp hc]; rfl
    · cases hc
  · exact digit_not_whitespace (hw c hc)
  · split at hc
    · cases hc
    · rcases List.mem_cons.mp hc with rfl | hc
      · rfl
      · exact digit_not_whitespace (hf c hc)

theorem parse_written {neg : Prop} [Decidable neg] {whole frac : List Char} (hne : whole ≠ [])
    (hw : ∀ c ∈ whole, c.isDigit) (hf : ∀ c ∈ frac, c.isDigit) :
    let value : Int := digitsOnly whole * ONE +
      digitsOnly ((frac ++ List.replicate SCALE '0').take SCALE)
    parse (written neg whole frac) = ⟨if neg then -value else value⟩ := by
  obtain ⟨c, cs, rfl⟩ := List.exists_cons_of_ne_nil hne
  have hc : c.isDigit := hw c (by simp)
  have hminus : c ≠ '-' := digit_ne hc rfl
  have hneg : (written neg (c :: cs) frac).head? = some '-' ↔ neg := by
    by_cases hn : neg <;> simp [written, hn, hminus]
  have hbody : (if neg then (written neg (c :: cs) frac).tail else written neg (c :: cs) frac) =
      (c :: cs) ++ if frac = [] then [] else '.' :: frac := by
    by_cases hn : neg <;> simp [written, hn]
  obtain ⟨hint, hrest⟩ := takeWhile_digits (w := if frac = [] then [] else '.' :: frac) hw
    (by split <;> simp)
  have hdrop : (if frac = [] then [] else '.' :: frac).drop 1 = frac := by
    split
    · simp [‹frac = []›]
    · rfl
  have hfrac : frac.takeWhile (· != '.') = frac := by
    simpa using (takeWhile_digits (w := []) hf (by simp)).1
  unfold parse
  rw [trim_self (written_not_whitespace hw hf),
    if_neg (not_special (c := c) (by simp [written]) hc)]
  simp only [hneg, hbody, hint, hrest, hdrop, hfrac]

/-- Reading what `toString` printed gives the amount back. -/
theorem parse_toText (d : Decimal) : parse (toText d) = d := by
  set v := d.raw.natAbs with hv
  have hm : v % 10 ^ 18 < 10 ^ 18 := Nat.mod_lt _ (by decide)
  unfold toText
  rw [parse_written Nat.toDigits_ne_nil
      (fun c hc => Nat.isDigit_of_mem_toDigits (by decide) (by decide) hc)
      (fun c hc => isDigit_padded ((List.rdropWhile_prefix _ _).subset hc)),
    take_stripped (length_padded hm), digitsOnly_padded, digitsOnly_toDigits, ← hv]
  have hsplit : ((v / 10 ^ 18 : ℕ) : ℤ) * ONE + ((v % 10 ^ 18 : ℕ) : ℤ) = v := by
    have hone : ONE = ((10 ^ 18 : ℕ) : ℤ) := rfl
    rw [hone]
    exact_mod_cast Nat.div_add_mod' v (10 ^ 18)
  rw [hsplit]
  apply Decimal.ext
  simp only
  split <;> omega

example : parse "-1.5".toList = ⟨-1500000000000000000⟩ := by decide

/-! ## Whole amounts -/

def Whole (a : Decimal) : Prop := ∃ n : Int, a = .ofInt n

namespace Whole
variable {a b : Decimal}

theorem zero : Whole 0 := ⟨0, ofInt_zero.symm⟩

theorem toFixed (a : Decimal) : Whole (a.toFixed 0) := exists_toFixed_zero a

theorem add (ha : a.Whole) (hb : b.Whole) : (a + b).Whole := by
  obtain ⟨m, rfl⟩ := ha
  obtain ⟨n, rfl⟩ := hb
  exact ⟨m + n, ofInt_add m n⟩

theorem sub (ha : a.Whole) (hb : b.Whole) : (a - b).Whole := by
  obtain ⟨m, rfl⟩ := ha
  obtain ⟨n, rfl⟩ := hb
  exact ⟨m - n, ofInt_sub m n⟩

theorem sum {l : List Decimal} (h : ∀ a ∈ l, a.Whole) : l.sum.Whole := by
  induction l with
  | nil => exact zero
  | cons a l ih => exact (h a (by simp)).add (ih fun b hb => h b (by simp [hb]))

/-- A whole amount is printed as it is. -/
theorem toFixed_eq (ha : a.Whole) : a.toFixed 0 = a := by
  obtain ⟨n, rfl⟩ := ha
  exact toFixed_ofInt n

end Whole

end Decimal

end Pwos
