import Pwos.Lib.Words
import Pwos.Search.SearchText

/-!
# Numbers in words

`lib/numberToWords.ts`: a number in Persian words, group by group of three digits, each with the
name of its scale. The names end with 10^60: the groups from 10^63 on have none and read like
units.
-/

namespace Pwos
namespace NumberToWords

def ONES : List Text :=
  ["", "یک", "دو", "سه", "چهار", "پنج", "شش", "هفت", "هشت", "نه", "ده", "یازده", "دوازده",
    "سیزده", "چهارده", "پانزده", "شانزده", "هفده", "هجده", "نوزده"].map String.toList

def TENS : List Text :=
  ["", "", "بیست", "سی", "چهل", "پنجاه", "شصت", "هفتاد", "هشتاد", "نود"].map String.toList

def HUNDREDS : List Text :=
  ["", "صد", "دویست", "سیصد", "چهارصد", "پانصد", "ششصد", "هفتصد", "هشتصد", "نهصد"].map
    String.toList

/-- The names of the powers of a thousand. -/
def SCALES : List Text :=
  ["", "هزار", "میلیون", "میلیارد", "بیلیون", "بیلیارد", "تریلیون", "تریلیارد", "کوادریلیون",
    "کوادریلیارد", "کوینتیلیون", "کوینتیلیارد", "سکستیلیون", "سکستیلیارد", "سپتیلیون",
    "سپتیلیارد", "اکتیلیون", "اکتیلیارد", "نونیلیون", "نونیلیارد", "دسیلیون"].map String.toList

def zeroWord : Text := "صفر".toList

/-- `parts.join(" و ")`. -/
def joined (parts : List Text) : Text := [' ', 'و', ' '].intercalate parts

/-- The words of a number below 1000, without the word between them. -/
def threeDigits (n : Nat) : List Text :=
  let hundreds := n / 100
  let rest := n % 100
  (if 0 < hundreds then [HUNDREDS.getD hundreds []] else []) ++
    (if 0 < rest then
      if rest < 20 then [ONES.getD rest []]
      else TENS.getD (rest / 10) [] :: (if 0 < rest % 10 then [ONES.getD (rest % 10) []] else [])
    else [])

def threeDigitsToWords (n : Nat) : Text := joined (threeDigits n)

/-- The groups of three digits from the lowest one on, zeros left out, each with its scale. -/
def groups (index value : Nat) : List (Nat × Text) :=
  if value = 0 then []
  else
    let group := value % 1000
    let rest := groups (index + 1) (value / 1000)
    if 0 < group then (group, SCALES.getD index []) :: rest else rest
termination_by value

theorem groups_zero (index : Nat) : groups index 0 = [] := by
  rw [groups, if_pos rfl]

/-- One pass of the loop. -/
theorem groups_eq (index value : Nat) : groups index value =
    (if 0 < value % 1000 then [(value % 1000, SCALES.getD index [])] else []) ++
      groups (index + 1) (value / 1000) := by
  by_cases hzero : value = 0
  · simp [hzero, groups_zero]
  · conv_lhs => rw [groups, if_neg hzero]
    dsimp only
    split <;> rfl

def groupWords (g : Nat × Text) : Text :=
  if g.2 = [] then threeDigitsToWords g.1 else threeDigitsToWords g.1 ++ ' ' :: g.2

def integerToWords (n : Nat) : Text :=
  if n = 0 then zeroWord else joined ((groups 0 n).reverse.map groupWords)

/-- A minus sign of the keyboard or of typography. -/
def isMinus (c : Char) : Bool := c = '-' || c = '−'

/-- `/[،,٬٫\s]/`. -/
def isSeparator (c : Char) : Bool := c = '،' || c = ',' || c = '٬' || c = '٫' || isBlank c

def numberToPersianWords (value : Text) : Option Text :=
  let raw := (trim value).map latinDigit
  if raw = [] then none
  else
    let negative := raw.head?.any isMinus
    let body := if negative then raw.tail else raw
    let cleaned := body.filter (!isSeparator ·)
    let digits := (cleaned.takeWhile (· ≠ '.')).filter Char.isDigit
    if digits = [] then none
    else
      let big := Nat.ofDigitChars 10 digits 0
      if big = 0 then if negative then none else some zeroWord
      else some (if negative then "منفی ".toList ++ integerToWords big else integerToWords big)

/-! ## Reading the words -/

/-- What a word adds to a group. The word between them adds nothing. -/
def wordValue (w : Text) : Nat :=
  if ONES.contains w then ONES.idxOf w
  else if TENS.contains w then 10 * TENS.idxOf w
  else if HUNDREDS.contains w then 100 * HUNDREDS.idxOf w
  else 0

/-- The sum of the groups that were read, and the group that is being read: a scale ends it. -/
def readWord (r : Nat × Nat) (w : Text) : Nat × Nat :=
  if SCALES.contains w then (r.1 + r.2 * 1000 ^ SCALES.idxOf w, 0) else (r.1, r.2 + wordValue w)

def readText (r : Nat × Nat) (t : Text) : Nat × Nat := (wordsAt ' ' t).foldl readWord r

/-- A word that has no blank, is no scale and has a value. -/
def Reads (w : Text) (value : Nat) : Prop :=
  ' ' ∉ w ∧ w ≠ [] ∧ SCALES.contains w = false ∧ wordValue w = value

instance (w : Text) (value : Nat) : Decidable (Reads w value) := inferInstanceAs (Decidable (_ ∧ _))

theorem reads_ones : ∀ k < 20, 0 < k → Reads (ONES.getD k []) k := by decide

theorem reads_tens : ∀ k < 10, 2 ≤ k → Reads (TENS.getD k []) (10 * k) := by decide

theorem reads_hundreds : ∀ k < 10, 0 < k → Reads (HUNDREDS.getD k []) (100 * k) := by decide

theorem scales_word : ∀ i < 21, 0 < i → ' ' ∉ SCALES.getD i [] ∧ SCALES.getD i [] ≠ [] ∧
    SCALES.contains (SCALES.getD i []) = true ∧ SCALES.idxOf (SCALES.getD i []) = i := by decide

section Reading
variable {t w : Text} {r : Nat × Nat} {total n : Nat}

theorem readWord_scale (h : SCALES.contains w = true) :
    readWord r w = (r.1 + r.2 * 1000 ^ SCALES.idxOf w, 0) := if_pos h

theorem readWord_plain (h : SCALES.contains w = false) :
    readWord r w = (r.1, r.2 + wordValue w) := if_neg (by rw [h]; exact Bool.false_ne_true)

theorem readText_joined (parts : List Text) (r : Nat × Nat) :
    readText r (joined parts) = parts.foldl readText r := by
  have hand (r : Nat × Nat) : readWord r ['و'] = r := by
    have hvalue : wordValue ['و'] = 0 := by decide
    rw [readWord_plain (by decide), hvalue, Nat.add_zero]
  have hwords : wordsAt ' ' (joined parts) = [['و']].intercalate (parts.map (wordsAt ' ')) :=
    wordsAt_intercalate (w := ['و']) (by decide) (by decide) parts
  have hfold (words : List (List Text)) (r : Nat × Nat) :
      ([['و']].intercalate words).foldl readWord r = words.foldl (fun r u => u.foldl readWord r) r := by
    induction words generalizing r with
    | nil => rfl
    | cons u words ih => cases words <;> simp_all [List.intercalate_cons_cons]
  rw [readText, hwords, hfold, List.foldl_map]
  rfl

theorem readText_scale {i : Nat} (hi : i < 21) (hpos : 0 < i) (t : Text) (r : Nat × Nat) :
    readText r (t ++ ' ' :: SCALES.getD i []) =
      ((readText r t).1 + (readText r t).2 * 1000 ^ i, 0) := by
  obtain ⟨hblank, hne, hscale, hidx⟩ := scales_word i hi hpos
  rw [readText, wordsAt_append_cons, wordsAt_word hblank hne, List.foldl_append, List.foldl_cons,
    readWord_scale hscale, hidx]
  rfl

theorem Reads.readText {value : Nat} (h : Reads w value) (r : Nat × Nat) :
    readText r w = (r.1, r.2 + value) := by
  obtain ⟨hblank, hne, hscale, rfl⟩ := h
  rw [NumberToWords.readText, wordsAt_word hblank hne, List.foldl_cons, readWord_plain hscale]
  rfl

theorem readText_threeDigits (hn : n < 1000) (r : Nat × Nat) :
    readText r (threeDigitsToWords n) = (r.1, r.2 + n) := by
  have hhundreds := reads_hundreds (n / 100) (by omega)
  have htens := reads_tens (n % 100 / 10) (by omega)
  have hones := reads_ones (n % 100)
  have hlast := reads_ones (n % 100 % 10) (by omega)
  rw [threeDigitsToWords, readText_joined, threeDigits, List.foldl_append]
  have hfirst : (if 0 < n / 100 then [HUNDREDS.getD (n / 100) []] else []).foldl readText r =
      (r.1, r.2 + 100 * (n / 100)) := by
    split
    · rename_i h
      exact (hhundreds h).readText r
    · have hzero : n / 100 = 0 := by omega
      rw [hzero]
      rfl
  have hsum : r.2 + 100 * (n / 100) + n % 100 = r.2 + n := by omega
  rw [hfirst]
  split
  · rename_i hrest
    split
    · rename_i hsmall
      have hread := (hones hsmall hrest).readText (r.1, r.2 + 100 * (n / 100))
      rw [List.foldl_cons, hread, hsum]
      rfl
    · rename_i hlarge
      have hread := (htens (by omega)).readText (r.1, r.2 + 100 * (n / 100))
      rw [List.foldl_cons, hread]
      split
      · rename_i hunit
        rw [List.foldl_cons, (hlast hunit).readText, List.foldl_nil]
        refine Prod.ext rfl ?_
        simp only
        omega
      · refine Prod.ext rfl ?_
        simp only [List.foldl_nil]
        omega
  · refine Prod.ext rfl ?_
    simp only [List.foldl_nil]
    omega

/-- A group with a scale is added to the sum. -/
theorem readText_groupWords {i : Nat} (hi : i < 21) (hpos : 0 < i) (hn : n < 1000) (total : Nat) :
    readText (total, 0) (groupWords (n, SCALES.getD i [])) = (total + n * 1000 ^ i, 0) := by
  have hne := (scales_word i hi hpos).2.1
  rw [groupWords, if_neg hne, readText_scale hi hpos, readText_threeDigits hn]
  simp

/-- Groups that all have a scale are read back. -/
theorem readText_groups {i value : Nat} (hpos : 0 < i) (hlt : value < 1000 ^ (21 - i))
    (total : Nat) : ((groups i value).reverse.map groupWords).foldl readText (total, 0) =
      (total + value * 1000 ^ i, 0) := by
  -- there is a scale for every group, and the ones above are smaller by a thousand
  have hnext {i value : Nat} (hlt : value < 1000 ^ (21 - i)) (hne : value ≠ 0) :
      i < 21 ∧ value / 1000 < 1000 ^ (21 - (i + 1)) := by
    have hi : i < 21 := by
      by_contra hnot
      rw [Nat.sub_eq_zero_of_le (not_lt.mp hnot), pow_zero] at hlt
      omega
    have hpow : 1000 ^ (21 - i) = 1000 * 1000 ^ (21 - (i + 1)) := by
      rw [← pow_succ', show 21 - i = 21 - (i + 1) + 1 by omega]
    exact ⟨hi, Nat.div_lt_of_lt_mul (hpow ▸ hlt)⟩
  fun_induction groups i value generalizing total with
  | case1 i => simp
  | case2 i value hne group rest hgroup ih =>
    obtain ⟨hi, hdiv⟩ := hnext hlt hne
    have hgroup : group = value % 1000 := rfl
    rw [List.reverse_cons, List.map_append, List.foldl_append, ih (Nat.succ_pos i) hdiv,
      List.map_singleton, List.foldl_cons, readText_groupWords hi hpos (by omega), hgroup,
      List.foldl_nil, pow_succ']
    refine Prod.ext ?_ rfl
    have hvalue := Nat.div_add_mod value 1000
    simp only
    calc total + value / 1000 * (1000 * 1000 ^ i) + value % 1000 * 1000 ^ i
        = total + (1000 * (value / 1000) + value % 1000) * 1000 ^ i := by ring
      _ = total + value * 1000 ^ i := by rw [hvalue]
  | case3 i value hne group rest hgroup ih =>
    obtain ⟨-, hdiv⟩ := hnext hlt hne
    have hgroup : value % 1000 = 0 := by omega
    have hvalue : 1000 * (value / 1000) = value := by omega
    rw [ih (Nat.succ_pos i) hdiv, pow_succ']
    refine Prod.ext ?_ rfl
    simp only
    calc total + value / 1000 * (1000 * 1000 ^ i)
        = total + 1000 * (value / 1000) * 1000 ^ i := by ring
      _ = total + value * 1000 ^ i := by rw [hvalue]

/-- A number below 10^63 is read back from its words. -/
theorem readText_integerToWords (hn : n < 1000 ^ 21) :
    (readText (0, 0) (integerToWords n)).1 + (readText (0, 0) (integerToWords n)).2 = n := by
  by_cases hzero : n = 0
  · rw [hzero]
    decide
  · have hhigh : n / 1000 < 1000 ^ (21 - 1) := Nat.div_lt_of_lt_mul (by rwa [← pow_succ'])
    have hread := readText_groups Nat.one_pos hhigh 0
    have hscale : SCALES.getD 0 [] = [] := rfl
    rw [integerToWords, if_neg hzero, readText_joined, groups_eq, List.reverse_append,
      List.map_append, List.foldl_append, hread]
    split
    · rw [List.reverse_singleton, List.map_singleton, List.foldl_cons, List.foldl_nil, hscale,
        groupWords, if_pos rfl, readText_threeDigits (Nat.mod_lt n (by decide))]
      dsimp only
      omega
    · simp only [List.reverse_nil, List.map_nil, List.foldl_nil]
      omega

end Reading

/-! ## Natural numbers -/

theorem digit_plain {c : Char} (h : c.isDigit) : isBlank c = false ∧ latinDigit c = c ∧
    isMinus c = false ∧ isSeparator c = false ∧ c ≠ '.' := by
  simp only [Char.isDigit, Bool.and_eq_true, decide_eq_true_eq, UInt32.le_iff_toNat_le] at h
  have hlow : 48 ≤ c.toNat := h.1
  have hhigh : c.toNat ≤ 57 := h.2
  have hall : ∀ n < 10, isBlank (Char.ofNat (48 + n)) = false ∧
      latinDigit (Char.ofNat (48 + n)) = Char.ofNat (48 + n) ∧
      isMinus (Char.ofNat (48 + n)) = false ∧ isSeparator (Char.ofNat (48 + n)) = false ∧
      Char.ofNat (48 + n) ≠ '.' := by decide
  have hc : c = Char.ofNat (48 + (c.toNat - 48)) := by
    rw [Nat.add_sub_cancel' hlow, Char.ofNat_toNat]
  rw [hc]
  exact hall _ (by omega)

/-- A number in digits, as `String` writes it, is put in words whole. -/
theorem numberToPersianWords_toDigits (n : Nat) :
    numberToPersianWords (Nat.toDigits 10 n) = some (integerToWords n) := by
  have hdigit (c : Char) (hc : c ∈ Nat.toDigits 10 n) : c.isDigit :=
    Nat.isDigit_of_mem_toDigits (by decide) (by decide) hc
  have hvalue := Nat.ofDigitChars_ten_toDigits (n := n)
  have hne : Nat.toDigits 10 n ≠ [] := by simp
  generalize Nat.toDigits 10 n = s at *
  have htrim : trim s = s := by
    have hdrop : s.dropWhile isBlank = s := by
      cases s with
      | nil => rfl
      | cons c s => simp [(digit_plain (hdigit c List.mem_cons_self)).1]
    rw [trim, hdrop, List.rdropWhile_eq_self_iff]
    exact fun hne => by simp [(digit_plain (hdigit _ (List.getLast_mem hne))).1]
  have hlatin : s.map latinDigit = s :=
    (List.map_congr_left (g := id) fun c hc => (digit_plain (hdigit c hc)).2.1).trans
      (List.map_id s)
  have hsign : s.head?.any isMinus = false := by
    cases s with
    | nil => rfl
    | cons c s => exact (digit_plain (hdigit c List.mem_cons_self)).2.2.1
  have hclean : s.filter (!isSeparator ·) = s :=
    List.filter_eq_self.mpr fun c hc => by simp [(digit_plain (hdigit c hc)).2.2.2.1]
  have hwhole : s.takeWhile (· ≠ '.') = s :=
    List.takeWhile_eq_self_iff.mpr fun c hc => by simp [(digit_plain (hdigit c hc)).2.2.2.2]
  have hkept : s.filter Char.isDigit = s := List.filter_eq_self.mpr hdigit
  unfold numberToPersianWords
  simp only [htrim, hlatin, hsign, hclean, hwhole, hkept, hvalue, if_neg hne, Bool.false_eq_true,
    if_false]
  split
  · rename_i hzero
    rw [integerToWords, if_pos hzero]
  · rfl

/-! ## Beyond the scales -/

/-- A number by its lower groups and the rest. -/
theorem groups_append (k : Nat) {i r v : Nat} (hr : r < 1000 ^ k) :
    groups i (r + 1000 ^ k * v) = groups i r ++ groups (i + k) v := by
  induction k generalizing i r with
  | zero =>
    obtain rfl : r = 0 := by simpa using hr
    rw [pow_zero, one_mul, zero_add, Nat.add_zero, groups_zero, List.nil_append]
  | succ k ih =>
    have hmod : (r + 1000 ^ (k + 1) * v) % 1000 = r % 1000 := by
      rw [pow_succ', mul_assoc, Nat.add_mul_mod_self_left]
    have hdiv : (r + 1000 ^ (k + 1) * v) / 1000 = r / 1000 + 1000 ^ k * v := by
      rw [pow_succ', mul_assoc, Nat.add_mul_div_left _ _ (by decide)]
    have hr : r / 1000 < 1000 ^ k := Nat.div_lt_of_lt_mul (by rwa [← pow_succ'])
    rw [groups_eq i r, groups_eq i (r + _), hmod, hdiv, ih hr, List.append_assoc,
      show i + 1 + k = i + (k + 1) by omega]

/-- A group without a scale reads the same one place higher. -/
theorem integerToWords_shift {k g r : Nat} (hk : 21 ≤ k) (hg : g < 1000) (hpos : 0 < g)
    (hr : r < 1000 ^ k) :
    integerToWords (r + 1000 ^ k * g) = integerToWords (r + 1000 ^ (k + 1) * g) := by
  have hgroup (i : Nat) (hi : 21 ≤ i) : groups i g = [(g, [])] := by
    have hnone : SCALES.getD i [] = [] := by
      have hlength : SCALES.length = 21 := rfl
      rw [List.getD_eq_getElem?_getD, List.getElem?_eq_none (hlength ▸ hi)]
      rfl
    rw [groups_eq, Nat.mod_eq_of_lt hg, if_pos hpos, Nat.div_eq_of_lt hg, groups_zero, hnone,
      List.append_nil]
  have hr' : r < 1000 ^ (k + 1) := hr.trans (Nat.pow_lt_pow_right (by decide) (Nat.lt_succ_self k))
  have hpow (j : Nat) : r + 1000 ^ j * g ≠ 0 := by positivity
  rw [integerToWords, integerToWords, if_neg (hpow k), if_neg (hpow (k + 1)), groups_append k hr,
    groups_append (k + 1) hr', hgroup _ (by omega), hgroup _ (by omega)]

/-- From 10^63 on every number shares its words with another one. -/
theorem exists_same_words {n : Nat} (hn : 10 ^ 63 ≤ n) :
    ∃ m, m ≠ n ∧ integerToWords m = integerToWords n := by
  have hbase : 1000 ^ 21 ≤ n := le_trans (by norm_num) hn
  have hne : n ≠ 0 := by omega
  obtain ⟨k, hk⟩ : ∃ k, k = Nat.log 1000 n := ⟨_, rfl⟩
  have hlow : 1000 ^ k ≤ n := hk ▸ Nat.pow_log_le_self 1000 hne
  have hhigh : n < 1000 ^ (k + 1) := hk ▸ Nat.lt_pow_succ_log_self (by decide) n
  have htop : 21 ≤ k := hk ▸ Nat.le_log_of_pow_le (by decide) hbase
  have hpos : 0 < 1000 ^ k := by positivity
  have hsplit : n % 1000 ^ k + 1000 ^ k * (n / 1000 ^ k) = n := Nat.mod_add_div n _
  have hg : 0 < n / 1000 ^ k := Nat.div_pos hlow hpos
  have hshift := integerToWords_shift htop (Nat.div_lt_of_lt_mul (by rwa [← pow_succ])) hg
    (Nat.mod_lt n hpos)
  rw [hsplit] at hshift
  refine ⟨n % 1000 ^ k + 1000 ^ (k + 1) * (n / 1000 ^ k), ?_, hshift.symm⟩
  have hlt : 1000 ^ k * (n / 1000 ^ k) < 1000 ^ (k + 1) * (n / 1000 ^ k) :=
    Nat.mul_lt_mul_of_pos_right (Nat.pow_lt_pow_right (by decide) (Nat.lt_succ_self k)) hg
  omega

theorem integerToWords_one : integerToWords 1 = "یک".toList := by
  have hgroups : groups 0 1 = [(1, [])] := by
    rw [groups_eq, Nat.div_eq_of_lt (by decide), groups_zero]
    decide
  rw [integerToWords, if_neg one_ne_zero, hgroups]
  decide

theorem integerToWords_vigintillion : integerToWords (10 ^ 63) = "یک".toList := by
  have hgroups : groups 0 (10 ^ 63) = [(1, [])] := by
    have hpow : 10 ^ 63 = 0 + 1000 ^ 21 * 1 := by norm_num
    rw [hpow, groups_append 21 (by positivity), groups_zero, groups_eq,
      Nat.div_eq_of_lt (by decide), groups_zero]
    decide
  rw [integerToWords, if_neg (by positivity), hgroups]
  decide

/-- 10^63 reads like 1. -/
theorem words_of_vigintillion :
    numberToPersianWords (Nat.toDigits 10 (10 ^ 63)) = some "یک".toList ∧
    numberToPersianWords (Nat.toDigits 10 1) = some "یک".toList ∧ 10 ^ 63 ≠ 1 := by
  rw [numberToPersianWords_toDigits, numberToPersianWords_toDigits, integerToWords_one,
    integerToWords_vigintillion]
  exact ⟨rfl, rfl, by norm_num⟩

/-- The words tell the numbers of so many digits from each other exactly up to 63 digits, and no
longer number from all others. -/
theorem words_injective_iff (d : Nat) :
    ((∀ m n, m < 10 ^ d → n < 10 ^ d →
      numberToPersianWords (Nat.toDigits 10 m) = numberToPersianWords (Nat.toDigits 10 n) →
        m = n) ↔ d ≤ 63) ∧
    ∀ n, 10 ^ 63 ≤ n → ∃ m, m ≠ n ∧
      numberToPersianWords (Nat.toDigits 10 m) = numberToPersianWords (Nat.toDigits 10 n) := by
  simp only [numberToPersianWords_toDigits, Option.some.injEq]
  refine ⟨⟨fun hinj => ?_, fun hd m n hm hn heq => ?_⟩, fun n hn => exists_same_words hn⟩
  · by_contra hd
    have hlong : 10 ^ 63 < 10 ^ d := Nat.pow_lt_pow_right (by decide) (by omega)
    have hsame := integerToWords_vigintillion.trans integerToWords_one.symm
    have hbig : 1 < 10 ^ 63 := by norm_num
    exact hbig.ne' (hinj _ _ hlong (hbig.trans hlong) hsame)
  · have hbound : 10 ^ d ≤ 1000 ^ 21 :=
      (Nat.pow_le_pow_right (by decide) hd).trans (by norm_num)
    have hm := readText_integerToWords (hm.trans_le hbound)
    have hn := readText_integerToWords (hn.trans_le hbound)
    rw [← hm, ← hn, heq]

end NumberToWords

end Pwos
