import Pwos.Lib.Digits
import Mathlib.Data.List.DropRight

/-!
# Numbers in texts

What JavaScript's `Number` reads in a text: decimal literals with a sign, a point and an
exponent, literals to the bases 2, 8 and 16, and `Infinity`. The value is the number that the
literal denotes, before it is rounded to a floating-point one.
-/

namespace Pwos

/-! ## Blanks -/

/-- White space and line ends. -/
def jsSpaces : List Nat :=
  [0x9, 0xA, 0xB, 0xC, 0xD, 0x20, 0xA0, 0x1680, 0x2000, 0x2001, 0x2002, 0x2003, 0x2004, 0x2005,
    0x2006, 0x2007, 0x2008, 0x2009, 0x200A, 0x2028, 0x2029, 0x202F, 0x205F, 0x3000, 0xFEFF]

def isJsSpace (c : Char) : Bool := c.toNat ∈ jsSpaces

/-- `trim`. -/
def jsTrim (s : List Char) : List Char := (s.dropWhile isJsSpace).rdropWhile isJsSpace

/-! ## Literals -/

structure Exponent where
  mark : Char
  sign : List Char
  digits : List Char
  deriving DecidableEq, Repr

structure DecimalLiteral where
  sign : List Char
  whole : List Char
  /-- What stands behind the point, if there is one. -/
  frac : Option (List Char)
  exponent : Option Exponent
  deriving DecidableEq, Repr

structure RadixLiteral where
  mark : Char
  base : Nat
  digits : List Char
  deriving DecidableEq, Repr

inductive NumberLiteral where
  | infinity (sign : List Char)
  | decimal (l : DecimalLiteral)
  | radix (l : RadixLiteral)
  deriving DecidableEq, Repr

/-! ## Reading -/

/-- The sign in front, if any, and the rest. -/
def takeSign : List Char → List Char × List Char
  | [] => ([], [])
  | c :: s => if c = '+' ∨ c = '-' then ([c], s) else ([], c :: s)

def readExponent : List Char → Option Exponent
  | [] => none
  | c :: s =>
    if (c = 'e' ∨ c = 'E') ∧ (takeSign s).2 ≠ [] ∧ (takeSign s).2.all Char.isDigit
    then some ⟨c, (takeSign s).1, (takeSign s).2⟩ else none

/-- The digits behind a point, if there is one, and the rest. -/
def takeFraction : List Char → Option (List Char) × List Char
  | [] => (none, [])
  | c :: s =>
    if c = '.' then (some (s.takeWhile Char.isDigit), s.dropWhile Char.isDigit)
    else (none, c :: s)

def readDecimal (s : List Char) : Option DecimalLiteral :=
  let body := (takeSign s).2
  let whole := body.takeWhile Char.isDigit
  let tail := takeFraction (body.dropWhile Char.isDigit)
  if whole = [] ∧ tail.1.getD [] = [] then none
  else if tail.2 = [] then some ⟨(takeSign s).1, whole, tail.1, none⟩
  else (readExponent tail.2).map fun e => ⟨(takeSign s).1, whole, tail.1, some e⟩

/-- The base that the letter behind a zero names. -/
def radixOf (c : Char) : Option Nat :=
  if c = 'x' ∨ c = 'X' then some 16
  else if c = 'o' ∨ c = 'O' then some 8
  else if c = 'b' ∨ c = 'B' then some 2
  else none

/-- The value of a digit to a base up to 16; other characters have 16. -/
def digitValue (c : Char) : Nat :=
  if c.isDigit then c.toNat - 48
  else if 97 ≤ c.toNat ∧ c.toNat ≤ 102 then c.toNat - 87
  else if 65 ≤ c.toNat ∧ c.toNat ≤ 70 then c.toNat - 55
  else 16

def readRadix : List Char → Option RadixLiteral
  | zero :: c :: ds =>
    if zero = '0' ∧ ds ≠ [] then
      (radixOf c).bind fun base =>
        if ds.all (digitValue · < base) then some ⟨c, base, ds⟩ else none
    else none
  | _ => none

/-- What `Number` reads in a trimmed text that is not empty; `none` is `NaN`. -/
def readNumber (s : List Char) : Option NumberLiteral :=
  if (takeSign s).2 = "Infinity".toList then some (.infinity (takeSign s).1)
  else
    match readRadix s with
    | some l => some (.radix l)
    | none => (readDecimal s).map .decimal

/-! ## Values -/

/-- The number that a text of decimal digits stands for. -/
def digitsValue (v : List Char) : Nat := Nat.ofDigitChars 10 v 0

def Exponent.value (e : Exponent) : Int :=
  if e.sign = ['-'] then -(digitsValue e.digits : Int) else digitsValue e.digits

namespace DecimalLiteral
variable (l : DecimalLiteral)

def fraction : List Char := l.frac.getD []

def shift : Int := (l.exponent.elim 0 Exponent.value) - l.fraction.length

def magnitude : ℚ := digitsValue (l.whole ++ l.fraction) * (10 : ℚ) ^ l.shift

def value : ℚ := if l.sign = ['-'] then -l.magnitude else l.magnitude

end DecimalLiteral

def RadixLiteral.value (l : RadixLiteral) : Nat :=
  l.digits.foldl (fun n c => l.base * n + digitValue c) 0

/-- `none` for an infinity. -/
def NumberLiteral.value : NumberLiteral → Option ℚ
  | .infinity _ => none
  | .decimal l => some l.value
  | .radix l => some l.value

/-- `Number.isFinite`: from here on a number is rounded to an infinity. -/
def FLOAT_LIMIT : ℚ := 2 ^ 1024 - 2 ^ 970

def NumberLiteral.isFinite (l : NumberLiteral) : Bool := l.value.any fun v => |v| < FLOAT_LIMIT

example : (readNumber "1e5".toList).bind NumberLiteral.value = some 100000 := by decide +kernel
example : (readNumber "0x10".toList).bind NumberLiteral.value = some 16 := by decide
example : readNumber "1.2.3".toList = none := by decide

/-! ## What was read is the text -/

def Sign (s : List Char) : Prop := s = [] ∨ s = ['+'] ∨ s = ['-']

def Exponent.text (e : Exponent) : List Char := e.mark :: (e.sign ++ e.digits)

structure Exponent.WellFormed (e : Exponent) : Prop where
  mark : e.mark = 'e' ∨ e.mark = 'E'
  sign : Sign e.sign
  digits : ∀ c ∈ e.digits, c.isDigit
  nonempty : e.digits ≠ []

namespace DecimalLiteral

def text (l : DecimalLiteral) : List Char :=
  l.sign ++ (l.whole ++ (l.frac.elim [] ('.' :: ·) ++ l.exponent.elim [] Exponent.text))

structure WellFormed (l : DecimalLiteral) : Prop where
  sign : Sign l.sign
  whole : ∀ c ∈ l.whole, c.isDigit
  fraction : ∀ c ∈ l.fraction, c.isDigit
  nonempty : l.whole ≠ [] ∨ l.fraction ≠ []
  exponent : ∀ e ∈ l.exponent, e.WellFormed

end DecimalLiteral

structure RadixLiteral.WellFormed (l : RadixLiteral) : Prop where
  base : radixOf l.mark = some l.base
  digits : ∀ c ∈ l.digits, digitValue c < l.base
  nonempty : l.digits ≠ []

theorem takeSign_spec (s : List Char) :
    s = (takeSign s).1 ++ (takeSign s).2 ∧ Sign (takeSign s).1 := by
  unfold Sign
  fun_cases takeSign s <;> grind

theorem takeFraction_spec (s : List Char) :
    s = (takeFraction s).1.elim [] ('.' :: ·) ++ (takeFraction s).2 ∧
      ∀ c ∈ (takeFraction s).1.getD [], c.isDigit := by
  fun_cases takeFraction s with
  | case1 => simp
  | case2 s =>
    refine ⟨?_, fun c hc => List.mem_takeWhile_imp hc⟩
    simp [List.takeWhile_append_dropWhile]
  | case3 c s => simp

theorem readExponent_spec {s : List Char} {e : Exponent} (h : readExponent s = some e) :
    s = e.text ∧ e.WellFormed := by
  fun_cases readExponent s with
  | case1 => cases h
  | case2 c s hc =>
    simp only [readExponent, if_pos hc, Option.some.injEq] at h
    obtain ⟨hsplit, hsign⟩ := takeSign_spec s
    subst h
    refine ⟨congrArg (c :: ·) hsplit, hc.1, hsign, ?_, hc.2.1⟩
    simpa using hc.2.2
  | case3 c s hc =>
    simp only [readExponent, if_neg hc] at h
    cases h

theorem readDecimal_spec {s : List Char} {l : DecimalLiteral} (h : readDecimal s = some l) :
    s = l.text ∧ l.WellFormed := by
  obtain ⟨hsplit, hsign⟩ := takeSign_spec s
  have hbody := List.takeWhile_append_dropWhile (p := Char.isDigit) (l := (takeSign s).2)
  obtain ⟨htail, hfrac⟩ := takeFraction_spec ((takeSign s).2.dropWhile Char.isDigit)
  unfold readDecimal at h
  dsimp only at h
  have hwhole : ∀ c ∈ (takeSign s).2.takeWhile Char.isDigit, c.isDigit :=
    fun c hc => List.mem_takeWhile_imp hc
  generalize (takeSign s).2.takeWhile Char.isDigit = whole at *
  generalize takeFraction ((takeSign s).2.dropWhile Char.isDigit) = tail at *
  rw [htail] at hbody
  rw [← hbody] at hsplit
  split at h
  · cases h
  rename_i hsome
  have hne : whole ≠ [] ∨ tail.1.getD [] ≠ [] := by
    by_contra hnone
    push Not at hnone
    exact hsome hnone
  split at h
  · rename_i hend
    cases h
    refine ⟨?_, hsign, hwhole, hfrac, hne, fun e he => absurd he (Option.not_mem_none e)⟩
    unfold DecimalLiteral.text
    rw [hend] at hsplit
    exact hsplit
  · obtain ⟨e, he, rfl⟩ := Option.map_eq_some_iff.mp h
    obtain ⟨htext, hexp⟩ := readExponent_spec he
    refine ⟨?_, hsign, hwhole, hfrac, hne, fun e' he' => Option.some.inj he' ▸ hexp⟩
    unfold DecimalLiteral.text
    rw [htext] at hsplit
    exact hsplit

theorem readRadix_spec {s : List Char} {l : RadixLiteral} (h : readRadix s = some l) :
    s = '0' :: l.mark :: l.digits ∧ l.WellFormed := by
  unfold readRadix at h
  split at h
  · rename_i zero c ds
    split at h
    · rename_i hzero
      obtain ⟨base, hbase, hdigits⟩ := Option.bind_eq_some_iff.mp h
      split at hdigits
      · rename_i hall
        cases hdigits
        obtain ⟨rfl, hne⟩ := hzero
        exact ⟨rfl, hbase, by simpa using hall, hne⟩
      · cases hdigits
    · cases h
  · cases h

end Pwos
