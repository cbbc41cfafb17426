import Pwos.Lib.JsonSyntax
import Pwos.Lib.Matching
import Pwos.Search.SearchText

/-!
# Digits kept in JSON

`parseJsonKeepingDigits` of `features/pricing/providers/referenceHttp.ts`: before a text is parsed,
an expression puts quotes around the numbers of the listed fields. It reads the text from left to
right and knows nothing of strings or nesting.
-/

namespace Pwos

namespace KeepingDigits

open JsonSyntax

/-- `"(?:names)"`, with the quotes. -/
def nameAt (names : List Text) (s : Text) : Option Text :=
  names.findSome? fun n => if '"' :: (n ++ ['"']) <+: s then some ('"' :: (n ++ ['"'])) else none

/-- `-?`. -/
def signAt (s : Text) : Text := if s.head? = some '-' then ['-'] else []

/-- `(?:\.\d+)?`. -/
def fractionAt (s : Text) : Text :=
  match s with
  | [] => []
  | c :: r => if c = '.' ∧ r.head?.any Char.isDigit then c :: r.takeWhile Char.isDigit else []

/-- `[+-]?`. -/
def plusMinusAt (s : Text) : Text :=
  match s with
  | [] => []
  | c :: _ => if c = '+' ∨ c = '-' then [c] else []

/-- `(?:[eE][+-]?\d+)?`. -/
def exponentAt (s : Text) : Text :=
  match s with
  | [] => []
  | c :: r =>
    let digits := (r.drop (plusMinusAt r).length).takeWhile Char.isDigit
    if (c = 'e' ∨ c = 'E') ∧ digits ≠ [] then c :: (plusMinusAt r ++ digits) else []

/-- `-?\d+(?:\.\d+)?(?:[eE][+-]?\d+)?`. -/
def numberAt (s : Text) : Option Text :=
  let sign := signAt s
  let whole := (s.drop sign.length).takeWhile Char.isDigit
  let r := (s.drop sign.length).dropWhile Char.isDigit
  let fraction := fractionAt r
  if whole = [] then none
  else some (sign ++ (whole ++ (fraction ++ exponentAt (r.drop fraction.length))))

/-- `\s*:`. -/
def colonAt (s : Text) : Option (Text × Text) :=
  match s.dropWhile isBlank with
  | [] => none
  | c :: r => if c = ':' then some (s.takeWhile isBlank ++ [':'], r) else none

/-- `(?=\s*[,}\]])`. -/
def closes (s : Text) : Bool := (s.dropWhile isBlank).head?.any fun c => c = ',' || c = '}' || c = ']'

/-- The expression at one place: `$1` and `$2`, and the length of the match. -/
def digitsAt (names : List Text) (s : Text) : Option ((Text × Text) × Nat) := do
  let name ← nameAt names s
  let (colon, r) ← colonAt (s.drop name.length)
  let number ← numberAt (r.dropWhile isBlank)
  let left := name ++ (colon ++ r.takeWhile isBlank)
  if closes ((r.dropWhile isBlank).drop number.length) then
    some ((left, number), left.length + number.length)
  else none

/-- `$1"$2"`. -/
def quoteDigits (found : Text × Text) : Text := found.1 ++ '"' :: (found.2 ++ ['"'])

/-- `text.replace(re, '$1"$2"')`. -/
def rewriteText (names : List Text) (text : Text) : Text :=
  replaceAll (fun _ => digitsAt names) quoteDigits [] 0 text

/-- JSON.parse, with the listed numeric fields read as their source text. -/
def parseJsonKeepingDigits {V : Type} (parse : Text → Option V) (text : Text)
    (fields : List Text) : Option V :=
  if fields.isEmpty then parse text
  else parse (rewriteText (fields.map (·.filter isWordChar)) text)

/-! ## Numbers -/

section Numbers
variable {r : Text}

/-- What a number ends before. -/
def endsNumber (r : Text) : Bool :=
  !r.head?.any fun c => c.isDigit || c = '.' || c = 'e' || c = 'E'

theorem digits_stop (hr : endsNumber r = true) : r.head?.any Char.isDigit = false := by
  cases r with
  | nil => rfl
  | cons c r => simp_all [endsNumber]

theorem digits_head (d : Digits) : ∃ c rest, d.text = c :: rest ∧ c.isDigit = true := by
  cases h : d.text with
  | nil => exact absurd h d.ne_nil
  | cons c rest => exact ⟨c, rest, rfl, List.all_eq_true.mp d.digits c (by simp [h])⟩

theorem plusMinusAt_digits (d : Digits) : plusMinusAt (d.text ++ r) = [] := by
  obtain ⟨c, rest, h, hc⟩ := digits_head d
  have hne : ¬(c = '+' ∨ c = '-') := by
    rintro (rfl | rfl) <;> revert hc <;> decide
  simp [h, plusMinusAt, hne]

theorem exponentAt_append (e : Option ExponentLit) (hr : endsNumber r = true) :
    exponentAt (exponentText e ++ r) = exponentText e := by
  cases e with
  | none =>
    cases r with
    | nil => rfl
    | cons c r => simp_all [endsNumber, exponentText, exponentAt]
  | some e =>
    obtain ⟨upper, sign, d⟩ := e
    have hdigits := takeWhile_append_stop d.digits (digits_stop hr)
    cases sign with
    | none =>
      simp [exponentText, ExponentLit.text, exponentAt, plusMinusAt_digits, hdigits, d.ne_nil]
    | some negative =>
      have hsign : plusMinusAt ((if negative = true then '-' else '+') :: (d.text ++ r)) =
          [if negative = true then '-' else '+'] := by cases negative <;> simp [plusMinusAt]
      simp [exponentText, ExponentLit.text, exponentAt, hsign, hdigits, d.ne_nil]

theorem exponent_stop (e : Option ExponentLit) (hr : endsNumber r = true) :
    (exponentText e ++ r).head?.any (fun c => c.isDigit || c = '.') = false := by
  cases e with
  | none =>
    cases r with
    | nil => rfl
    | cons c r => simp_all [endsNumber, exponentText]
  | some e =>
    have hmark : (if e.upper = true then 'E' else 'e').isDigit = false := by
      cases e.upper <;> decide
    have hdot : (if e.upper = true then 'E' else 'e') ≠ '.' := by cases e.upper <;> decide
    simp [exponentText, ExponentLit.text, hmark, hdot]

theorem fractionAt_append (d : Option Digits) (e : Option ExponentLit) (hr : endsNumber r = true) :
    fractionAt (fractionText d ++ (exponentText e ++ r)) = fractionText d := by
  have hstop := exponent_stop e hr
  cases d with
  | none =>
    rw [fractionText, List.nil_append]
    generalize exponentText e ++ r = x at hstop
    cases x with
    | nil => rfl
    | cons c x => simp_all [fractionAt]
  | some d =>
    have hdigit : (exponentText e ++ r).head?.any Char.isDigit = false := by
      generalize exponentText e ++ r = x at hstop ⊢
      cases x <;> simp_all
    have hdigits := takeWhile_append_stop d.digits hdigit
    have hhead : (d.text ++ (exponentText e ++ r)).head?.any Char.isDigit = true := by
      obtain ⟨c, rest, h, hc⟩ := digits_head d
      simp [h, hc]
    simp only [fractionText, List.cons_append, fractionAt, hdigits, hhead, and_self, if_pos]

theorem fraction_stop (d : Option Digits) (e : Option ExponentLit) (hr : endsNumber r = true) :
    (fractionText d ++ (exponentText e ++ r)).head?.any Char.isDigit = false := by
  cases d with
  | none =>
    have hstop := exponent_stop e hr
    rw [fractionText, List.nil_append]
    generalize exponentText e ++ r = x at hstop ⊢
    cases x <;> simp_all
  | some d => simp [fractionText]

theorem signAt_append (negative : Bool) (d : Digits) :
    signAt (signText negative ++ (d.text ++ r)) = signText negative := by
  cases negative with
  | true => rfl
  | false =>
    obtain ⟨c, rest, h, hc⟩ := digits_head d
    have hne : c ≠ '-' := by
      rintro rfl
      revert hc
      decide
    simp [signText, signAt, h, hne]

/-- A number is read to its end. -/
theorem numberAt_append (n : NumberLit) (hr : endsNumber r = true) :
    numberAt (n.text ++ r) = some n.text := by
  obtain ⟨negative, whole, leading, fraction, exponent⟩ := n
  have hwhole := takeWhile_append_stop whole.digits (fraction_stop fraction exponent hr)
  have hrest := dropWhile_append_stop whole.digits (fraction_stop fraction exponent hr)
  simp only [NumberLit.text, numberAt, List.append_assoc, signAt_append, List.drop_left, hwhole,
    hrest, fractionAt_append fraction exponent hr, exponentAt_append exponent hr,
    if_neg whole.ne_nil]

end Numbers

/-! ## Where the expression has a match -/

section Matches
variable {names : List Text} {n r s t : Text} {found : (Text × Text) × Nat}

theorem nameAt_eq_some {x : Text} (h : nameAt names s = some x) :
    ∃ n ∈ names, x = '"' :: (n ++ ['"']) ∧ x <+: s := by
  obtain ⟨n, hn, hsome⟩ := List.exists_of_findSome?_eq_some h
  split at hsome
  · rename_i hprefix
    cases hsome
    exact ⟨n, hn, rfl, hprefix⟩
  · cases hsome

theorem colonAt_eq_some {x : Text × Text} (h : colonAt s = some x) :
    s.dropWhile isBlank = ':' :: x.2 := by
  unfold colonAt at h
  split at h
  · cases h
  · split at h
    · cases h
      simp_all
    · cases h

theorem numberAt_eq_some {x : Text} (h : numberAt s = some x) :
    ∃ c ∈ s.head?, c = '-' ∨ c.isDigit = true := by
  unfold numberAt at h
  dsimp only at h
  cases s with
  | nil => simp [signAt] at h
  | cons c s =>
    refine ⟨c, rfl, ?_⟩
    by_cases hc : c = '-'
    · exact .inl hc
    · right
      by_contra hdigit
      simp [signAt, hc, hdigit] at h

/-- A match is a listed name, a colon and the beginning of a number. -/
theorem digitsAt_eq_some (h : digitsAt names s = some found) : ∃ n ∈ names, ∃ t q,
    s = '"' :: (n ++ '"' :: t) ∧ t.dropWhile isBlank = ':' :: q ∧
      ∃ c ∈ (q.dropWhile isBlank).head?, c = '-' ∨ c.isDigit = true := by
  unfold digitsAt at h
  simp only [Option.bind_eq_bind, Option.bind_eq_some_iff] at h
  obtain ⟨name, hname, ⟨colon, q⟩, hcolon, number, hnumber, -⟩ := h
  obtain ⟨n, hn, rfl, t, rfl⟩ := nameAt_eq_some hname
  rw [List.drop_left] at hcolon
  exact ⟨n, hn, t, q, by simp, colonAt_eq_some hcolon, numberAt_eq_some hnumber⟩

theorem digitsAt_none_of_head (h : s.head? ≠ some '"') : digitsAt names s = none := by
  cases hat : digitsAt names s with
  | none => rfl
  | some found =>
    obtain ⟨n, -, t, q, rfl, -⟩ := digitsAt_eq_some hat
    exact absurd rfl h

/-- The words the expression looks for. -/
def AreNames (names : List Text) : Prop := ∀ n ∈ names, n ≠ [] ∧ n.all isWordChar = true

theorem name_ne_backslash (hn : n.all isWordChar = true) : n ++ '"' :: t ≠ '\\' :: r := by
  intro h
  cases n with
  | nil =>
    have hhead : '"' = '\\' := (List.cons.inj h).1
    exact absurd hhead (by decide)
  | cons c n =>
    obtain rfl : c = '\\' := (List.cons.inj h).1
    have hword : isWordChar '\\' = true := List.all_eq_true.mp hn _ List.mem_cons_self
    exact absurd hword (by decide)

theorem name_in_pieces {pieces : List Piece} (hn : n.all isWordChar = true)
    (h : n ++ '"' :: t = piecesText pieces ++ '"' :: r) : n = piecesText pieces ∧ t = r := by
  induction pieces generalizing n with
  | nil =>
    cases n with
    | nil => exact ⟨rfl, (List.cons.inj h).2⟩
    | cons c n =>
      obtain rfl : c = '"' := (List.cons.inj h).1
      have hword : isWordChar '"' = true := List.all_eq_true.mp hn _ List.mem_cons_self
      exact absurd hword (by decide)
  | cons piece pieces ih =>
    rw [piecesText, List.flatMap_cons, List.append_assoc] at h
    cases piece with
    | plain c hc =>
      cases n with
      | nil =>
        obtain rfl : '"' = c := (List.cons.inj h).1
        exact absurd hc (by decide)
      | cons d n =>
        obtain rfl : d = c := (List.cons.inj h).1
        have hrest : n.all isWordChar = true := by
          rw [List.all_cons, Bool.and_eq_true] at hn
          exact hn.2
        obtain ⟨rfl, ht⟩ := ih hrest (List.cons.inj h).2
        exact ⟨rfl, ht⟩
    | escape c hc => exact absurd h (name_ne_backslash hn)
    | unit a b c d hhex => exact absurd h (name_ne_backslash hn)

/-- There is no match at a quote in a string that is no name, whatever stands in it. -/
theorem digitsAt_none_of_string (hnames : AreNames names) (pieces : List Piece)
    (hr : (r.dropWhile isBlank).head? ≠ some ':') :
    digitsAt names ('"' :: (piecesText pieces ++ '"' :: r)) = none := by
  cases hat : digitsAt names ('"' :: (piecesText pieces ++ '"' :: r)) with
  | none => rfl
  | some found =>
    obtain ⟨n, hn, t, q, hs, hcolon, -⟩ := digitsAt_eq_some hat
    obtain ⟨-, rfl⟩ := name_in_pieces (hnames n hn).2 (List.cons.inj hs).2.symm
    rw [hcolon] at hr
    exact absurd rfl hr

/-- There is none at the end of a string. -/
theorem digitsAt_none_of_close (hnames : AreNames names) (hr : r.head?.any isWordChar = false) :
    digitsAt names ('"' :: r) = none := by
  cases hat : digitsAt names ('"' :: r) with
  | none => rfl
  | some found =>
    obtain ⟨n, hn, t, q, hs, -⟩ := digitsAt_eq_some hat
    obtain ⟨hne, hword⟩ := hnames n hn
    cases n with
    | nil => exact absurd rfl hne
    | cons c n =>
      rw [(List.cons.inj hs).2] at hr
      simp_all

end Matches

end KeepingDigits

end Pwos
