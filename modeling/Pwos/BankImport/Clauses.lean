import Pwos.BankImport.Message
import Mathlib.Data.Option.Basic

/-!
# Clauses behind a message

What a bank says of a balance or of a card after the transaction is no candidate for the amount,
and the candidates before it stay as they are. Its unit may only make the unit of the message
unclear, so the amount stays or is lost. `قابل برداشت` is read as a withdrawal nevertheless.
-/

namespace Pwos

namespace BankMessage

/-! ## Balance and card clauses -/

/-- Blanks, digits and punctuation. -/
def isMark (c : Char) : Bool :=
  isBlank c || c.isDigit || ":：-,٬.٫،؛/*()+".toList.contains c

/-- What stands between two words. -/
structure Marks where
  text : Text
  marks : text.all isMark = true
  ne_nil : text ≠ []

/-- A number with the marks around it. -/
structure Figure extends Marks where
  digit : text.any Char.isDigit = true

inductive BalanceWord where
  | mandeh | mojudi

def BalanceWord.text : BalanceWord → Text
  | .mandeh => "مانده".toList
  | .mojudi => "موجودی".toList

inductive Qualifier where
  | available | account | current | new
  deriving DecidableEq

def Qualifier.text : Qualifier → Text
  | .available => "قابل برداشت".toList
  | .account => "حساب".toList
  | .current => "فعلی".toList
  | .new => "جدید".toList

def MoneyUnit.text : MoneyUnit → Text
  | .rial => "ریال".toList
  | .toman => "تومان".toList

def cardWord : Text := "کارت".toList

inductive Clause where
  | balance (word : BalanceWord) (qualifier : Option (Marks × Qualifier)) (number : Figure)
      (unit : Option MoneyUnit)
  | card (number : Figure)

def qualifierText : Option (Marks × Qualifier) → Text
  | none => []
  | some (gap, q) => gap.text ++ q.text

def unitText : Option MoneyUnit → Text
  | none => []
  | some unit => unit.text

def Clause.text : Clause → Text
  | .balance word qualifier number unit =>
    word.text ++ (qualifierText qualifier ++ (number.text ++ unitText unit))
  | .card number => cardWord ++ number.text

/-- The words of the clause, in order. -/
def Clause.words : Clause → List Text
  | .balance word qualifier _ unit =>
    word.text :: ((qualifier.map (·.2.text)).toList ++ (unit.map MoneyUnit.text).toList)
  | .card _ => [cardWord]

def Clause.saysAvailable : Clause → Bool
  | .balance _ (some (_, .available)) _ _ => true
  | _ => false

/-- Clauses with marks between them, and perhaps some at the end. -/
structure Clauses where
  first : Clause
  rest : List (Marks × Clause)
  closing : Text
  marks : closing.all isMark = true

def Clauses.text (b : Clauses) : Text :=
  b.first.text ++ (b.rest.flatMap fun next => next.1.text ++ next.2.text) ++ b.closing

def Clauses.all (b : Clauses) : List Clause := b.first :: b.rest.map (·.2)

/-! ## The words of a clause -/

/-- The text ends, or goes on with a mark. -/
def Stops (r : Text) : Prop := ∀ c ∈ r.head?, isMark c = true

def clauseWords : List Text :=
  [BalanceWord.mandeh.text, BalanceWord.mojudi.text, Qualifier.available.text,
    Qualifier.account.text, Qualifier.current.text, Qualifier.new.text, MoneyUnit.rial.text,
    MoneyUnit.toman.text, cardWord]

structure IsWord (w : Text) : Prop where
  ne_nil : w ≠ []
  letters : w.all (!isMark ·) = true

section Words
variable {l w r s g before : Text}

theorem IsWord.not_mem {c : Char} (h : IsWord l) (hc : isMark c = true) : c ∉ l := by
  intro hmem
  simpa [hc] using List.all_eq_true.mp h.letters c hmem

theorem prefix_append_stops (hl : IsWord l) (hr : Stops r) :
    l <+: s ++ r ↔ l <+: s := by
  cases r with
  | nil => rw [List.append_nil]
  | cons c r => exact prefix_append_cons_iff (hl.not_mem (hr c rfl))

/-- A word does not begin with a mark. -/
theorem not_prefix_cons {c : Char} (hl : IsWord l) (hc : isMark c = true) :
    ¬l <+: c :: s := by
  intro h
  cases l with
  | nil => exact hl.ne_nil rfl
  | cons d l => exact hl.not_mem hc ((List.cons_prefix_cons.mp h).1 ▸ List.mem_cons_self)

theorem infix_append_stops (hl : IsWord l) (hr : Stops r) :
    l <:+: s ++ r ↔ l <:+: s ∨ l <:+: r := by
  cases r with
  | nil => simp [hl.ne_nil]
  | cons c r =>
    have hc := hr c rfl
    rw [infix_append_cons_iff (hl.not_mem hc), List.infix_cons_iff (a := c)]
    simp [not_prefix_cons hl hc]

theorem infix_marks_append (hl : IsWord l) (hg : g.all isMark = true) :
    l <:+: g ++ r ↔ l <:+: r := by
  induction g with
  | nil => rfl
  | cons c g ih =>
    simp only [List.all_cons, Bool.and_eq_true] at hg
    rw [List.cons_append, List.infix_cons_iff, ih hg.2]
    simp [not_prefix_cons hl hg.1]

theorem stops_marks_append (hg : g.all isMark = true) (hne : g ≠ []) : Stops (g ++ r) := by
  cases g with
  | nil => exact absurd rfl hne
  | cons c g =>
    simp only [List.all_cons, Bool.and_eq_true] at hg
    rintro d hd
    cases hd
    exact hg.1

end Words

/-! ## No candidate in a clause -/

section Silent
variable {l w r s g before : Text} {c : Clause} {b : Clauses}

/-- The labels in the words of a clause: only `برداشت` behind `قابل `. -/
theorem label_in_clauseWord : (clauseWords.all fun w => (List.range w.length).all fun i =>
    amountLabels.all fun l => !decide (l <+: w.drop i) ||
      (decide (l = withdrawalWord) && afterAvailable (w.take i).reverse)) = true := by
  decide

theorem isWord_of_label (h : l ∈ amountLabels) : IsWord l := by
  have hall : (amountLabels.all fun l => !l.isEmpty && l.all (!isMark ·)) = true := by
    decide
  have hl := List.all_eq_true.mp hall l h
  simp only [Bool.and_eq_true] at hl
  exact ⟨by simpa using hl.1, hl.2⟩

theorem afterAvailable_append (h : afterAvailable s = true) (t : Text) :
    afterAvailable (s ++ t) = true := by
  cases s with
  | nil => cases h
  | cons c s =>
    simp only [afterAvailable, List.cons_append, Bool.and_eq_true, decide_eq_true_eq] at h ⊢
    exact ⟨h.1, h.2.trans (List.prefix_append s t)⟩

/-- No label, no match. -/
theorem amountPattern_none (h : ∀ l ∈ amountLabels, l <+: s →
    l = withdrawalWord ∧ afterAvailable before = true) : amountPattern before s = none := by
  have hlabel : labelAt before s = none := by
    rw [labelAt, List.findSome?_eq_none_iff]
    intro l hl
    have := h l hl
    grind [stripWord]
  simp [amountPattern, amountAt, hlabel]

theorem quietIn_word (hw : w ∈ clauseWords) (hr : Stops r) : QuietIn amountPattern before w r := by
  intro u v huv hv
  apply amountPattern_none
  intro l hl hprefix
  rw [prefix_append_stops (isWord_of_label hl) hr] at hprefix
  have hwords := List.all_eq_true.mp label_in_clauseWord w hw
  have hi : u.length ∈ List.range w.length := by
    rw [List.mem_range, huv, List.length_append]
    have := List.length_pos_iff.mpr hv
    omega
  have hat := List.all_eq_true.mp (List.all_eq_true.mp hwords _ hi) l hl
  rw [huv, List.drop_left, List.take_left] at hat
  have hkeep := afterAvailable_append (s := u.reverse) (t := before)
  grind

theorem quietIn_marks (hg : g.all isMark = true) : QuietIn amountPattern before g r := by
  intro u v huv hv
  apply amountPattern_none
  intro l hl hprefix
  cases v with
  | nil => exact absurd rfl hv
  | cons c v =>
    have hc : isMark c = true := List.all_eq_true.mp hg c (by rw [huv]; simp)
    exact absurd hprefix (not_prefix_cons (isWord_of_label hl) hc)

end Silent

/-- Words of clauses with marks between them. -/
inductive Spoken : List Text → Text → Prop where
  | nil : Spoken [] []
  | word {w r : Text} {ws : List Text} (hw : w ∈ clauseWords) (hr : Stops r) (h : Spoken ws r) :
      Spoken (w :: ws) (w ++ r)
  | marks {g r : Text} {ws : List Text} (hg : g.all isMark = true) (h : Spoken ws r) :
      Spoken ws (g ++ r)

section Spoken
variable {l r s : Text} {ws : List Text} {b : Clauses}

theorem Spoken.silent (h : Spoken ws s) (before : Text) :
    matchAll amountPattern before 0 s = [] := by
  induction h generalizing before with
  | nil => rfl
  | word hw hr _ ih => rw [matchAll_quiet (quietIn_word hw hr), ih]
  | marks hg _ ih => rw [matchAll_quiet (quietIn_marks hg), ih]

theorem Spoken.infix_iff (h : Spoken ws s) (hl : IsWord l) : l <:+: s ↔ ∃ w ∈ ws, l <:+: w := by
  induction h with
  | nil => simp [hl.ne_nil]
  | word hw hr _ ih => simp [infix_append_stops hl hr, ih]
  | marks hg _ ih => rw [infix_marks_append hl hg, ih]

theorem Spoken.clause (c : Clause) (hr : Stops r) (h : Spoken ws r) :
    Spoken (c.words ++ ws) (c.text ++ r) := by
  cases c with
  | card number =>
    have hcard : cardWord ∈ clauseWords := by simp [clauseWords]
    simpa [Clause.words, Clause.text] using Spoken.word hcard
      (stops_marks_append number.marks number.ne_nil) (.marks number.marks h)
  | balance word qualifier number unit =>
    have hunit : Spoken ((unit.map MoneyUnit.text).toList ++ ws) (unitText unit ++ r) := by
      cases unit with
      | none => exact h
      | some unit => exact .word (by cases unit <;> simp [clauseWords]) hr h
    have hstops := stops_marks_append (r := unitText unit ++ r) number.marks number.ne_nil
    have hnumber := Spoken.marks number.marks hunit
    have hword : word.text ∈ clauseWords := by cases word <;> simp [clauseWords]
    cases qualifier with
    | none => simpa [Clause.words, Clause.text, qualifierText] using .word hword hstops hnumber
    | some found =>
      obtain ⟨gap, q⟩ := found
      have hq : q.text ∈ clauseWords := by cases q <;> simp [clauseWords]
      have hgap := Spoken.marks gap.marks (.word hq hstops hnumber)
      simpa [Clause.words, Clause.text, qualifierText] using
        Spoken.word hword (stops_marks_append gap.marks gap.ne_nil) hgap

theorem Clauses.spoken (b : Clauses) : Spoken (b.all.flatMap Clause.words) b.text := by
  have hrest (rest : List (Marks × Clause)) :
      Stops ((rest.flatMap fun next => next.1.text ++ next.2.text) ++ b.closing) ∧
      Spoken ((rest.map (·.2)).flatMap Clause.words)
        ((rest.flatMap fun next => next.1.text ++ next.2.text) ++ b.closing) := by
    induction rest with
    | nil =>
      have hclosing := Spoken.marks b.marks .nil
      rw [List.append_nil] at hclosing
      refine ⟨?_, hclosing⟩
      intro c hc
      exact List.all_eq_true.mp b.marks c (List.mem_of_mem_head? hc)
    | cons next rest ih =>
      simp only [List.map_cons, List.flatMap_cons, List.append_assoc]
      exact ⟨stops_marks_append next.1.marks next.1.ne_nil,
        .marks next.1.marks (.clause next.2 ih.1 ih.2)⟩
  rw [Clauses.text, List.append_assoc]
  exact .clause b.first (hrest b.rest).1 (hrest b.rest).2

/-- One of the words stands in one of the clauses. -/
theorem Clauses.infix_iff (b : Clauses) (hl : IsWord l) :
    l <:+: b.text ↔ ∃ c ∈ b.all, ∃ w ∈ c.words, l <:+: w := by
  rw [b.spoken.infix_iff hl]
  simp only [List.mem_flatMap]
  grind

theorem Clauses.amountCandidates_eq_nil (b : Clauses) (before : Text) :
    matchAll amountPattern before 0 b.text = [] := b.spoken.silent before

end Spoken

/-! ## The direction -/

theorem names_iff {words : List Text} {text : Text} : names words text = true ↔
    ∃ w ∈ words, w <:+: text := by
  simp [names]

/-- The words of a direction in a text with something behind it. -/
theorem names_append_cons {words : List Text} {s t : Text} {c : Char} (hc : ∀ w ∈ words, c ∉ w) :
    names words (s ++ c :: t) = (names words s || names words t) := by
  rw [Bool.eq_iff_iff, Bool.or_eq_true]
  simp only [names_iff]
  constructor
  · rintro ⟨w, hw, h⟩
    exact ((infix_append_cons_iff (hc w hw)).mp h).imp (fun h => ⟨w, hw, h⟩) fun h => ⟨w, hw, h⟩
  · rintro (⟨w, hw, h⟩ | ⟨w, hw, h⟩)
    · exact ⟨w, hw, (infix_append_cons_iff (hc w hw)).mpr (.inl h)⟩
    · exact ⟨w, hw, (infix_append_cons_iff (hc w hw)).mpr (.inr h)⟩

theorem Clauses.names_text (b : Clauses) {words : List Text} (h : ∀ l ∈ words, IsWord l) :
    names words b.text = b.all.any fun c => c.words.any (names words) := by
  rw [Bool.eq_iff_iff, names_iff]
  simp only [List.any_eq_true, names_iff]
  constructor
  · rintro ⟨l, hl, hinfix⟩
    obtain ⟨c, hc, w, hw, hword⟩ := (b.infix_iff (h l hl)).mp hinfix
    exact ⟨c, hc, w, hw, l, hl, hword⟩
  · rintro ⟨c, hc, w, hw, l, hl, hword⟩
    exact ⟨l, hl, (b.infix_iff (h l hl)).mpr ⟨c, hc, w, hw, hword⟩⟩

theorem isWord_of_direction {l : Text} (h : l ∈ withdrawalWords ++ depositWords) : IsWord l := by
  apply isWord_of_label
  revert l
  simp [withdrawalWords, depositWords, amountLabels]

theorem names_balanceWord (w : BalanceWord) :
    names withdrawalWords w.text = false ∧ names depositWords w.text = false := by
  cases w <;> decide

theorem names_qualifier (q : Qualifier) :
    names withdrawalWords q.text = decide (q = .available) ∧ names depositWords q.text = false := by
  cases q <;> decide

theorem names_unit (unit : MoneyUnit) :
    names withdrawalWords unit.text = false ∧ names depositWords unit.text = false := by
  cases unit <;> decide

theorem names_cardWord :
    names withdrawalWords cardWord = false ∧ names depositWords cardWord = false := by
  decide

theorem Clause.names_words (c : Clause) :
    c.words.any (names withdrawalWords) = c.saysAvailable ∧
      c.words.any (names depositWords) = false := by
  cases c with
  | card number => simp [Clause.words, Clause.saysAvailable, names_cardWord]
  | balance word qualifier number unit =>
    cases qualifier with
    | none => cases unit <;> simp [Clause.words, Clause.saysAvailable, names_balanceWord, names_unit]
    | some found =>
      obtain ⟨gap, q⟩ := found
      cases q <;> cases unit <;>
        simp [Clause.words, Clause.saysAvailable, names_balanceWord, names_qualifier, names_unit]

/-- No clause names a deposit; one that says `قابل برداشت` names a withdrawal. -/
theorem Clauses.names_directions (b : Clauses) :
    names withdrawalWords b.text = b.all.any Clause.saysAvailable ∧
      names depositWords b.text = false := by
  rw [b.names_text fun l hl => isWord_of_direction (List.mem_append_left _ hl),
    b.names_text fun l hl => isWord_of_direction (List.mem_append_right _ hl)]
  simp [Clause.names_words]

end BankMessage

end Pwos
