import Pwos.Lib.CodeUnits
import Pwos.Lib.Matching
import Pwos.Search.SearchText

/-!
# Numbers as they are typed

`lib/numericInput.ts`: what a field reads from a typed text, what it shows of the value, and where
the caret goes. A text is the list of its characters; the caret stands between UTF-16 units, so
the two caret helpers read a list of units.
-/

namespace Pwos
namespace NumericInput

structure NumericOptions where
  decimal : Bool
  maxDecimals : Option Nat

/-! ## The value of a text -/

/-- The spellings of a decimal mark become a point. -/
def decimalMark (c : Char) : Char := if c = '٫' || c = '/' then '.' else c

def carriesValue (c : Char) : Bool := c.isDigit || c = '.'

/-- The characters that are read. -/
def kept (options : NumericOptions) (s : Text) : Text :=
  if options.decimal then (s.map decimalMark).filter carriesValue else s.filter Char.isDigit

def capped (options : NumericOptions) (frac : Text) : Text :=
  match options.maxDecimals with
  | some cap => frac.take cap
  | none => frac

/-- Only the first point counts, and something stands before it. -/
def onePoint (options : NumericOptions) (s : Text) : Text :=
  if s.contains '.' then
    let frac := capped options ((s.dropWhile (· ≠ '.')).tail.filter (· ≠ '.'))
    let s := s.takeWhile (· ≠ '.') ++ '.' :: frac
    if s.head? = some '.' then '0' :: s else s
  else s

/-- `/^0+(?=\d)/` removed. -/
def dropZeros : Text → Text
  | c :: d :: s => if c = '0' ∧ d.isDigit then dropZeros (d :: s) else c :: d :: s
  | s => s

def normalizeNumericInput (options : NumericOptions) (input : Option Text) : Text :=
  match input with
  | none => []
  | some input =>
    let s := kept options (input.map latinDigit)
    dropZeros (if options.decimal then onePoint options s else s)

/-! ## What a field shows -/

inductive DigitScript where
  | fa
  | en
  deriving DecidableEq

/-- `FA_DIGITS[Number(d)]`. -/
def faDigit (d : Char) : Char := if d.isDigit then Char.ofNat (0x6f0 + (d.toNat - 0x30)) else d

def separator : DigitScript → Char
  | .fa => '٬'
  | .en => ','

/-- `(\d{3})+(?!\d)`. -/
def threesAhead (s : Text) : Bool :=
  let run := (s.takeWhile Char.isDigit).length
  0 < run && run % 3 = 0

/-- A separator at each `\B` before full groups of three digits. -/
def groupThousands (sep : Char) (before : Option Char) : Text → Text
  | [] => []
  | c :: s =>
    if before.any isWordChar == isWordChar c && threesAhead (c :: s) then
      sep :: c :: groupThousands sep (some c) s
    else c :: groupThousands sep (some c) s

def formatNumericInput (raw : Text) (digits : DigitScript) (grouping : Bool) : Text :=
  if raw = [] then []
  else
    let parts := raw.splitOn '.'
    let int := if parts.headD [] = [] then ['0'] else parts.headD []
    let frac := parts.tail.headD []
    let grouped := if grouping then groupThousands (separator digits) none int else int
    let out := if raw.contains '.' then grouped ++ '.' :: frac else grouped
    if digits = .fa then out.map faDigit else out

/-! ## The caret -/

/-- `/[0-9۰-۹٠-٩.٫/]/`. -/
def isSignificant (unit : Nat) : Bool :=
  (0x30 ≤ unit && unit ≤ 0x39) || (0x6f0 ≤ unit && unit ≤ 0x6f9) ||
    (0x660 ≤ unit && unit ≤ 0x669) || unit = 0x2e || unit = 0x66b || unit = 0x2f

def significantBefore (text : List Nat) (caret : Int) : Nat :=
  (text.take caret.toNat).countP isSignificant

/-- The loop from place `i` on, with `seen` of the `count` characters behind it. -/
def caretLoop (count seen i : Nat) : List Nat → Nat
  | [] => i
  | unit :: text =>
    if isSignificant unit then
      if seen + 1 = count then i + 1 else caretLoop count (seen + 1) (i + 1) text
    else caretLoop count seen (i + 1) text

def caretAfterSignificant (formatted : List Nat) (count : Int) : Nat :=
  if count ≤ 0 then 0 else caretLoop count.toNat 0 0 formatted

/-! ## Canonical texts -/

/-- Digits, and no zero before another one. -/
def WholeText (w : Text) : Prop :=
  w ≠ [] ∧ w.all Char.isDigit = true ∧ (w.length = 1 ∨ w.head? ≠ some '0')

instance (w : Text) : Decidable (WholeText w) := inferInstanceAs (Decidable (_ ∧ _))

/-- The values of a field with these options. -/
inductive Canonical (options : NumericOptions) : Text → Prop
  | empty : Canonical options []
  | whole (w : Text) : WholeText w → Canonical options w
  | decimal (w frac : Text) : options.decimal = true → WholeText w →
      frac.all Char.isDigit = true → (∀ cap, options.maxDecimals = some cap → frac.length ≤ cap) →
      Canonical options (w ++ '.' :: frac)

section Values
variable {options : NumericOptions} {s r w c : Text} {digits : DigitScript} {grouping : Bool}

/-- A whole number before something that does not go on with a digit. -/
theorem dropZeros_append (hne : s ≠ []) (hs : s.all Char.isDigit = true)
    (hr : r.head?.any Char.isDigit = false) :
    ∃ w, WholeText w ∧ dropZeros (s ++ r) = w ++ r := by
  induction s with
  | nil => exact absurd rfl hne
  | cons c s ih =>
    simp only [List.all_cons, Bool.and_eq_true] at hs
    cases s with
    | nil =>
      refine ⟨[c], ⟨by simp, by simp [hs.1], .inl rfl⟩, ?_⟩
      cases r with
      | nil => rfl
      | cons d r =>
        have hd : d.isDigit = false := hr
        simp [dropZeros, hd]
    | cons d s =>
      by_cases hzero : c = '0'
      · obtain ⟨w, hw, heq⟩ := ih (by simp) hs.2
        have hd : d.isDigit = true := by grind
        refine ⟨w, hw, ?_⟩
        simpa [dropZeros, hzero, hd] using heq
      · exact ⟨c :: d :: s, ⟨by simp, by simp_all, .inr (by simp [hzero])⟩,
          by simp [dropZeros, hzero]⟩

theorem dropZeros_whole (hw : WholeText w) (hr : r.head?.any Char.isDigit = false) :
    dropZeros (w ++ r) = w ++ r := by
  obtain ⟨hne, -, hzero⟩ := hw
  cases w with
  | nil => exact absurd rfl hne
  | cons c w =>
    cases w with
    | nil =>
      cases r with
      | nil => rfl
      | cons d r =>
        have hd : d.isDigit = false := hr
        simp [dropZeros, hd]
    | cons d w =>
      have hc : c ≠ '0' := by grind
      simp [dropZeros, hc]

/-- What a value consists of is read as it stands. -/
theorem carriesValue_plain {d : Char} (h : carriesValue d = true) :
    latinDigit d = d ∧ decimalMark d = d := by
  have hlatin (hd : ¬ EasternDigit d) : latinDigit d = d := latinDigit_of_not hd
  simp only [carriesValue, Bool.or_eq_true, decide_eq_true_eq, Char.isDigit, Bool.and_eq_true,
    UInt32.le_iff_toNat_le] at h
  rcases h with ⟨hlow, hhigh⟩ | rfl
  · have hhigh : d.toNat ≤ 57 := hhigh
    refine ⟨hlatin (by unfold EasternDigit; omega), ?_⟩
    have hmark : d ≠ '٫' := fun heq => by simp [heq] at hhigh
    have hslash : d ≠ '/' := fun heq => by
      subst heq
      exact absurd hlow (by decide)
    simp [decimalMark, hmark, hslash]
  · decide

theorem latinDigit_faDigit (d : Char) : latinDigit (faDigit d) = latinDigit d := by
  unfold faDigit
  split
  · rename_i h
    simp only [Char.isDigit, Bool.and_eq_true, decide_eq_true_eq, UInt32.le_iff_toNat_le] at h
    have hlow : 48 ≤ d.toNat := h.1
    have hhigh : d.toNat ≤ 57 := h.2
    have hall : ∀ n < 10, latinDigit (Char.ofNat (0x6f0 + n)) =
        latinDigit (Char.ofNat (0x30 + n)) := by decide
    have hd : d = Char.ofNat (0x30 + (d.toNat - 0x30)) := by
      rw [Nat.add_sub_cancel' hlow, Char.ofNat_toNat]
    rw [hall _ (by omega), ← hd]
  · rfl

theorem kept_append (options : NumericOptions) (s r : Text) :
    kept options (s ++ r) = kept options s ++ kept options r := by
  unfold kept
  split <;> simp

theorem kept_cons (options : NumericOptions) (d : Char) (s : Text) :
    kept options (d :: s) = kept options [d] ++ kept options s :=
  kept_append options [d] s

/-- No separator of a field is read. -/
theorem kept_separator (options : NumericOptions) (digits : DigitScript) :
    kept options [latinDigit (separator digits)] = [] := by
  unfold kept
  cases digits <;> split <;> decide

theorem kept_groupThousands (options : NumericOptions) (digits : DigitScript)
    (before : Option Char) (s : Text) :
    kept options ((groupThousands (separator digits) before s).map latinDigit) =
      kept options (s.map latinDigit) := by
  induction s generalizing before with
  | nil => rfl
  | cons c s ih =>
    rw [groupThousands, List.map_cons, kept_cons options (latinDigit c)]
    split
    · rw [List.map_cons, List.map_cons, kept_cons, kept_separator, List.nil_append, kept_cons, ih]
    · rw [List.map_cons, kept_cons, ih]

theorem splitOn_point (hw : '.' ∉ w) (hr : '.' ∉ r) : (w ++ '.' :: r).splitOn '.' = [w, r] := by
  have hone {t : Text} (ht : '.' ∉ t) : t.splitOn '.' = [t] := by
    unfold List.splitOn
    exact List.splitOnP_eq_singleton fun c hc => beq_eq_false_iff_ne.mpr (ne_of_mem_of_not_mem hc ht)
  have hsplit : (w ++ '.' :: r).splitOn '.' = w.splitOn '.' ++ r.splitOn '.' := by
    unfold List.splitOn
    exact List.splitOnP_append_cons w r (by simp)
  rw [hsplit, hone hw, hone hr]
  rfl

theorem not_mem_of_digits (hs : s.all Char.isDigit = true) : '.' ∉ s := fun hmem => by
  have hdigit := List.all_eq_true.mp hs _ hmem
  exact absurd hdigit (by decide)

/-- What a field shows of a value, before its digits are in the user's script, is the value with
separators. -/
theorem kept_formatNumericInput (hc : Canonical options c) :
    kept options ((formatNumericInput c digits grouping).map latinDigit) =
      kept options (c.map latinDigit) := by
  have hscript (t : Text) : (if digits = .fa then t.map faDigit else t).map latinDigit =
      t.map latinDigit := by
    split
    · rw [List.map_map]
      exact List.map_congr_left fun d _ => latinDigit_faDigit d
    · rfl
  have hgroup (t : Text) : kept options ((if grouping then
      groupThousands (separator digits) none t else t).map latinDigit) =
        kept options (t.map latinDigit) := by
    split
    · exact kept_groupThousands options digits none t
    · rfl
  cases hc with
  | empty => rfl
  | whole _ hw =>
    obtain ⟨hne, hdigits, -⟩ := hw
    have hpoint := not_mem_of_digits hdigits
    have hparts : c.splitOn '.' = [c] := by
      unfold List.splitOn
      exact List.splitOnP_eq_singleton fun d hd =>
        beq_eq_false_iff_ne.mpr (ne_of_mem_of_not_mem hd hpoint)
    simp only [formatNumericInput, hne, hparts, if_false, List.headD_cons, hscript]
    simp only [List.contains_eq_mem, hpoint, decide_false, Bool.false_eq_true, if_false, hgroup]
  | decimal w frac _ hw hfrac _ =>
    obtain ⟨hne, hdigits, -⟩ := hw
    have hparts := splitOn_point (not_mem_of_digits hdigits) (not_mem_of_digits hfrac)
    have hraw : w ++ '.' :: frac ≠ [] := by simp
    have hpoint : (w ++ '.' :: frac).contains '.' = true := by simp
    simp only [formatNumericInput, hraw, hparts, hpoint, hscript, List.headD_cons, hne, if_false,
      List.tail_cons, if_true]
    rw [List.map_append, List.map_append, kept_append, kept_append, hgroup]

/-- A value is read as it stands. -/
theorem kept_canonical (hc : Canonical options c) : kept options (c.map latinDigit) = c := by
  have hplain {t : Text} (ht : t.all carriesValue = true) :
      t.map latinDigit = t ∧ t.map decimalMark = t := by
    have hall := List.all_eq_true.mp ht
    exact ⟨(List.map_congr_left fun d hd => (carriesValue_plain (hall d hd)).1).trans t.map_id',
      (List.map_congr_left fun d hd => (carriesValue_plain (hall d hd)).2).trans t.map_id'⟩
  have hwhole {t : Text} (ht : t.all Char.isDigit = true) : t.all carriesValue = true :=
    List.all_eq_true.mpr fun d hd => by simp [carriesValue, List.all_eq_true.mp ht d hd]
  have hvalue : c.all carriesValue = true := by
    cases hc with
    | empty => rfl
    | whole _ hw => exact hwhole hw.2.1
    | decimal w frac _ hw hfrac _ =>
      simp [hwhole hw.2.1, hwhole hfrac, carriesValue]
  obtain ⟨hlatin, hmark⟩ := hplain hvalue
  unfold kept
  split
  · rw [hlatin, hmark]
    exact List.filter_eq_self.mpr (List.all_eq_true.mp hvalue)
  · rename_i hinteger
    rw [hlatin]
    cases hc with
    | empty => rfl
    | whole _ hw => exact List.filter_eq_self.mpr (List.all_eq_true.mp hw.2.1)
    | decimal w frac hdecimal => exact absurd hdecimal hinteger

/-! ## Reading is a projection onto the values -/

/-- What a text with these characters is read as. -/
def valueOf (options : NumericOptions) (s : Text) : Text :=
  dropZeros (if options.decimal then onePoint options s else s)

theorem normalizeNumericInput_some (options : NumericOptions) (s : Text) :
    normalizeNumericInput options (some s) = valueOf options (kept options (s.map latinDigit)) :=
  rfl

theorem valueOf_canonical (hc : Canonical options c) : valueOf options c = c := by
  have hshort {w : Text} (hw : WholeText w) : dropZeros w = w := by
    have h := dropZeros_whole (r := []) hw rfl
    rwa [List.append_nil] at h
  unfold valueOf
  cases hc with
  | empty => split <;> rfl
  | whole _ hw =>
    have hpoint : c.contains '.' = false := by
      simpa using not_mem_of_digits hw.2.1
    have hone : onePoint options c = c := by simp only [onePoint, hpoint, Bool.false_eq_true,
      if_false]
    rw [hone, ite_self, hshort hw]
  | decimal w frac hdecimal hw hfrac hcap =>
    have hwdot := not_mem_of_digits hw.2.1
    have hfdot := not_mem_of_digits hfrac
    have hone : onePoint options (w ++ '.' :: frac) = w ++ '.' :: frac := by
      have hpoint : (w ++ '.' :: frac).contains '.' = true := by simp
      have hbefore : ∀ d ∈ w, decide (d ≠ '.') = true := fun d hd =>
        decide_eq_true (ne_of_mem_of_not_mem hd hwdot)
      have hkept : frac.filter (· ≠ '.') = frac := List.filter_eq_self.mpr fun d hd =>
        decide_eq_true (ne_of_mem_of_not_mem hd hfdot)
      have hcapped : capped options frac = frac := by
        unfold capped
        split
        · rename_i cap heq
          exact List.take_of_length_le (hcap cap heq)
        · rfl
      have hhead : (w ++ '.' :: frac).head? ≠ some '.' := by
        obtain ⟨d, w', rfl⟩ := List.exists_cons_of_ne_nil hw.1
        have hd : d ≠ '.' := fun heq => hwdot (heq ▸ List.mem_cons_self)
        simpa using hd
      have htail : ((w ++ '.' :: frac).dropWhile (· ≠ '.')) = '.' :: frac := by
        rw [List.dropWhile_append_of_pos hbefore]
        rfl
      have htake : ((w ++ '.' :: frac).takeWhile (· ≠ '.')) = w := by
        rw [List.takeWhile_append_of_pos hbefore]
        simp
      simp only [onePoint, hpoint, htail, htake, List.tail_cons, hkept, hcapped, hhead, if_true,
        if_false]
    rw [if_pos hdecimal, hone, dropZeros_whole hw rfl]

/-- A text with a point is read as digits, a point and digits. -/
theorem onePoint_point (options : NumericOptions) (hs : s.all carriesValue = true) (hpoint : '.' ∈ s) :
    ∃ w frac, w ≠ [] ∧ w.all Char.isDigit = true ∧ frac.all Char.isDigit = true ∧
      (∀ cap, options.maxDecimals = some cap → frac.length ≤ cap) ∧
      onePoint options s = w ++ '.' :: frac := by
  have hdigit {t : Text} (hsub : t ⊆ s) (ht : '.' ∉ t) : t.all Char.isDigit = true :=
    List.all_eq_true.mpr fun d hd => by
      have hvalue := List.all_eq_true.mp hs _ (hsub hd)
      have hne : d ≠ '.' := ne_of_mem_of_not_mem hd ht
      simpa [carriesValue, hne] using hvalue
  have hbehind : ((s.dropWhile (· ≠ '.')).tail.filter (· ≠ '.')).all Char.isDigit = true := by
    refine hdigit (fun d hd => ?_) (by simp)
    exact List.dropWhile_subset _ (List.mem_of_mem_tail (List.mem_filter.mp hd).1)
  have hbefore : (s.takeWhile (· ≠ '.')).all Char.isDigit = true :=
    hdigit (List.takeWhile_subset _) fun hmem => by simpa using List.mem_takeWhile_imp hmem
  generalize hfrac : (s.dropWhile (· ≠ '.')).tail.filter (· ≠ '.') = frac at hbehind
  generalize hw : s.takeWhile (· ≠ '.') = w at hbefore
  have hcapped : (capped options frac).all Char.isDigit = true ∧
      ∀ cap, options.maxDecimals = some cap → (capped options frac).length ≤ cap := by
    unfold capped
    cases options.maxDecimals with
    | none => exact ⟨hbehind, fun cap hcap => by cases hcap⟩
    | some bound =>
      refine ⟨List.all_eq_true.mpr fun d hd => List.all_eq_true.mp hbehind d
        (List.mem_of_mem_take hd), ?_⟩
      rintro cap ⟨⟩
      exact List.length_take_le ..
  have hcontains : s.contains '.' = true := by simpa using hpoint
  by_cases hnil : w = []
  · refine ⟨['0'], capped options frac, by simp, by decide, hcapped.1, hcapped.2, ?_⟩
    simp only [onePoint, hcontains, hfrac, hw, hnil, if_true, List.nil_append, List.head?_cons,
      List.singleton_append]
  · refine ⟨w, capped options frac, hnil, hbefore, hcapped.1, hcapped.2, ?_⟩
    have hhead : (w ++ '.' :: capped options frac).head? ≠ some '.' := by
      obtain ⟨d, w', rfl⟩ := List.exists_cons_of_ne_nil hnil
      have hd : d ≠ '.' := fun heq => not_mem_of_digits hbefore (heq ▸ List.mem_cons_self)
      simpa using hd
    simp only [onePoint, hcontains, hfrac, hw, hhead, if_true, if_false]

/-- Whatever is typed, what is read is a value. -/
theorem canonical_valueOf (options : NumericOptions) (s : Text) :
    Canonical options (valueOf options (kept options s)) := by
  have hdigits {t : Text} (ht : t.all Char.isDigit = true) : Canonical options (dropZeros t) := by
    by_cases hnil : t = []
    · subst hnil
      exact .empty
    · obtain ⟨w, hw, heq⟩ := dropZeros_append (r := []) hnil ht rfl
      rw [List.append_nil, List.append_nil] at heq
      exact heq ▸ .whole w hw
  unfold valueOf kept
  split
  · rename_i hdecimal
    generalize ht : (s.map decimalMark).filter carriesValue = t
    have hvalue : t.all carriesValue = true :=
      List.all_eq_true.mpr fun d hd => (List.mem_filter.mp (ht ▸ hd)).2
    by_cases hpoint : '.' ∈ t
    · obtain ⟨w, frac, hne, hw, hfrac, hcap, heq⟩ := onePoint_point options hvalue hpoint
      obtain ⟨w', hwhole, hdrop⟩ := dropZeros_append (r := '.' :: frac) hne hw rfl
      rw [heq, hdrop]
      exact .decimal w' frac hdecimal hwhole hfrac hcap
    · have hone : onePoint options t = t := by simp [onePoint, hpoint]
      rw [hone]
      refine hdigits (List.all_eq_true.mpr fun d hd => ?_)
      have hcarries := List.all_eq_true.mp hvalue d hd
      have hne : d ≠ '.' := ne_of_mem_of_not_mem hd hpoint
      simpa [carriesValue, hne] using hcarries
  · exact hdigits (List.all_eq_true.mpr fun d hd => (List.mem_filter.mp hd).2)

theorem canonical_normalizeNumericInput (options : NumericOptions) (input : Option Text) :
    Canonical options (normalizeNumericInput options input) := by
  cases input with
  | none => exact .empty
  | some s => exact canonical_valueOf options (s.map latinDigit)

theorem normalizeNumericInput_canonical (hc : Canonical options c) :
    normalizeNumericInput options (some c) = c := by
  rw [normalizeNumericInput_some, kept_canonical hc, valueOf_canonical hc]

theorem normalizeNumericInput_format (hc : Canonical options c) :
    normalizeNumericInput options (some (formatNumericInput c digits grouping)) = c := by
  rw [normalizeNumericInput_some, kept_formatNumericInput hc, kept_canonical hc,
    valueOf_canonical hc]

end Values

/-! ## The place of the caret -/

/-- The loop stops behind the last character that was to be passed, or at the end. -/
theorem countP_take_caretLoop (count seen i : Nat) (text : List Nat) (h : seen < count) :
    ∃ n, caretLoop count seen i text = i + n ∧
      (text.take n).countP isSignificant = min (count - seen) (text.countP isSignificant) ∧
      ∀ m, count - seen ≤ (text.take m).countP isSignificant → n ≤ m := by
  induction text generalizing seen i with
  | nil => exact ⟨0, rfl, by simp, fun m hm => by simp at hm; omega⟩
  | cons unit text ih =>
    by_cases hunit : isSignificant unit = true
    · by_cases hlast : seen + 1 = count
      · refine ⟨1, by simp [caretLoop, hunit, hlast], by simp [hunit]; omega, fun m hm => ?_⟩
        cases m with
        | zero => simp at hm; omega
        | succ m => omega
      · obtain ⟨n, hn, hcount, hleast⟩ := ih (seen + 1) (i + 1) (by omega)
        refine ⟨n + 1, by simp [caretLoop, hunit, hlast, hn]; omega, ?_, fun m hm => ?_⟩
        · simp only [List.take_succ_cons, List.countP_cons_of_pos hunit, hcount]
          omega
        · cases m with
          | zero => simp at hm; omega
          | succ m =>
            simp only [List.take_succ_cons, List.countP_cons_of_pos hunit] at hm
            have := hleast m (by omega)
            omega
    · obtain ⟨n, hn, hcount, hleast⟩ := ih seen (i + 1) h
      refine ⟨n + 1, by simp [caretLoop, hunit, hn]; omega, ?_, fun m hm => ?_⟩
      · simp only [List.take_succ_cons, List.countP_cons_of_neg hunit, hcount]
      · cases m with
        | zero => simp at hm; omega
        | succ m =>
          simp only [List.take_succ_cons, List.countP_cons_of_neg hunit] at hm
          exact Nat.succ_le_succ (hleast m hm)

/-- The caret has as many significant characters before it as it was to have, or all of them, and
stands at the first such place. -/
theorem significantBefore_caret (text : List Nat) (n : Nat) :
    significantBefore text (caretAfterSignificant text n) = min n (text.countP isSignificant) ∧
      ∀ m : Nat, n ≤ significantBefore text m → caretAfterSignificant text n ≤ m := by
  unfold significantBefore caretAfterSignificant
  by_cases hzero : n = 0
  · simp [hzero]
  · obtain ⟨k, hk, hcount, hleast⟩ := countP_take_caretLoop n 0 0 text (Nat.pos_of_ne_zero hzero)
    have hpos : ¬ (n : Int) ≤ 0 := by omega
    simp only [if_neg hpos, Int.toNat_natCast, hk, Nat.zero_add]
    exact ⟨hcount, hleast⟩

/-- Reading is idempotent, what a field shows of a value is read as that value, and the caret is
placed after as many significant characters as stood before it, no place further. -/
theorem numericInput_laws (options : NumericOptions) (digits : DigitScript) (grouping : Bool) :
    (∀ input, normalizeNumericInput options (some (normalizeNumericInput options input)) =
      normalizeNumericInput options input) ∧
    (∀ c, Canonical options c →
      normalizeNumericInput options (some (formatNumericInput c digits grouping)) = c) ∧
    (∀ (text : List Nat) (n : Nat),
      significantBefore text (caretAfterSignificant text n) =
        min n (text.countP isSignificant) ∧
      ∀ m : Nat, n ≤ significantBefore text m → caretAfterSignificant text n ≤ m) :=
  ⟨fun input => normalizeNumericInput_canonical (canonical_normalizeNumericInput options input),
    fun _ hc => normalizeNumericInput_format hc, significantBefore_caret⟩

theorem numericInput_laws_millions :
    normalizeNumericInput ⟨true, some 2⟩
        (some (formatNumericInput "1234567.05".toList .fa true)) = "1234567.05".toList ∧
      formatNumericInput "1234567.05".toList .fa true = "۱٬۲۳۴٬۵۶۷.۰۵".toList ∧
      significantBefore ("۱٬۲۳۴".toList.flatMap charUnits)
        (caretAfterSignificant ("۱٬۲۳۴".toList.flatMap charUnits) 2) = 2 :=
  have laws := numericInput_laws ⟨true, some 2⟩ .fa true
  ⟨laws.2.1 _ (.decimal "1234567".toList "05".toList rfl (by decide) (by decide)
      (by rintro cap ⟨⟩; decide)), by decide, (laws.2.2 _ 2).1⟩

end NumericInput
end Pwos
