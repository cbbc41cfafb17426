import Pwos.Lib.JsonReader
import Pwos.Lib.NumberText
import Pwos.Pricing.KeepingDigits

/-!
# The digits of a JSON text

The rewritten text is again a text of the grammar: that of the same tree, with the numbers of the
listed members as strings.
-/

namespace Pwos

namespace KeepingDigits

open JsonSyntax

/-! ## What is rewritten -/

section Rewrite
variable {names : List Text} {w r : Text} {c : Char} {found : Text × Text}

theorem rewriteText_cons (h : digitsAt names (c :: r) = none) :
    rewriteText names (c :: r) = c :: rewriteText names r := by
  unfold rewriteText
  rw [replaceAll_cons_none h, replaceAll_forget]

theorem rewriteText_match (h : digitsAt names (w ++ r) = some (found, w.length)) (hw : w ≠ []) :
    rewriteText names (w ++ r) = quoteDigits found ++ rewriteText names r := by
  unfold rewriteText
  rw [replaceAll_match h hw, replaceAll_forget]

/-- A text without quotes stays. -/
theorem rewriteText_append (hw : '"' ∉ w) :
    rewriteText names (w ++ r) = w ++ rewriteText names r := by
  induction w with
  | nil => rfl
  | cons c w ih =>
    have hc : (c :: (w ++ r)).head? ≠ some '"' := by
      intro h
      cases h
      exact hw List.mem_cons_self
    rw [List.cons_append, rewriteText_cons (digitsAt_none_of_head hc),
      ih fun h => hw (List.mem_cons_of_mem _ h), List.cons_append]

theorem rewriteText_mark (hc : c ≠ '"') :
    rewriteText names (c :: r) = c :: rewriteText names r :=
  rewriteText_append (w := [c]) (by simpa using Ne.symm hc)

/-- What stands behind a string value: no name, and no colon. -/
structure EndsString (r : Text) : Prop where
  head : r.head?.any isWordChar = false
  colon : (r.dropWhile isBlank).head? ≠ some ':'

theorem plain_ne_quote (hc : isPlain c = true) : c ≠ '"' := by
  rintro rfl
  exact absurd hc (by decide)

theorem rewriteText_pieces (hnames : AreNames names) (hr : EndsString r) (pieces : List Piece) :
    rewriteText names (piecesText pieces ++ '"' :: r) =
      piecesText pieces ++ '"' :: rewriteText names r := by
  induction pieces with
  | nil => exact rewriteText_cons (digitsAt_none_of_close hnames hr.head)
  | cons piece pieces ih =>
    have hnext : piecesText (piece :: pieces) = piece.text ++ piecesText pieces := rfl
    rw [hnext, List.append_assoc, List.append_assoc, ← ih]
    cases piece with
    | plain c hc =>
      exact rewriteText_mark (plain_ne_quote hc)
    | escape c hc =>
      -- an escaped quote is followed by the rest of the string
      change rewriteText names ('\\' :: c :: (piecesText pieces ++ '"' :: r)) =
        '\\' :: c :: rewriteText names (piecesText pieces ++ '"' :: r)
      rw [rewriteText_mark (by decide)]
      by_cases hquote : c = '"'
      · rw [hquote, rewriteText_cons (digitsAt_none_of_string hnames pieces hr.colon)]
      · rw [rewriteText_mark hquote]
    | unit a b c d hhex =>
      apply rewriteText_append
      intro hmem
      have hquote : '"' ∈ [a, b, c, d] := by simpa [Piece.text] using hmem
      exact absurd (List.all_eq_true.mp hhex _ hquote) (by decide)

/-- A string that is a value stays. -/
theorem rewriteText_string (hnames : AreNames names) (hr : EndsString r) (s : List Piece) :
    rewriteText names (stringText s ++ r) = stringText s ++ rewriteText names r := by
  have hopen := digitsAt_none_of_string hnames s hr.colon
  simp only [stringText, List.cons_append, List.append_assoc, List.nil_append]
  rw [rewriteText_cons hopen, rewriteText_pieces hnames hr]

end Rewrite

/-! ## A listed number -/

section Member
variable {names : List Text} {n r : Text} {g g' : Gap}

theorem isBlank_of_gap (g : Gap) : g.text.all isBlank = true := by
  rw [List.all_eq_true]
  intro c hc
  have hblank := List.all_eq_true.mp g.blanks c hc
  simp only [isJsonBlank, Bool.or_eq_true, decide_eq_true_eq] at hblank
  obtain ((rfl | rfl) | rfl) | rfl := hblank <;> decide

theorem isBlank_of_digit {c : Char} (hc : c.isDigit = true) : isBlank c = false := by
  simp only [Char.isDigit, Bool.and_eq_true, decide_eq_true_eq] at hc
  have hlow : 48 ≤ c.toNat := hc.1
  have hhigh : c.toNat ≤ 57 := hc.2
  simp [isBlank]
  omega

theorem number_head (k : NumberLit) :
    ∃ c rest, k.text = c :: rest ∧ (c = '-' ∨ c.isDigit = true) := by
  obtain ⟨negative, whole, leading, fraction, exponent⟩ := k
  cases negative with
  | true => exact ⟨'-', _, rfl, .inl rfl⟩
  | false =>
    obtain ⟨c, rest, h, hc⟩ := digits_head whole
    exact ⟨c, rest ++ (fractionText fraction ++ exponentText exponent),
      by simp [NumberLit.text, signText, h], .inr hc⟩

theorem number_not_blank (k : NumberLit) (r : Text) :
    (k.text ++ r).head?.any isBlank = false := by
  obtain ⟨c, rest, h, rfl | hc⟩ := number_head k
  · have hminus : isBlank '-' = false := by decide
    simp [h, hminus]
  · simp [h, isBlank_of_digit hc]

/-- A name ends at the first quote. -/
theorem takeWhile_name (hn : n.all isWordChar = true) (r : Text) :
    (n ++ '"' :: r).takeWhile (· != '"') = n := by
  apply takeWhile_append_stop
  · rw [List.all_eq_true] at hn ⊢
    intro c hc
    by_contra hquote
    obtain rfl : c = '"' := by simpa using hquote
    exact absurd (hn _ hc) (by decide)
  · rfl

theorem nameAt_append (hnames : AreNames names) (hn : n ∈ names) (r : Text) :
    nameAt names ('"' :: (n ++ '"' :: r)) = some ('"' :: (n ++ ['"'])) := by
  have hprefix : '"' :: (n ++ ['"']) <+: '"' :: (n ++ '"' :: r) := ⟨r, by simp⟩
  cases hat : nameAt names ('"' :: (n ++ '"' :: r)) with
  | none =>
    have hnone := List.findSome?_eq_none_iff.mp hat n hn
    rw [if_pos hprefix] at hnone
    cases hnone
  | some x =>
    obtain ⟨n', hn', rfl, t, ht⟩ := nameAt_eq_some hat
    have hsame : n' ++ '"' :: t = n ++ '"' :: r := by simpa using ht
    rw [← takeWhile_name (hnames n' hn').2 t, hsame, takeWhile_name (hnames n hn).2 r]

theorem colonAt_append (g : Gap) (r : Text) :
    colonAt (g.text ++ ':' :: r) = some (g.text ++ [':'], r) := by
  have hcolon : (':' :: r).head?.any isBlank = false := (by decide : isBlank ':' = false)
  unfold colonAt
  rw [takeWhile_append_stop (isBlank_of_gap g) hcolon,
    dropWhile_append_stop (isBlank_of_gap g) hcolon]
  rfl

/-- The text of a listed name up to its number. -/
def leftText (n : Text) (g g' : Gap) : Text := '"' :: (n ++ '"' :: (g.text ++ ':' :: g'.text))

/-- The expression reads a listed member whose value is a number, the whole of it. -/
theorem digitsAt_member (hnames : AreNames names) (hn : n ∈ names) (g g' : Gap) (k : NumberLit)
    (hends : endsNumber r = true) (hcloses : closes r = true) :
    digitsAt names (leftText n g g' ++ k.text ++ r) =
      some ((leftText n g g', k.text), (leftText n g g' ++ k.text).length) := by
  have hs : leftText n g g' ++ k.text ++ r =
      '"' :: (n ++ '"' :: (g.text ++ ':' :: (g'.text ++ (k.text ++ r)))) := by simp [leftText]
  have hdrop : ('"' :: (n ++ '"' :: (g.text ++ ':' :: (g'.text ++ (k.text ++ r))))).drop
      ('"' :: (n ++ ['"'])).length = g.text ++ ':' :: (g'.text ++ (k.text ++ r)) := by
    simp [List.drop_append]
  have htake := takeWhile_append_stop (isBlank_of_gap g') (number_not_blank k r)
  have hrest := dropWhile_append_stop (isBlank_of_gap g') (number_not_blank k r)
  rw [hs]
  unfold digitsAt
  simp only [nameAt_append hnames hn, Option.bind_eq_bind, Option.bind_some, hdrop,
    colonAt_append, htake, hrest, numberAt_append k hends, List.drop_left, hcloses, if_true]
  simp [leftText]
  omega

end Member

/-! ## The value with its digits -/

/-- The name of the member is a listed one. -/
def listed (fields : List Text) (name : List Piece) : Bool :=
  fields.any fun f => decide (stringUnits name = f.flatMap charUnits)

/-- The digits of a number. -/
def numberText : JsonTree → Option Text
  | .number n => some n.text
  | _ => none

section Meaning
variable {V : Type} (alg : JsonValues V) (fields : List Text)

/-- The value of a member: its digits as a string, or else what it means. -/
def memberKeeping (name : List Piece) (value : JsonTree) (meaning : V) : V :=
  match numberText value with
  | some digits => if listed fields name then alg.string (digits.flatMap charUnits) else meaning
  | none => meaning

mutual

/-- What a text means, except that the numbers of listed members are strings. -/
def treeKeeping : JsonTree → V
  | .keyword w => alg.keyword w
  | .number n => alg.number n.text
  | .string s => alg.string (stringUnits s)
  | .emptyArray _ => alg.array []
  | .array items => alg.array (itemsKeeping items)
  | .emptyObject _ => alg.object []
  | .object members => alg.object (membersKeeping members)

def itemsKeeping : Items → List V
  | .one _ value _ => [treeKeeping value]
  | .more _ value _ rest => treeKeeping value :: itemsKeeping rest

def membersKeeping : Members → List (List Nat × V)
  | .one _ name _ _ value _ =>
    [(stringUnits name, memberKeeping alg fields name value (treeKeeping value))]
  | .more _ name _ _ value _ rest =>
    (stringUnits name, memberKeeping alg fields name value (treeKeeping value)) ::
      membersKeeping rest

end

end Meaning

mutual

/-- No name of a member is written with an escape. -/
def plainTree : JsonTree → Bool
  | .array items => plainItems items
  | .object members => plainMembers members
  | _ => true

def plainItems : Items → Bool
  | .one _ value _ => plainTree value
  | .more _ value _ rest => plainTree value && plainItems rest

def plainMembers : Members → Bool
  | .one _ name _ _ value _ => name.all Piece.isPlain && plainTree value
  | .more _ name _ _ value _ rest => name.all Piece.isPlain && plainTree value && plainMembers rest

end

/-! ## The text with its digits -/

/-- A text as a string that needs no escapes. -/
def quotedText (s : Text) : List Piece :=
  s.filterMap fun c => if h : isPlain c = true then some (.plain c h) else none

def keptMember (fields : List Text) (name : List Piece) (value kept : JsonTree) : JsonTree :=
  match numberText value with
  | some digits => if listed fields name then .string (quotedText digits) else kept
  | none => kept

mutual

/-- The tree of the rewritten text. -/
def keptTree (fields : List Text) : JsonTree → JsonTree
  | .array items => .array (keptItems fields items)
  | .object members => .object (keptMembers fields members)
  | .keyword w => .keyword w
  | .number n => .number n
  | .string s => .string s
  | .emptyArray inside => .emptyArray inside
  | .emptyObject inside => .emptyObject inside

def keptItems (fields : List Text) : Items → Items
  | .one before value after => .one before (keptTree fields value) after
  | .more before value after rest =>
    .more before (keptTree fields value) after (keptItems fields rest)

def keptMembers (fields : List Text) : Members → Members
  | .one before name left right value after =>
    .one before name left right (keptMember fields name value (keptTree fields value)) after
  | .more before name left right value after rest =>
    .more before name left right (keptMember fields name value (keptTree fields value)) after
      (keptMembers fields rest)

end

section Kept
variable {V : Type} {alg : JsonValues V} {fields : List Text} {s : Text}

theorem quotedText_units (h : s.all isPlain = true) :
    stringUnits (quotedText s) = s.flatMap charUnits := by
  induction s with
  | nil => rfl
  | cons c s ih =>
    rw [List.all_cons, Bool.and_eq_true] at h
    simp only [quotedText, List.filterMap_cons, h.1, dif_pos, List.flatMap_cons, ← ih h.2]
    rfl

theorem quotedText_text (h : s.all isPlain = true) : piecesText (quotedText s) = s := by
  induction s with
  | nil => rfl
  | cons c s ih =>
    rw [List.all_cons, Bool.and_eq_true] at h
    have hrest := ih h.2
    simp only [quotedText, List.filterMap_cons, h.1, dif_pos]
    exact congrArg (c :: ·) hrest

theorem plain_digits (d : Digits) : d.text.all isPlain = true := by
  have hdigits := d.digits
  rw [List.all_eq_true] at hdigits ⊢
  intro c hc
  have hdigit := hdigits c hc
  simp only [Char.isDigit, Bool.and_eq_true, decide_eq_true_eq] at hdigit
  have hlow : 48 ≤ c.toNat := hdigit.1
  have hhigh : c.toNat ≤ 57 := hdigit.2
  have hquote : c ≠ '"' := by
    rintro rfl
    exact absurd hlow (by decide)
  have hslash : c ≠ '\\' := by
    rintro rfl
    exact absurd hhigh (by decide)
  simp [isPlain, hquote, hslash]
  omega

theorem plain_number (n : NumberLit) : n.text.all isPlain = true := by
  obtain ⟨negative, whole, leading, fraction, exponent⟩ := n
  have hsign : (signText negative).all isPlain = true := by cases negative <;> decide
  have hfraction : (fractionText fraction).all isPlain = true := by
    cases fraction with
    | none => rfl
    | some d =>
      rw [fractionText, List.all_cons, plain_digits]
      decide
  have hexponent : (exponentText exponent).all isPlain = true := by
    cases exponent with
    | none => rfl
    | some e =>
      obtain ⟨upper, sign, d⟩ := e
      rw [exponentText, ExponentLit.text, List.all_cons, List.all_append, plain_digits]
      cases upper <;> rcases sign with _ | _ | _ <;> rfl
  simp [NumberLit.text, List.all_append, hsign, plain_digits, hfraction, hexponent]

theorem keptMember_value (name : List Piece) (value kept : JsonTree) :
    (keptMember fields name value kept).value alg =
      memberKeeping alg fields name value (kept.value alg) := by
  unfold keptMember memberKeeping
  cases value with
  | number n =>
    simp only [numberText]
    split
    · rw [JsonTree.value, quotedText_units (plain_number n)]
    · rfl
  | _ => rfl

mutual

theorem keptTree_value : ∀ t : JsonTree, (keptTree fields t).value alg = treeKeeping alg fields t
  | .array items => by rw [keptTree, JsonTree.value, keptItems_values items, treeKeeping]
  | .object members => by rw [keptTree, JsonTree.value, keptMembers_values members, treeKeeping]
  | .keyword _ => rfl
  | .number _ => rfl
  | .string _ => rfl
  | .emptyArray _ => rfl
  | .emptyObject _ => rfl

theorem keptItems_values : ∀ items : Items,
    (keptItems fields items).values alg = itemsKeeping alg fields items
  | .one _ value _ => by rw [keptItems, Items.values, keptTree_value value, itemsKeeping]
  | .more _ value _ rest => by
    rw [keptItems, Items.values, keptTree_value value, keptItems_values rest, itemsKeeping]

theorem keptMembers_values : ∀ members : Members,
    (keptMembers fields members).values alg = membersKeeping alg fields members
  | .one _ name _ _ value _ => by
    rw [keptMembers, Members.values, keptMember_value, keptTree_value value, membersKeeping]
  | .more _ name _ _ value _ rest => by
    rw [keptMembers, Members.values, keptMember_value, keptTree_value value,
      keptMembers_values rest, membersKeeping]

end

/-- With no listed fields it is what the text means. -/
theorem memberKeeping_nil (name : List Piece) (value : JsonTree) (meaning : V) :
    memberKeeping alg [] name value meaning = meaning := by
  unfold memberKeeping
  split <;> simp [listed]

mutual

theorem treeKeeping_nil : ∀ t : JsonTree, treeKeeping alg [] t = t.value alg
  | .array items => by rw [treeKeeping, JsonTree.value, itemsKeeping_nil items]
  | .object members => by rw [treeKeeping, JsonTree.value, membersKeeping_nil members]
  | .keyword _ => rfl
  | .number _ => rfl
  | .string _ => rfl
  | .emptyArray _ => rfl
  | .emptyObject _ => rfl

theorem itemsKeeping_nil : ∀ items : Items, itemsKeeping alg [] items = items.values alg
  | .one _ value _ => by rw [itemsKeeping, Items.values, treeKeeping_nil value]
  | .more _ value _ rest => by
    rw [itemsKeeping, Items.values, treeKeeping_nil value, itemsKeeping_nil rest]

theorem membersKeeping_nil : ∀ members : Members,
    membersKeeping alg [] members = members.values alg
  | .one _ name _ _ value _ => by
    rw [membersKeeping, Members.values, memberKeeping_nil, treeKeeping_nil value]
  | .more _ name _ _ value _ rest => by
    rw [membersKeeping, Members.values, memberKeeping_nil, treeKeeping_nil value,
      membersKeeping_nil rest]

end

end Kept

/-! ## The rewritten text -/

/-- What may stand behind a value: blanks, and then nothing, a comma or a closing bracket. -/
inductive Follows : Text → Prop where
  | done (g : Gap) : Follows g.text
  | more (g : Gap) {c : Char} (hc : c = ',' ∨ c = '}' ∨ c = ']') (t : Text) :
      Follows (g.text ++ c :: t)

section Follows
variable {r t : Text} {c : Char}

theorem gap_dropWhile (g : Gap) (hr : r.head?.any isBlank = false) :
    (g.text ++ r).dropWhile isBlank = r := dropWhile_append_stop (isBlank_of_gap g) hr

/-- A text that begins with blanks or with a given mark. -/
theorem gap_head {p : Char → Bool} (g : Gap) (hp : ∀ d, isJsonBlank d = true → p d = false)
    (hr : r.head?.any p = false) : (g.text ++ r).head?.any p = false := by
  have hblanks := g.blanks
  cases h : g.text with
  | nil => exact hr
  | cons d ds =>
    rw [h, List.all_cons, Bool.and_eq_true] at hblanks
    simp [hp d hblanks.1]

theorem blank_cases (hc : isJsonBlank c = true) : c = ' ' ∨ c = '\t' ∨ c = '\n' ∨ c = '\r' := by
  simpa [isJsonBlank, or_assoc] using hc

theorem not_word_of_blank (c : Char) (hc : isJsonBlank c = true) : isWordChar c = false := by
  obtain rfl | rfl | rfl | rfl := blank_cases hc <;> decide

theorem Follows.endsString (h : Follows r) : EndsString r := by
  cases h with
  | done g =>
    have hhead := gap_head (r := []) g not_word_of_blank rfl
    have hdrop := gap_dropWhile (r := []) g rfl
    rw [List.append_nil] at hhead hdrop
    exact ⟨hhead, by rw [hdrop]; simp⟩
  | more g hc t =>
    refine ⟨gap_head g not_word_of_blank ?_, ?_⟩
    · obtain rfl | rfl | rfl := hc <;> simp <;> decide
    · rw [gap_dropWhile g (by obtain rfl | rfl | rfl := hc <;> simp <;> decide)]
      obtain rfl | rfl | rfl := hc <;> simp

theorem endsNumber_more (g : Gap) (hc : c = ',' ∨ c = '}' ∨ c = ']') (t : Text) :
    endsNumber (g.text ++ c :: t) = true := by
  unfold endsNumber
  rw [gap_head g, Bool.not_false]
  · intro d hd
    obtain rfl | rfl | rfl | rfl := blank_cases hd <;> decide
  · obtain rfl | rfl | rfl := hc <;> simp

theorem closes_more (g : Gap) (hc : c = ',' ∨ c = '}' ∨ c = ']') (t : Text) :
    closes (g.text ++ c :: t) = true := by
  unfold closes
  rw [gap_dropWhile g (by obtain rfl | rfl | rfl := hc <;> simp <;> decide)]
  obtain rfl | rfl | rfl := hc <;> simp

end Follows

section Members
variable {fields : List Text} {name : List Piece} {value kept : JsonTree} {l rt : Gap} {r : Text}

theorem stringUnits_plain (h : name.all Piece.isPlain = true) :
    stringUnits name = (piecesText name).flatMap charUnits := by
  induction name with
  | nil => rfl
  | cons piece name ih =>
    rw [List.all_cons, Bool.and_eq_true] at h
    cases piece with
    | plain c hc => exact congrArg (charUnits c ++ ·) (ih h.2)
    | escape c hc => exact absurd h.1 (by simp [Piece.isPlain])
    | unit a b c d hhex => exact absurd h.1 (by simp [Piece.isPlain])

theorem listed_iff (h : name.all Piece.isPlain = true) :
    listed fields name = true ↔ piecesText name ∈ fields := by
  have hunits (s : Text) : s.flatMap charUnits = codeUnits (String.ofList s) := by
    rw [codeUnits, String.toList_ofList]
  simp only [listed, List.any_eq_true, decide_eq_true_eq, stringUnits_plain h, hunits]
  constructor
  · rintro ⟨f, hf, hsame⟩
    have htext := congrArg String.toList (codeUnits_injective hsame)
    rw [String.toList_ofList, String.toList_ofList] at htext
    exact htext ▸ hf
  · intro hmem
    exact ⟨_, hmem, rfl⟩

theorem quote_not_mem_plain (h : name.all Piece.isPlain = true) : '"' ∉ piecesText name := by
  induction name with
  | nil => exact List.not_mem_nil
  | cons piece name ih =>
    rw [List.all_cons, Bool.and_eq_true] at h
    cases piece with
    | plain c hc =>
      intro hmem
      obtain hhead | htail := List.mem_cons.mp (hmem : '"' ∈ c :: piecesText name)
      · exact plain_ne_quote hc hhead.symm
      · exact ih h.2 htail
    | escape c hc => exact absurd h.1 (by simp [Piece.isPlain])
    | unit a b c d hhex => exact absurd h.1 (by simp [Piece.isPlain])

/-- A value begins with no blank, and like a number only if it is one. -/
theorem value_head (value : JsonTree) : ∃ c rest, value.text = c :: rest ∧ isBlank c = false ∧
    (c = '-' ∨ c.isDigit = true → ∃ k, value = .number k) := by
  cases value with
  | keyword w => cases w <;> exact ⟨_, _, rfl, by decide, fun h => absurd h (by decide)⟩
  | number k =>
    obtain ⟨c, rest, h, hc⟩ := number_head k
    refine ⟨c, rest, h, ?_, fun _ => ⟨k, rfl⟩⟩
    obtain rfl | hdigit := hc
    · decide
    · exact isBlank_of_digit hdigit
  | string s => exact ⟨'"', _, rfl, by decide, fun h => absurd h (by decide)⟩
  | emptyArray inside => exact ⟨'[', _, rfl, by decide, fun h => absurd h (by decide)⟩
  | array items => exact ⟨'[', _, rfl, by decide, fun h => absurd h (by decide)⟩
  | emptyObject inside => exact ⟨'{', _, rfl, by decide, fun h => absurd h (by decide)⟩
  | object members => exact ⟨'{', _, rfl, by decide, fun h => absurd h (by decide)⟩

/-- At the name of a member there is a match only if it is listed and its value is a number. -/
theorem digitsAt_member_some {found : (Text × Text) × Nat} (hnames : AreNames fields)
    (hplain : name.all Piece.isPlain = true)
    (h : digitsAt fields (stringText name ++ (l.text ++ ':' :: (rt.text ++ (value.text ++ r)))) =
      some found) : listed fields name = true ∧ ∃ k, value = .number k := by
  obtain ⟨n, hn, t, q, hs, hq, c, hc, hnumber⟩ := digitsAt_eq_some h
  simp only [stringText, List.cons_append, List.append_assoc, List.nil_append, List.cons.injEq,
    true_and] at hs
  obtain ⟨hname, rfl⟩ := name_in_pieces (hnames n hn).2 hs.symm
  rw [gap_dropWhile l (by simp; decide)] at hq
  obtain rfl := (List.cons.inj hq).2
  obtain ⟨d, rest, hd, hblank, hkind⟩ := value_head value
  rw [gap_dropWhile rt (by simp [hd, hblank]), hd] at hc
  obtain rfl : d = c := by simpa using hc
  exact ⟨(listed_iff hplain).mpr (hname ▸ hn), hkind hnumber⟩

theorem rewriteText_gap (g : Gap) :
    rewriteText fields (g.text ++ r) = g.text ++ rewriteText fields r := by
  apply rewriteText_append
  intro hmem
  have hblank := List.all_eq_true.mp g.blanks _ hmem
  exact absurd hblank (by decide)

theorem keptMember_of_not (h : ¬(listed fields name = true ∧ ∃ k, value = .number k)) :
    keptMember fields name value kept = kept := by
  unfold keptMember
  cases value with
  | number k =>
    have hlisted : listed fields name ≠ true := fun hl => h ⟨hl, k, rfl⟩
    simp [numberText, hlisted]
  | _ => rfl

/-- A member whose value is not to be quoted: its name stays. -/
theorem rewrite_name (hnames : AreNames fields) (hplain : name.all Piece.isPlain = true)
    (h : digitsAt fields (stringText name ++ (l.text ++ ':' :: r)) = none) :
    rewriteText fields (stringText name ++ (l.text ++ ':' :: r)) =
      stringText name ++ (l.text ++ ':' :: rewriteText fields r) := by
  have hclose : (l.text ++ ':' :: r).head?.any isWordChar = false :=
    gap_head l not_word_of_blank (by simp; decide)
  simp only [stringText, List.cons_append, List.append_assoc, List.nil_append] at h ⊢
  rw [rewriteText_cons h, rewriteText_append (quote_not_mem_plain hplain),
    rewriteText_cons (digitsAt_none_of_close hnames hclose), rewriteText_gap,
    rewriteText_mark (by decide)]

theorem rewrite_member (hnames : AreNames fields) (hplain : name.all Piece.isPlain = true)
    (hends : endsNumber r = true) (hcloses : closes r = true)
    (hvalue : rewriteText fields (value.text ++ r) = kept.text ++ rewriteText fields r) :
    rewriteText fields (stringText name ++ (l.text ++ ':' :: (rt.text ++ (value.text ++ r)))) =
      stringText name ++ (l.text ++ ':' :: (rt.text ++
        ((keptMember fields name value kept).text ++ rewriteText fields r))) := by
  by_cases hquoted : listed fields name = true ∧ ∃ k, value = .number k
  · obtain ⟨hlisted, k, rfl⟩ := hquoted
    have hmatch := digitsAt_member hnames ((listed_iff hplain).mp hlisted) l rt k hends hcloses
    have hne : leftText (piecesText name) l rt ++ k.text ≠ [] := by simp [leftText]
    have htext := rewriteText_match hmatch hne
    have hkept : (keptMember fields name (.number k) kept).text = '"' :: (k.text ++ ['"']) := by
      simp only [keptMember, numberText, hlisted, if_true, JsonTree.text, stringText,
        quotedText_text (plain_number k)]
    rw [hkept]
    simpa [leftText, quoteDigits, stringText, JsonTree.text] using htext
  · rw [keptMember_of_not hquoted, rewrite_name hnames hplain, rewriteText_gap, hvalue]
    cases hat : digitsAt fields (stringText name ++ (l.text ++ ':' :: (rt.text ++
        (value.text ++ r)))) with
    | none => rfl
    | some found => exact absurd (digitsAt_member_some hnames hplain hat) hquoted

end Members

mutual

theorem rewrite_tree {fields : List Text} (hnames : AreNames fields) : ∀ (t : JsonTree) (r : Text),
    plainTree t = true → Follows r → rewriteText fields (t.text ++ r) =
      (keptTree fields t).text ++ rewriteText fields r
  | .keyword w, r, _, _ => rewriteText_append (by cases w <;> decide)
  | .number n, r, _, _ => rewriteText_append fun hmem =>
    plain_ne_quote (List.all_eq_true.mp (plain_number n) _ hmem) rfl
  | .string s, r, _, hr => rewriteText_string hnames hr.endsString s
  | .emptyArray inside, r, _, _ => by
    simp only [JsonTree.text, keptTree, List.cons_append, List.append_assoc, List.nil_append]
    rw [rewriteText_mark (by decide), rewriteText_gap, rewriteText_mark (by decide)]
  | .emptyObject inside, r, _, _ => by
    simp only [JsonTree.text, keptTree, List.cons_append, List.append_assoc, List.nil_append]
    rw [rewriteText_mark (by decide), rewriteText_gap, rewriteText_mark (by decide)]
  | .array items, r, h, _ => by
    simp only [JsonTree.text, keptTree, List.cons_append, List.append_assoc, List.nil_append]
    rw [rewriteText_mark (by decide), rewrite_items hnames items r h]
  | .object members, r, h, _ => by
    simp only [JsonTree.text, keptTree, List.cons_append, List.append_assoc, List.nil_append]
    rw [rewriteText_mark (by decide), rewrite_members hnames members r h]

theorem rewrite_items {fields : List Text} (hnames : AreNames fields) : ∀ (items : Items)
    (r : Text), plainItems items = true → rewriteText fields (items.text ++ ']' :: r) =
      (keptItems fields items).text ++ ']' :: rewriteText fields r
  | .one before value after, r, h => by
    have hfollows := Follows.more after (.inr (.inr rfl)) r
    simp only [Items.text, keptItems, List.append_assoc]
    rw [rewriteText_gap, rewrite_tree hnames value _ h hfollows, rewriteText_gap,
      rewriteText_mark (by decide)]
  | .more before value after rest, r, h => by
    rw [plainItems, Bool.and_eq_true] at h
    have hfollows := Follows.more after (.inl rfl) (rest.text ++ ']' :: r)
    simp only [Items.text, keptItems, List.append_assoc, List.cons_append]
    rw [rewriteText_gap, rewrite_tree hnames value _ h.1 hfollows, rewriteText_gap,
      rewriteText_mark (by decide), rewrite_items hnames rest r h.2]

theorem rewrite_members {fields : List Text} (hnames : AreNames fields) : ∀ (members : Members)
    (r : Text), plainMembers members = true → rewriteText fields (members.text ++ '}' :: r) =
      (keptMembers fields members).text ++ '}' :: rewriteText fields r
  | .one before name left right value after, r, h => by
    rw [plainMembers, Bool.and_eq_true] at h
    have hvalue := rewrite_tree hnames value _ h.2 (.more after (.inr (.inl rfl)) r)
    simp only [Members.text, keptMembers, List.append_assoc, List.cons_append]
    rw [rewriteText_gap, rewrite_member hnames h.1 (endsNumber_more after (.inr (.inl rfl)) r)
      (closes_more after (.inr (.inl rfl)) r) hvalue, rewriteText_gap, rewriteText_mark (by decide)]
  | .more before name left right value after rest, r, h => by
    rw [plainMembers, Bool.and_eq_true, Bool.and_eq_true] at h
    have hvalue := rewrite_tree hnames value _ h.1.2
      (.more after (.inl rfl) (rest.text ++ '}' :: r))
    simp only [Members.text, keptMembers, List.append_assoc, List.cons_append]
    rw [rewriteText_gap, rewrite_member hnames h.1.1 (endsNumber_more after (.inl rfl) _)
      (closes_more after (.inl rfl) _) hvalue, rewriteText_gap, rewriteText_mark (by decide),
      rewrite_members hnames rest r h.2]

end

/-! ## Documents -/

section Documents
variable {V : Type} {alg : JsonValues V} {fields : List Text} {d : Document}

/-- What a whole text means, its listed numbers as strings of their characters. -/
def valueKeeping (alg : JsonValues V) (fields : List Text) (d : Document) : V :=
  treeKeeping alg fields d.tree

/-- The rewritten text is a text of the same tree with the listed numbers in quotes. -/
theorem rewrite_document (hnames : AreNames fields) (hplain : plainTree d.tree = true) :
    rewriteText fields d.text =
      Document.text ⟨d.before, keptTree fields d.tree, d.after⟩ := by
  have htree := rewrite_tree hnames d.tree d.after.text hplain (.done d.after)
  have hafter : rewriteText fields (d.after.text ++ []) = d.after.text ++ [] :=
    rewriteText_gap d.after
  rw [List.append_nil] at hafter
  simp only [Document.text, rewriteText_gap, htree, hafter]

/-- JSON.parse gives what a text means. -/
def ParsesTexts (parse : Text → Option V) (alg : JsonValues V) : Prop :=
  ∀ d : Document, parse d.text = some (d.value alg)

/-- The listed numbers, wherever they stand, become the strings of their characters, and nothing
else changes. -/
theorem parseJsonKeepingDigits_eq {parse : Text → Option V} (hparse : ParsesTexts parse alg)
    (hfields : ∀ f ∈ fields, f ≠ [] ∧ f.all isWordChar = true)
    (hplain : plainTree d.tree = true) :
    parseJsonKeepingDigits parse d.text fields = some (valueKeeping alg fields d) := by
  unfold parseJsonKeepingDigits
  split
  · rename_i hempty
    rw [List.isEmpty_iff.mp hempty, hparse, valueKeeping, treeKeeping_nil]
    rfl
  · have hsame : fields.map (·.filter isWordChar) = fields := by
      rw [List.map_congr_left (g := id), List.map_id]
      intro f hf
      exact List.filter_eq_self.mpr (List.all_eq_true.mp (hfields f hf).2)
    rw [hsame, rewrite_document hfields hplain, hparse]
    exact congrArg some (keptTree_value d.tree)

end Documents

/-! A value as JSON.parse gives it, numbers by what they denote. -/

inductive PlainValue where
  | keyword (w : Keyword)
  | number (x : Option ℚ)
  | string (units : List Nat)
  | array (items : List PlainValue)
  | object (members : List (List Nat × PlainValue))

def plainValues : JsonValues PlainValue where
  keyword := .keyword
  number s := .number ((readNumber s).bind NumberLiteral.value)
  string := .string
  array := .array
  object := .object

theorem instrument_id_keeps_digits :
    parseJsonKeepingDigits (readDocument plainValues)
      "\x7b\"id\": 46348559193224090, \"note\": \"\\\"id\\\": 5,\"\x7d".toList ["id".toList] =
    some (.object [("id".toList.flatMap charUnits,
        .string ("46348559193224090".toList.flatMap charUnits)),
      ("note".toList.flatMap charUnits, .string ("\"id\": 5,".toList.flatMap charUnits))]) := by
  let idName : List Piece := [.plain 'i' rfl, .plain 'd' rfl]
  let noteName : List Piece := [.plain 'n' rfl, .plain 'o' rfl, .plain 't' rfl, .plain 'e' rfl]
  let number : NumberLit := ⟨false, ⟨"46348559193224090".toList, by decide, by decide⟩,
    fun h => absurd h (by decide), none, none⟩
  let note : List Piece := .escape '"' rfl :: (idName ++ [.escape '"' rfl, .plain ':' rfl,
    .plain ' ' rfl, .plain '5' rfl, .plain ',' rfl])
  let empty : Gap := ⟨[], rfl⟩
  let space : Gap := ⟨[' '], rfl⟩
  let d : Document := ⟨empty, .object (.more empty idName empty space (.number number) empty
    (.one space noteName empty space (.string note) empty)), empty⟩
  have hkeeps : parseJsonKeepingDigits (readDocument plainValues) d.text ["id".toList] =
      some (valueKeeping plainValues ["id".toList] d) :=
    parseJsonKeepingDigits_eq readDocument_text (by decide) rfl
  exact hkeeps

end KeepingDigits

end Pwos
