import Pwos.Lib.JsonSyntax
import Pwos.Lib.Matching

/-!
# Reading JSON

A reader that finds the value of every text of the grammar.
-/

namespace Pwos

namespace JsonSyntax

def skipGap (s : List Char) : List Char := s.dropWhile isJsonBlank

/-! ## Tokens -/

def hexUnit (s : List Char) : Nat := s.foldl (fun n c => n * 16 + hexDigit c) 0

def readPiece (s : List Char) : Option (List Nat × List Char) :=
  match s with
  | [] => none
  | c :: r =>
    if c = '\\' then
      if r.head? = some 'u' then
        if (r.tail.take 4).length = 4 ∧ (r.tail.take 4).all isHex then
          some ([hexUnit (r.tail.take 4)], r.tail.drop 4)
        else none
      else (r.head?.bind escapeUnit).map fun unit => ([unit], r.tail)
    else if isPlain c then some (charUnits c, r)
    else none

/-- A string behind its opening quote. -/
def readPieces : Nat → List Char → Option (List Nat × List Char)
  | 0, _ => none
  | fuel + 1, s =>
    if s.head? = some '"' then some ([], s.tail)
    else do
      let (units, r) ← readPiece s
      let (rest, r) ← readPieces fuel r
      some (units ++ rest, r)

def isNumberPart (c : Char) : Bool :=
  c.isDigit || c = '-' || c = '+' || c = '.' || c = 'e' || c = 'E'

def readKeyword (s : List Char) : Option (Keyword × List Char) :=
  [Keyword.null, .yes, .no].findSome? fun w =>
    if w.text <+: s then some (w, s.drop w.text.length) else none

/-! ## Values -/

section Read
variable {V : Type} (alg : JsonValues V)

mutual

def readTree : Nat → List Char → Option (V × List Char)
  | 0, _ => none
  | fuel + 1, s =>
    let r := s.tail
    if s.head? = some '"' then (readPieces fuel r).map fun x => (alg.string x.1, x.2)
    else if s.head? = some '[' then
      if (skipGap r).head? = some ']' then some (alg.array [], (skipGap r).tail)
      else (readItems fuel r).map fun x => (alg.array x.1, x.2)
    else if s.head? = some '{' then
      if (skipGap r).head? = some '}' then some (alg.object [], (skipGap r).tail)
      else (readMembers fuel r).map fun x => (alg.object x.1, x.2)
    else if s.head?.any isNumberPart then
      some (alg.number (s.takeWhile isNumberPart), s.dropWhile isNumberPart)
    else (readKeyword s).map fun x => (alg.keyword x.1, x.2)

/-- The items of an array, with the bracket behind them. -/
def readItems : Nat → List Char → Option (List V × List Char)
  | 0, _ => none
  | fuel + 1, s => do
    let (value, r) ← readTree fuel (skipGap s)
    let r := skipGap r
    if r.head? = some ',' then
      let (rest, r) ← readItems fuel r.tail
      some (value :: rest, r)
    else if r.head? = some ']' then some ([value], r.tail)
    else none

/-- The members of an object, with the brace behind them. -/
def readMembers : Nat → List Char → Option (List (List Nat × V) × List Char)
  | 0, _ => none
  | fuel + 1, s =>
    if (skipGap s).head? = some '"' then do
      let (name, r) ← readPieces fuel (skipGap s).tail
      let r := skipGap r
      if r.head? = some ':' then
        let (value, r) ← readTree fuel (skipGap r.tail)
        let r := skipGap r
        if r.head? = some ',' then
          let (rest, r) ← readMembers fuel r.tail
          some ((name, value) :: rest, r)
        else if r.head? = some '}' then some ([(name, value)], r.tail)
        else none
      else none
    else none

end

/-- A whole text. -/
def readDocument (s : List Char) : Option V := do
  let (value, r) ← readTree alg (2 * s.length + 1) (skipGap s)
  if skipGap r = [] then some value else none

end Read

/-! ## What is read -/

section Tokens
variable {r : List Char}

theorem skipGap_append (g : Gap) (hr : r.head?.any isJsonBlank = false) :
    skipGap (g.text ++ r) = r := dropWhile_append_stop g.blanks hr

theorem readPiece_text (piece : Piece) (r : List Char) :
    readPiece (piece.text ++ r) = some (piece.units, r) := by
  cases piece with
  | plain c h =>
    have hne : c ≠ '\\' := by
      rintro rfl
      exact absurd h (by decide)
    simp [Piece.text, Piece.units, readPiece, hne, h]
  | escape c h =>
    have hne : c ≠ 'u' := by
      rintro rfl
      exact absurd h (by decide)
    obtain ⟨unit, hunit⟩ := Option.isSome_iff_exists.mp h
    simp [Piece.text, Piece.units, readPiece, hne, hunit]
  | unit a b c d h =>
    have hfour : [a, b, c, d].length = 4 ∧ [a, b, c, d].all isHex = true := ⟨rfl, h⟩
    change (if [a, b, c, d].length = 4 ∧ [a, b, c, d].all isHex = true then
      some ([hexUnit [a, b, c, d]], r) else none) = _
    rw [if_pos hfour]
    simp [Piece.units, hexUnit]

theorem piece_head (piece : Piece) : ∃ c rest, piece.text = c :: rest ∧ c ≠ '"' := by
  cases piece with
  | plain c h =>
    refine ⟨c, [], rfl, ?_⟩
    rintro rfl
    exact absurd h (by decide)
  | escape c h => exact ⟨'\\', [c], rfl, by decide⟩
  | unit a b c d h => exact ⟨'\\', _, rfl, by decide⟩

theorem readPieces_text (s : List Piece) (r : List Char) {fuel : Nat}
    (h : (piecesText s).length < fuel) :
    readPieces fuel (piecesText s ++ '"' :: r) = some (stringUnits s, r) := by
  induction s generalizing fuel with
  | nil =>
    cases fuel with
    | zero => simp at h
    | succ fuel => rfl
  | cons piece s ih =>
    cases fuel with
    | zero => simp at h
    | succ fuel =>
      have htext : piecesText (piece :: s) = piece.text ++ piecesText s := rfl
      obtain ⟨c, rest, hpiece, hne⟩ := piece_head piece
      have hlen : (piecesText s).length < fuel := by
        rw [htext, hpiece] at h
        simp at h
        omega
      have hhead : (piece.text ++ (piecesText s ++ '"' :: r)).head? ≠ some '"' := by
        simpa [hpiece] using hne
      rw [htext, List.append_assoc, readPieces, if_neg hhead, readPiece_text]
      simp [ih hlen, stringUnits]

theorem number_parts (n : NumberLit) : n.text.all isNumberPart = true := by
  have hdigits (d : Digits) : d.text.all isNumberPart = true := by
    refine List.all_eq_true.mpr fun c hc => ?_
    simp [isNumberPart, List.all_eq_true.mp d.digits c hc]
  obtain ⟨negative, whole, leading, fraction, exponent⟩ := n
  have hsign : (signText negative).all isNumberPart = true := by cases negative <;> decide
  have hfraction : (fractionText fraction).all isNumberPart = true := by
    cases fraction with
    | none => rfl
    | some d =>
      rw [fractionText, List.all_cons, hdigits]
      decide
  have hexponent : (exponentText exponent).all isNumberPart = true := by
    cases exponent with
    | none => rfl
    | some e =>
      obtain ⟨upper, sign, d⟩ := e
      rw [exponentText, ExponentLit.text, List.all_cons, List.all_append, hdigits]
      cases upper <;> rcases sign with _ | _ | _ <;> rfl
  simp [NumberLit.text, List.all_append, hsign, hdigits, hfraction, hexponent]

theorem number_ne_nil (n : NumberLit) : n.text ≠ [] := by
  simp [NumberLit.text, n.whole.ne_nil]

theorem readKeyword_text (w : Keyword) (r : List Char) :
    readKeyword (w.text ++ r) = some (w, r) := by
  cases w <;> simp [readKeyword, Keyword.text]

end Tokens

section Trees
variable {V : Type} {alg : JsonValues V}

/-- The first character of a value says what it is; it is no blank and no bracket that closes. -/
theorem tree_head (t : JsonTree) : ∃ c rest, t.text = c :: rest ∧ isJsonBlank c = false ∧ c ≠ ']' := by
  cases t with
  | keyword w => cases w <;> exact ⟨_, _, rfl, by decide, by decide⟩
  | number n =>
    cases h : n.text with
    | nil => exact absurd h (number_ne_nil n)
    | cons c rest =>
      have hc : isNumberPart c = true := List.all_eq_true.mp (number_parts n) c (by simp [h])
      refine ⟨c, rest, h, ?_, ?_⟩
      · by_contra hblank
        simp only [isJsonBlank, Bool.not_eq_false, Bool.or_eq_true, decide_eq_true_eq] at hblank
        obtain ((rfl | rfl) | rfl) | rfl := hblank <;> exact absurd hc (by decide)
      · rintro rfl
        exact absurd hc (by decide)
  | string s => exact ⟨'"', _, rfl, by decide, by decide⟩
  | emptyArray inside => exact ⟨'[', _, rfl, by decide, by decide⟩
  | array items => exact ⟨'[', _, rfl, by decide, by decide⟩
  | emptyObject inside => exact ⟨'{', _, rfl, by decide, by decide⟩
  | object members => exact ⟨'{', _, rfl, by decide, by decide⟩

theorem items_head (items : Items) (r : List Char) :
    ∃ c rest, skipGap (items.text ++ r) = c :: rest ∧ c ≠ ']' := by
  have hvalue (g : Gap) (t : JsonTree) (x : List Char) :
      ∃ c rest, skipGap (g.text ++ (t.text ++ x)) = c :: rest ∧ c ≠ ']' := by
    obtain ⟨c, rest, h, hblank, hne⟩ := tree_head t
    rw [skipGap_append g (by simp [h, hblank]), h]
    exact ⟨c, rest ++ x, rfl, hne⟩
  cases items with
  | one before value after => simpa [Items.text] using hvalue before value (after.text ++ r)
  | more before value after rest =>
    simpa [Items.text] using hvalue before value (after.text ++ ',' :: (rest.text ++ r))

theorem members_head (members : Members) (r : List Char) :
    ∃ rest, skipGap (members.text ++ r) = '"' :: rest := by
  cases members with
  | one before name left right value after =>
    rw [Members.text, List.append_assoc, skipGap_append before (by simp [stringText]; decide)]
    exact ⟨_, rfl⟩
  | more before name left right value after rest =>
    rw [Members.text, List.append_assoc, skipGap_append before (by simp [stringText]; decide)]
    exact ⟨_, rfl⟩

theorem skipGap_value (g : Gap) (t : JsonTree) (r : List Char) :
    skipGap (g.text ++ (t.text ++ r)) = t.text ++ r := by
  obtain ⟨c, rest, h, hblank, -⟩ := tree_head t
  exact skipGap_append g (by simp [h, hblank])

theorem skipGap_mark {c : Char} (g : Gap) (hc : isJsonBlank c = false) (r : List Char) :
    skipGap (g.text ++ c :: r) = c :: r := skipGap_append g (by simp [hc])

theorem gap_ends (g : Gap) {r : List Char} (hr : r.head?.any isNumberPart = false) :
    (g.text ++ r).head?.any isNumberPart = false := by
  have hblanks := g.blanks
  cases h : g.text with
  | nil => exact hr
  | cons d ds =>
    rw [h, List.all_cons, Bool.and_eq_true] at hblanks
    have hd : isNumberPart d = false := by
      have hblank := hblanks.1
      simp only [isJsonBlank, Bool.or_eq_true, decide_eq_true_eq] at hblank
      obtain ((rfl | rfl) | rfl) | rfl := hblank <;> decide
    simp [hd]

mutual

theorem readTree_text : ∀ (t : JsonTree) (r : List Char) (fuel : Nat),
    2 * (t.text ++ r).length < fuel → r.head?.any isNumberPart = false →
    readTree alg fuel (t.text ++ r) = some (t.value alg, r)
  | .keyword w, r, fuel, h, _ => by
    cases fuel with
    | zero => simp at h
    | succ fuel =>
      have hread := readKeyword_text w r
      rw [readTree, JsonTree.text, hread]
      cases w <;> simp [Keyword.text, isNumberPart, JsonTree.value]
  | .number n, r, fuel, h, hr => by
    cases fuel with
    | zero => simp at h
    | succ fuel =>
      obtain ⟨c, rest, htext, -⟩ := tree_head (.number n)
      have hpart : isNumberPart c = true :=
        List.all_eq_true.mp (number_parts n) c (by rw [← JsonTree.text, htext]; simp)
      have hquote : c ≠ '"' ∧ c ≠ '[' ∧ c ≠ '{' := by
        refine ⟨?_, ?_, ?_⟩ <;> (rintro rfl; exact absurd hpart (by decide))
      have hhead : (JsonTree.text (.number n) ++ r).head? = some c := by rw [htext]; rfl
      rw [readTree]
      simp only [hhead, Option.some.injEq, hquote, if_false, Option.any_some, hpart, if_true]
      rw [JsonTree.text, takeWhile_append_stop (number_parts n) hr,
        dropWhile_append_stop (number_parts n) hr]
      rfl
  | .string s, r, fuel, h, _ => by
    cases fuel with
    | zero => simp at h
    | succ fuel =>
      have hlen : (piecesText s).length < fuel := by
        simp [JsonTree.text, stringText] at h
        omega
      have hread := readPieces_text s r hlen
      have htext : (JsonTree.string s).text ++ r = '"' :: (piecesText s ++ '"' :: r) := by
        simp [JsonTree.text, stringText]
      rw [htext, readTree]
      simp only [List.head?_cons, List.tail_cons, if_true, hread]
      rfl
  | .emptyArray inside, r, fuel, h, _ => by
    cases fuel with
    | zero => simp at h
    | succ fuel =>
      have htext : (JsonTree.emptyArray inside).text ++ r = '[' :: (inside.text ++ ']' :: r) := by
        simp [JsonTree.text]
      rw [htext, readTree]
      simp [skipGap_mark inside (by decide : isJsonBlank ']' = false), JsonTree.value]
  | .emptyObject inside, r, fuel, h, _ => by
    cases fuel with
    | zero => simp at h
    | succ fuel =>
      have htext : (JsonTree.emptyObject inside).text ++ r = '{' :: (inside.text ++ '}' :: r) := by
        simp [JsonTree.text]
      rw [htext, readTree]
      simp [skipGap_mark inside (by decide : isJsonBlank '}' = false), JsonTree.value]
  | .array items, r, fuel, h, _ => by
    cases fuel with
    | zero => simp at h
    | succ fuel =>
      have htext : (JsonTree.array items).text ++ r = '[' :: (items.text ++ ']' :: r) := by
        simp [JsonTree.text]
      rw [htext] at h ⊢
      have hitems := readItems_text items r fuel (by simp at h ⊢; omega)
      obtain ⟨c, rest, hskip, hne⟩ := items_head items (']' :: r)
      rw [readTree]
      simp [hskip, hne, hitems, JsonTree.value]
  | .object members, r, fuel, h, _ => by
    cases fuel with
    | zero => simp at h
    | succ fuel =>
      have htext : (JsonTree.object members).text ++ r = '{' :: (members.text ++ '}' :: r) := by
        simp [JsonTree.text]
      rw [htext] at h ⊢
      have hmembers := readMembers_text members r fuel (by simp at h ⊢; omega)
      obtain ⟨rest, hskip⟩ := members_head members ('}' :: r)
      rw [readTree]
      simp [hskip, hmembers, JsonTree.value]

theorem readItems_text : ∀ (items : Items) (r : List Char) (fuel : Nat),
    2 * (items.text ++ ']' :: r).length + 1 < fuel →
    readItems alg fuel (items.text ++ ']' :: r) = some (items.values alg, r)
  | .one before value after, r, fuel, h => by
    cases fuel with
    | zero => omega
    | succ fuel =>
      have htext : (Items.one before value after).text ++ ']' :: r =
          before.text ++ (value.text ++ (after.text ++ ']' :: r)) := by simp [Items.text]
      rw [htext] at h ⊢
      have hvalue := readTree_text value (after.text ++ ']' :: r) fuel
        (by simp at h ⊢; omega) (gap_ends after (by simp; decide))
      rw [readItems, skipGap_value, hvalue]
      simp [skipGap_mark after (by decide : isJsonBlank ']' = false), Items.values]
  | .more before value after rest, r, fuel, h => by
    cases fuel with
    | zero => omega
    | succ fuel =>
      have htext : (Items.more before value after rest).text ++ ']' :: r = before.text ++
          (value.text ++ (after.text ++ ',' :: (rest.text ++ ']' :: r))) := by simp [Items.text]
      rw [htext] at h ⊢
      have hvalue := readTree_text value (after.text ++ ',' :: (rest.text ++ ']' :: r)) fuel
        (by simp at h ⊢; omega) (gap_ends after (by simp; decide))
      have hrest := readItems_text rest r fuel (by simp at h ⊢; omega)
      rw [readItems, skipGap_value, hvalue]
      simp [skipGap_mark after (by decide : isJsonBlank ',' = false), hrest, Items.values]

theorem readMembers_text : ∀ (members : Members) (r : List Char) (fuel : Nat),
    2 * (members.text ++ '}' :: r).length + 1 < fuel →
    readMembers alg fuel (members.text ++ '}' :: r) = some (members.values alg, r)
  | .one before name left right value after, r, fuel, h => by
    cases fuel with
    | zero => omega
    | succ fuel =>
      have htext : (Members.one before name left right value after).text ++ '}' :: r =
          before.text ++ '"' :: (piecesText name ++ '"' :: (left.text ++ ':' :: (right.text ++
            (value.text ++ (after.text ++ '}' :: r))))) := by simp [Members.text, stringText]
      rw [htext] at h ⊢
      have hlen : (piecesText name).length < fuel := by simp at h; omega
      have hname := readPieces_text name (left.text ++ ':' :: (right.text ++ (value.text ++
        (after.text ++ '}' :: r)))) hlen
      have hvalue := readTree_text value (after.text ++ '}' :: r) fuel
        (by simp at h ⊢; omega) (gap_ends after (by simp; decide))
      rw [readMembers]
      simp [skipGap_mark before (by decide : isJsonBlank '"' = false), hname,
        skipGap_mark left (by decide : isJsonBlank ':' = false), skipGap_value, hvalue,
        skipGap_mark after (by decide : isJsonBlank '}' = false), Members.values]
  | .more before name left right value after rest, r, fuel, h => by
    cases fuel with
    | zero => omega
    | succ fuel =>
      have htext : (Members.more before name left right value after rest).text ++ '}' :: r =
          before.text ++ '"' :: (piecesText name ++ '"' :: (left.text ++ ':' :: (right.text ++
            (value.text ++ (after.text ++ ',' :: (rest.text ++ '}' :: r)))))) := by
        simp [Members.text, stringText]
      rw [htext] at h ⊢
      have hlen : (piecesText name).length < fuel := by simp at h; omega
      have hname := readPieces_text name (left.text ++ ':' :: (right.text ++ (value.text ++
        (after.text ++ ',' :: (rest.text ++ '}' :: r))))) hlen
      have hvalue := readTree_text value (after.text ++ ',' :: (rest.text ++ '}' :: r)) fuel
        (by simp at h ⊢; omega) (gap_ends after (by simp; decide))
      have hrest := readMembers_text rest r fuel (by simp at h ⊢; omega)
      rw [readMembers]
      simp [skipGap_mark before (by decide : isJsonBlank '"' = false), hname,
        skipGap_mark left (by decide : isJsonBlank ':' = false), skipGap_value, hvalue,
        skipGap_mark after (by decide : isJsonBlank ',' = false), hrest, Members.values]

end

/-- Every text of the grammar is read to its value. -/
theorem readDocument_text (d : Document) : readDocument alg d.text = some (d.value alg) := by
  have hskip : skipGap d.text = d.tree.text ++ d.after.text := skipGap_value d.before d.tree _
  have hafter : d.after.text.head?.any isNumberPart = false := by
    simpa using gap_ends d.after (r := []) rfl
  have hend : skipGap d.after.text = [] := by
    simpa using skipGap_append d.after (r := []) rfl
  have hlen : 2 * (d.tree.text ++ d.after.text).length < 2 * d.text.length + 1 := by
    simp [Document.text]
  simp [readDocument, hskip, readTree_text d.tree d.after.text _ hlen hafter, hend,
    Document.value]

end Trees

end JsonSyntax

end Pwos
