import Pwos.Lib.LikePattern
import Pwos.Tags.Normalize

/-!
# Searching normalised text

`lib/searchText.ts`. `normalizeSearch` reads a query, `normalizedColumn` is what a stored text is
compared by in SQL. Both fold letters; only the first also reads Persian and Arabic digits as
Latin ones, makes every run of blanks one space and trims. So a stored text that has such digits
or blanks where the query occurs is not found (`search_finds_iff`).
-/

namespace Pwos

/-! ## One character -/

/-- A digit of a Persian or an Arabic keyboard. -/
def EasternDigit (c : Char) : Prop :=
  (0x6f0 ≤ c.toNat ∧ c.toNat ≤ 0x6f9) ∨ (0x660 ≤ c.toNat ∧ c.toNat ≤ 0x669)

instance : DecidablePred EasternDigit := fun _ => inferInstanceAs (Decidable (_ ∨ _))

/-- `toLatinDigits` of one character. -/
def latinDigit (c : Char) : Char :=
  if 0x6f0 ≤ c.toNat ∧ c.toNat ≤ 0x6f9 then Char.ofNat (c.toNat - 0x6f0 + 0x30)
  else if 0x660 ≤ c.toNat ∧ c.toNat ≤ 0x669 then Char.ofNat (c.toNat - 0x660 + 0x30)
  else c

/-- ي, ك and the alefs with a mark. -/
def foldLetter (c : Char) : Char :=
  if c = 'ي' then 'ی' else if c = 'ك' then 'ک' else if c = 'أ' ∨ c = 'إ' ∨ c = 'آ' then 'ا' else c

/-- The non-joiner and the two direction marks become spaces. -/
def visible (c : Char) : Char :=
  if c.toNat = 0x200c ∨ c.toNat = 0x200e ∨ c.toNat = 0x200f then ' ' else c

/-- The class `\s`, which is also what `trim` removes. -/
def isBlank (c : Char) : Bool :=
  (9 ≤ c.toNat ∧ c.toNat ≤ 13) || c.toNat ∈ [0x20, 0xa0, 0x1680, 0x2028, 0x2029, 0x202f, 0x205f,
    0x3000, 0xfeff] || (0x2000 ≤ c.toNat ∧ c.toNat ≤ 0x200a)

/-! ## The two sides -/

/-- Lower case, in JavaScript and in Postgres. It leaves digits as they are and makes none. -/
structure LowerCase where
  lower : Text → Text
  lower_digits : ∀ s, lower (s.map latinDigit) = (lower s).map latinDigit

def trim (s : Text) : Text := (s.dropWhile isBlank).rdropWhile isBlank

section Sides
variable (u : LowerCase)

def foldText (s : Text) : Text := ((u.lower s).map foldLetter).map visible

def normalizeSearch (input : Text) : Text :=
  trim (squeeze isBlank ' ' false (foldText u (input.map latinDigit)))

/-- The value of the expression on a column. -/
def normalizedColumn (col : Option Text) : Text := foldText u (col.getD [])

def containsPattern (query : Text) : Text := containing (normalizeSearch u query)

end Sides

/-! ## Digits and letters -/

theorem eastern_cases {c : Char} (h : EasternDigit c) : c ∈ "۰۱۲۳۴۵۶۷۸۹٠١٢٣٤٥٦٧٨٩".toList := by
  have hc : c = Char.ofNat c.toNat := (Char.ofNat_toNat c).symm
  unfold EasternDigit at h
  rw [hc]
  generalize c.toNat = n at *
  have hn : n ∈ (List.range 10).map (0x6f0 + ·) ++ (List.range 10).map (0x660 + ·) := by
    simp only [List.mem_append, List.mem_map, List.mem_range]
    rcases h with h | h
    · exact .inl ⟨n - 0x6f0, by omega, by omega⟩
    · exact .inr ⟨n - 0x660, by omega, by omega⟩
  have hall : ∀ m ∈ (List.range 10).map (0x6f0 + ·) ++ (List.range 10).map (0x660 + ·),
      Char.ofNat m ∈ "۰۱۲۳۴۵۶۷۸۹٠١٢٣٤٥٦٧٨٩".toList := by decide
  exact hall n hn

theorem latinDigit_of_not {c : Char} (h : ¬ EasternDigit c) : latinDigit c = c := by
  unfold EasternDigit at h
  unfold latinDigit
  rw [if_neg (by tauto), if_neg (by tauto)]

theorem not_eastern_latinDigit (c : Char) : ¬ EasternDigit (latinDigit c) := by
  by_cases h : EasternDigit c
  · have hall : "۰۱۲۳۴۵۶۷۸۹٠١٢٣٤٥٦٧٨٩".toList.all (fun d => ¬ EasternDigit (latinDigit d)) = true := by
      decide
    exact of_decide_eq_true (List.all_eq_true.mp hall c (eastern_cases h))
  · rwa [latinDigit_of_not h]

/-- Folding makes no digit. -/
theorem visible_foldLetter_latinDigit (c : Char) :
    visible (foldLetter (latinDigit c)) = latinDigit (visible (foldLetter c)) := by
  by_cases h : EasternDigit c
  · have hall : "۰۱۲۳۴۵۶۷۸۹٠١٢٣٤٥٦٧٨٩".toList.all (fun d =>
        visible (foldLetter (latinDigit d)) = latinDigit (visible (foldLetter d))) = true := by decide
    exact of_decide_eq_true (List.all_eq_true.mp hall c (eastern_cases h))
  · have hfold : ¬ EasternDigit (foldLetter c) := by
      unfold foldLetter
      split
      · decide
      split
      · decide
      split
      · decide
      · exact h
    have hvisible : ¬ EasternDigit (visible (foldLetter c)) := by
      unfold visible
      split
      · decide
      · exact hfold
    rw [latinDigit_of_not h, latinDigit_of_not hvisible]

/-! ## Squeezed texts -/

section Squeeze
variable {p : Char → Bool} {r : Char} {b : Bool} {s t w : Text}

/-- Every run of `p` is a single `r`. -/
structure Squeezed (p : Char → Bool) (r : Char) (s : Text) : Prop where
  single : s.IsChain fun c d => ¬ (p c = true ∧ p d = true)
  same : ∀ c ∈ s, p c = true → c = r

/-- The text neither begins nor ends with `p`. -/
structure Stripped (p : Char → Bool) (s : Text) : Prop where
  head : ∀ c ∈ s.head?, p c = false
  last : ∀ c ∈ s.getLast?, p c = false

theorem squeeze_append (s t : Text) : ∃ b', squeeze p r b (s ++ t) =
    squeeze p r b s ++ squeeze p r b' t := by
  induction s generalizing b with
  | nil => exact ⟨b, rfl⟩
  | cons c s ih =>
    simp only [List.cons_append, squeeze]
    split
    · obtain ⟨b', hb⟩ := @ih true
      refine ⟨b', ?_⟩
      rw [hb]
      split <;> rfl
    · obtain ⟨b', hb⟩ := @ih false
      exact ⟨b', by rw [hb, List.cons_append]⟩

/-- A squeezed text stays as it is. -/
theorem Squeezed.squeeze_eq (h : Squeezed p r s) (hb : b = true → ∀ c ∈ s.head?, p c = false) :
    squeeze p r b s = s := by
  induction s generalizing b with
  | nil => rfl
  | cons c s ih =>
    have htail : Squeezed p r s := ⟨h.single.tail, fun d hd => h.same d (List.mem_cons_of_mem _ hd)⟩
    have hnext : p c = true → ∀ d ∈ s.head?, p d = false := by
      intro hc d hd
      have hsingle := h.single
      cases s with
      | nil => cases hd
      | cons e s => grind
    have hsame := h.same c List.mem_cons_self
    grind [squeeze]

theorem squeezed_squeeze (b : Bool) (s : Text) :
    Squeezed p r (squeeze p r b s) ∧ (b = true → ∀ c ∈ (squeeze p r b s).head?, p c = false) := by
  induction s generalizing b with
  | nil => exact ⟨⟨List.isChain_nil, nofun⟩, by simp [squeeze]⟩
  | cons c s ih =>
    have hcons : ∀ (d : Char) (b' : Bool), (p d = true → d = r) →
        (p d = true → b' = true) → Squeezed p r (d :: squeeze p r b' s) := by
      intro d b' hd hb'
      refine ⟨List.isChain_cons.mpr ⟨?_, (ih b').1.single⟩, ?_⟩
      · intro e he hboth
        have hfalse := (ih b').2 (hb' hboth.1) e he
        rw [hfalse] at hboth
        exact absurd hboth.2 Bool.false_ne_true
      · exact List.forall_mem_cons.mpr ⟨hd, (ih b').1.same⟩
    unfold squeeze
    split
    · split
      · exact ⟨(ih true).1, fun _ => (ih true).2 rfl⟩
      · exact ⟨hcons r true (fun _ => rfl) (fun _ => rfl), fun hb => absurd hb ‹_›⟩
    · rename_i hc
      have hfalse : p c = false := by simpa using hc
      refine ⟨hcons c false (fun h => absurd h hc) (fun h => absurd h hc), fun _ d hd => ?_⟩
      rw [List.head?_cons, Option.mem_some_iff] at hd
      exact hd ▸ hfalse

/-- A squeezed text inside another one is still there when that is squeezed. -/
theorem infix_squeeze (hw : Squeezed p r w) (hstrip : Stripped p w) (h : w <:+: s) :
    w <:+: squeeze p r b s := by
  obtain ⟨x, y, rfl⟩ := h
  obtain ⟨b₁, h₁⟩ := @squeeze_append p r b (x ++ w) y
  obtain ⟨b₂, h₂⟩ := @squeeze_append p r b x w
  rw [h₁, h₂, hw.squeeze_eq fun _ => hstrip.head]
  exact ⟨_, _, rfl⟩

/-! Stripping. -/

theorem stripped_dropWhile (s : Text) : Stripped p ((s.dropWhile p).rdropWhile p) where
  head := by
    intro c hc
    obtain ⟨rest, hrest⟩ := List.head?_eq_some_iff.mp hc
    exact head_stripped hrest
  last := by
    intro c hc
    have hne : (s.dropWhile p).rdropWhile p ≠ [] := by
      intro hnil
      rw [hnil] at hc
      cases hc
    have hlast := List.rdropWhile_last_not p (s.dropWhile p) hne
    rw [List.getLast?_eq_some_getLast hne, Option.mem_some_iff] at hc
    subst hc
    simpa using hlast

theorem Stripped.reverse (h : Stripped p w) : Stripped p w.reverse :=
  ⟨by simpa using h.last, by simpa using h.head⟩

theorem infix_dropWhile (hw : Stripped p w) (h : w <:+: s) : w <:+: s.dropWhile p := by
  obtain ⟨x, y, rfl⟩ := h
  induction x with
  | nil =>
    cases w with
    | nil => exact List.nil_infix
    | cons c w =>
      have hc : p c = false := hw.head c rfl
      exact ⟨[], y, by simp [hc]⟩
  | cons d x ih =>
    rw [List.cons_append, List.cons_append, List.dropWhile_cons]
    split
    · exact ih
    · exact ⟨d :: x, y, rfl⟩

theorem infix_rdropWhile (hw : Stripped p w) (h : w <:+: s) : w <:+: s.rdropWhile p := by
  rw [← List.reverse_infix, List.rdropWhile, List.reverse_reverse]
  exact infix_dropWhile hw.reverse (List.reverse_infix.mpr h)

theorem dropWhile_of_stripped (hw : Stripped p w) : (w.dropWhile p).rdropWhile p = w := by
  have hinside := infix_rdropWhile hw (infix_dropWhile hw (List.infix_refl w))
  have hle : ((w.dropWhile p).rdropWhile p).length ≤ w.length :=
    (List.rdropWhile_prefix p _).length_le.trans (List.dropWhile_suffix p).length_le
  exact (hinside.eq_of_length (Nat.le_antisymm hinside.length_le hle)).symm

theorem Squeezed.of_inside (h : Squeezed p r s) (hinside : t <:+: s) : Squeezed p r t := by
  refine ⟨?_, fun c hc => h.same c (hinside.subset hc)⟩
  obtain ⟨x, y, rfl⟩ := hinside
  exact h.single.left_of_append.right_of_append

theorem mem_squeeze {c : Char} (h : c ∈ squeeze p r b s) : c = r ∨ c ∈ s := by
  induction s generalizing b with
  | nil => cases h
  | cons d s ih => grind [squeeze]

/-- What stands behind a blank begins afresh. -/
theorem squeeze_append_cons {c : Char} (hc : p c = true) (s t : Text) :
    squeeze p r b (s ++ c :: t) = squeeze p r b (s ++ [c]) ++ squeeze p r true t := by
  induction s generalizing b with
  | nil => cases b <;> simp [squeeze, hc]
  | cons d s ih => cases b <;> simp [squeeze, ih] <;> split <;> simp

theorem squeeze_true (hr : p r = true) (t : Text) :
    squeeze p r true t = (squeeze p r false t).dropWhile p := by
  have hhead := (squeezed_squeeze (p := p) (r := r) true t).2 rfl
  have hkeep : (squeeze p r true t).dropWhile p = squeeze p r true t := by
    cases h : squeeze p r true t with
    | nil => rfl
    | cons c u => simp [hhead c (by rw [h]; rfl)]
  cases t with
  | nil => rfl
  | cons c t =>
    by_cases hc : p c = true
    · have hnext : squeeze p r true (c :: t) = squeeze p r true t := by simp [squeeze, hc]
      have hfirst : squeeze p r false (c :: t) = r :: squeeze p r true t := by simp [squeeze, hc]
      rw [hfirst, List.dropWhile_cons_of_pos hr, ← hnext, hkeep]
    · simp [squeeze, hc]

/-- A blank at the end leaves one blank at the end. -/
theorem squeeze_concat {c : Char} (hc : p c = true) (s : Text) :
    (b = true ∧ squeeze p r b (s ++ [c]) = []) ∨ ∃ u, squeeze p r b (s ++ [c]) = u ++ [r] := by
  induction s generalizing b with
  | nil =>
    cases b with
    | true => exact .inl ⟨rfl, by simp [squeeze, hc]⟩
    | false => exact .inr ⟨[], by simp [squeeze, hc]⟩
  | cons d s ih =>
    have hlater (b' : Bool) (e : Char) (h : b' = true → e = r) :
        ∃ u, e :: squeeze p r b' (s ++ [c]) = u ++ [r] := by
      obtain ⟨hb, hnil⟩ | ⟨u, hu⟩ := @ih b'
      · exact ⟨[], by rw [hnil, h hb, List.nil_append]⟩
      · exact ⟨e :: u, by rw [hu, List.cons_append]⟩
    rw [List.cons_append, squeeze]
    split
    · cases b with
      | true => exact (@ih true).imp_left fun h => ⟨rfl, h.2⟩
      | false => exact .inr (hlater true r fun _ => rfl)
    · exact .inr (hlater false d (by simp))

theorem dropWhile_append_of_ne (h : s.dropWhile p ≠ []) (t : Text) :
    (s ++ t).dropWhile p = s.dropWhile p ++ t := by
  rw [List.dropWhile_append, if_neg (by simpa using h)]

theorem rdropWhile_append_of_ne (h : t.rdropWhile p ≠ []) (s : Text) :
    (s ++ t).rdropWhile p = s ++ t.rdropWhile p := by
  unfold List.rdropWhile at *
  rw [List.reverse_append, dropWhile_append_of_ne (by simpa using h)]
  simp

end Squeeze

/-- Squeezed and trimmed, a text with a blank in it is its two sides and a space. -/
theorem trim_squeeze_append_cons {c : Char} {s t : Text} (hc : isBlank c = true)
    (hs : trim (squeeze isBlank ' ' false s) ≠ []) (ht : trim (squeeze isBlank ' ' false t) ≠ []) :
    trim (squeeze isBlank ' ' false (s ++ c :: t)) =
      trim (squeeze isBlank ' ' false s) ++ ' ' :: trim (squeeze isBlank ' ' false t) := by
  have hspace : isBlank ' ' = true := by decide
  obtain ⟨hb, -⟩ | ⟨u, hu⟩ := squeeze_concat (b := false) (r := ' ') hc s
  · cases hb
  obtain ⟨b', hb'⟩ := squeeze_append (p := isBlank) (r := ' ') (b := false) s [c]
  have hlast : (u.dropWhile isBlank).rdropWhile isBlank = u.dropWhile isBlank := by
    have hsingle := ((squeezed_squeeze (p := isBlank) (r := ' ') false (s ++ [c])).1).single
    rw [hu, List.isChain_append] at hsingle
    rw [List.rdropWhile_eq_self_iff]
    intro hne hblank
    rw [(List.dropWhile_suffix isBlank).getLast hne] at hblank
    exact hsingle.2.2 _ (List.getLast?_eq_some_getLast _) ' ' rfl ⟨hblank, hspace⟩
  -- the left side alone is `u`, perhaps with a space behind it
  have hleft : trim (squeeze isBlank ' ' false s) = u.dropWhile isBlank := by
    have hcase : squeeze isBlank ' ' false s = u ∨ squeeze isBlank ' ' false s = u ++ [' '] := by
      rw [hu] at hb'
      cases b' <;> simp_all [squeeze]
    obtain hcase | hcase := hcase
    · rw [hcase, trim, hlast]
    · rw [hcase, trim, List.dropWhile_append]
      split
      · simp_all
      · rw [List.rdropWhile_concat_pos _ _ _ hspace, hlast]
  have hright : (' ' :: (squeeze isBlank ' ' false t).dropWhile isBlank).rdropWhile isBlank =
      ' ' :: trim (squeeze isBlank ' ' false t) := rdropWhile_append_of_ne ht [' ']
  rw [hleft] at hs ⊢
  rw [squeeze_append_cons hc, hu, squeeze_true hspace, List.append_assoc, trim,
    dropWhile_append_of_ne hs, List.singleton_append, rdropWhile_append_of_ne, hright]
  rw [hright]
  exact List.cons_ne_nil _ _

/-! ## What is found -/

/-- A folded text with Latin digits, single spaces and nothing around them. -/
def reading (s : Text) : Text := trim (squeeze isBlank ' ' false (s.map latinDigit))

/-- No Persian or Arabic digits, and no blanks but single spaces. -/
structure PlainText (s : Text) : Prop where
  digits : ∀ c ∈ s, ¬ EasternDigit c
  blanks : Squeezed isBlank ' ' s

section Search
variable {u : LowerCase} {s w query stored : Text}

theorem normalizeSearch_eq (u : LowerCase) (s : Text) :
    normalizeSearch u s = reading (foldText u s) := by
  unfold normalizeSearch reading foldText
  simp only [u.lower_digits, List.map_map, Function.comp_def, visible_foldLetter_latinDigit]

theorem map_latinDigit (h : ∀ c ∈ s, ¬ EasternDigit c) : s.map latinDigit = s :=
  (List.map_congr_left fun c hc => latinDigit_of_not (h c hc)).trans (List.map_id' s)

theorem plain_reading (s : Text) : PlainText (reading s) := by
  have hinside : reading s <:+: squeeze isBlank ' ' false (s.map latinDigit) :=
    (List.rdropWhile_prefix _ _).isInfix.trans (List.dropWhile_suffix _).isInfix
  refine ⟨fun c hc => ?_, (squeezed_squeeze false _).1.of_inside hinside⟩
  rcases mem_squeeze (hinside.subset hc) with rfl | hmem
  · decide
  · obtain ⟨d, -, rfl⟩ := List.mem_map.mp hmem
    exact not_eastern_latinDigit d

theorem stripped_reading (s : Text) : Stripped isBlank (reading s) := stripped_dropWhile _

/-- A plain text is read as it is. -/
theorem reading_inside (h : PlainText s) : reading s <:+: s := by
  unfold reading
  rw [map_latinDigit h.digits, h.blanks.squeeze_eq (b := false) (absurd · Bool.false_ne_true)]
  exact (List.rdropWhile_prefix _ _).isInfix.trans (List.dropWhile_suffix _).isInfix

/-- What is read of a plain part is read of the whole. -/
theorem infix_reading (hw : PlainText w) (hstrip : Stripped isBlank w) (h : w <:+: s) :
    w <:+: reading s := by
  have hmap : w <:+: s.map latinDigit := by
    have hall := h.map latinDigit
    rwa [map_latinDigit hw.digits] at hall
  exact infix_rdropWhile hstrip (infix_dropWhile hstrip (infix_squeeze hw.blanks hstrip hmap))

theorem reading_eq (h : PlainText s) (hstrip : Stripped isBlank s) : reading s = s :=
  (reading_inside h).eq_of_length (Nat.le_antisymm (reading_inside h).length_le
    (infix_reading h hstrip (List.infix_refl s)).length_le)

theorem like_column : like (containsPattern u query) (normalizedColumn u (some stored)) = true ↔
    normalizeSearch u query <:+: foldText u stored := like_containing

variable (u query stored) in
/-- Where the normalised text has the query, the stored one has a plain part that reads as it. -/
def PlainWhereFound : Prop :=
  normalizeSearch u query <:+: normalizeSearch u stored →
    ∃ part, part <:+: foldText u stored ∧ PlainText part ∧ reading part = normalizeSearch u query

variable (u query stored) in
/-- The search finds what the normalised texts say exactly where the query occurs on plain
characters, and it finds nothing else. -/
theorem search_finds_iff :
    ((normalizeSearch u query <:+: normalizeSearch u stored ↔
        like (containsPattern u query) (normalizedColumn u (some stored)) = true) ↔
      PlainWhereFound u query stored) ∧
    (like (containsPattern u query) (normalizedColumn u (some stored)) = true →
      normalizeSearch u query <:+: normalizeSearch u stored) := by
  rw [like_column, PlainWhereFound]
  rw [normalizeSearch_eq u query, normalizeSearch_eq u stored]
  set w := reading (foldText u query)
  have hplain : PlainText w := plain_reading _
  have hstrip : Stripped isBlank w := stripped_reading _
  have hback : w <:+: foldText u stored → w <:+: reading (foldText u stored) :=
    infix_reading hplain hstrip
  refine ⟨⟨fun h hfound => ?_, fun h => ⟨fun hfound => ?_, hback⟩⟩, hback⟩
  · exact ⟨w, h.mp hfound, hplain, reading_eq hplain hstrip⟩
  · obtain ⟨part, hpart, hplain', hreads⟩ := h hfound
    rw [← hreads]
    exact (reading_inside hplain').trans hpart

/-- A stored text that is plain is searched right, whatever the query. -/
theorem plainWhereFound_of_plain (h : PlainText (foldText u stored)) :
    PlainWhereFound u query stored := by
  intro hfound
  rw [normalizeSearch_eq, normalizeSearch_eq u stored] at hfound
  rw [normalizeSearch_eq]
  exact ⟨_, hfound.trans (reading_inside h), plain_reading _,
    reading_eq (plain_reading _) (stripped_reading _)⟩

/-- A number typed with Persian digits is not found by its Latin ones, and two spaces are not
found by one. -/
theorem search_misses :
    (let u : LowerCase := ⟨id, fun _ => rfl⟩
     let query := "plate 12".toList
     2 ≤ (normalizeSearch u query).length ∧ (normalizeSearch u query).length ≤ 80 ∧
      ∀ stored ∈ ["plate ۱۲".toList, "plate  12".toList],
        normalizeSearch u query <:+: normalizeSearch u stored ∧
          like (containsPattern u query) (normalizedColumn u (some stored)) = false) := by
  decide +kernel

end Search

end Pwos
