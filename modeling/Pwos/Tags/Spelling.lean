import Pwos.Tags.Normalize

/-!
# A tag spelled again

What every tag of `normalizeTag` looks like, and when it is its own normal form. The passes take
characters out after the text is composed, so that a letter and a mark can come to stand together
that compose.
-/

namespace Pwos

/-- A character in the spelling of tags: a letter, mark or number that is neither Arabic nor upper
case. -/
def Unicode.Settled (u : Unicode) (c : Char) : Prop :=
  u.word c = true ∧ persianDigit (persianLetter c) = c ∧ u.lower [c] = [c]

/-- What ECMAScript and the Unicode standard say of normal forms, lower case and the classes. -/
structure Unicode.Lawful (u : Unicode) : Prop where
  nfc_nfc : ∀ s, u.nfc (u.nfc s) = u.nfc s
  /-- A normal form is closed under substrings. -/
  nfc_part : ∀ s t, u.nfc s = s → t <:+: s → u.nfc t = t
  /-- Nothing composes with an underscore, a hyphen, a non-joiner or a Persian digit. -/
  nfc_inert : ∀ s t e, tagEdge e = true ∨ PersianDigit e →
    u.nfc (s ++ e :: t) = u.nfc s ++ e :: u.nfc t
  nfc_ne_nil : ∀ s, s ≠ [] → u.nfc s ≠ []
  nfc_settled : ∀ s, (∀ c ∈ s, u.Settled c) → ∀ c ∈ u.nfc s, u.Settled c
  /-- What is made a lower case letter stays one, and is none of the Arabic characters. -/
  lower_char : ∀ s, ∀ c ∈ u.lower s,
    u.lower [c] = [c] ∧ (c ∈ s ∨ persianDigit (persianLetter c) = c)
  lower_lower : ∀ s, (∀ c ∈ s, u.lower [c] = [c]) → u.lower s = s
  word_plain : ∀ c, u.word c = true →
    c ≠ '#' ∧ c ≠ '＃' ∧ u.space c = false ∧ tagEdge c = false
  edge_plain : ∀ c, tagEdge c = true → u.space c = false ∧ u.lower [c] = [c]
  digit_lower : ∀ c, PersianDigit c → u.lower [c] = [c]

/-- Not both are underscores. -/
def Apart (a b : Char) : Prop := ¬ (a = '_' ∧ b = '_')

/-- The characters and the shape of a tag. -/
structure Spelled (u : Unicode) (t : Text) : Prop where
  chars : ∀ c ∈ t, u.Settled c ∨ tagEdge c = true
  start : ∀ c, t.head? = some c → tagEdge c = false
  stop : ∀ c, t.getLast? = some c → tagEdge c = false
  apart : t.IsChain Apart

/-- What is left of a text before it is cut to the length of a tag. -/
def tagText (u : Unicode) (raw : Text) : Text :=
  let s := (u.nfc raw).dropWhile fun c => c = '#' || c = '＃' || u.space c
  let s := u.lower ((s.map persianLetter).map persianDigit)
  let s := (squeeze u.space '_' false s).filter fun c => u.word c || tagEdge c
  ((squeeze (· = '_') '_' false s).dropWhile tagEdge).rdropWhile tagEdge

/-- The characters that are left of the text of a tag stand in normal form. -/
def Composed (u : Unicode) (raw : Text) : Prop :=
  u.nfc ((tagText u raw).take MAX_TAG_LENGTH) = (tagText u raw).take MAX_TAG_LENGTH

theorem normalizeTag_eq_some_iff {u : Unicode} {raw tag : Text} : normalizeTag u raw = some tag ↔
    tagText u raw ≠ [] ∧ ((tagText u raw).take MAX_TAG_LENGTH).rdropWhile tagEdge = tag := by
  have hdef : normalizeTag u raw = if (tagText u raw).isEmpty then none
    else some (((tagText u raw).take MAX_TAG_LENGTH).rdropWhile tagEdge) := rfl
  simp [hdef]

/-! ## Runs -/

section Squeeze
variable {p : Char → Bool} {r c : Char}

theorem of_mem_squeeze {inRun : Bool} {s : Text} (h : c ∈ squeeze p r inRun s) :
    c = r ∨ c ∈ s ∧ p c = false := by
  fun_induction squeeze p r inRun s <;> grind

theorem squeeze_of_none {s : Text} (h : ∀ c ∈ s, p c = false) (inRun : Bool) :
    squeeze p r inRun s = s := by
  induction s generalizing inRun with
  | nil => rfl
  | cons c s ih => grind [squeeze]

/-- No two underscores stand together, and none follows one that is already there. -/
theorem squeeze_apart (inRun : Bool) (s : Text) :
    (squeeze (· = '_') '_' inRun s).IsChain Apart ∧
      (inRun = true → ∀ c ∈ (squeeze (· = '_') '_' inRun s).head?, c ≠ '_') := by
  fun_induction squeeze (· = '_') '_' inRun s <;> grind [List.isChain_cons, Apart]

theorem squeeze_of_apart {s : Text} {inRun : Bool} (h : s.IsChain Apart)
    (hhead : inRun = true → ∀ c ∈ s.head?, c ≠ '_') : squeeze (· = '_') '_' inRun s = s := by
  induction s generalizing inRun with
  | nil => rfl
  | cons c s ih => grind [squeeze, List.isChain_cons, Apart]

end Squeeze

/-! ## The shape of a tag -/

section Shape
variable {u : Unicode} {raw s t : Text} {c : Char}

theorem Unicode.Settled.tagEdge (hu : u.Lawful) (h : u.Settled c) : tagEdge c = false :=
  (hu.word_plain c h.1).2.2.2

theorem persian_persianDigit (h : PersianDigit c) : persianDigit (persianLetter c) = c := by
  have hne : ∀ d : Char, d.toNat < 0x6f0 → c ≠ d := by
    rintro d hd rfl
    exact absurd h.1 (by omega)
  have hletter : persianLetter c = c := by
    simp [persianLetter, hne 'ي' (by decide), hne 'ى' (by decide), hne 'ك' (by decide)]
  have hrange := h.1
  rw [hletter, persianDigit, if_neg (by omega), if_neg (by omega)]

theorem Unicode.settled_persianDigit (hu : u.Lawful) (h : PersianDigit c) : u.Settled c :=
  ⟨u.word_digit c h, persian_persianDigit h, hu.digit_lower c h⟩

theorem persian_persian (c : Char) :
    persianDigit (persianLetter (persianDigit (persianLetter c))) =
      persianDigit (persianLetter c) := by
  have hmade (n : Nat) (h : n < 10) : PersianDigit (Char.ofNat (0x6f0 + n)) := by
    interval_cases n <;> decide
  generalize hd : persianLetter c = d
  have hletter : persianLetter d = d := by
    have hyeh : persianLetter 'ی' = 'ی' := by decide
    have hkaf : persianLetter 'ک' = 'ک' := by decide
    unfold persianLetter at hd
    grind [persianLetter]
  have hvalue : PersianDigit (persianDigit d) ∨ persianDigit d = d := by
    unfold persianDigit
    split_ifs with hlatin harabic
    · exact .inl (hmade _ (by omega))
    · rw [Nat.add_comm]
      exact .inl (hmade _ (by omega))
    · exact .inr rfl
  rcases hvalue with h | h
  · exact persian_persianDigit h
  · rw [h, hletter, h]

/-- What stripping leaves ends with no edge. -/
theorem last_stripped {p : Char → Bool} (h : (s.rdropWhile p).getLast? = some c) :
    p c = false := by
  obtain ⟨rest, hrest⟩ := List.getLast?_eq_some_iff.mp h
  have hne : s.rdropWhile p ≠ [] := by simp [hrest]
  have hlast := List.rdropWhile_last_not p s hne
  simpa [hrest] using hlast

theorem tagText_spelled (hu : u.Lawful) (raw : Text) : Spelled u (tagText u raw) where
  chars c hc := by
    have hsqueezed := List.dropWhile_subset _ ((List.rdropWhile_prefix _ _).subset hc)
    rcases of_mem_squeeze hsqueezed with rfl | ⟨hkept, -⟩
    · exact .inr rfl
    obtain ⟨hword, hallowed⟩ := List.mem_filter.mp hkept
    rcases of_mem_squeeze hword with rfl | ⟨hlower, -⟩
    · exact .inr rfl
    obtain ⟨hsmall, hfrom⟩ := hu.lower_char _ c hlower
    have hpersian : persianDigit (persianLetter c) = c := by
      rcases hfrom with hmem | h
      · simp only [List.mem_map, exists_exists_and_eq_and] at hmem
        obtain ⟨a, -, rfl⟩ := hmem
        exact persian_persian a
      · exact h
    rcases Bool.or_eq_true_iff.mp hallowed with h | h
    · exact .inl ⟨h, hpersian, hsmall⟩
    · exact .inr h
  start c hc := by
    obtain ⟨rest, hrest⟩ := List.head?_eq_some_iff.mp hc
    exact head_stripped hrest
  stop _ hc := last_stripped hc
  apart := List.IsChain.prefix ((squeeze_apart _ _).1.suffix (List.dropWhile_suffix _))
    (List.rdropWhile_prefix _ _)

/-- A tag is cut off and keeps its shape. -/
theorem Spelled.cut (h : Spelled u t) (n : Nat) : Spelled u ((t.take n).rdropWhile tagEdge) where
  chars c hc := h.chars c (List.mem_of_mem_take ((List.rdropWhile_prefix _ _).subset hc))
  start c hc := by
    obtain ⟨rest, hrest⟩ := List.head?_eq_some_iff.mp hc
    obtain ⟨more, hmore⟩ := (List.rdropWhile_prefix tagEdge (t.take n)).trans (List.take_prefix n t)
    exact h.start c (by rw [← hmore, hrest]; rfl)
  stop _ hc := last_stripped hc
  apart := List.IsChain.prefix (h.apart.take n) (List.rdropWhile_prefix _ _)

/-- Nothing is taken out of a text whose normal form is spelled as a tag is. -/
theorem tagText_of_spelled (hu : u.Lawful) (h : Spelled u (u.nfc s)) : tagText u s = u.nfc s := by
  have hplain (c : Char) (hc : c ∈ u.nfc s) : u.space c = false ∧ u.lower [c] = [c] ∧
      persianDigit (persianLetter c) = c ∧ (u.word c || tagEdge c) = true := by
    rcases h.chars c hc with hset | hedge
    · exact ⟨(hu.word_plain c hset.1).2.2.1, hset.2.2, hset.2.1, by simp [hset.1]⟩
    · have hcases : c = '_' ∨ c = '-' ∨ c = ZWNJ := by simpa [tagEdge, or_assoc] using hedge
      refine ⟨(hu.edge_plain c hedge).1, (hu.edge_plain c hedge).2, ?_, by simp [hedge]⟩
      rcases hcases with rfl | rfl | rfl <;> decide
  have hdrop : (u.nfc s).dropWhile (fun c => c = '#' || c = '＃' || u.space c) = u.nfc s := by
    cases hs : u.nfc s with
    | nil => rfl
    | cons c rest =>
      have hc : c ∈ u.nfc s := by simp [hs]
      have hedge := h.start c (by simp [hs])
      have hset := (h.chars c hc).resolve_right (by simp [hedge])
      obtain ⟨hhash, hwide, hspace, -⟩ := hu.word_plain c hset.1
      simp [hhash, hwide, hspace]
  have hmap : ((u.nfc s).map persianLetter).map persianDigit = u.nfc s := by
    rw [List.map_map]
    exact (List.map_congr_left (g := id) fun c hc => (hplain c hc).2.2.1).trans (List.map_id _)
  have hlower := hu.lower_lower _ fun c hc => (hplain c hc).2.1
  have hspaces := squeeze_of_none (r := '_') (fun c hc => (hplain c hc).1) false
  have hkept : (u.nfc s).filter (fun c => u.word c || tagEdge c) = u.nfc s :=
    List.filter_eq_self.mpr fun c hc => (hplain c hc).2.2.2
  have hruns : squeeze (· = '_') '_' false (u.nfc s) = u.nfc s :=
    squeeze_of_apart h.apart (by simp)
  have hstart : (u.nfc s).dropWhile tagEdge = u.nfc s := by
    cases hs : u.nfc s with
    | nil => rfl
    | cons c rest => simp [h.start c (by simp [hs])]
  have hstop : (u.nfc s).rdropWhile tagEdge = u.nfc s := by
    refine List.rdropWhile_eq_self_iff.mpr fun hne => ?_
    simp [h.stop _ (List.getLast?_eq_some_getLast hne)]
  unfold tagText
  dsimp only
  rw [hdrop, hmap, hlower, hspaces, hkept, hruns, hstart, hstop]

/-! ## The normal form of a tag -/

/-- A text is a run without edges, or such a run, an edge and a text. -/
theorem edge_induction {P : Text → Prop} (hrun : ∀ w, (∀ c ∈ w, tagEdge c = false) → P w)
    (hedge : ∀ w e t, (∀ c ∈ w, tagEdge c = false) → tagEdge e = true → P t → P (w ++ e :: t))
    (t : Text) : P t := by
  generalize hn : t.length = n
  induction n using Nat.strong_induction_on generalizing t with
  | _ n ih =>
    subst hn
    have hw (c : Char) (hc : c ∈ t.takeWhile (!tagEdge ·)) : tagEdge c = false := by
      simpa using List.mem_takeWhile_imp hc
    have hsplit := List.takeWhile_append_dropWhile (p := (!tagEdge ·)) (l := t)
    cases hrest : t.dropWhile (!tagEdge ·) with
    | nil =>
      rw [hrest, List.append_nil] at hsplit
      exact hsplit ▸ hrun _ hw
    | cons e rest =>
      have he : tagEdge e = true := by
        have := List.head?_dropWhile_not (!tagEdge ·) t
        simpa [hrest] using this
      rw [hrest] at hsplit
      have hlen : rest.length < t.length := by
        rw [← hsplit]
        simp
        omega
      exact hsplit ▸ hedge _ e rest hw he (ih _ hlen rest rfl)

theorem nfc_nil (hu : u.Lawful) : u.nfc [] = [] :=
  hu.nfc_part _ _ (hu.nfc_nfc []) List.nil_infix

theorem isChain_of_settled (hu : u.Lawful) (h : ∀ c ∈ t, u.Settled c) : t.IsChain Apart := by
  induction t with
  | nil => exact .nil
  | cons c t ih =>
    have hc := (h c List.mem_cons_self).tagEdge hu
    refine (ih fun d hd => h d (List.mem_cons_of_mem _ hd)).cons fun d _ hboth => ?_
    rw [hboth.1] at hc
    cases hc

/-- The normal form has the edges of the text, and letters between them where the text has. -/
theorem nfc_shape (hu : u.Lawful) (t : Text) (h : ∀ c ∈ t, u.Settled c ∨ tagEdge c = true) :
    (∀ c ∈ u.nfc t, u.Settled c ∨ tagEdge c = true) ∧
    (∀ c, tagEdge c = true → (u.nfc t).head? = some c → t.head? = some c) ∧
    (∀ c, tagEdge c = true → (u.nfc t).getLast? = some c → t.getLast? = some c) ∧
    (t.IsChain Apart → (u.nfc t).IsChain Apart) := by
  induction t using edge_induction with
  | hrun w hw =>
    have hset := hu.nfc_settled w fun c hc => (h c hc).resolve_right (by simp [hw c hc])
    have hnone (c : Char) (hedge : tagEdge c = true) (hc : c ∈ u.nfc w) : False := by
      simp [(hset c hc).tagEdge hu] at hedge
    refine ⟨fun c hc => .inl (hset c hc), fun c hedge hc => ?_, fun c hedge hc => ?_,
      fun _ => isChain_of_settled hu hset⟩
    · exact (hnone c hedge (List.mem_of_head? hc)).elim
    · exact (hnone c hedge (List.mem_of_getLast? hc)).elim
  | hedge w e t hw he ih =>
    have hset := hu.nfc_settled w fun c hc => (h c (by simp [hc])).resolve_right (by simp [hw c hc])
    obtain ⟨hchars, hstart, hstop, hapart⟩ := ih fun c hc => h c (by simp [hc])
    rw [hu.nfc_inert w t e (.inl he)]
    refine ⟨fun c hc => ?_, fun c hedge hc => ?_, fun c hedge hc => ?_, fun hchain => ?_⟩
    · rcases List.mem_append.mp hc with hc | hc
      · exact .inl (hset c hc)
      · rcases List.mem_cons.mp hc with rfl | hc
        · exact .inr he
        · exact hchars c hc
    · cases w with
      | nil => simpa [nfc_nil hu] using hc
      | cons a w =>
        -- a run of letters has a normal form that begins with one
        obtain ⟨b, v, hv⟩ := List.exists_cons_of_ne_nil (hu.nfc_ne_nil (a :: w) (by simp))
        have hb := (hset b (by simp [hv])).tagEdge hu
        simp only [hv, List.cons_append, List.head?_cons, Option.some.injEq] at hc
        simp [← hc, hb] at hedge
    · cases t with
      | nil => simpa [nfc_nil hu] using hc
      | cons a t =>
        have hne := hu.nfc_ne_nil (a :: t) (by simp)
        have hlast : (u.nfc (a :: t)).getLast? = some c := by
          simpa [List.getLast?_append, List.getLast?_cons, List.getLast?_eq_some_getLast hne]
            using hc
        simpa [List.getLast?_append] using hstop c hedge hlast
    · obtain ⟨hleft, hright⟩ := List.isChain_split.mp hchain
      obtain ⟨hhead, htail⟩ := List.isChain_cons.mp hright
      refine List.isChain_split.mpr ⟨?_, List.isChain_cons.mpr ⟨fun c hc hboth => ?_, hapart htail⟩⟩
      · refine (isChain_of_settled hu hset).append (.singleton e) fun a ha b _ hboth => ?_
        have := (hset a (List.mem_of_getLast? ha)).tagEdge hu
        rw [hboth.1] at this
        cases this
      · have hedge : tagEdge c = true := by
          rw [hboth.2]
          rfl
        exact hhead c (hstart c hedge hc) hboth

theorem Spelled.nfc (hu : u.Lawful) (h : Spelled u t) : Spelled u (u.nfc t) := by
  obtain ⟨hchars, hstart, hstop, hapart⟩ := nfc_shape hu t h.chars
  refine ⟨hchars, fun c hc => ?_, fun c hc => ?_, hapart h.apart⟩
  · cases hedge : tagEdge c with
    | false => rfl
    | true => exact hedge ▸ h.start c (hstart c hedge hc)
  · cases hedge : tagEdge c with
    | false => rfl
    | true => exact hedge ▸ h.stop c (hstop c hedge hc)

theorem nfc_append_inert (hu : u.Lawful) (t : Text) {more : Text}
    (h : ∀ c ∈ more, tagEdge c = true ∨ PersianDigit c) : u.nfc (t ++ more) = u.nfc t ++ more := by
  induction more generalizing t with
  | nil => simp
  | cons e more ih =>
    have hrest := ih [] fun c hc => h c (List.mem_cons_of_mem _ hc)
    rw [List.nil_append, nfc_nil hu, List.nil_append] at hrest
    rw [hu.nfc_inert t more e (h e List.mem_cons_self), hrest]

/-- What is cut off at the end takes no part in the normal form. -/
theorem composed_iff (hu : u.Lawful) :
    Composed u raw ↔ u.nfc (((tagText u raw).take MAX_TAG_LENGTH).rdropWhile tagEdge) =
      ((tagText u raw).take MAX_TAG_LENGTH).rdropWhile tagEdge := by
  unfold Composed
  generalize (tagText u raw).take MAX_TAG_LENGTH = t
  have hedges (c : Char) (hc : c ∈ t.rtakeWhile tagEdge) : tagEdge c = true ∨ PersianDigit c :=
    .inl (List.mem_rtakeWhile_imp hc)
  have hsplit := List.rdropWhile_append_rtakeWhile (p := tagEdge) (l := t)
  conv_lhs => rw [← hsplit, nfc_append_inert hu _ hedges]
  exact List.append_left_inj _

/-- A text with the shape of a tag is its own normal form exactly when it is composed. -/
theorem normalizeTag_self_iff (hu : u.Lawful) (ht : Spelled u t) (hne : t ≠ [])
    (hlen : t.length ≤ MAX_TAG_LENGTH) : normalizeTag u t = some t ↔ u.nfc t = t := by
  rw [normalizeTag_eq_some_iff, tagText_of_spelled hu (ht.nfc hu)]
  constructor
  · rintro ⟨-, hcut⟩
    -- a tag that comes back is the beginning of a normal form
    have hfirst : t <+: u.nfc t := by
      have := (List.rdropWhile_prefix tagEdge _).trans (List.take_prefix MAX_TAG_LENGTH (u.nfc t))
      rwa [hcut] at this
    exact hu.nfc_part _ _ (hu.nfc_nfc t) hfirst.isInfix
  · intro hnfc
    rw [hnfc, List.take_of_length_le hlen]
    refine ⟨hne, List.rdropWhile_eq_self_iff.mpr fun hne => ?_⟩
    simp [ht.stop _ (List.getLast?_eq_some_getLast hne)]

theorem normalizeTag_spelled (hu : u.Lawful) {tag : Text} (h : normalizeTag u raw = some tag) :
    Spelled u tag := by
  obtain ⟨-, rfl⟩ := normalizeTag_eq_some_iff.mp h
  exact (tagText_spelled hu raw).cut _

theorem Spelled.no_double (h : Spelled u t) : ¬ ['_', '_'] <:+: t := by
  intro hdouble
  have := List.IsChain.infix h.apart hdouble
  simp [Apart] at this

theorem normalizeTag_tag_iff (hu : u.Lawful) {tag : Text} (h : normalizeTag u raw = some tag) :
    normalizeTag u tag = some tag ↔ Composed u raw := by
  have hself := normalizeTag_self_iff hu (normalizeTag_spelled hu h) (normalizeTag_ne_nil h)
    (normalizeTag_length h)
  obtain ⟨-, rfl⟩ := normalizeTag_eq_some_iff.mp h
  rw [hself, composed_iff hu]

/-- Every tag is short, allowed and tidy, and it is its own normal form exactly when the characters
that are left of its text stand in normal form. -/
theorem normalizeTag_spelling (hu : u.Lawful) {tag : Text} (h : normalizeTag u raw = some tag) :
    (1 ≤ tag.length ∧ tag.length ≤ MAX_TAG_LENGTH) ∧
    (∀ c ∈ tag, (u.word c || tagEdge c) = true) ∧
    (∀ c, tag.head? = some c → tagEdge c = false) ∧
    (∀ c, tag.getLast? = some c → tagEdge c = false) ∧ ¬ ['_', '_'] <:+: tag ∧
    (normalizeTag u tag = some tag ↔ Composed u raw) := by
  have hspelled := normalizeTag_spelled hu h
  refine ⟨⟨List.length_pos_iff.mpr (normalizeTag_ne_nil h), normalizeTag_length h⟩, fun c hc => ?_,
    hspelled.start, hspelled.stop, hspelled.no_double, normalizeTag_tag_iff hu h⟩
  rcases hspelled.chars c hc with hset | hedge
  · simp [hset.1]
  · simp [hedge]

end Shape

/-! ## A letter that composes in lower case -/

/-- The mark of J̌ and ǰ. -/
def caron : Char := Char.ofNat 0x30c

/-- The composed ǰ. Its upper case is not composed. -/
def jCaron : Char := Char.ofNat 0x1f0

def composeCaron : Text → Text
  | [] => []
  | [c] => [c]
  | c :: d :: s =>
    if c = 'j' ∧ d = caron then jCaron :: composeCaron s else c :: composeCaron (d :: s)

attribute [elab_as_elim] composeCaron.induct_unfolding

section Caron
variable {s t : Text} {c : Char}

theorem mem_composeCaron (h : c ∈ composeCaron s) : c ∈ s ∨ c = jCaron := by
  fun_induction composeCaron s <;> grind

theorem composeCaron_keeps (h : c ∈ s) (hj : c ≠ 'j') (hcaron : c ≠ caron) :
    c ∈ composeCaron s := by
  fun_induction composeCaron s <;> grind

theorem composeCaron_head (h : (composeCaron s).head? = some caron) : s.head? = some caron := by
  have hne : jCaron ≠ caron := by decide
  fun_induction composeCaron s <;> grind

theorem composeCaron_isChain (s : Text) :
    (composeCaron s).IsChain fun a b => ¬ (a = 'j' ∧ b = caron) := by
  have hne : jCaron ≠ 'j' := by decide
  fun_induction composeCaron s with
  | case1 => exact .nil
  | case2 c => exact .singleton c
  | case3 c d s h ih => exact ih.cons fun a _ hboth => hne hboth.1
  | case4 c d s h ih =>
    refine ih.cons fun a ha hboth => h ⟨hboth.1, ?_⟩
    rw [hboth.2] at ha
    simpa using composeCaron_head ha

theorem composeCaron_of_isChain (h : s.IsChain fun a b => ¬ (a = 'j' ∧ b = caron)) :
    composeCaron s = s := by
  fun_induction composeCaron s <;> grind

theorem composeCaron_append (s t : Text) {e : Char} (he : e ≠ 'j' ∧ e ≠ caron) :
    composeCaron (s ++ e :: t) = composeCaron s ++ e :: composeCaron t := by
  fun_induction composeCaron s with
  | case1 => cases t <;> simp [composeCaron, he.1]
  | case2 c => cases t <;> simp [composeCaron, he.1, he.2]
  | case3 c d s h ih => simp [composeCaron, h, ih]
  | case4 c d s h ih => simpa [composeCaron, h] using ih

theorem toLower_cases (c : Char) : c.toLower = c ∨ ∃ n < 26, c.toLower = Char.ofNat (97 + n) := by
  by_cases h : c.val ≥ 'A'.val ∧ c.val ≤ 'Z'.val
  · have hlow : 65 ≤ c.toNat := UInt32.le_iff_toNat_le.mp h.1
    have hhigh : c.toNat ≤ 90 := UInt32.le_iff_toNat_le.mp h.2
    have hall : ∀ n < 26, (Char.ofNat (65 + n)).toLower = Char.ofNat (97 + n) := by decide
    have hc : Char.ofNat (65 + (c.toNat - 65)) = c := by
      rw [Nat.add_sub_cancel' hlow, Char.ofNat_toNat]
    refine .inr ⟨c.toNat - 65, by omega, ?_⟩
    rw [← hall _ (by omega), hc]
  · exact .inl (dif_neg h)

theorem lower_ascii (n : Nat) (hn : n < 26) : (Char.ofNat (97 + n)).toLower = Char.ofNat (97 + n) ∧
    persianDigit (persianLetter (Char.ofNat (97 + n))) = Char.ofNat (97 + n) := by
  revert n
  decide

/-- A piece of Unicode: ASCII, the Persian digits and ǰ. -/
def withCaron : Unicode where
  nfc := composeCaron
  lower s := s.map Char.toLower
  space c := c.isWhitespace
  word c := c.isAlphanum || PersianDigit c || c = caron || c = jCaron
  nfc_digit s c h hc := composeCaron_keeps h (fun hj => absurd (hj ▸ hc) (by decide))
    (fun hm => absurd (hm ▸ hc) (by decide))
  lower_digit := mem_map_toLower
  space_digit := isWhitespace_digit
  word_digit c h := by simp [h]

theorem withCaron_lawful : withCaron.Lawful where
  nfc_nfc s := composeCaron_of_isChain (composeCaron_isChain s)
  nfc_part s t hs ht := by
    have hchain := composeCaron_isChain s
    rw [show composeCaron s = s from hs] at hchain
    have hpart := List.IsChain.infix hchain ht
    exact composeCaron_of_isChain hpart
  nfc_inert s t e he := by
    refine composeCaron_append s t ⟨?_, ?_⟩ <;> rintro rfl <;> revert he <;> decide
  nfc_ne_nil s hs := by
    fun_cases composeCaron s with
    | case1 => exact absurd rfl hs
    | case2 c => simp [withCaron, composeCaron]
    | case3 c d s h => simp [withCaron, composeCaron, h]
    | case4 c d s h => simp [withCaron, composeCaron, h]
  nfc_settled s h c hc := by
    rcases mem_composeCaron hc with hc | rfl
    · exact h c hc
    · exact ⟨by decide, by decide, by decide⟩
  lower_char s c hc := by
    obtain ⟨a, ha, rfl⟩ := List.mem_map.mp hc
    rcases toLower_cases a with h | ⟨n, hn, h⟩
    · rw [h]
      exact ⟨congrArg (fun d => [d]) h, .inl ha⟩
    · rw [h]
      exact ⟨congrArg (fun d => [d]) (lower_ascii n hn).1, .inr (lower_ascii n hn).2⟩
  lower_lower s h := by
    refine (List.map_congr_left (g := id) fun c hc => ?_).trans (List.map_id s)
    simpa [withCaron] using h c hc
  word_plain c h := by
    have hnone : (['#', '＃', ' ', '\t', '\r', '\n', '_', '-', ZWNJ].all
        (!withCaron.word ·)) = true := by decide
    have hne (d : Char) (hd : d ∈ ['#', '＃', ' ', '\t', '\r', '\n', '_', '-', ZWNJ]) : c ≠ d := by
      rintro rfl
      have := List.all_eq_true.mp hnone c hd
      simp [h] at this
    have hspace : c.isWhitespace = false := by
      simp [Char.isWhitespace, hne ' ' (by decide), hne '\t' (by decide), hne '\r' (by decide),
        hne '\n' (by decide)]
    exact ⟨hne '#' (by decide), hne '＃' (by decide), hspace, by
      simp [tagEdge, hne '_' (by decide), hne '-' (by decide), hne ZWNJ (by decide)]⟩
  edge_plain c h := by
    have hcases : c = '_' ∨ c = '-' ∨ c = ZWNJ := by simpa [tagEdge, or_assoc] using h
    rcases hcases with rfl | rfl | rfl <;> decide
  digit_lower c h := congrArg (fun d => [d]) (toLower_persianDigit h)

end Caron

/-- A tag in Latin letters and Persian digits is its own normal form. -/
theorem normalizeTag_spelling_trip :
    normalizeTag withCaron ['T', 'r', 'i', 'p', '-', '2', '6', '!'] =
      some ['t', 'r', 'i', 'p', '-', '۲', '۶'] ∧
    ¬ ['_', '_'] <:+: ['t', 'r', 'i', 'p', '-', '۲', '۶'] ∧
    normalizeTag withCaron ['t', 'r', 'i', 'p', '-', '۲', '۶'] =
      some ['t', 'r', 'i', 'p', '-', '۲', '۶'] := by
  have htag : normalizeTag withCaron ['T', 'r', 'i', 'p', '-', '2', '6', '!'] =
      some ['t', 'r', 'i', 'p', '-', '۲', '۶'] := by decide
  obtain ⟨-, -, -, -, hdouble, hiff⟩ := normalizeTag_spelling withCaron_lawful htag
  exact ⟨htag, hdouble, hiff.mpr (by unfold Composed; decide)⟩

/-- The tag of J̌ is a j and its mark, and the tag of that is the composed ǰ. -/
theorem normalizeTag_caron : withCaron.Lawful ∧
    normalizeTag withCaron ['J', caron] = some ['j', caron] ∧
    normalizeTag withCaron ['j', caron] = some [jCaron] ∧ ['j', caron] ≠ [jCaron] :=
  ⟨withCaron_lawful, by decide⟩

end Pwos
