import Mathlib.Data.List.DropRight
import Mathlib.Tactic

/-!
# One spelling per tag

`features/tags/normalize.ts`: the stored form of a hashtag. A text is the list of its code points.
-/

namespace Pwos

abbrev Text := List Char

def MAX_TAG_LENGTH : Nat := 32

/-- The zero-width non-joiner. -/
def ZWNJ : Char := Char.ofNat 0x200c

def PersianDigit (c : Char) : Prop := 0x6f0 ≤ c.toNat ∧ c.toNat ≤ 0x6f9

instance (c : Char) : Decidable (PersianDigit c) := inferInstanceAs (Decidable (_ ∧ _))

/-- What JavaScript knows of Unicode. Neither a normal form nor a lower case loses a digit, and a
digit is a number and no space. -/
structure Unicode where
  nfc : Text → Text
  lower : Text → Text
  /-- The class `\s`. -/
  space : Char → Bool
  /-- One of the categories L, M and N. -/
  word : Char → Bool
  nfc_digit : ∀ s, ∀ c ∈ s, c.isDigit = true → c ∈ nfc s
  lower_digit : ∀ s, ∀ c ∈ s, PersianDigit c → c ∈ lower s
  space_digit : ∀ c, c.isDigit = true ∨ PersianDigit c → space c = false
  word_digit : ∀ c, PersianDigit c → word c = true

/-- Arabic ي, ى and ك become Persian letters. -/
def persianLetter (c : Char) : Char :=
  if c = 'ي' ∨ c = 'ى' then 'ی' else if c = 'ك' then 'ک' else c

def persianDigit (c : Char) : Char :=
  if 0x30 ≤ c.toNat ∧ c.toNat ≤ 0x39 then Char.ofNat (0x6f0 + (c.toNat - 0x30))
  else if 0x660 ≤ c.toNat ∧ c.toNat ≤ 0x669 then Char.ofNat (c.toNat - 0x660 + 0x6f0)
  else c

/-- Every run of `p` becomes one `r`; `inRun` tells whether one is on. -/
def squeeze (p : Char → Bool) (r : Char) : Bool → Text → Text
  | _, [] => []
  | inRun, c :: cs =>
    if p c then
      if inRun then squeeze p r true cs else r :: squeeze p r true cs
    else c :: squeeze p r false cs

/-- What a tag neither begins nor ends with. -/
def tagEdge (c : Char) : Bool := c = '_' || c = '-' || c = ZWNJ

def normalizeTag (u : Unicode) (raw : Text) : Option Text :=
  let s := (u.nfc raw).dropWhile fun c => c = '#' || c = '＃' || u.space c
  let s := u.lower ((s.map persianLetter).map persianDigit)
  let s := squeeze u.space '_' false s
  let s := s.filter fun c => u.word c || tagEdge c
  let s := squeeze (· = '_') '_' false s
  let s := (s.dropWhile tagEdge).rdropWhile tagEdge
  if s.isEmpty then none else some ((s.take MAX_TAG_LENGTH).rdropWhile tagEdge)

section Normalize
variable {u : Unicode} {raw tag : Text} {c : Char}

theorem normalizeTag_length (h : normalizeTag u raw = some tag) : tag.length ≤ MAX_TAG_LENGTH := by
  unfold normalizeTag at h
  simp only [Option.ite_none_left_eq_some, Option.some.injEq] at h
  obtain ⟨-, rfl⟩ := h
  exact (List.rdropWhile_prefix _ _).length_le.trans (List.length_take_le _ _)

/-- What stripping leaves begins with no edge. -/
theorem head_stripped {p : Char → Bool} {s rest : Text}
    (h : (s.dropWhile p).rdropWhile p = c :: rest) : p c = false := by
  obtain ⟨more, hmore⟩ := List.rdropWhile_prefix p (s.dropWhile p)
  rw [h, List.cons_append] at hmore
  have hhead := List.head?_dropWhile_not p s
  rw [← hmore] at hhead
  simpa using hhead

theorem toNat_of_isDigit (h : c.isDigit = true) : 0x30 ≤ c.toNat ∧ c.toNat ≤ 0x39 := by
  simpa [Char.isDigit, UInt32.le_iff_toNat_le] using h

theorem persianLetter_digit (h : c.isDigit = true) : persianLetter c = c := by
  have hrange := toNat_of_isDigit h
  have hne : ∀ d : Char, 0x39 < d.toNat → c ≠ d := by
    rintro d hd rfl
    omega
  simp [persianLetter, hne 'ي' (by decide), hne 'ى' (by decide), hne 'ك' (by decide)]

theorem persianDigit_toNat (h : c.isDigit = true) :
    (persianDigit c).toNat = 0x6f0 + (c.toNat - 0x30) := by
  have hrange := toNat_of_isDigit h
  have hvalid : (0x6f0 + (c.toNat - 0x30)).isValidChar := by
    left
    omega
  rw [persianDigit, if_pos hrange, Char.ofNat, dif_pos hvalid]
  rfl

theorem persianDigit_of_digit (h : c.isDigit = true) :
    PersianDigit (persianDigit (persianLetter c)) := by
  have hrange := toNat_of_isDigit h
  rw [persianLetter_digit h, PersianDigit, persianDigit_toNat h]
  omega

theorem mem_dropWhile_of_not {p : Char → Bool} {s : Text} (hc : c ∈ s) (hp : p c = false) :
    c ∈ s.dropWhile p := by
  induction s with
  | nil => cases hc
  | cons d s ih => grind [List.dropWhile_cons]

theorem mem_rdropWhile_of_not {p : Char → Bool} {s : Text} (hc : c ∈ s) (hp : p c = false) :
    c ∈ s.rdropWhile p := by
  unfold List.rdropWhile
  simpa using mem_dropWhile_of_not (by simpa using hc) hp

theorem mem_squeeze_of_not {p : Char → Bool} {s : Text} (hc : c ∈ s) (hp : p c = false) (r : Char)
    (inRun : Bool) : c ∈ squeeze p r inRun s := by
  induction s generalizing inRun with
  | nil => cases hc
  | cons d s ih => grind [squeeze]

theorem tagEdge_digit (h : PersianDigit c) : tagEdge c = false := by
  have hne : ∀ d : Char, d.toNat < 0x6f0 ∨ 0x6f9 < d.toNat → c ≠ d := by
    rintro d hd rfl
    have := h.1
    have := h.2
    omega
  simp [tagEdge, hne '_' (by decide), hne '-' (by decide), hne ZWNJ (by decide)]

theorem normalizeTag_ne_nil (h : normalizeTag u raw = some tag) : tag ≠ [] := by
  unfold normalizeTag at h
  simp only [Option.ite_none_left_eq_some, Option.some.injEq] at h
  obtain ⟨hsome, rfl⟩ := h
  generalize hs : List.rdropWhile tagEdge (List.dropWhile tagEdge _) = s at hsome ⊢
  cases s with
  | nil => simp at hsome
  | cons c s => exact List.ne_nil_of_mem (mem_rdropWhile_of_not List.mem_cons_self (head_stripped hs))

/-- Something is left of a text with a digit. -/
theorem normalizeTag_digit (hc : c ∈ raw) (hdigit : c.isDigit = true) :
    ∃ tag, normalizeTag u raw = some tag := by
  set d := persianDigit (persianLetter c) with hd
  have hpersian : PersianDigit d := persianDigit_of_digit hdigit
  have hedge := tagEdge_digit hpersian
  have hstart : (c = '#' || c = '＃' || u.space c) = false := by
    have hne : ∀ e : Char, e.isDigit = false → c ≠ e := by
      rintro e he rfl
      rw [he] at hdigit
      cases hdigit
    simp [hne '#' (by decide), hne '＃' (by decide), u.space_digit c (.inl hdigit)]
  have h₁ := mem_dropWhile_of_not (p := fun c => c = '#' || c = '＃' || u.space c)
    (u.nfc_digit raw c hc hdigit) hstart
  have hmap := List.mem_map_of_mem (f := persianDigit) (List.mem_map_of_mem (f := persianLetter) h₁)
  have h₂ := u.lower_digit _ d hmap hpersian
  have h₃ := mem_squeeze_of_not h₂ (u.space_digit d (.inr hpersian)) '_' false
  have hkeep : (u.word d || tagEdge d) = true := by simp [u.word_digit d hpersian]
  have h₄ := (List.mem_filter (p := fun c => u.word c || tagEdge c)).mpr ⟨h₃, hkeep⟩
  have hne : d ≠ '_' := by
    rintro h
    rw [h] at hedge
    cases hedge
  have h₅ := mem_squeeze_of_not (p := (· = '_')) h₄ (by simpa using hne) '_' false
  have h₆ := mem_rdropWhile_of_not (mem_dropWhile_of_not h₅ hedge) hedge
  unfold normalizeTag
  exact ⟨_, if_neg fun hempty => List.ne_nil_of_mem h₆ (List.isEmpty_iff.mp hempty)⟩

theorem toLower_persianDigit (h : PersianDigit c) : c.toLower = c := by
  have hle : ¬ c.val ≤ 'Z'.val := by
    rw [UInt32.le_iff_toNat_le]
    exact fun hle => absurd (h.1.trans hle) (by decide)
  exact dif_neg fun hupper => hle hupper.2

theorem mem_map_toLower (s : Text) (c : Char) (hc : c ∈ s) (h : PersianDigit c) :
    c ∈ s.map Char.toLower :=
  List.mem_map.mpr ⟨c, hc, toLower_persianDigit h⟩

theorem isWhitespace_digit (c : Char) (h : c.isDigit = true ∨ PersianDigit c) :
    c.isWhitespace = false := by
  by_contra hspace
  simp only [Char.isWhitespace, Bool.not_eq_false, Bool.or_eq_true, decide_eq_true_eq,
    or_assoc] at hspace
  rcases hspace with rfl | rfl | rfl | rfl <;> revert h <;> decide

end Normalize

end Pwos
