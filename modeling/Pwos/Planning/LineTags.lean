import Pwos.Tags.AssetTags
import Pwos.Tags.Spelling

/-!
# The tags of budget lines

`lineTag` of `features/planning/budgetItems.ts`: the tag of a line is its budget's tag with the
title. When that is taken, a number follows it, and it is cut off to make room: where the cut comes
after an underscore, two of them stand together.
-/

namespace Pwos

/-- The word for a line without a name. -/
def LINE_WORD : Text := ['ق', 'ل', 'م']

def lineBase (u : Unicode) (parentTag title : Text) : Text :=
  (normalizeTag u (parentTag ++ '_' :: title)).getD ((normalizeTag u parentTag).getD LINE_WORD)

/-- `n++`, where `n` is a double. -/
def nextNumber (n : Nat) : Nat := if n < 2 ^ 53 then n + 1 else n

def lineSuffix (n : Nat) : Text := '_' :: (digits n).map persianDigit

def numberedLine (base : Text) (n : Nat) : Text :=
  base.take (MAX_TAG_LENGTH - (lineSuffix n).length) ++ lineSuffix n

/-- The loop of `lineTag`, for a number of tests. -/
def lineTagLoop (base : Text) (used : List Text) : Nat → Nat → Text → Option Text
  | 0, _, _ => none
  | fuel + 1, n, tag =>
    if used.contains tag then lineTagLoop base used fuel (nextNumber n) (numberedLine base n)
    else some tag

def lineTag (u : Unicode) (parentTag title : Text) (taken : List Text) (fuel : Nat) : Option Text :=
  lineTagLoop (lineBase u parentTag title) taken fuel 2 (lineBase u parentTag title)

/-! ## The spellings that are tried -/

/-- The number that comes after `k` spellings. -/
def lineNumber (k : Nat) : Nat := min (k + 2) (2 ^ 53)

/-- What follows the base in the `k`-th spelling, and what is kept of the base. -/
def spellingEnd : Nat → Text
  | 0 => []
  | k + 1 => lineSuffix (lineNumber k)

def spellingStart (base : Text) (k : Nat) : Text :=
  base.take (MAX_TAG_LENGTH - (spellingEnd k).length)

def lineSpelling (base : Text) (k : Nat) : Text := spellingStart base k ++ spellingEnd k

/-- The first spelling that is not taken. -/
structure FirstFree (base : Text) (taken : List Text) (k : Nat) : Prop where
  free : lineSpelling base k ∉ taken
  first : ∀ j < k, lineSpelling base j ∈ taken

/-- What is kept of the base is in normal form and does not end in an underscore. -/
def CutClean (u : Unicode) (base : Text) (k : Nat) : Prop :=
  u.nfc (spellingStart base k) = spellingStart base k ∧
    (spellingStart base k).getLast? ≠ some '_'

section Loop
variable {base tag : Text} {taken : List Text} {fuel k : Nat}

theorem nextNumber_lineNumber (k : Nat) : nextNumber (lineNumber k) = lineNumber (k + 1) := by
  unfold nextNumber lineNumber
  split <;> omega

theorem lineTagLoop_found {i : Nat} (hik : i ≤ k) (hfuel : k < i + fuel)
    (hfree : lineSpelling base k ∉ taken)
    (htaken : ∀ j, i ≤ j → j < k → lineSpelling base j ∈ taken) :
    lineTagLoop base taken fuel (lineNumber i) (lineSpelling base i) =
      some (lineSpelling base k) := by
  induction fuel generalizing i with
  | zero => omega
  | succ fuel ih =>
    unfold lineTagLoop
    simp only [List.contains_iff_mem]
    rcases hik.eq_or_lt with rfl | hlt
    · rw [if_neg hfree]
    · rw [if_pos (htaken i le_rfl hlt), nextNumber_lineNumber]
      exact ih hlt (by omega) fun j hj => htaken j (by omega)

theorem of_lineTagLoop {i : Nat}
    (h : lineTagLoop base taken fuel (lineNumber i) (lineSpelling base i) = some tag) :
    ∃ k, tag = lineSpelling base k ∧ lineSpelling base k ∉ taken ∧
      ∀ j, i ≤ j → j < k → lineSpelling base j ∈ taken := by
  induction fuel generalizing i with
  | zero => cases h
  | succ fuel ih =>
    unfold lineTagLoop at h
    simp only [List.contains_iff_mem] at h
    split at h
    · rename_i hmem
      rw [nextNumber_lineNumber] at h
      obtain ⟨k, htag, hfree, htaken⟩ := ih h
      refine ⟨k, htag, hfree, fun j hj hjk => ?_⟩
      rcases hj.eq_or_lt with rfl | hlt
      · exact hmem
      · exact htaken j hlt hjk
    · rename_i hfree
      refine ⟨i, (Option.some.inj h).symm, hfree, fun j hj hji => ?_⟩
      omega

/-- With enough tests the loop gives the first spelling that is free, and nothing else. -/
theorem lineTag_eq_some_iff {u : Unicode} {parentTag title : Text}
    (hlen : (lineBase u parentTag title).length ≤ MAX_TAG_LENGTH) :
    (∃ fuel, ∀ more, lineTag u parentTag title taken (fuel + more) = some tag) ↔
      ∃ k, FirstFree (lineBase u parentTag title) taken k ∧
        tag = lineSpelling (lineBase u parentTag title) k := by
  have hstart : lineSpelling (lineBase u parentTag title) 0 = lineBase u parentTag title := by
    simp [lineSpelling, spellingStart, spellingEnd, List.take_of_length_le hlen]
  have hloop (fuel : Nat) : lineTag u parentTag title taken fuel =
      lineTagLoop (lineBase u parentTag title) taken fuel (lineNumber 0)
        (lineSpelling (lineBase u parentTag title) 0) := by
    rw [hstart]
    rfl
  constructor
  · rintro ⟨fuel, hall⟩
    have h := hall 0
    rw [hloop] at h
    obtain ⟨k, htag, hfree, htaken⟩ := of_lineTagLoop h
    exact ⟨k, ⟨hfree, fun j => htaken j (Nat.zero_le j)⟩, htag⟩
  · rintro ⟨k, ⟨hfree, htaken⟩, rfl⟩
    refine ⟨k + 1, fun more => ?_⟩
    rw [hloop]
    exact lineTagLoop_found (Nat.zero_le k) (by omega) hfree fun j _ => htaken j

end Loop

/-! ## Numbers -/

section Numbers
variable {base : Text} {k j : Nat}

theorem isDigit_of_mem_digits {n : Nat} {c : Char} (h : c ∈ digits n) : c.isDigit = true :=
  Nat.isDigit_of_mem_toDigits (by decide) (by decide) h

theorem persianDigit_of_mem {n : Nat} {c : Char} (h : c ∈ (digits n).map persianDigit) :
    PersianDigit c := by
  obtain ⟨d, hd, rfl⟩ := List.mem_map.mp h
  have hdigit := isDigit_of_mem_digits hd
  exact persianLetter_digit hdigit ▸ persianDigit_of_digit hdigit

theorem persianDigits_injective {n m : Nat}
    (h : (digits n).map persianDigit = (digits m).map persianDigit) : n = m := by
  -- the Latin digits are read off the Persian ones
  have hback (n : Nat) : ((digits n).map persianDigit).map
      (fun c => Char.ofNat (c.toNat - 0x6f0 + 0x30)) = digits n := by
    rw [List.map_map]
    refine (List.map_congr_left (g := id) fun c hc => ?_).trans (List.map_id _)
    have hdigit := isDigit_of_mem_digits hc
    have hrange := toNat_of_isDigit hdigit
    have hcode : 0x6f0 + (c.toNat - 0x30) - 0x6f0 + 0x30 = c.toNat := by omega
    simp only [Function.comp_apply, persianDigit_toNat hdigit, hcode, Char.ofNat_toNat, id]
  have hdigits : digits n = digits m := by rw [← hback n, h, hback m]
  have hvalue := congrArg (Nat.ofDigitChars 10 · 0) hdigits
  simpa [digits] using hvalue

theorem lineNumber_injective {i j : Nat} (hi : i + 1 < 2 ^ 53) (hj : j + 1 < 2 ^ 53)
    (h : lineNumber i = lineNumber j) : i = j := by
  unfold lineNumber at h
  omega

theorem lineSuffix_length {n : Nat} (h : n ≤ 2 ^ 53) : (lineSuffix n).length ≤ 17 := by
  have hlen : (digits n).length ≤ 16 :=
    (Nat.length_toDigits_le_iff (by decide) (by decide)).mpr (h.trans_lt (by decide))
  simpa [lineSuffix, Nat.lt_succ_iff] using hlen

theorem spellingEnd_length (k : Nat) : (spellingEnd k).length ≤ 17 := by
  cases k with
  | zero => simp [spellingEnd]
  | succ k => exact lineSuffix_length (min_le_right _ _)

theorem lineSpelling_length (base : Text) (k : Nat) :
    (lineSpelling base k).length ≤ MAX_TAG_LENGTH := by
  have hend := spellingEnd_length k
  have hstart := List.length_take_le (MAX_TAG_LENGTH - (spellingEnd k).length) base
  simp only [lineSpelling, spellingStart, List.length_append, MAX_TAG_LENGTH] at hstart ⊢
  omega

/-- The number is read off behind the last underscore. -/
theorem spellingEnd_injective {i j : Nat}
    (h : lineSpelling base (i + 1) = lineSpelling base (j + 1)) : lineNumber i = lineNumber j := by
  have hlast (k : Nat) : (lineSpelling base (k + 1)).rtakeWhile (· != '_') =
      (digits (lineNumber k)).map persianDigit := by
    have hnone : ∀ c ∈ ((digits (lineNumber k)).map persianDigit).reverse, (c != '_') = true := by
      intro c hc
      have hpersian := persianDigit_of_mem (List.mem_reverse.mp hc)
      refine bne_iff_ne.mpr ?_
      rintro rfl
      exact absurd hpersian (by decide)
    simp only [lineSpelling, spellingEnd, lineSuffix, List.rtakeWhile, List.reverse_append,
      List.reverse_cons, List.append_assoc]
    rw [List.takeWhile_append_of_pos hnone]
    simp
  exact persianDigits_injective (by rw [← hlast i, h, hlast j])

/-- Among more spellings than there are tags in the set one is free. -/
theorem exists_firstFree {taken : List Text} (h : taken.length + 1 < 2 ^ 53) :
    ∃ k, FirstFree base taken k := by
  have hex : ∃ k, lineSpelling base k ∉ taken := by
    by_contra hall
    push Not at hall
    have hnodup : ((List.range (taken.length + 1)).map
        fun k => lineSpelling base (k + 1)).Nodup := by
      refine (List.nodup_map_iff_inj_on List.nodup_range).mpr fun i hi j hj hij => ?_
      have hi := List.mem_range.mp hi
      have hj := List.mem_range.mp hj
      exact lineNumber_injective (by omega) (by omega) (spellingEnd_injective hij)
    have hsub : ((List.range (taken.length + 1)).map
        fun k => lineSpelling base (k + 1)) ⊆ taken := by
      intro t ht
      obtain ⟨k, -, rfl⟩ := List.mem_map.mp ht
      exact hall (k + 1)
    have hle := (hnodup.subperm hsub).length_le
    simp at hle
  exact ⟨Nat.find hex, Nat.find_spec hex, fun j hj => not_not.mp (Nat.find_min hex hj)⟩

end Numbers

/-! ## Which spellings are tags -/

section Spellings
variable {u : Unicode} {base parentTag : Text} {taken : List Text} {k : Nat}

theorem lineBase_spelled (hu : u.Lawful) (hparent : normalizeTag u parentTag = some parentTag)
    (title : Text) : Spelled u (lineBase u parentTag title) ∧ lineBase u parentTag title ≠ [] ∧
      (lineBase u parentTag title).length ≤ MAX_TAG_LENGTH := by
  have htag : ∃ raw, normalizeTag u raw = some (lineBase u parentTag title) := by
    unfold lineBase
    cases h : normalizeTag u (parentTag ++ '_' :: title) with
    | some tag => exact ⟨_, h⟩
    | none => exact ⟨parentTag, by simp [hparent]⟩
  obtain ⟨raw, hraw⟩ := htag
  exact ⟨normalizeTag_spelled hu hraw, normalizeTag_ne_nil hraw, normalizeTag_length hraw⟩

theorem lineSpelling_zero (hlen : base.length ≤ MAX_TAG_LENGTH) :
    spellingStart base 0 = base ∧ lineSpelling base 0 = base := by
  simp [lineSpelling, spellingStart, spellingEnd, List.take_of_length_le hlen]

theorem head?_spellingStart (base : Text) (k : Nat) :
    (spellingStart base k).head? = base.head? := by
  have := spellingEnd_length k
  have hroom : MAX_TAG_LENGTH - (spellingEnd k).length ≠ 0 := by
    simp only [MAX_TAG_LENGTH]
    omega
  simp [spellingStart, List.head?_take, hroom]

theorem mem_spellingEnd {c : Char} (h : c ∈ spellingEnd k) :
    tagEdge c = true ∨ PersianDigit c := by
  cases k with
  | zero => simp [spellingEnd] at h
  | succ k =>
    rcases List.mem_cons.mp h with rfl | h
    · exact .inl rfl
    · exact .inr (persianDigit_of_mem h)

theorem getLast?_lineSuffix (n : Nat) : ∃ c, PersianDigit c ∧ (lineSuffix n).getLast? = some c := by
  have hne : (digits n).map persianDigit ≠ [] := by simp [digits_ne_nil]
  refine ⟨_, persianDigit_of_mem (List.getLast_mem hne), ?_⟩
  rw [lineSuffix, List.getLast?_cons, List.getLast?_eq_some_getLast hne, Option.getD_some]

/-- The shape of a spelling whose cut does not leave an underscore at the end. -/
theorem lineSpelling_spelled (hu : u.Lawful) (hbase : Spelled u base) (hne : base ≠ [])
    (hlen : base.length ≤ MAX_TAG_LENGTH) (hcut : (spellingStart base k).getLast? ≠ some '_') :
    Spelled u (lineSpelling base k) := by
  cases k with
  | zero => exact (lineSpelling_zero hlen).2.symm ▸ hbase
  | succ k =>
    have hdigit (c : Char) (hc : c ∈ (digits (lineNumber k)).map persianDigit) : u.Settled c :=
      Unicode.settled_persianDigit hu (persianDigit_of_mem hc)
    refine ⟨fun c hc => ?_, fun c hc => ?_, fun c hc => ?_, ?_⟩
    · rcases List.mem_append.mp hc with hc | hc
      · exact hbase.chars c (List.mem_of_mem_take hc)
      · rcases mem_spellingEnd hc with hedge | hpersian
        · exact .inr hedge
        · exact .inl (Unicode.settled_persianDigit hu hpersian)
    · obtain ⟨a, rest, hrest⟩ := List.exists_cons_of_ne_nil hne
      rw [lineSpelling, List.head?_append, head?_spellingStart, hrest] at hc
      exact hbase.start c (by simpa [hrest] using hc)
    · obtain ⟨d, hd, hlast⟩ := getLast?_lineSuffix (lineNumber k)
      simp only [lineSpelling, spellingEnd, List.getLast?_append, hlast, Option.some_or,
        Option.some.injEq] at hc
      exact hc ▸ (Unicode.settled_persianDigit hu hd).tagEdge hu
    · refine (hbase.apart.take _).append ?_ fun a ha b hb hboth => hcut (hboth.1 ▸ ha)
      refine (isChain_of_settled hu hdigit).cons fun c hc hboth => ?_
      have hedge := (hdigit c (List.mem_of_mem_head? hc)).tagEdge hu
      rw [hboth.2] at hedge
      cases hedge

/-- A spelling is its own normal form exactly when it is cut clean. -/
theorem normalizeTag_lineSpelling (hu : u.Lawful) (hbase : Spelled u base) (hne : base ≠ [])
    (hlen : base.length ≤ MAX_TAG_LENGTH) :
    normalizeTag u (lineSpelling base k) = some (lineSpelling base k) ↔ CutClean u base k := by
  have hspelling : lineSpelling base k ≠ [] := by
    have hstart := head?_spellingStart base k
    obtain ⟨a, rest, hrest⟩ := List.exists_cons_of_ne_nil hne
    intro hnil
    rw [(List.append_eq_nil_iff.mp hnil).1, hrest] at hstart
    cases hstart
  have hself (hcut : (spellingStart base k).getLast? ≠ some '_') :
      normalizeTag u (lineSpelling base k) = some (lineSpelling base k) ↔
        u.nfc (spellingStart base k) = spellingStart base k := by
    rw [normalizeTag_self_iff hu (lineSpelling_spelled hu hbase hne hlen hcut) hspelling
      (lineSpelling_length base k), lineSpelling,
      nfc_append_inert hu _ fun c hc => mem_spellingEnd hc]
    exact List.append_left_inj _
  constructor
  · intro h
    have hcut : (spellingStart base k).getLast? ≠ some '_' := by
      intro hlast
      cases k with
      | zero =>
        rw [(lineSpelling_zero hlen).1] at hlast
        exact absurd (hbase.stop '_' hlast) (by decide)
      | succ k =>
        -- the underscore before the number stands behind the one that the cut left
        obtain ⟨rest, hrest⟩ := List.getLast?_eq_some_iff.mp hlast
        refine (normalizeTag_spelled hu h).no_double
          ⟨rest, (digits (lineNumber k)).map persianDigit, ?_⟩
        simp [lineSpelling, hrest, spellingEnd, lineSuffix]
    exact ⟨(hself hcut).mp h, hcut⟩
  · rintro ⟨hnfc, hcut⟩
    exact (hself hcut).mpr hnfc

/-- A budget with a tag finds a free tag for a line in every set that a program can hold. It is
short, and it is its own normal form exactly when the first spelling that is free is cut clean. -/
theorem lineTag_iff (hu : u.Lawful) (hparent : normalizeTag u parentTag = some parentTag)
    (title : Text) (taken : List Text) :
    (taken.length + 1 < 2 ^ 53 → ∃ k, FirstFree (lineBase u parentTag title) taken k) ∧
    ((∃ tag, (∃ fuel, ∀ more, lineTag u parentTag title taken (fuel + more) = some tag) ∧
        tag ∉ taken ∧ tag.length ≤ MAX_TAG_LENGTH ∧ normalizeTag u tag = some tag) ↔
      ∃ k, FirstFree (lineBase u parentTag title) taken k ∧
        CutClean u (lineBase u parentTag title) k) := by
  obtain ⟨hbase, hne, hlen⟩ := lineBase_spelled hu hparent title
  refine ⟨exists_firstFree, ?_⟩
  constructor
  · rintro ⟨tag, hloop, -, -, hfixed⟩
    obtain ⟨k, hk, rfl⟩ := (lineTag_eq_some_iff hlen).mp hloop
    exact ⟨k, hk, (normalizeTag_lineSpelling hu hbase hne hlen).mp hfixed⟩
  · rintro ⟨k, hk, hclean⟩
    exact ⟨_, (lineTag_eq_some_iff hlen).mpr ⟨k, hk, rfl⟩, hk.free, lineSpelling_length _ k,
      (normalizeTag_lineSpelling hu hbase hne hlen).mpr hclean⟩

end Spellings

/-- A budget tag of 29 letters. -/
def longTag : Text := List.replicate 29 'a'

/-- The second line of one title gets a number. -/
theorem lineTag_dress : ∃ tag,
    (∃ fuel, ∀ more, lineTag withCaron ['w', 'e', 'd'] ['d'] [['w', 'e', 'd', '_', 'd']]
      (fuel + more) = some tag) ∧ tag ∉ [['w', 'e', 'd', '_', 'd']] ∧
    tag.length ≤ MAX_TAG_LENGTH ∧ normalizeTag withCaron tag = some tag := by
  have hiff := lineTag_iff withCaron_lawful
    (by decide : normalizeTag withCaron ['w', 'e', 'd'] = some ['w', 'e', 'd']) ['d']
    [['w', 'e', 'd', '_', 'd']]
  refine hiff.2.mpr ⟨1, ⟨by decide, by decide⟩, ?_⟩
  unfold CutClean
  decide

/-- Cut off after the underscore, the tag of the second line has two of them. -/
theorem lineTag_double : withCaron.Lawful ∧ normalizeTag withCaron longTag = some longTag ∧
    lineTag withCaron longTag ['b', 'c'] [longTag ++ ['_', 'b', 'c']] 2 =
      some (longTag ++ ['_', '_', '۲']) ∧
    normalizeTag withCaron (longTag ++ ['_', '_', '۲']) = some (longTag ++ ['_', '۲']) :=
  ⟨withCaron_lawful, by decide⟩

end Pwos
