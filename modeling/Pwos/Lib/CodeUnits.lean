import Mathlib.Data.List.Lex
import Mathlib.Data.List.Sort
import Mathlib.Tactic

/-!
# The code units of a text

A text as a sequence of UTF-16 code units, and the order of texts it gives: the one a sort
without a comparison function goes by.
-/

namespace Pwos

/-- A character beyond the first plane is a pair of surrogates. -/
def charUnits (c : Char) : List Nat :=
  if c.toNat < 0x10000 then [c.toNat]
  else [0xd800 + (c.toNat - 0x10000) / 0x400, 0xdc00 + (c.toNat - 0x10000) % 0x400]

def codeUnits (s : String) : List Nat := s.toList.flatMap charUnits

/-- The order of texts by code units. -/
def unitsLe (a b : String) : Prop := codeUnits a ≤ codeUnits b

instance : DecidableRel unitsLe := fun _ _ => inferInstanceAs (Decidable (_ ≤ _))

/-- `texts.sort()`. -/
def sortTexts (texts : List String) : List String := texts.insertionSort unitsLe

/-- A unit that is no surrogate is its character. -/
theorem charUnits_append_inj {c d : Char} {us vs : List Nat}
    (h : charUnits c ++ us = charUnits d ++ vs) : c = d ∧ us = vs := by
  have hvalid : ∀ e : Char, e.toNat < 0xd800 ∨ 0xdfff < e.toNat ∧ e.toNat < 0x110000 :=
    fun e => e.valid
  have hc := hvalid c
  have hd := hvalid d
  have hnat : c.toNat = d.toNat ∧ us = vs := by
    unfold charUnits at h
    split at h <;> split at h <;>
      simp only [List.cons_append, List.nil_append, List.cons.injEq] at h
    · exact h
    · omega
    · omega
    · obtain ⟨hhigh, hlow, hrest⟩ := h
      exact ⟨by omega, hrest⟩
  exact ⟨Char.toNat_inj.mp hnat.1, hnat.2⟩

theorem codeUnits_injective : Function.Injective codeUnits := by
  have hlist : ∀ cs ds : List Char, cs.flatMap charUnits = ds.flatMap charUnits →
      cs = ds := by
    have hne : ∀ (c : Char) (us : List Nat), charUnits c ++ us ≠ [] := by
      intro c us
      unfold charUnits
      split <;> simp
    intro cs
    induction cs with
    | nil =>
      intro ds h
      cases ds with
      | nil => rfl
      | cons d ds => exact absurd h.symm (hne d _)
    | cons c cs ih =>
      intro ds h
      cases ds with
      | nil => exact absurd h (hne c _)
      | cons d ds =>
        obtain ⟨hcd, hrest⟩ := charUnits_append_inj h
        rw [hcd, ih ds hrest]
  intro a b h
  exact String.toList_inj.mp (hlist _ _ h)

instance : Std.Total unitsLe := ⟨fun a b => le_total (codeUnits a) (codeUnits b)⟩

instance : IsTrans String unitsLe := ⟨fun _ _ _ => le_trans⟩

instance : Std.Antisymm unitsLe :=
  ⟨fun _ _ hab hba => codeUnits_injective (le_antisymm hab hba)⟩

theorem perm_sortTexts (texts : List String) : (sortTexts texts).Perm texts :=
  List.perm_insertionSort unitsLe texts

@[simp] theorem mem_sortTexts {s : String} {texts : List String} :
    s ∈ sortTexts texts ↔ s ∈ texts := (perm_sortTexts texts).mem_iff

/-- The order in which the texts came in does not show. -/
theorem sortTexts_congr {xs ys : List String} (h : xs.Perm ys) : sortTexts xs = sortTexts ys := by
  have hperm : (sortTexts xs).Perm (sortTexts ys) :=
    (perm_sortTexts xs).trans (h.trans (perm_sortTexts ys).symm)
  exact hperm.eq_of_pairwise' (List.pairwise_insertionSort unitsLe xs)
    (List.pairwise_insertionSort unitsLe ys)

/-! ### Back to characters -/

def HighSurrogate (u : Nat) : Prop := 0xd800 ≤ u ∧ u < 0xdc00

def LowSurrogate (u : Nat) : Prop := 0xdc00 ≤ u ∧ u < 0xe000

instance (u : Nat) : Decidable (HighSurrogate u) := inferInstanceAs (Decidable (_ ∧ _))
instance (u : Nat) : Decidable (LowSurrogate u) := inferInstanceAs (Decidable (_ ∧ _))

/-- A unit on its own. What is no character becomes the replacement character. -/
def loneUnit (u : Nat) : Char :=
  if HighSurrogate u ∨ LowSurrogate u then Char.ofNat 0xfffd else Char.ofNat u

/-- The characters of the units, as an encoder reads them. -/
def unitChars : List Nat → List Char
  | [] => []
  | [u] => [loneUnit u]
  | u :: v :: us =>
    if HighSurrogate u ∧ LowSurrogate v then
      Char.ofNat (0x10000 + (u - 0xd800) * 0x400 + (v - 0xdc00)) :: unitChars us
    else loneUnit u :: unitChars (v :: us)

/-- The text of the units, with each lone surrogate replaced. -/
def fromUnits (us : List Nat) : String := String.ofList (unitChars us)

theorem unitChars_lone {u : Nat} (h : ¬ HighSurrogate u) (us : List Nat) :
    unitChars (u :: us) = loneUnit u :: unitChars us := by
  cases us with
  | nil => rfl
  | cons v us =>
    rw [unitChars, if_neg fun hpair => h hpair.1]

theorem unitChars_charUnits (c : Char) (us : List Nat) :
    unitChars (charUnits c ++ us) = c :: unitChars us := by
  have hvalid : c.toNat < 0xd800 ∨ 0xdfff < c.toNat ∧ c.toNat < 0x110000 := c.valid
  unfold charUnits
  split
  · have hlone : ¬ HighSurrogate c.toNat ∧ ¬ LowSurrogate c.toNat := by
      unfold HighSurrogate LowSurrogate
      omega
    rw [List.singleton_append, unitChars_lone hlone.1, loneUnit, if_neg (not_or.mpr hlone),
      Char.ofNat_toNat]
  · have hpair : HighSurrogate (0xd800 + (c.toNat - 0x10000) / 0x400) ∧
        LowSurrogate (0xdc00 + (c.toNat - 0x10000) % 0x400) := by
      unfold HighSurrogate LowSurrogate
      omega
    have hback : 0x10000 + (0xd800 + (c.toNat - 0x10000) / 0x400 - 0xd800) * 0x400 +
        (0xdc00 + (c.toNat - 0x10000) % 0x400 - 0xdc00) = c.toNat := by omega
    rw [List.cons_append, List.cons_append, List.nil_append, unitChars, if_pos hpair, hback,
      Char.ofNat_toNat]

@[simp] theorem fromUnits_codeUnits (s : String) : fromUnits (codeUnits s) = s := by
  have hlist : ∀ cs : List Char, unitChars (cs.flatMap charUnits) = cs := by
    intro cs
    induction cs with
    | nil => rfl
    | cons c cs ih => rw [List.flatMap_cons, unitChars_charUnits, ih]
  rw [fromUnits, codeUnits, hlist, String.ofList_toList]

theorem fromUnits_eq_empty {us : List Nat} : fromUnits us = "" ↔ us = [] := by
  have hlist : unitChars us = [] ↔ us = [] := by
    cases us with
    | nil => simp [unitChars]
    | cons u us =>
      cases us with
      | nil => simp [unitChars]
      | cons v us =>
        unfold unitChars
        split <;> simp
  rw [fromUnits, String.ofList_eq_empty_iff, hlist]

end Pwos
