import Mathlib.Data.List.Infix
import Mathlib.Tactic

/-!
# All matches of a pattern

`matchAll` and `replace` of a global pattern: the text is read from left to right, a match is
taken where the pattern has one, and reading goes on behind it. A pattern is a function of what
stands before a place, backwards, and of what stands from it on; it gives what it has read and the
length of the match.
-/

namespace Pwos

section Matching
variable {α β : Type} (pattern : List α → List α → Option (β × Nat))

/-- What the matches read, past so many characters that belong to one. -/
def matchAll (before : List α) : Nat → List α → List β
  | _, [] => []
  | k + 1, c :: s => matchAll (c :: before) k s
  | 0, c :: s =>
    match pattern before (c :: s) with
    | some (b, n) => b :: matchAll (c :: before) (n - 1) s
    | none => matchAll (c :: before) 0 s

/-- The text with every match replaced. -/
def replaceAll (f : β → List α) (before : List α) : Nat → List α → List α
  | _, [] => []
  | k + 1, c :: s => replaceAll f (c :: before) k s
  | 0, c :: s =>
    match pattern before (c :: s) with
    | some (b, n) => f b ++ replaceAll f (c :: before) (n - 1) s
    | none => c :: replaceAll f (c :: before) 0 s

variable {pattern} {before : List α} {c : α} {s t w r : List α} {b : β} {n : Nat}

theorem matchAll_nil : matchAll pattern before n [] = [] := by
  cases n <;> rfl

theorem matchAll_succ_cons :
    matchAll pattern before (n + 1) (c :: s) = matchAll pattern (c :: before) n s := rfl

theorem matchAll_cons_none (h : pattern before (c :: s) = none) :
    matchAll pattern before 0 (c :: s) = matchAll pattern (c :: before) 0 s := by
  simp [matchAll, h]

theorem matchAll_cons_some (h : pattern before (c :: s) = some (b, n)) :
    matchAll pattern before 0 (c :: s) = b :: matchAll pattern (c :: before) (n - 1) s := by
  simp [matchAll, h]

/-- The pattern has no match that begins in the first text before the second. -/
def QuietIn (pattern : List α → List α → Option (β × Nat)) (before w r : List α) : Prop :=
  ∀ u v, w = u ++ v → v ≠ [] → pattern (u.reverse ++ before) (v ++ r) = none

theorem QuietIn.tail (h : QuietIn pattern before (c :: w) r) :
    QuietIn pattern (c :: before) w r := by
  intro u v huv hv
  have hnone := h (c :: u) v (by rw [huv, List.cons_append]) hv
  simpa using hnone

theorem QuietIn.head (h : QuietIn pattern before (c :: w) r) :
    pattern before (c :: (w ++ r)) = none := h [] (c :: w) rfl (by simp)

theorem matchAll_quiet (h : QuietIn pattern before w r) :
    matchAll pattern before 0 (w ++ r) = matchAll pattern (w.reverse ++ before) 0 r := by
  induction w generalizing before with
  | nil => rfl
  | cons c w ih =>
    rw [List.cons_append, matchAll_cons_none h.head, ih h.tail]
    simp

variable (pattern) in
/-- A match that ends with the text behind it skips what is left of it. -/
theorem matchAll_skip (before w r : List α) :
    matchAll pattern before w.length (w ++ r) = matchAll pattern (w.reverse ++ before) 0 r := by
  induction w generalizing before with
  | nil => rfl
  | cons d w ih =>
    rw [List.length_cons, List.cons_append, matchAll_succ_cons, ih]
    simp

/-- A pattern reads the same in a text and in a longer one; a match that ends with the text may
take one more character of the longer one. -/
inductive SameMatch (length : Nat) : Option (β × Nat) → Option (β × Nat) → Prop where
  | none : SameMatch length none none
  | inside (b : β) {n : Nat} (h : n ≤ length) : SameMatch length (some (b, n)) (some (b, n))
  | beyond (b : β) : SameMatch length (some (b, length)) (some (b, length + 1))

/-- A separator cuts the matches of a text into those of its two sides. -/
theorem matchAll_append_cons (hbreak : ∀ before, pattern before (c :: t) = none)
    (hsame : ∀ before v, v ≠ [] →
      SameMatch v.length (pattern before v) (pattern before (v ++ c :: t))) (hn : n ≤ s.length) :
    matchAll pattern before n (s ++ c :: t) =
      matchAll pattern before n s ++ matchAll pattern (c :: (s.reverse ++ before)) 0 t := by
  induction s generalizing before n with
  | nil =>
    obtain rfl : n = 0 := by simpa using hn
    rw [List.nil_append, matchAll_cons_none (hbreak before)]
    rfl
  | cons d s ih =>
    have hnext (k : Nat) (hk : k ≤ s.length) :
        matchAll pattern (d :: before) k (s ++ c :: t) = matchAll pattern (d :: before) k s ++
          matchAll pattern (c :: ((d :: s).reverse ++ before)) 0 t := by
      simpa using (ih hk : matchAll pattern (d :: before) k (s ++ c :: t) = _)
    cases n with
    | succ k => exact hnext k (by simpa using hn)
    | zero =>
      have hat := hsame before (d :: s) (List.cons_ne_nil _ _)
      rw [List.cons_append] at hat ⊢
      generalize halone : pattern before (d :: s) = alone at hat
      generalize hlonger : pattern before (d :: (s ++ c :: t)) = longer at hat
      cases hat with
      | none =>
        rw [matchAll_cons_none hlonger, matchAll_cons_none halone]
        exact hnext 0 (Nat.zero_le _)
      | inside b h =>
        rw [matchAll_cons_some hlonger, matchAll_cons_some halone, List.cons_append,
          hnext _ (by simpa using h)]
      | beyond b =>
        -- the match ends with the text: it skips the rest of it and the separator
        have hskip := matchAll_skip pattern (d :: before) (s ++ [c]) t
        have hend := matchAll_skip pattern (d :: before) s []
        rw [matchAll_cons_some hlonger, matchAll_cons_some halone]
        simp_all [matchAll_nil]

/-! Replacing. -/

variable {f : β → List α}

theorem replaceAll_succ_cons :
    replaceAll pattern f before (n + 1) (c :: s) = replaceAll pattern f (c :: before) n s := rfl

theorem replaceAll_cons_none (h : pattern before (c :: s) = none) :
    replaceAll pattern f before 0 (c :: s) = c :: replaceAll pattern f (c :: before) 0 s := by
  simp [replaceAll, h]

theorem replaceAll_cons_some (h : pattern before (c :: s) = some (b, n)) :
    replaceAll pattern f before 0 (c :: s) =
      f b ++ replaceAll pattern f (c :: before) (n - 1) s := by
  simp [replaceAll, h]

variable (pattern f) in
theorem replaceAll_skip (before w r : List α) : replaceAll pattern f before w.length (w ++ r) =
    replaceAll pattern f (w.reverse ++ before) 0 r := by
  induction w generalizing before with
  | nil => rfl
  | cons d w ih =>
    rw [List.length_cons, List.cons_append, replaceAll_succ_cons, ih]
    simp

theorem replaceAll_match (h : pattern before (w ++ r) = some (b, w.length)) (hw : w ≠ []) :
    replaceAll pattern f before 0 (w ++ r) =
      f b ++ replaceAll pattern f (w.reverse ++ before) 0 r := by
  cases w with
  | nil => exact absurd rfl hw
  | cons d w =>
    have hskip := replaceAll_skip pattern f (d :: before) w r
    rw [List.cons_append] at h ⊢
    rw [replaceAll_cons_some h, List.length_cons, Nat.add_sub_cancel, hskip]
    simp

/-- A pattern that does not look back replaces the same whatever stands before. -/
theorem replaceAll_forget {g : List α → Option (β × Nat)} (before before' : List α) (k : Nat)
    (s : List α) :
    replaceAll (fun _ => g) f before k s = replaceAll (fun _ => g) f before' k s := by
  induction s generalizing before before' k with
  | nil => cases k <;> rfl
  | cons c s ih =>
    cases k with
    | succ k => exact ih _ _ k
    | zero =>
      cases hg : g (c :: s) with
      | none =>
        rw [replaceAll_cons_none hg, replaceAll_cons_none hg]
        exact congrArg (c :: ·) (ih _ _ 0)
      | some found =>
        rw [replaceAll_cons_some hg, replaceAll_cons_some hg]
        exact congrArg (f found.1 ++ ·) (ih _ _ _)

end Matching

/-! ## Runs of characters -/

section Runs
variable {α : Type} {p : α → Bool} {w r : List α}

theorem takeWhile_append_stop (hw : w.all p = true) (hr : r.head?.any p = false) :
    (w ++ r).takeWhile p = w := by
  induction w with
  | nil => cases r <;> simp_all
  | cons c w ih =>
    simp only [List.all_cons, Bool.and_eq_true] at hw
    rw [List.cons_append, List.takeWhile_cons_of_pos hw.1, ih hw.2]

theorem dropWhile_append_stop (hw : w.all p = true) (hr : r.head?.any p = false) :
    (w ++ r).dropWhile p = r := by
  induction w with
  | nil => cases r <;> simp_all
  | cons c w ih =>
    simp only [List.all_cons, Bool.and_eq_true] at hw
    rw [List.cons_append, List.dropWhile_cons_of_pos hw.1, ih hw.2]

end Runs

/-! ## Words in a text -/

/-- The class `\w`. -/
def isWordChar (c : Char) : Bool := c.isAlphanum || c = '_'

section Words
variable {α : Type} {w s t : List α} {c : α}

/-- A word does not go on beyond a character that it does not have. -/
theorem prefix_append_cons_iff (h : c ∉ w) : w <+: s ++ c :: t ↔ w <+: s := by
  induction s generalizing w with
  | nil =>
    cases w with
    | nil => simp
    | cons d w =>
      have hne : d ≠ c := fun heq => h (heq ▸ List.mem_cons_self)
      simp [hne]
  | cons e s ih =>
    cases w with
    | nil => simp
    | cons d w =>
      rw [List.cons_append, List.cons_prefix_cons, List.cons_prefix_cons,
        ih fun hmem => h (List.mem_cons_of_mem _ hmem)]

theorem infix_append_cons_iff (h : c ∉ w) :
    w <:+: s ++ c :: t ↔ w <:+: s ∨ w <:+: t := by
  induction s with
  | nil =>
    have hprefix := prefix_append_cons_iff (s := []) (t := t) h
    rw [List.nil_append] at hprefix ⊢
    rw [List.infix_cons_iff, hprefix]
    simp
  | cons e s ih =>
    rw [List.cons_append, List.infix_cons_iff, ih, List.infix_cons_iff, ← List.cons_append,
      prefix_append_cons_iff h, or_assoc]

end Words

end Pwos
