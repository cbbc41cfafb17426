import Mathlib.Data.List.Infix
import Mathlib.Tactic

/-!
# Patterns of `LIKE`

`%` stands for any text, `_` for any character, and the backslash takes the next character as it
is. A text with these characters escaped, between two `%`, is matched by what contains it
(`like_containing`).
-/

namespace Pwos

def anyText : Char := '%'
def anyChar : Char := '_'
def escapeMark : Char := Char.ofNat 92

/-- The text begins with a character that passes, and the rest matches. -/
def firstThen (ok : Char → Bool) (rest : List Char → Bool) : List Char → Bool
  | [] => false
  | c :: s => ok c && rest s

/-- Whether the text matches the pattern. A pattern that ends in a lone backslash is an error and
matches nothing. -/
def like : List Char → List Char → Bool
  | [], s => s.isEmpty
  | c :: p, s =>
    if c = anyText then s.tails.any (like p)
    else if c = anyChar then firstThen (fun _ => true) (like p) s
    else if c = escapeMark then
      match p with
      | [] => false
      | d :: p => firstThen (· == d) (like p) s
    else firstThen (· == c) (like p) s

/-- The pattern characters of the text escaped. -/
def escaped (w : List Char) : List Char :=
  w.flatMap fun c => if c = escapeMark ∨ c = anyText ∨ c = anyChar then [escapeMark, c] else [c]

def containing (w : List Char) : List Char := anyText :: (escaped w ++ [anyText])

section Like
variable {w p s : List Char}

theorem like_anyText : like (anyText :: p) s = true ↔ ∃ t, t <:+ s ∧ like p t = true := by
  rw [like.eq_def]
  simp

theorem like_escaped_cons {c : Char} :
    like (escaped (c :: w) ++ p) s = true ↔ ∃ t, s = c :: t ∧ like (escaped w ++ p) t = true := by
  have hmarks : escapeMark ≠ anyText ∧ escapeMark ≠ anyChar := by decide
  have hlike : like (escaped (c :: w) ++ p) s = firstThen (· == c) (like (escaped w ++ p)) s := by
    unfold escaped
    rw [List.flatMap_cons]
    split
    · rw [List.append_assoc, List.cons_append, List.cons_append, List.nil_append, like.eq_def]
      simp [hmarks]
    · rw [List.append_assoc, List.cons_append, List.nil_append, like.eq_def]
      simp_all
  rw [hlike]
  cases s with
  | nil => simp [firstThen]
  | cons d s => simp [firstThen]

/-- An escaped text matches itself. -/
theorem like_escaped : like (escaped w ++ p) s = true ↔ ∃ t, s = w ++ t ∧ like p t = true := by
  induction w generalizing s with
  | nil => simp [escaped]
  | cons c w ih =>
    rw [like_escaped_cons]
    grind

theorem like_containing : like (containing w) s = true ↔ w <:+: s := by
  unfold containing
  rw [like_anyText]
  constructor
  · rintro ⟨t, ⟨a, rfl⟩, hlike⟩
    obtain ⟨b, rfl, -⟩ := like_escaped.mp hlike
    exact ⟨a, b, by simp⟩
  · rintro ⟨a, b, rfl⟩
    refine ⟨w ++ b, ⟨a, by simp⟩, like_escaped.mpr ⟨b, rfl, ?_⟩⟩
    exact like_anyText.mpr ⟨[], List.nil_suffix, rfl⟩

end Like

end Pwos
