import Mathlib.Tactic

/-!
# The words of a text

A text is read word by word, a separator between them. Texts that are put together with separators
have the words of their parts.
-/

namespace Pwos

section Words
variable {α : Type} [DecidableEq α] {sep : α} {s t w : List α} {parts : List (List α)}

/-- The words between the separators. -/
def wordsAt (sep : α) (t : List α) : List (List α) := (t.splitOn sep).filter (· ≠ [])

@[simp] theorem wordsAt_nil : wordsAt sep [] = [] := by simp [wordsAt, List.splitOn]

@[simp] theorem wordsAt_append_cons :
    wordsAt sep (s ++ sep :: t) = wordsAt sep s ++ wordsAt sep t := by
  unfold wordsAt List.splitOn
  rw [List.splitOnP_append_cons s t (by simp), List.filter_append]

@[simp] theorem wordsAt_cons : wordsAt sep (sep :: t) = wordsAt sep t := by
  have happend : wordsAt sep ([] ++ sep :: t) = wordsAt sep [] ++ wordsAt sep t :=
    wordsAt_append_cons
  rwa [List.nil_append, wordsAt_nil, List.nil_append] at happend

theorem wordsAt_word (h : sep ∉ w) (hne : w ≠ []) : wordsAt sep w = [w] := by
  unfold wordsAt List.splitOn
  rw [List.splitOnP_eq_singleton fun c hc => beq_eq_false_iff_ne.mpr (ne_of_mem_of_not_mem hc h)]
  simp [hne]

/-- A word that is put between the parts stands between their words. -/
theorem wordsAt_intercalate (h : sep ∉ w) (hne : w ≠ []) (parts : List (List α)) :
    wordsAt sep ((sep :: w ++ [sep]).intercalate parts) =
      [w].intercalate (parts.map (wordsAt sep)) := by
  induction parts with
  | nil => simp
  | cons p parts ih =>
    cases parts with
    | nil => simp
    | cons q parts =>
      have hsplit : p ++ (sep :: w ++ [sep]) ++ (sep :: w ++ [sep]).intercalate (q :: parts) =
          p ++ sep :: (w ++ sep :: (sep :: w ++ [sep]).intercalate (q :: parts)) := by simp
      rw [List.intercalate_cons_cons, hsplit, wordsAt_append_cons, wordsAt_append_cons,
        wordsAt_word h hne, ih]
      simp [List.intercalate_cons_cons]

end Words

end Pwos
