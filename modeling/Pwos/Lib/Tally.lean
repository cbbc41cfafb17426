import Mathlib.Algebra.BigOperators.Group.List.Basic
import Mathlib.Tactic

/-!
# Tallies

A tally is a list of buckets, each with a key, to which items are added one by one: an item
changes the buckets of its own key. What an item adds to a figure of a bucket is then added
up over the items of that key (`figure_tally`).
-/

namespace Pwos

section Tally
variable {β ι κ M : Type} [DecidableEq κ] (key : β → κ) (target : ι → κ) (add : ι → β → β)

/-- Add one item. -/
def tallyOne (buckets : List β) (x : ι) : List β :=
  buckets.map fun b => if key b = target x then add x b else b

/-- Add the items in order. -/
def tally (xs : List ι) (buckets : List β) : List β := xs.foldl (tallyOne key target add) buckets

/-- What the items make of one bucket. -/
def fillBucket (xs : List ι) (b : β) : β :=
  xs.foldl (fun b x => if key b = target x then add x b else b) b

theorem tally_eq_map (xs : List ι) (buckets : List β) :
    tally key target add xs buckets = buckets.map (fillBucket key target add xs) := by
  induction xs generalizing buckets with
  | nil => exact (List.map_id _).symm
  | cons x xs ih =>
    have hstep : tally key target add (x :: xs) buckets =
        tally key target add xs (tallyOne key target add buckets x) := rfl
    rw [hstep, ih, tallyOne, List.map_map]
    rfl

variable {key target add}

/-- Items leave alone what none of them changes. -/
theorem fillBucket_keeps {γ : Type} {g : β → γ} (h : ∀ x b, g (add x b) = g b) (xs : List ι)
    (b : β) : g (fillBucket key target add xs b) = g b := by
  induction xs generalizing b with
  | nil => rfl
  | cons x xs ih =>
    refine (ih _).trans ?_
    grind

variable [AddCommMonoid M] {f : β → M} {w : ι → M}

/-- A figure of a bucket is what the items of its key add up to. -/
theorem figure_fillBucket (hkey : ∀ x b, key (add x b) = key b)
    (hadd : ∀ x b, f (add x b) = f b + w x) (xs : List ι) (b : β) :
    f (fillBucket key target add xs b) =
      f b + ((xs.filter fun x => key b = target x).map w).sum := by
  induction xs generalizing b with
  | nil => simp [fillBucket]
  | cons x xs ih =>
    have hstep : fillBucket key target add (x :: xs) b =
        fillBucket key target add xs (if key b = target x then add x b else b) := rfl
    rw [hstep, ih]
    split
    · rename_i hx
      simp [hkey, hadd, hx, add_assoc]
    · rename_i hx
      simp [hx]

theorem figure_tally (hkey : ∀ x b, key (add x b) = key b)
    (hadd : ∀ x b, f (add x b) = f b + w x) (xs : List ι) (buckets : List β) :
    (tally key target add xs buckets).map f =
      buckets.map fun b => f b + ((xs.filter fun x => key b = target x).map w).sum := by
  rw [tally_eq_map, List.map_map]
  exact List.map_congr_left fun b _ => figure_fillBucket hkey hadd xs b

end Tally

end Pwos
