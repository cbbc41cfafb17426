import Mathlib.Tactic

/-!
# Runs of calls

A run makes calls one after the other, each in the state the one before left. What every
call keeps a run keeps, and a mark that calls only ever set tells whether some call of
the run set it.
-/

namespace Pwos

section Runs
variable {ο σ : Type} (exec : ο → σ → σ)

def runAll (ops : List ο) (s : σ) : σ := ops.foldl (fun s op => exec op s) s

@[simp] theorem runAll_nil (s : σ) : runAll exec [] s = s := rfl
@[simp] theorem runAll_cons (op : ο) (ops : List ο) (s : σ) :
    runAll exec (op :: ops) s = runAll exec ops (exec op s) := rfl
theorem runAll_append (ops ops' : List ο) (s : σ) :
    runAll exec (ops ++ ops') s = runAll exec ops' (runAll exec ops s) := by simp [runAll]

/-- The condition holds of every call, in the state the call is made in. -/
def EveryCall (P : ο → σ → Prop) : List ο → σ → Prop
  | [], _ => True
  | op :: ops, s => P op s ∧ EveryCall P ops (exec op s)

instance decidableEveryCall {P : ο → σ → Prop} [∀ op s, Decidable (P op s)] :
    ∀ ops s, Decidable (EveryCall exec P ops s)
  | [], _ => isTrue trivial
  | op :: ops, s =>
    have : Decidable (EveryCall exec P ops (exec op s)) := decidableEveryCall ops (exec op s)
    inferInstanceAs (Decidable (P op s ∧ EveryCall exec P ops (exec op s)))

variable {exec}

theorem everyCall_append {P : ο → σ → Prop} {ops ops' : List ο} {s : σ} :
    EveryCall exec P (ops ++ ops') s ↔ EveryCall exec P ops s ∧
      EveryCall exec P ops' (runAll exec ops s) := by
  induction ops generalizing s with
  | nil => simp [EveryCall]
  | cons op ops ih => simp only [List.cons_append, EveryCall, ih, runAll_cons, and_assoc]

theorem everyCall_mono {P Q : ο → σ → Prop} (h : ∀ op s, P op s → Q op s) (ops : List ο) {s : σ}
    (hP : EveryCall exec P ops s) : EveryCall exec Q ops s := by
  induction ops generalizing s with
  | nil => trivial
  | cons op ops ih => exact ⟨h _ _ hP.1, ih hP.2⟩

theorem EveryCall.forall_mem {P : ο → Prop} {ops : List ο} {s : σ}
    (h : EveryCall exec (fun op _ => P op) ops s) : ∀ op ∈ ops, P op := by
  induction ops generalizing s with
  | nil => simp
  | cons op ops ih =>
    intro op' hop'
    rcases List.mem_cons.mp hop' with rfl | hop'
    · exact h.1
    · exact ih h.2 op' hop'

/-- What every call keeps that meets a condition, a run of such calls keeps. -/
theorem runAll_keeps_of {I : σ → Prop} {P : ο → σ → Prop}
    (step : ∀ op s, I s → P op s → I (exec op s)) (ops : List ο) {s : σ} (hs : I s)
    (h : EveryCall exec P ops s) : I (runAll exec ops s) := by
  induction ops generalizing s with
  | nil => exact hs
  | cons op ops ih => exact ih (step op s hs h.1) h.2

theorem runAll_keeps {I : σ → Prop} (step : ∀ op s, I s → I (exec op s)) (ops : List ο) {s : σ}
    (h : I s) : I (runAll exec ops s) := by
  induction ops generalizing s with
  | nil => exact h
  | cons op ops ih => exact ih (step op s h)

/-- Calls that keep the invariant exactly under a condition: it holds all along the run if and
only if every call meets the condition. -/
theorem throughout_iff {I : σ → Prop} {P : ο → σ → Prop}
    (step : ∀ op s, I s → (I (exec op s) ↔ P op s)) (ops : List ο) {s : σ} :
    (∀ made, made <+: ops → I (runAll exec made s)) ↔ I s ∧ EveryCall exec P ops s := by
  induction ops generalizing s with
  | nil => simp [EveryCall]
  | cons op ops ih =>
    have hcons : (∀ made, made <+: op :: ops → I (runAll exec made s)) ↔
        I s ∧ ∀ made, made <+: ops → I (runAll exec made (exec op s)) := by
      constructor
      · exact fun h => ⟨h [] (List.nil_prefix), fun made hm => h (op :: made) (by simpa using hm)⟩
      · rintro ⟨hs, h⟩ made hm
        cases made with
        | nil => exact hs
        | cons op' made =>
          obtain ⟨rfl, hrest⟩ := List.cons_prefix_cons.mp hm
          exact h made hrest
    rw [hcons, ih]
    exact and_congr_right fun hs => and_congr_left fun _ => step op s hs

/-- A mark is on the last state if it was on the first or some call set it. -/
theorem runAll_marked {I F : σ → Prop} {B : ο → σ → Prop}
    (keep : ∀ op s, I s → I (exec op s)) (mark : ∀ op s, I s → (F (exec op s) ↔ F s ∨ B op s))
    (ops : List ο) {s : σ} (h : I s) :
    F (runAll exec ops s) ↔ F s ∨ ¬ EveryCall exec (fun op s => ¬ B op s) ops s := by
  induction ops generalizing s with
  | nil => simp [EveryCall]
  | cons op ops ih =>
    rw [runAll_cons, ih (keep op s h), mark op s h, or_assoc, EveryCall, not_and_or, not_not]

end Runs

end Pwos
