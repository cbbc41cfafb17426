import Pwos.Lib.Interleaving

/-!
# Interleavings that commit as if serial

A transaction that commits what it would have written alone, from the state it commits to,
might as well have run alone. `System.ReachesIf` restricts the commits of an interleaving,
and `System.ReachesIf.keeps` reduces an invariant of such runs to one transaction alone.
-/

namespace Pwos

section Serial
variable {σ ω κ τ ε ρ α : Type} [Writable σ ω]

/-- Run alone from `s`, the program writes what `ws` come to. -/
def Tx.AsAlone (p : Tx σ ω κ τ ε α) (ws : List ω) (s : σ) : Prop :=
  ∃ a, p.run s = .ok (a, applyAll ws s)

namespace System

/-- The systems an interleaving reaches whose commits are all admitted: `admits a ws s` is
about the result of the transaction, what it has written, and the state it commits to. -/
inductive ReachesIf (programs : Tx σ ω κ τ ε ρ → Prop) (admits : ρ → List ω → σ → Prop) (s : σ) :
    System σ ω κ τ ε ρ → Prop where
  | idle : ReachesIf programs admits s (idle s)
  | step {c d : System σ ω κ τ ε ρ} :
      ReachesIf programs admits s c → Step programs (fun _ => False) c d →
      d.committed = c.committed → ReachesIf programs admits s d
  | commit {c : System σ ω κ τ ε ρ} {i : Nat} {a : ρ} {ws : List ω} {ks : List κ} :
      ReachesIf programs admits s c → c.sessions i = some ⟨.done a, ws, ks⟩ →
      admits a ws c.committed →
      ReachesIf programs admits s ({ c with committed := applyAll ws c.committed }.put i none)

variable {programs : Tx σ ω κ τ ε ρ → Prop} {admits : ρ → List ω → σ → Prop} {s t : σ}
  {c : System σ ω κ τ ε ρ}

/-- What every admitted commit keeps holds of every state that is reached. -/
theorem ReachesIf.keeps {I : σ → Prop} (hs : I s)
    (hcommit : ∀ a ws t, I t → admits a ws t → I (applyAll ws t))
    (h : ReachesIf programs admits s c) : I c.committed := by
  induction h with
  | idle => exact hs
  | step _ _ hsame ih => exact hsame ▸ ih
  | commit _ _ hadmits ih => exact hcommit _ _ _ ih hadmits

/-- A restricted interleaving is an interleaving. -/
theorem ReachesIf.reaches (h : ReachesIf programs admits s c) :
    Reaches programs (fun _ => False) s c := by
  induction h with
  | idle => exact .idle
  | step _ hstep _ ih => exact ih.step hstep
  | commit _ hi _ ih => exact ih.step (.commit _ _ hi)

/-- A transaction may run to its end while nobody else is connected. -/
theorem ReachesIf.alone {p : Tx σ ω κ τ ε ρ} {a : ρ} (h : ReachesIf programs admits s c)
    (hq : c.Quiet) (hp : programs p) (hrun : p.run c.committed = .ok (a, t))
    (hadmits : ∀ ws, applyAll ws c.committed = t → admits a ws c.committed) :
    ∃ d, ReachesIf programs admits s d ∧ d.Quiet ∧ d.committed = t := by
  have hgen : ∀ {d : System σ ω κ τ ε ρ} {ws : List ω} {ks : List κ},
      ReachesIf programs admits s d → d.committed = c.committed →
      (∀ j, j ≠ 0 → d.sessions j = none) → d.sessions 0 = some ⟨p, ws, ks⟩ →
      p.run (applyAll ws d.committed) = .ok (a, t) →
      ∃ d', ReachesIf programs admits s d' ∧ d'.Quiet ∧ d'.committed = t := by
    clear hrun hp h
    induction p with
    | done b =>
      intro d ws ks hd hsame hothers h0 hrun
      cases hrun
      refine ⟨_, hd.commit h0 (hsame ▸ hadmits ws (by rw [hsame])), fun j => ?_, rfl⟩
      by_cases hj : j = 0
      · rw [hj, put_self]
      · rw [put_other _ hj]
        exact hothers j hj
    | fail e => intro d ws ks _ _ _ _ hrun; cases hrun
    | stmt l x w n ih =>
      intro d ws ks hd hsame hothers h0 hrun
      have hfree : d.Free 0 (l (applyAll ws d.committed)) := by
        intro j y hj hy
        rw [hothers j hj] at hy
        cases hy
      refine ih _ (hd.step (.statement _ 0 h0 hfree nofun) rfl) hsame (fun j hj => ?_)
        (put_self _ _ _) ?_
      · rw [put_other _ hj]
        exact hothers j hj
      · rw [put_committed, applyAll_append]
        exact hrun
  refine hgen (h.step (.begin _ 0 p (hq 0) hp) rfl) rfl (fun j hj => ?_) (put_self _ _ _) hrun
  rw [put_other _ hj]
  exact hq j

end System

end Serial

end Pwos
