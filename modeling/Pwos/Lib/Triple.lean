import Pwos.Lib.Tx

/-!
# Pre- and postconditions

What holds after a transaction that ran alone and was not refused, from what held before it:
one rule for each way to build a transaction.
-/

namespace Pwos.Tx

variable {σ ω κ τ ε α β : Type} [Writable σ ω]

/-- From a state with `P`, a run that succeeds ends with `Q`. -/
def Triple (P : σ → Prop) (p : Tx σ ω κ τ ε α) (Q : α → σ → Prop) : Prop :=
  ∀ s a t, P s → p.run s = .ok (a, t) → Q a t

/-- A run that succeeds keeps `I`. -/
abbrev Keeps (I : σ → Prop) (p : Tx σ ω κ τ ε α) : Prop := p.Triple I fun _ => I

section Rules
variable {P P' : σ → Prop} {Q Q' : α → σ → Prop} {p : Tx σ ω κ τ ε α}

theorem Triple.mono (h : p.Triple P Q) (hpre : ∀ s, P' s → P s) (hpost : ∀ a s, Q a s → Q' a s) :
    p.Triple P' Q' :=
  fun s a t hs hrun => hpost a t (h s a t (hpre s hs) hrun)

theorem Triple.bind {R : β → σ → Prop} {f : α → Tx σ ω κ τ ε β} (hp : p.Triple P Q)
    (hf : ∀ a, (f a).Triple (Q a) R) : (p >>= f).Triple P R := by
  intro s b u hs hrun
  obtain ⟨a, t, h, k⟩ := run_bind_ok.mp hrun
  exact hf a t b u (hp s a t hs h) k

/-- What the state says may be read off first. -/
theorem Triple.of_forall (h : ∀ s, P s → p.Triple (· = s) Q) : p.Triple P Q :=
  fun s a t hs hrun => h s hs s a t rfl hrun

theorem triple_done {a : α} (h : ∀ s, P s → Q a s) : (Tx.done a : Tx σ ω κ τ ε α).Triple P Q := by
  intro s b t hs hrun
  cases hrun
  exact h s hs

theorem triple_fail {e : ε} : (Tx.fail e : Tx σ ω κ τ ε α).Triple P Q := nofun

theorem triple_read {f : σ → α} (h : ∀ s, P s → Q (f s) s) :
    (Tx.read f : Tx σ ω κ τ ε α).Triple P Q := by
  intro s a t hs hrun
  cases hrun
  exact h s hs

theorem triple_lock {rows : σ → List κ} {f : σ → α} (h : ∀ s, P s → Q (f s) s) :
    (Tx.lock rows f : Tx σ ω κ τ ε α).Triple P Q := by
  intro s a t hs hrun
  cases hrun
  exact h s hs

theorem triple_write {rows : σ → List κ} {ws : σ → List ω} {Q : Unit → σ → Prop}
    (h : ∀ s, P s → Q () (applyAll (ws s) s)) :
    (Tx.write rows ws : Tx σ ω κ τ ε Unit).Triple P Q := by
  intro s a t hs hrun
  cases hrun
  exact h s hs

theorem triple_insert {rows : σ → List κ} {ok : σ → Prop} [DecidablePred ok] {ws : σ → List ω}
    {e : ε} {Q : Unit → σ → Prop} (h : ∀ s, P s → ok s → Q () (applyAll (ws s) s)) :
    (Tx.insert rows ok ws e : Tx σ ω κ τ ε Unit).Triple P Q := by
  intro s a t hs hrun
  rw [run_insert] at hrun
  split at hrun
  · rename_i hok
    cases hrun
    exact h s hs hok
  · cases hrun

theorem triple_require {c : Prop} [Decidable c] {e : ε} {Q : Unit → σ → Prop}
    (h : ∀ s, P s → c → Q () s) : (Tx.require c e : Tx σ ω κ τ ε Unit).Triple P Q := by
  intro s a t hs hrun
  rw [run_require] at hrun
  split at hrun
  · rename_i hc
    cases hrun
    exact h s hs hc
  · cases hrun

theorem triple_ofExcept {r : Except ε α} (h : ∀ s a, P s → r = .ok a → Q a s) :
    (Tx.ofExcept r : Tx σ ω κ τ ε α).Triple P Q := by
  intro s a t hs hrun
  obtain ⟨hr, rfl⟩ := run_ofExcept_ok.mp hrun
  exact h t a hs hr

theorem Triple.when {c : Prop} [Decidable c] {p : Tx σ ω κ τ ε Unit} {Q : Unit → σ → Prop}
    (h : c → p.Triple P Q) (hskip : ∀ s, P s → ¬ c → Q () s) : (Tx.when c p).Triple P Q := by
  unfold Tx.when
  split
  · rename_i hc
    exact h hc
  · rename_i hc
    exact triple_done fun s hs => hskip s hs hc

/-- A loop keeps what each of its rounds keeps. -/
theorem keeps_each {xs : List α} {f : α → Tx σ ω κ τ ε Unit} (h : ∀ x ∈ xs, (f x).Keeps P) :
    (Tx.each xs f).Keeps P := by
  induction xs with
  | nil => exact triple_done fun _ hs => hs
  | cons x xs ih =>
    exact (h x List.mem_cons_self).bind fun _ => ih fun y hy => h y (List.mem_cons_of_mem x hy)

/-- A transaction that only reads leaves what held. -/
theorem ReadOnly.keeps (h : p.ReadOnly) : p.Keeps P := by
  intro s a t hs hrun
  obtain ⟨-, rfl⟩ := h.run_ok.mp hrun
  exact hs

/-- A transaction that only writes what keeps `P` keeps it. -/
theorem WritesOnly.keeps {W : ω → Prop} (h : p.WritesOnly W)
    (hkeeps : ∀ w, W w → ∀ s : σ, P s → P (Writable.apply w s)) : p.Keeps P := by
  intro s a t hs hrun
  obtain ⟨ws, hws, rfl⟩ := h.run_ok hrun
  clear hrun
  induction ws generalizing s with
  | nil => exact hs
  | cons w ws ih =>
    rw [applyAll_cons]
    exact ih _ (hkeeps w (hws w List.mem_cons_self) s hs)
      fun v hv => hws v (List.mem_cons_of_mem w hv)

/-- Tried and perhaps refused, it leaves what it leaves either way. -/
theorem Triple.exec {I : σ → Prop} (h : p.Triple P fun _ => I) {s : σ} (hP : P s) (hI : I s) :
    I (p.exec s) := by
  rcases p.ok_or_refused s with ⟨a, t, hrun⟩ | href
  · rw [exec_of_ok hrun]
    exact h s a t hP hrun
  · rwa [href.exec]

end Rules

end Pwos.Tx
