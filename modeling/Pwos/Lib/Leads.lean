import Pwos.Lib.Interleaving

/-!
# Programs that lead to a tail

A long program that reads, makes a few writes of one kind and then goes on as one of a
few known programs. `Tx.Leads` follows it once, over all the states its statements may
see; what holds of the tails then holds of the program, alone (`Leads.run_ok`) and among
others (`Promise.Ok.leads`).
-/

namespace Pwos

namespace Tx
variable {σ ω κ τ ε α β : Type} {V : σ → Prop} {W : ω → Prop}

/-- The program may return `a`, if each of its statements sees some state in `V`. -/
def Gives (V : σ → Prop) : Tx σ ω κ τ ε α → α → Prop
  | .done b, a => b = a
  | .fail _, _ => False
  | .stmt _ _ _ n, a => ∃ s, V s ∧ (n s).Gives V a

theorem gives_bind {p : Tx σ ω κ τ ε α} {f : α → Tx σ ω κ τ ε β} {b : β} :
    (p >>= f).Gives V b ↔ ∃ a, p.Gives V a ∧ (f a).Gives V b := by
  induction p with
  | done a => simp [Gives]
  | fail e => simp [Gives]
  | stmt l x w n ih =>
    simp only [stmt_bind, Gives, ih]
    grind

@[simp] theorem gives_done {a b : α} : (Tx.done b : Tx σ ω κ τ ε α).Gives V a ↔ b = a := Iff.rfl
@[simp] theorem gives_fail {a : α} {e : ε} : ¬ (Tx.fail e : Tx σ ω κ τ ε α).Gives V a := id
@[simp] theorem gives_read {f : σ → α} {a : α} :
    (Tx.read f : Tx σ ω κ τ ε α).Gives V a ↔ ∃ s, V s ∧ f s = a := Iff.rfl
@[simp] theorem gives_require {c : Prop} [Decidable c] {e : ε} {a : Unit} :
    (Tx.require c e : Tx σ ω κ τ ε Unit).Gives V a ↔ c := by
  unfold require
  split <;> simp [Gives, *]
@[simp] theorem gives_ofExcept {r : Except ε α} {a : α} :
    (Tx.ofExcept r : Tx σ ω κ τ ε α).Gives V a ↔ r = .ok a := by
  cases r <;> simp [ofExcept]

/-- In states of `V` the program makes writes of `W` only, and then fails or goes on as a
program of `T`. -/
inductive Leads (V : σ → Prop) (W : ω → Prop) (T : Tx σ ω κ τ ε α → Prop) :
    Tx σ ω κ τ ε α → Prop where
  | tail {p : Tx σ ω κ τ ε α} : T p → Leads V W T p
  | fail (e : ε) : Leads V W T (.fail e)
  | stmt {l : σ → List κ} {x : τ → σ → Prop} {w : σ → List ω} {n : σ → Tx σ ω κ τ ε α} :
      (∀ s, V s → ∀ v ∈ w s, W v) → (∀ s, V s → Leads V W T (n s)) → Leads V W T (.stmt l x w n)

variable {T : Tx σ ω κ τ ε α → Prop}

/-- A part with writes of `W` only may return whatever it gives. -/
theorem WritesOnly.leads_bind {p : Tx σ ω κ τ ε β} {f : β → Tx σ ω κ τ ε α}
    (hp : p.WritesOnly W) (h : ∀ b, p.Gives V b → (f b).Leads V W T) : (p >>= f).Leads V W T := by
  induction p with
  | done b => exact h b rfl
  | fail e => exact .fail e
  | stmt l x w n ih =>
    exact .stmt (fun s _ => (hp s).1) fun s hs => ih s (hp s).2 fun b hb => h b ⟨s, hs, hb⟩

theorem ReadOnly.leads_bind {p : Tx σ ω κ τ ε β} {f : β → Tx σ ω κ τ ε α}
    (hp : p.ReadOnly) (h : ∀ b, p.Gives V b → (f b).Leads V W T) : (p >>= f).Leads V W T :=
  hp.writesOnly.leads_bind h

theorem Leads.mono {S : Tx σ ω κ τ ε α → Prop} {p : Tx σ ω κ τ ε α} (h : p.Leads V W T)
    (imp : ∀ q, T q → S q) : p.Leads V W S := by
  induction h with
  | tail hq => exact .tail (imp _ hq)
  | fail e => exact .fail e
  | stmt hw h ih => exact .stmt hw ih

variable [Writable σ ω]

/-- What a program that only reads answers, it may give. -/
theorem ReadOnly.gives {p : Tx σ ω κ τ ε α} (hp : p.ReadOnly) {s : σ} {a : α} (hs : V s)
    (h : p.answer s = .ok a) : p.Gives V a := by
  have hrun := (hp.run_ok.mpr ⟨h, rfl⟩ : p.run s = .ok (a, s))
  clear h
  induction p with
  | done b => cases hrun; rfl
  | fail e => cases hrun
  | stmt l x w n ih =>
    obtain ⟨-, hw, hn⟩ := hp s
    rw [run_stmt, hw] at hrun
    exact ⟨s, hs, ih s hn hrun⟩

/-- Alone, the program runs as one of its tails after some writes of `W`. -/
theorem Leads.run_ok {p : Tx σ ω κ τ ε α} (h : p.Leads V W T) {s t : σ} {a : α}
    (hV : ∀ s w, V s → W w → V (Writable.apply w s)) (hs : V s) (hrun : p.run s = .ok (a, t)) :
    ∃ q ws, T q ∧ (∀ w ∈ ws, W w) ∧ q.run (applyAll ws s) = .ok (a, t) := by
  induction h generalizing s with
  | tail hq => exact ⟨_, [], hq, by simp, hrun⟩
  | fail e => cases hrun
  | @stmt l x w n hw h ih =>
    have hkeep : ∀ (ws : List ω) (u : σ), (∀ v ∈ ws, W v) → V u → V (applyAll ws u) := by
      intro ws
      induction ws with
      | nil => exact fun _ _ hu => hu
      | cons v ws ih' =>
        intro u hws hu
        exact ih' _ (fun v' hv' => hws v' (by simp [hv'])) (hV u v hu (hws v (by simp)))
    obtain ⟨q, ws, hq, hws, hrest⟩ := ih s hs (hkeep _ s (hw s hs) hs) hrun
    refine ⟨q, w s ++ ws, hq, ?_, by rwa [applyAll_append]⟩
    intro v hv
    rcases List.mem_append.mp hv with hv | hv
    · exact hw s hs v hv
    · exact hws v hv

end Tx

/-- Among others, a program that only reads returns something it gives. -/
theorem Promise.Ok.of_gives {σ ω κ τ ε α : Type} [Writable σ ω] {P : Promise σ κ τ}
    {V : σ → Prop} {Q : α → List ω → List κ → σ → Prop} {p : Tx σ ω κ τ ε α} {ws : List ω}
    {ks : List κ} {s : σ} (hp : p.ReadOnly) (hV : ∀ t, P.Inv t → V (applyAll ws t))
    (hQ : ∀ a t, P.Inv t → P.Rely ks s t → p.Gives V a → Q a ws ks t) : P.Ok Q p ws ks s := by
  induction p generalizing s with
  | done a => exact fun t ht hr => hQ a t ht hr rfl
  | fail e => trivial
  | stmt l x w n ih =>
    intro t ht hr _
    obtain ⟨hl, hw, hn⟩ := hp (applyAll ws t)
    rw [hl, hw, List.append_nil, List.append_nil]
    exact ih _ hn fun a u hu htu ha => hQ a u hu (P.trans hr htu) ⟨_, hV t ht, ha⟩

/-- Among others, the program is as good as its tails. -/
theorem Promise.Ok.leads {σ ω κ τ ε α : Type} [Writable σ ω] {P : Promise σ κ τ}
    {V : σ → Prop} {W : ω → Prop} {T : Tx σ ω κ τ ε α → Prop}
    {Q : α → List ω → List κ → σ → Prop} {p : Tx σ ω κ τ ε α} {ws : List ω} {ks : List κ} {s : σ}
    (h : p.Leads V W T) (hws : ∀ w ∈ ws, W w)
    (hV : ∀ vs t, (∀ w ∈ vs, W w) → P.Inv t → V (applyAll vs t))
    (tails : ∀ q vs js t, T q → (∀ w ∈ vs, W w) → ks ⊆ js → P.Rely ks s t → P.Ok Q q vs js t) :
    P.Ok Q p ws ks s := by
  have hgen : ∀ {vs : List ω} {js : List κ} {t : σ}, (∀ w ∈ vs, W w) → ks ⊆ js → P.Rely ks s t →
      P.Ok Q p vs js t := by
    induction h with
    | tail hq => exact fun hvs hsub hr => tails _ _ _ _ hq hvs hsub hr
    | fail e => intros; trivial
    | @stmt l x w n hw h ih =>
      intro vs js t hvs hsub hr u hu htu hx
      refine ih _ (hV vs u hvs hu) ?_ (List.Subset.trans hsub (List.subset_append_left _ _))
        (P.trans hr (P.mono hsub htu))
      intro v hv
      rcases List.mem_append.mp hv with hv | hv
      · exact hvs v hv
      · exact hw _ (hV vs u hvs hu) v hv
  exact hgen hws (List.Subset.refl _) (P.refl _ _)

end Pwos
