import Pwos.Lib.Process

/-!
# Processes that hold a token

A process that takes a lease under a token nobody has used is the only one that ever writes under
that token. `FencedPromise` is a rely/guarantee contract that knows it: what a process tolerates
depends on the token it holds, and what it changes may depend on all the others holding different
ones. `Reaches.fenced` lifts it from each process alone to every interleaving.
-/

namespace Pwos

namespace Process
variable {σ ω κ τ ε α β : Type}

/-- A read that is a statement of its own. -/
def look (f : σ → α) : Process σ ω κ τ α :=
  .auto (fun _ => []) (fun _ _ => True) (fun _ => []) fun s => .done (f s)

/-- Go on with the result, or stop with the error. -/
def andThen (p : Process σ ω κ τ (Except ε α)) (f : α → Process σ ω κ τ (Except ε β)) :
    Process σ ω κ τ (Except ε β) :=
  p >>= fun r => match r with
    | .ok a => f a
    | .error e => .done (.error e)

end Process

/-- What the processes of a world promise each other. `Taken` are the tokens that were handed out,
and `Rely o ks` bounds what others change while a process holds the token `o` and the rows `ks`. -/
structure FencedPromise (σ κ τ ι : Type) where
  Assumes : τ → Prop
  Inv : σ → Prop
  Taken : σ → ι → Prop
  Rely : Option ι → List κ → σ → σ → Prop
  refl : ∀ o ks s, Rely o ks s s
  trans : ∀ {o ks s t u}, Rely o ks s t → Rely o ks t u → Rely o ks s u
  mono : ∀ {o ks js s t}, ks ⊆ js → Rely o js s t → Rely o ks s t

namespace FencedPromise
variable {σ ω κ τ ε ι α β : Type} [Writable σ ω] (P : FencedPromise σ κ τ ι)

/-- Committing `ws` under the token and the rows keeps the invariant, and is no more than what
every process with another token and other rows tolerates. -/
structure Commits (o : Option ι) (ws : List ω) (ks : List κ) (s : σ) : Prop where
  inv : P.Inv (applyAll ws s)
  taken : ∀ i, P.Taken s i → P.Taken (applyAll ws s) i
  rely : ∀ o' others, (∀ i, o = some i → o' ≠ some i) → (∀ k ∈ others, k ∉ ks) →
    P.Rely o' others s (applyAll ws s)

/-- The token of a process, after a statement of its own: the one it had, or one that was free. -/
def Handed (o o' : Option ι) (s t : σ) : Prop :=
  o' = o ∨ ∃ i, o' = some i ∧ ¬ P.Taken s i ∧ P.Taken t i

/-- From state `s` the process keeps the promise whatever the others do meanwhile, and ends in
`Q`. -/
def Good (Q : α → Option ι → List ω → List κ → σ → Prop) :
    Process σ ω κ τ α → Option ι → List ω → List κ → σ → Prop
  | .done a, o, ws, ks, s => ∀ t, P.Inv t → P.Rely o ks s t → Q a o ws ks t
  | .stmt l x w n, o, ws, ks, s => ∀ t, P.Inv t → P.Rely o ks s t →
      (∀ a, P.Assumes a → x a (applyAll ws t)) →
      Good Q (n (applyAll ws t)) o (ws ++ w (applyAll ws t)) (ks ++ l (applyAll ws t)) t
  | .commit n, o, ws, ks, s => ∀ t, P.Inv t → P.Rely o ks s t →
      P.Commits o ws ks t ∧ Good Q n o [] [] (applyAll ws t)
  | .abort n, o, _, ks, s => ∀ t, P.Inv t → P.Rely o ks s t → Good Q n o [] [] t
  | .auto l x w n, o, ws, ks, s => ∀ t, P.Inv t → P.Rely o ks s t → (∀ a, P.Assumes a → x a t) →
      ∃ o', P.Handed o o' t (applyAll (w t) t) ∧ P.Commits o' (w t) (l t) t ∧
        Good Q (n t) o' ws ks (applyAll (w t) t)

variable {P} {Q : α → Option ι → List ω → List κ → σ → Prop} {o : Option ι} {ws : List ω}
  {ks : List κ} {s t : σ}

theorem Commits.nothing (h : P.Inv s) : P.Commits (ω := ω) o [] ks s :=
  ⟨h, fun _ hi => hi, fun _ _ _ _ => P.refl _ _ _⟩

/-! ## Rules -/

/-- Interference before the next step is already accounted for. -/
theorem Good.stable {p : Process σ ω κ τ α} (h : P.Good Q p o ws ks s) (hr : P.Rely o ks s t) :
    P.Good Q p o ws ks t := by
  cases p with
  | done a => exact fun u hu htu => h u hu (P.trans hr htu)
  | stmt l x w n => exact fun u hu htu => h u hu (P.trans hr htu)
  | commit n => exact fun u hu htu => h u hu (P.trans hr htu)
  | abort n => exact fun u hu htu => h u hu (P.trans hr htu)
  | auto l x w n => exact fun u hu htu => h u hu (P.trans hr htu)

/-- It is enough to look at the process after the interference that is allowed now. -/
theorem Good.of_later {p : Process σ ω κ τ α}
    (h : ∀ t, P.Inv t → P.Rely o ks s t → P.Good Q p o ws ks t) : P.Good Q p o ws ks s := by
  cases p with
  | done a => exact fun t ht hr => h t ht hr t ht (P.refl _ _ _)
  | stmt l x w n => exact fun t ht hr hx => h t ht hr t ht (P.refl _ _ _) hx
  | commit n => exact fun t ht hr => h t ht hr t ht (P.refl _ _ _)
  | abort n => exact fun t ht hr => h t ht hr t ht (P.refl _ _ _)
  | auto l x w n => exact fun t ht hr hx => h t ht hr t ht (P.refl _ _ _) hx

theorem Good.mono {R : α → Option ι → List ω → List κ → σ → Prop} {p : Process σ ω κ τ α}
    (h : P.Good Q p o ws ks s) (imp : ∀ a o ws ks t, Q a o ws ks t → R a o ws ks t) :
    P.Good R p o ws ks s := by
  induction p generalizing o ws ks s with
  | done a => exact fun t ht hr => imp _ _ _ _ _ (h t ht hr)
  | stmt l x w n ih => exact fun t ht hr hx => ih _ (h t ht hr hx)
  | commit n ih => exact fun t ht hr => ⟨(h t ht hr).1, ih (h t ht hr).2⟩
  | abort n ih => exact fun t ht hr => ih (h t ht hr)
  | auto l x w n ih =>
    intro t ht hr hx
    obtain ⟨o', hhanded, hcommits, hgood⟩ := h t ht hr hx
    exact ⟨o', hhanded, hcommits, ih _ hgood⟩

theorem Good.bind {R : β → Option ι → List ω → List κ → σ → Prop} {p : Process σ ω κ τ α}
    {f : α → Process σ ω κ τ β}
    (h : P.Good (fun a o ws ks t => P.Good R (f a) o ws ks t) p o ws ks s) :
    P.Good R (p >>= f) o ws ks s := by
  induction p generalizing o ws ks s with
  | done a => exact .of_later h
  | stmt l x w n ih => exact fun t ht hr hx => ih _ (h t ht hr hx)
  | commit n ih => exact fun t ht hr => ⟨(h t ht hr).1, ih (h t ht hr).2⟩
  | abort n ih => exact fun t ht hr => ih (h t ht hr)
  | auto l x w n ih =>
    intro t ht hr hx
    obtain ⟨o', hhanded, hcommits, hgood⟩ := h t ht hr hx
    exact ⟨o', hhanded, hcommits, ih _ hgood⟩

theorem Good.pure {a : α} (h : ∀ t, P.Inv t → P.Rely o ks s t → Q a o ws ks t) :
    P.Good Q (pure a) o ws ks s := h

theorem Good.look {f : σ → α} (h : ∀ t, P.Inv t → P.Rely o ks s t → ∀ u, P.Inv u →
    P.Rely o ks t u → Q (f t) o ws ks u) : P.Good Q (.look f) o ws ks s :=
  fun t ht hr _ => ⟨o, .inl rfl, .nothing ht, fun u hu htu => h t ht hr u hu htu⟩

theorem Good.andThen_cases {R : Except ε β → Option ι → List ω → List κ → σ → Prop}
    {p : Process σ ω κ τ (Except ε α)} {f : α → Process σ ω κ τ (Except ε β)}
    (h : P.Good (fun r o ws ks t => (∀ e, r = .error e → P.Good R (.done (.error e)) o ws ks t) ∧
      ∀ a, r = .ok a → P.Good R (f a) o ws ks t) p o ws ks s) :
    P.Good R (p.andThen f) o ws ks s := by
  refine Good.bind (h.mono fun r o ws ks t ht => ?_)
  cases r with
  | ok a => exact ht.2 a rfl
  | error e => exact ht.1 e rfl

theorem Good.andThen {R : Except ε β → Option ι → List ω → List κ → σ → Prop}
    {p : Process σ ω κ τ (Except ε α)} {f : α → Process σ ω κ τ (Except ε β)}
    (herr : ∀ e o ws ks t, R (.error e) o ws ks t)
    (h : P.Good (fun r o ws ks t => ∀ a, r = .ok a → P.Good R (f a) o ws ks t) p o ws ks s) :
    P.Good R (p.andThen f) o ws ks s :=
  .andThen_cases (h.mono fun _ _ _ _ _ ht => ⟨fun _ _ _ _ _ => herr _ _ _ _ _, ht⟩)

/-- A fact that others leave alone, and that the process's own commits leave alone for others, is
still there at the end. -/
theorem Good.later {p : Process σ ω κ τ α} (hnone : ∀ {o s t}, P.Rely o [] s t → P.Rely none [] s t)
    (h : P.Good Q p o ws ks s) :
    P.Good (fun a o ws ks t => Q a o ws ks t ∧ P.Rely none [] s t) p o ws ks s := by
  have hweak : ∀ {o ks s t}, P.Rely o ks s t → P.Rely none [] s t :=
    fun hr => hnone (P.mono (List.nil_subset _) hr)
  have hown : ∀ {o : Option ι} {ws : List ω} {ks : List κ} {s : σ}, P.Commits o ws ks s →
      P.Rely none [] s (applyAll ws s) := fun hc => hc.rely none [] (by simp) (by simp)
  suffices hstart : ∀ u, P.Rely none [] u s →
      P.Good (fun a o ws ks t => Q a o ws ks t ∧ P.Rely none [] u t) p o ws ks s from
    hstart s (P.refl _ _ _)
  induction p generalizing o ws ks s with
  | done a => exact fun u hu t ht hr => ⟨h t ht hr, P.trans hu (hweak hr)⟩
  | stmt l x w n ih =>
    exact fun u hu t ht hr hx => ih _ (h t ht hr hx) u (P.trans hu (hweak hr))
  | commit n ih =>
    intro u hu t ht hr
    obtain ⟨hcommits, hgood⟩ := h t ht hr
    exact ⟨hcommits, ih hgood u (P.trans hu (P.trans (hweak hr) (hown hcommits)))⟩
  | abort n ih => exact fun u hu t ht hr => ih (h t ht hr) u (P.trans hu (hweak hr))
  | auto l x w n ih =>
    intro u hu t ht hr hx
    obtain ⟨o', hhanded, hcommits, hgood⟩ := h t ht hr hx
    exact ⟨o', hhanded, hcommits, ih _ hgood u (P.trans hu (P.trans (hweak hr) (hown hcommits)))⟩

/-- Statements that only read, each for itself. -/
theorem Good.readOnly {R : Except ε α → Option ι → List ω → List κ → σ → Prop}
    {p : Tx σ ω κ τ ε α} (hp : p.ReadOnly)
    (h : ∀ r t, P.Inv t → P.Rely o ks s t → R r o ws ks t) :
    P.Good R (.statements p) o ws ks s := by
  induction p generalizing s with
  | done a => exact h _
  | fail e => exact h _
  | stmt l x w n ih =>
    intro t ht hr _
    obtain ⟨hl, hw, hn⟩ := hp t
    rw [hl, hw]
    exact ⟨o, .inl rfl, .nothing ht, ih t hn fun r u hu htu => h r u hu (P.trans hr htu)⟩

/-- The transaction fails: it is rolled back. -/
theorem Good.fails {R : Except ε α → Option ι → List ω → List κ → σ → Prop} {e : ε}
    (h : ∀ t, P.Inv t → P.Rely o [] s t → R (.error e) o [] [] t) :
    P.Good R (.transaction (.fail e)) o ws ks s :=
  fun _ _ hr _ hu htu => h _ hu (P.trans (P.mono (List.nil_subset ks) hr) htu)

/-- A part of a transaction that writes and locks as `S` says, then the rest. -/
theorem Good.yields {R : Except ε β → Option ι → List ω → List κ → σ → Prop}
    {S : α → List ω → List κ → Prop} {p : Tx σ ω κ τ ε α} {f : α → Tx σ ω κ τ ε β}
    (hp : p.Yields S ws ks) (hsub : ∀ e t, P.Inv t → P.Rely o [] s t → R (.error e) o [] [] t)
    (hf : ∀ a vs js t, S a vs js → P.Inv t → P.Rely o [] s t →
      P.Good R (.transaction (f a)) o vs js t) :
    P.Good R (.transaction (p >>= f)) o ws ks s := by
  induction p generalizing ws ks s with
  | done a =>
    exact .of_later fun t ht hr => hf a ws ks t hp ht (P.mono (List.nil_subset ks) hr)
  | fail e => exact .fails (hsub e)
  | stmt l x w n ih =>
    intro t ht hr _
    have hr := P.mono (List.nil_subset ks) hr
    exact ih _ (hp _) (fun e u hu htu => hsub e u hu (P.trans hr htu))
      fun a vs js u hS hu htu => hf a vs js u hS hu (P.trans hr htu)

/-! Statements of a transaction. -/

section Transaction
variable {R : Except ε α → Option ι → List ω → List κ → σ → Prop}

theorem Good.tx_pure {a : α} (h : ∀ t, P.Inv t → P.Rely o ks s t → P.Commits o ws ks t ∧
    ∀ u, P.Inv u → P.Rely o [] (applyAll ws t) u → R (.ok a) o [] [] u) :
    P.Good R (.transaction (.done a)) o ws ks s := h

theorem Good.tx_read {f : σ → β} {k : β → Tx σ ω κ τ ε α}
    (h : ∀ t, P.Inv t → P.Rely o ks s t →
      P.Good R (.transaction (k (f (applyAll ws t)))) o ws ks t) :
    P.Good R (.transaction (Tx.read f >>= k)) o ws ks s := by
  intro t ht hr _
  show P.Good R (.transaction (k (f (applyAll ws t)))) o (ws ++ []) (ks ++ []) t
  simpa only [List.append_nil] using h t ht hr

theorem Good.tx_lock {rows : σ → List κ} {f : σ → β} {k : β → Tx σ ω κ τ ε α}
    (h : ∀ t, P.Inv t → P.Rely o ks s t → P.Good R (.transaction (k (f (applyAll ws t)))) o ws
      (ks ++ rows (applyAll ws t)) t) :
    P.Good R (.transaction (Tx.lock rows f >>= k)) o ws ks s := by
  intro t ht hr _
  show P.Good R (.transaction (k (f (applyAll ws t)))) o (ws ++ []) (ks ++ rows (applyAll ws t)) t
  simpa only [List.append_nil] using h t ht hr

theorem Good.tx_write {rows : σ → List κ} {vs : σ → List ω} {k : Unit → Tx σ ω κ τ ε α}
    (h : ∀ t, P.Inv t → P.Rely o ks s t → P.Good R (.transaction (k ())) o
      (ws ++ vs (applyAll ws t)) (ks ++ rows (applyAll ws t)) t) :
    P.Good R (.transaction (Tx.write rows vs >>= k)) o ws ks s :=
  fun t ht hr _ => h t ht hr

theorem Good.tx_require {c : Prop} [Decidable c] {e : ε} {k : Unit → Tx σ ω κ τ ε α}
    (herr : ∀ t, P.Inv t → P.Rely o [] s t → R (.error e) o [] [] t)
    (h : c → P.Good R (.transaction (k ())) o ws ks s) :
    P.Good R (.transaction (Tx.require c e >>= k)) o ws ks s := by
  unfold Tx.require
  split
  · exact h ‹_›
  · exact .fails herr

theorem Good.tx_insert {rows : σ → List κ} {ok : σ → Prop} [DecidablePred ok] {vs : σ → List ω}
    {e : ε} {k : Unit → Tx σ ω κ τ ε α}
    (herr : ∀ t, P.Inv t → P.Rely o ks s t → ¬ ok (applyAll ws t) →
      ∀ u, P.Inv u → P.Rely o [] t u → R (.error e) o [] [] u)
    (h : ∀ t, P.Inv t → P.Rely o ks s t → ok (applyAll ws t) →
      P.Good R (.transaction (k ())) o (ws ++ vs (applyAll ws t)) (ks ++ rows (applyAll ws t)) t) :
    P.Good R (.transaction (Tx.insert rows ok vs e >>= k)) o ws ks s := by
  intro t ht hr _
  by_cases hok : ok (applyAll ws t)
  · simp only [if_pos hok]
    exact h t ht hr hok
  · simp only [if_neg hok]
    exact .fails (herr t ht hr hok)

end Transaction

/-! Processes whose answer says nothing. -/

variable (P) in
/-- The process keeps the promise from every state, and ends outside a transaction. -/
def Harmless (p : Process σ ω κ τ α) : Prop :=
  ∀ o s, P.Good (fun _ _ ws ks _ => ws = [] ∧ ks = []) p o [] [] s

section Harmless
variable {p : Process σ ω κ τ α}

theorem Harmless.pure (a : α) : P.Harmless (pure a : Process σ ω κ τ α) :=
  fun _ _ _ _ _ => ⟨rfl, rfl⟩

theorem Harmless.look (f : σ → α) : P.Harmless (.look f : Process σ ω κ τ α) :=
  fun _ _ => .look fun _ _ _ _ _ _ => ⟨rfl, rfl⟩

theorem Harmless.bind {f : α → Process σ ω κ τ β} (hp : P.Harmless p)
    (hf : ∀ a, P.Harmless (f a)) : P.Harmless (p >>= f) := by
  intro o s
  refine .bind ((hp o s).mono ?_)
  rintro a o _ _ t ⟨rfl, rfl⟩
  exact hf a o t

theorem Harmless.andThen {p : Process σ ω κ τ (Except ε α)}
    {f : α → Process σ ω κ τ (Except ε β)} (hp : P.Harmless p) (hf : ∀ a, P.Harmless (f a)) :
    P.Harmless (p.andThen f) := by
  refine hp.bind fun r => ?_
  cases r with
  | ok a => exact hf a
  | error e => exact .pure _

/-- A statement of its own. -/
theorem Harmless.auto {rows : σ → List κ} {x : τ → σ → Prop} {vs : σ → List ω} {f : σ → α}
    (h : ∀ o s, P.Inv s → (∀ a, P.Assumes a → x a s) → P.Commits o (vs s) (rows s) s) :
    P.Harmless (.auto rows x vs fun s => .done (f s)) :=
  fun o _ t ht _ hx => ⟨o, .inl rfl, h o t ht hx, fun _ _ _ => ⟨rfl, rfl⟩⟩

/-- What holds of every answer is the end of it. -/
theorem Harmless.answers {f : α → β} {R : β → Option ι → List ω → List κ → σ → Prop}
    (hp : P.Harmless p) (hR : ∀ a o v, R (f a) o [] [] v) :
    P.Good R (p >>= fun a => Pure.pure (f a)) o [] [] s := by
  refine .bind ((hp o s).mono ?_)
  rintro a o _ _ t ⟨rfl, rfl⟩
  exact .pure fun v _ _ => hR a o v

end Harmless

end FencedPromise

namespace World
variable {σ ω κ τ ι α : Type} [Writable σ ω] {P : FencedPromise σ κ τ ι}
  {Q : α → Option ι → List ω → List κ → σ → Prop}

/-- What holds of a world between two steps: the committed state is good, every process will stay
good under a token of its own that was handed out, and no row is held twice. -/
structure Fenced (P : FencedPromise σ κ τ ι) (Q : α → Option ι → List ω → List κ → σ → Prop)
    (c : World σ ω κ τ α) (owner : Nat → Option ι) : Prop where
  inv : P.Inv c.committed
  good : ∀ i x, c.running i = some x →
    P.Good Q x.proc (owner i) x.pending x.held c.committed
  taken : ∀ i x k, c.running i = some x → owner i = some k → P.Taken c.committed k
  alone : ∀ i j x y k, i ≠ j → c.running i = some x → c.running j = some y →
    owner i = some k → owner j ≠ some k
  apart : ∀ i j x y, i ≠ j → c.running i = some x → c.running j = some y →
    ∀ k ∈ x.held, k ∉ y.held

variable {owner : Nat → Option ι}

theorem Fenced.idle {s : σ} (h : P.Inv s) :
    Fenced P Q (World.idle s : World σ ω κ τ α) fun _ => none where
  inv := h
  good i x hx := by simp [World.idle] at hx
  taken i x k hx := by simp [World.idle] at hx
  alone i j x y k _ hx := by simp [World.idle] at hx
  apart i j x y _ hx := by simp [World.idle] at hx

/-- One process moves on, and the committed state to `t`. -/
theorem Fenced.move {c : World σ ω κ τ α} (h : Fenced P Q c owner) {t : σ} (ht : P.Inv t) (i : Nat)
    (x : Option (Running σ ω κ τ α)) (o : Option ι)
    (htaken : ∀ k, P.Taken c.committed k → P.Taken t k)
    (hothers : ∀ j y, j ≠ i → c.running j = some y → P.Rely (owner j) y.held c.committed t)
    (hgood : ∀ y, x = some y → P.Good Q y.proc o y.pending y.held t)
    (hown : ∀ y k, x = some y → o = some k → P.Taken t k ∧
      ∀ j z, j ≠ i → c.running j = some z → owner j ≠ some k)
    (hfree : ∀ y, x = some y → c.Free i y.held) :
    Fenced P Q ({ c with committed := t }.put i x) (Function.update owner i o) where
  inv := ht
  good j y hy := by
    by_cases e : j = i
    · subst e
      rw [put_self] at hy
      simpa using hgood y hy
    · rw [put_other _ e] at hy
      simpa [e] using (h.good j y hy).stable (hothers j y e hy)
  taken j y k hy hk := by
    by_cases e : j = i
    · subst e
      rw [put_self] at hy
      exact (hown y k hy (by simpa using hk)).1
    · rw [put_other _ e] at hy
      exact htaken k (h.taken j y k hy (by simpa [e] using hk))
  alone j l y z k hne hy hz hk := by
    by_cases ej : j = i
    · subst ej
      rw [put_self] at hy
      rw [put_other _ (Ne.symm hne)] at hz
      simpa [Ne.symm hne] using (hown y k hy (by simpa using hk)).2 l z (Ne.symm hne) hz
    · rw [put_other _ ej] at hy
      by_cases el : l = i
      · subst el
        rw [put_self] at hz
        intro hl
        exact (hown z k hz (by simpa using hl)).2 j y ej hy (by simpa [ej] using hk)
      · rw [put_other _ el] at hz
        simpa [el] using h.alone j l y z k hne hy hz (by simpa [ej] using hk)
  apart j l y z hne hy hz r hr := by
    by_cases ej : j = i
    · subst ej
      rw [put_self] at hy
      rw [put_other _ (Ne.symm hne)] at hz
      exact hfree y hy l z (Ne.symm hne) hz r hr
    · rw [put_other _ ej] at hy
      by_cases el : l = i
      · subst el
        rw [put_self] at hz
        exact fun hr' => hfree z hz j y ej hy r hr' hr
      · rw [put_other _ el] at hz
        exact h.apart j l y z hne hy hz r hr

theorem Fenced.step {programs : Process σ ω κ τ α → Prop} {outside : σ → σ → Prop}
    {c d : World σ ω κ τ α} (h : Fenced P Q c owner)
    (hp : ∀ p, programs p → ∀ s, P.Inv s → P.Good Q p none [] [] s)
    (hout : ∀ s t, P.Inv s → outside s t → P.Inv t ∧ (∀ k, P.Taken s k → P.Taken t k) ∧
      ∀ o ks, P.Rely o ks s t)
    (hs : Step programs outside P.Assumes c d) : ∃ owner', Fenced P Q d owner' := by
  have hsame : ∀ j y, c.running j = some y → P.Rely (owner j) y.held c.committed c.committed :=
    fun _ _ _ => P.refl _ _ _
  -- A process that goes on under the token it had.
  have hkeeps : ∀ {i x}, c.running i = some x → ∀ t, (∀ k, P.Taken c.committed k → P.Taken t k) →
      ∀ k, owner i = some k → P.Taken t k ∧
        ∀ j z, j ≠ i → c.running j = some z → owner j ≠ some k :=
    fun hi t hmono k hk => ⟨hmono k (h.taken _ _ k hi hk),
      fun j z hne hz => h.alone _ j _ z k (Ne.symm hne) hi hz hk⟩
  cases hs with
  | start i p _ hprog =>
    refine ⟨_, h.move h.inv i _ none (fun _ hk => hk) (fun j y _ => hsame j y) ?_ ?_ ?_⟩
    · rintro y ⟨⟩; exact hp p hprog _ h.inv
    · rintro y k ⟨⟩ hk; cases hk
    · rintro y ⟨⟩ j z _ _ k hk; cases hk
  | @statement i l x w n ws ks hi hfree hx =>
    have hgood := h.good i _ hi c.committed h.inv (P.refl _ _ _) hx
    refine ⟨_, h.move h.inv i _ (owner i) (fun _ hk => hk) (fun j y _ => hsame j y) ?_ ?_ ?_⟩
    · rintro y ⟨⟩; exact hgood
    · rintro y k ⟨⟩ hk; exact hkeeps hi _ (fun _ hk => hk) k hk
    · rintro y ⟨⟩ j z hne hz k hk
      rcases List.mem_append.mp hk with hk | hk
      · exact h.apart i j _ z (Ne.symm hne) hi hz k hk
      · exact hfree j z hne hz k hk
  | @commit i n ws ks hi =>
    obtain ⟨hcommits, hgood⟩ := h.good i _ hi c.committed h.inv (P.refl _ _ _)
    refine ⟨_, h.move hcommits.inv i _ (owner i) hcommits.taken (fun j y hne hy => ?_) ?_ ?_ ?_⟩
    · exact hcommits.rely _ _ (fun k hk => h.alone i j _ y k (Ne.symm hne) hi hy hk)
        (h.apart j i y _ hne hy hi)
    · rintro y ⟨⟩; exact hgood
    · rintro y k ⟨⟩ hk; exact hkeeps hi _ hcommits.taken k hk
    · rintro y ⟨⟩ j z _ _ k hk; cases hk
  | @abort i n ws ks hi =>
    have hgood := h.good i _ hi c.committed h.inv (P.refl _ _ _)
    refine ⟨_, h.move h.inv i _ (owner i) (fun _ hk => hk) (fun j y _ => hsame j y) ?_ ?_ ?_⟩
    · rintro y ⟨⟩; exact hgood
    · rintro y k ⟨⟩ hk; exact hkeeps hi _ (fun _ hk => hk) k hk
    · rintro y ⟨⟩ j z _ _ k hk; cases hk
  | @auto i l x w n ws ks hi hfree hx =>
    obtain ⟨o', hhanded, hcommits, hgood⟩ := h.good i _ hi c.committed h.inv (P.refl _ _ _) hx
    -- A token that was free is nobody else's.
    have hown : ∀ k, o' = some k → P.Taken (applyAll (w c.committed) c.committed) k ∧
        ∀ j z, j ≠ i → c.running j = some z → owner j ≠ some k := by
      intro k hk
      rcases hhanded with rfl | ⟨m, rfl, hnot, htaken⟩
      · exact hkeeps hi _ hcommits.taken k hk
      · obtain rfl : m = k := Option.some.inj hk
        exact ⟨htaken, fun j z _ hz hj => hnot (h.taken j z m hz hj)⟩
    refine ⟨_, h.move hcommits.inv i _ o' hcommits.taken (fun j y hne hy => ?_) ?_ ?_ ?_⟩
    · exact hcommits.rely _ _ (fun k hk => (hown k hk).2 j y hne hy)
        fun k hk hk' => hfree j y hne hy k hk' hk
    · rintro y ⟨⟩; exact hgood
    · rintro y k ⟨⟩ hk; exact hown k hk
    · rintro y ⟨⟩ j z hne hz k hk
      exact h.apart i j _ z (Ne.symm hne) hi hz k hk
  | leave i =>
    refine ⟨_, h.move h.inv i _ none (fun _ hk => hk) (fun j y _ => hsame j y) ?_ ?_ ?_⟩
    · rintro y ⟨⟩
    · rintro y k ⟨⟩
    · rintro y ⟨⟩
  | @outside t ht =>
    obtain ⟨hinv, hmono, hrely⟩ := hout _ _ h.inv ht
    exact ⟨owner, hinv, fun i x hx => (h.good i x hx).stable (hrely _ _),
      fun i x k hx hk => hmono k (h.taken i x k hx hk), h.alone, h.apart⟩

/-- Soundness: if every process keeps the promise alone, and so does the world around them, every
interleaving whose statements find what they expect is safe. -/
theorem Reaches.fenced {programs : Process σ ω κ τ α → Prop} {outside : σ → σ → Prop} {s : σ}
    {c : World σ ω κ τ α} (hs : P.Inv s)
    (hp : ∀ p, programs p → ∀ s, P.Inv s → P.Good Q p none [] [] s)
    (hout : ∀ s t, P.Inv s → outside s t → P.Inv t ∧ (∀ k, P.Taken s k → P.Taken t k) ∧
      ∀ o ks, P.Rely o ks s t)
    (h : Reaches programs outside P.Assumes s c) : ∃ owner, Fenced P Q c owner := by
  induction h with
  | idle => exact ⟨_, .idle hs⟩
  | step _ hd ih =>
    obtain ⟨owner, h⟩ := ih
    exact h.step hp hout hd

end World

end Pwos
