import Pwos.Lib.Tx

/-!
# Interleaved transactions

Any number of transactions run statement by statement over one committed state, as a
database does at READ COMMITTED: a statement sees the committed state of the moment
under its own transaction's writes, waits while another transaction holds a row it
locks, and its locks stay until the transaction ends. A transaction commits all its
writes at once or none of them; it may be rolled back at any point.

`Promise` is a rely/guarantee contract for such systems: an invariant of the committed
state and the interference a transaction tolerates while it holds given rows.
`System.Reaches.safe` lifts a proof about each program alone to every interleaving.
-/

namespace Pwos

/-- A transaction in flight. -/
structure Session (σ ω κ τ ε ρ : Type) where
  prog : Tx σ ω κ τ ε ρ
  pending : List ω
  held : List κ

structure System (σ ω κ τ ε ρ : Type) where
  committed : σ
  sessions : Nat → Option (Session σ ω κ τ ε ρ)

namespace System
variable {σ ω κ τ ε ρ : Type} [Writable σ ω]

/-- Nobody is connected. -/
def idle (s : σ) : System σ ω κ τ ε ρ := ⟨s, fun _ => none⟩

/-- Replace the session of connection `i`. -/
def put (c : System σ ω κ τ ε ρ) (i : Nat) (x : Option (Session σ ω κ τ ε ρ)) :
    System σ ω κ τ ε ρ :=
  { c with sessions := Function.update c.sessions i x }

/-- No other connection holds any of the rows. -/
def Free (c : System σ ω κ τ ε ρ) (i : Nat) (rows : List κ) : Prop :=
  ∀ j x, j ≠ i → c.sessions j = some x → ∀ k ∈ rows, k ∉ x.held

/-- One step of some connection. A statement runs only once its rows are free.
It meets the kinds of assumption in `meets`. -/
inductive Step (programs : Tx σ ω κ τ ε ρ → Prop) (meets : τ → Prop) :
    System σ ω κ τ ε ρ → System σ ω κ τ ε ρ → Prop where
  | begin (c : System σ ω κ τ ε ρ) (i : Nat) (p : Tx σ ω κ τ ε ρ) :
      c.sessions i = none → programs p →
      Step programs meets c (c.put i (some ⟨p, [], []⟩))
  | statement (c : System σ ω κ τ ε ρ) (i : Nat) {l : σ → List κ} {x : τ → σ → Prop}
      {w : σ → List ω} {n : σ → Tx σ ω κ τ ε ρ} {ws : List ω} {ks : List κ} :
      c.sessions i = some ⟨.stmt l x w n, ws, ks⟩ →
      c.Free i (l (applyAll ws c.committed)) →
      (∀ a, meets a → x a (applyAll ws c.committed)) →
      Step programs meets c (c.put i (some ⟨n (applyAll ws c.committed),
        ws ++ w (applyAll ws c.committed), ks ++ l (applyAll ws c.committed)⟩))
  | commit (c : System σ ω κ τ ε ρ) (i : Nat) {a : ρ} {ws : List ω} {ks : List κ} :
      c.sessions i = some ⟨.done a, ws, ks⟩ →
      Step programs meets c ({ c with committed := applyAll ws c.committed }.put i none)
  | rollback (c : System σ ω κ τ ε ρ) (i : Nat) {x : Session σ ω κ τ ε ρ} :
      c.sessions i = some x → Step programs meets c (c.put i none)

/-- The systems an interleaving reaches from an idle database. -/
inductive Reaches (programs : Tx σ ω κ τ ε ρ → Prop) (meets : τ → Prop) (s : σ) :
    System σ ω κ τ ε ρ → Prop where
  | idle : Reaches programs meets s (idle s)
  | step {c d : System σ ω κ τ ε ρ} :
      Reaches programs meets s c → Step programs meets c d → Reaches programs meets s d

omit [Writable σ ω] in
@[simp] theorem put_committed (c : System σ ω κ τ ε ρ) (i : Nat)
    (x : Option (Session σ ω κ τ ε ρ)) : (c.put i x).committed = c.committed := rfl
omit [Writable σ ω] in
@[simp] theorem put_self (c : System σ ω κ τ ε ρ) (i : Nat)
    (x : Option (Session σ ω κ τ ε ρ)) : (c.put i x).sessions i = x := by simp [put]
omit [Writable σ ω] in
theorem put_other (c : System σ ω κ τ ε ρ) {i j : Nat} (h : j ≠ i)
    (x : Option (Session σ ω κ τ ε ρ)) : (c.put i x).sessions j = c.sessions j := by
  simp [put, h]

end System

/-- What the transactions of a system promise each other: `Inv` is kept by every commit,
and `Rely ks` bounds what other commits change while a transaction holds the rows `ks`,
the more it holds the less. The promise covers runs whose statements meet the assumptions
in `Assumes`. -/
structure Promise (σ κ τ : Type) where
  Assumes : τ → Prop
  Inv : σ → Prop
  Rely : List κ → σ → σ → Prop
  refl : ∀ ks s, Rely ks s s
  trans : ∀ {ks s t u}, Rely ks s t → Rely ks t u → Rely ks s u
  mono : ∀ {ks js s t}, ks ⊆ js → Rely js s t → Rely ks s t

namespace Promise
variable {σ ω κ τ ε α β : Type} [Writable σ ω] (P : Promise σ κ τ)

/-- From state `s`, with the writes `ws` pending and the rows `ks` held, the program
ends in `Q` whatever the others do meanwhile, as long as every statement finds the
state it expects. -/
def Ok (Q : α → List ω → List κ → σ → Prop) :
    Tx σ ω κ τ ε α → List ω → List κ → σ → Prop
  | .done a, ws, ks, s => ∀ t, P.Inv t → P.Rely ks s t → Q a ws ks t
  | .fail _, _, _, _ => True
  | .stmt l x w n, ws, ks, s => ∀ t, P.Inv t → P.Rely ks s t → (∀ a, P.Assumes a → x a (applyAll ws t)) →
      Ok Q (n (applyAll ws t)) (ws ++ w (applyAll ws t)) (ks ++ l (applyAll ws t)) t

/-- Committing the writes `ws` under the rows `ks` keeps the invariant and is no more
than what every other transaction tolerates. -/
def Commits (ws : List ω) (ks : List κ) (s : σ) : Prop :=
  P.Inv (applyAll ws s) ∧ ∀ others, (∀ k ∈ others, k ∉ ks) → P.Rely others s (applyAll ws s)

/-- From every state that satisfies the invariant the program honours the promise, and
ends in `Ends`. -/
def Honours (Ends : α → List ω → List κ → σ → Prop) (p : Tx σ ω κ τ ε α) : Prop :=
  ∀ s, P.Inv s → P.Ok (fun a ws ks t => P.Commits ws ks t ∧ Ends a ws ks t) p [] [] s

variable {P}

/-- Interference before the next statement is already accounted for. -/
theorem Ok.stable {Q : α → List ω → List κ → σ → Prop} {p : Tx σ ω κ τ ε α} {ws : List ω}
    {ks : List κ} {s t : σ} (h : P.Ok Q p ws ks s) (hr : P.Rely ks s t) : P.Ok Q p ws ks t := by
  cases p with
  | done a => exact fun u hu htu => h u hu (P.trans hr htu)
  | fail e => trivial
  | stmt l x w n => exact fun u hu htu => h u hu (P.trans hr htu)

theorem Ok.mono {Q R : α → List ω → List κ → σ → Prop} {p : Tx σ ω κ τ ε α} {ws : List ω}
    {ks : List κ} {s : σ} (h : P.Ok Q p ws ks s)
    (imp : ∀ a vs js t, P.Inv t → Q a vs js t → R a vs js t) : P.Ok R p ws ks s := by
  induction p generalizing ws ks s with
  | done a => exact fun t ht hr => imp _ _ _ _ ht (h t ht hr)
  | fail e => trivial
  | stmt l x w n ih => exact fun t ht hr hx => ih _ (h t ht hr hx)

/-- It is enough to look at the program after the interference that is allowed now. -/
theorem Ok.of_later {Q : α → List ω → List κ → σ → Prop} {p : Tx σ ω κ τ ε α} {ws : List ω}
    {ks : List κ} {s : σ} (h : ∀ t, P.Inv t → P.Rely ks s t → P.Ok Q p ws ks t) :
    P.Ok Q p ws ks s := by
  cases p with
  | done a => exact fun t ht hr => h t ht hr t ht (P.refl _ _)
  | fail e => trivial
  | stmt l x w n => exact fun t ht hr hx => h t ht hr t ht (P.refl _ _) hx

theorem Ok.bind {Q : β → List ω → List κ → σ → Prop} {p : Tx σ ω κ τ ε α}
    {f : α → Tx σ ω κ τ ε β} {ws : List ω} {ks : List κ} {s : σ}
    (h : P.Ok (fun a vs js t => P.Ok Q (f a) vs js t) p ws ks s) : P.Ok Q (p >>= f) ws ks s := by
  induction p generalizing ws ks s with
  | done a => exact .of_later h
  | fail e => trivial
  | stmt l x w n ih => exact fun t ht hr hx => ih _ (h t ht hr hx)

theorem Ok.map {Q : β → List ω → List κ → σ → Prop} {f : α → β} {p : Tx σ ω κ τ ε α}
    {ws : List ω} {ks : List κ} {s : σ} (h : P.Ok (fun a => Q (f a)) p ws ks s) :
    P.Ok Q (p >>= fun a => pure (f a)) ws ks s := by
  induction p generalizing ws ks s with
  | done a => exact h
  | fail e => trivial
  | stmt l x w n ih => exact fun t ht hr hx => ih _ (h t ht hr hx)

/-- A program that only reads can be followed with any state it may end in. -/
theorem Ok.of_readOnly {Q : α → List ω → List κ → σ → Prop} {p : Tx σ ω κ τ ε α} {ws : List ω}
    {ks : List κ} {s : σ} (hp : p.ReadOnly)
    (hQ : ∀ a t, P.Inv t → P.Rely ks s t → Q a ws ks t) : P.Ok Q p ws ks s := by
  induction p generalizing s with
  | done a => exact fun t ht hr => hQ a t ht hr
  | fail e => trivial
  | stmt l x w n ih =>
    intro t ht hr hx
    obtain ⟨hl, hw, hn⟩ := hp (applyAll ws t)
    rw [hl, hw, List.append_nil, List.append_nil]
    exact ih _ hn (fun a u hu htu => hQ a u hu (P.trans hr htu))

/-- Locks are only added, and what was held protects from the start. -/
theorem Ok.frame {Q : α → List ω → List κ → σ → Prop} {p : Tx σ ω κ τ ε α} {ws : List ω}
    {ks : List κ} {s : σ} (h : P.Ok Q p ws ks s) :
    P.Ok (fun a vs js t => Q a vs js t ∧ ks ⊆ js ∧ P.Rely ks s t) p ws ks s := by
  have hgen : ∀ {js : List κ} {t : σ} {vs : List ω}, ks ⊆ js → P.Rely ks s t → P.Ok Q p vs js t →
      P.Ok (fun a vs js t => Q a vs js t ∧ ks ⊆ js ∧ P.Rely ks s t) p vs js t := by
    clear h
    induction p with
    | done a =>
      intro js t vs hsub hrely h u hu htu
      exact ⟨h u hu htu, hsub, P.trans hrely (P.mono hsub htu)⟩
    | fail e => intros; trivial
    | stmt l x w n ih =>
      intro js t vs hsub hrely h u hu htu hx
      exact ih _ (List.Subset.trans hsub (List.subset_append_left _ _))
        (P.trans hrely (P.mono hsub htu)) (h u hu htu hx)
  exact hgen (List.Subset.refl _) (P.refl _ _) h

theorem Ok.and {Q R : α → List ω → List κ → σ → Prop} {p : Tx σ ω κ τ ε α} {ws : List ω}
    {ks : List κ} {s : σ} (hQ : P.Ok Q p ws ks s) (hR : P.Ok R p ws ks s) :
    P.Ok (fun a vs js t => Q a vs js t ∧ R a vs js t) p ws ks s := by
  induction p generalizing ws ks s with
  | done a => exact fun t ht hr => ⟨hQ t ht hr, hR t ht hr⟩
  | fail e => trivial
  | stmt l x w n ih => exact fun t ht hr hx => ih _ (hQ t ht hr hx) (hR t ht hr hx)

/-- A program whose last state is `r` has run as it does alone from `r`, if nobody ever comes
back to `r`. -/
theorem Ok.as_alone {r : σ} (back : ∀ {ks s t}, P.Rely ks s t → t = r → s = r)
    (p : Tx σ ω κ τ ε α) (ws : List ω) (ks : List κ) (s : σ) :
    P.Ok (fun a vs _ t => t = r → p.run (applyAll ws r) = .ok (a, applyAll vs r)) p ws ks s := by
  induction p generalizing ws ks s with
  | done a => exact fun _ _ _ _ => rfl
  | fail e => trivial
  | stmt l x w n ih =>
    intro t _ _ _
    refine (ih _ _ _ t).frame.mono ?_
    rintro a vs js u - ⟨hrun, -, htu⟩ hu
    obtain rfl : t = r := back htu hu
    rw [Tx.run_stmt, ← applyAll_append]
    exact hrun hu

/-- What a program returns, writes and locks in any case, it does here. -/
theorem Ok.of_yields {Q : α → List ω → List κ → σ → Prop} {R : α → List ω → List κ → Prop}
    {p : Tx σ ω κ τ ε α} {ws vs : List ω} {ks js : List κ} {s : σ} (hp : p.Yields R vs js)
    (hQ : ∀ a vs js t, P.Inv t → P.Rely ks s t → R a vs js → Q a (ws ++ vs) (ks ++ js) t) :
    P.Ok Q p (ws ++ vs) (ks ++ js) s := by
  induction p generalizing vs js s with
  | done a => exact fun t ht hr => hQ a vs js t ht (P.mono (List.subset_append_left _ _) hr) hp
  | fail e => trivial
  | stmt l x w n ih =>
    intro t ht hr hx
    have hr := P.mono (List.subset_append_left _ _) hr
    rw [List.append_assoc, List.append_assoc]
    exact ih _ (hp _) fun a vs js u hu htu => hQ a vs js u hu (P.trans hr htu)

theorem Ok.yields {Q : α → List ω → List κ → σ → Prop} {R : α → List ω → List κ → Prop}
    {p : Tx σ ω κ τ ε α} {ws : List ω} {ks : List κ} {s : σ} (hp : p.Yields R [] [])
    (hQ : ∀ a vs js t, P.Inv t → P.Rely ks s t → R a vs js → Q a (ws ++ vs) (ks ++ js) t) :
    P.Ok Q p ws ks s := by
  have h := of_yields hp hQ
  rwa [List.append_nil, List.append_nil] at h

theorem Ok.lock {Q : α → List ω → List κ → σ → Prop} {rows : σ → List κ} {f : σ → α}
    {ws : List ω} {ks : List κ} {s : σ} (h : ∀ t, P.Inv t → P.Rely ks s t → ∀ u, P.Inv u →
      P.Rely (ks ++ rows (applyAll ws t)) t u →
      Q (f (applyAll ws t)) ws (ks ++ rows (applyAll ws t)) u) :
    P.Ok (ε := ε) Q (Tx.lock rows f) ws ks s := by
  intro t ht hr _
  simpa [Ok] using h t ht hr

theorem Ok.write {Q : Unit → List ω → List κ → σ → Prop} {rows : σ → List κ} {v : σ → List ω}
    {ws : List ω} {ks : List κ} {s : σ} (h : ∀ t, P.Inv t → P.Rely ks s t → ∀ u, P.Inv u →
      P.Rely (ks ++ rows (applyAll ws t)) t u →
      Q () (ws ++ v (applyAll ws t)) (ks ++ rows (applyAll ws t)) u) :
    P.Ok (ε := ε) Q (Tx.write rows v) ws ks s :=
  fun t ht hr _ => h t ht hr

theorem Ok.writeExpecting {Q : Unit → List ω → List κ → σ → Prop} {rows : σ → List κ}
    {x : τ → σ → Prop} {v : σ → List ω} {ws : List ω} {ks : List κ} {s : σ}
    (h : ∀ t, P.Inv t → P.Rely ks s t → (∀ a, P.Assumes a → x a (applyAll ws t)) →
      ∀ u, P.Inv u → P.Rely (ks ++ rows (applyAll ws t)) t u →
      Q () (ws ++ v (applyAll ws t)) (ks ++ rows (applyAll ws t)) u) :
    P.Ok (ε := ε) Q (Tx.writeExpecting rows x v) ws ks s :=
  fun t ht hr hx => h t ht hr hx

theorem Ok.insert {Q : Unit → List ω → List κ → σ → Prop} {rows : σ → List κ} {ok : σ → Prop}
    [DecidablePred ok] {v : σ → List ω} {e : ε} {ws : List ω} {ks : List κ} {s : σ}
    (h : ∀ t, P.Inv t → P.Rely ks s t → ok (applyAll ws t) → ∀ u, P.Inv u →
      P.Rely (ks ++ rows (applyAll ws t)) t u →
      Q () (ws ++ v (applyAll ws t)) (ks ++ rows (applyAll ws t)) u) :
    P.Ok Q (Tx.insert rows ok v e) ws ks s := by
  intro t ht hr _
  by_cases hok : ok (applyAll ws t)
  · simp only [if_pos hok]
    exact h t ht hr hok
  · simp only [if_neg hok]
    trivial

theorem Ok.read {Q : α → List ω → List κ → σ → Prop} {f : σ → α} {ws : List ω} {ks : List κ}
    {s : σ} (h : ∀ t, P.Inv t → P.Rely ks s t → ∀ u, P.Inv u → P.Rely ks t u →
      Q (f (applyAll ws t)) ws ks u) : P.Ok (ε := ε) Q (Tx.read f) ws ks s := by
  intro t ht hr _
  simpa [Ok] using h t ht hr

theorem Ok.ofExcept {Q : α → List ω → List κ → σ → Prop} {r : Except ε α} {ws : List ω}
    {ks : List κ} {s : σ} (h : ∀ a, r = .ok a → ∀ t, P.Inv t → P.Rely ks s t → Q a ws ks t) :
    P.Ok Q (Tx.ofExcept r) ws ks s := by
  cases r with
  | ok a => exact h a rfl
  | error e => trivial

theorem Ok.require {Q : Unit → List ω → List κ → σ → Prop} {c : Prop} [Decidable c] {e : ε}
    {ws : List ω} {ks : List κ} {s : σ}
    (h : c → ∀ t, P.Inv t → P.Rely ks s t → Q () ws ks t) :
    P.Ok Q (Tx.require c e) ws ks s := by
  unfold Tx.require
  split
  · rename_i hc; exact h hc
  · trivial

end Promise

/-- Run alone from `s`, the statements of the program find what they expect. -/
def Tx.Met {σ ω κ τ ε α : Type} [Writable σ ω] (meets : τ → Prop) : Tx σ ω κ τ ε α → σ → Prop
  | .done _, _ => True
  | .fail _, _ => True
  | .stmt _ x w n, s => (∀ a, meets a → x a s) ∧ (n s).Met meets (applyAll (w s) s)

namespace System
variable {σ ω κ τ ε ρ : Type} [Writable σ ω] {P : Promise σ κ τ}
  {Ends : ρ → List ω → List κ → σ → Prop}

/-- Nobody is in flight. -/
def Quiet (c : System σ ω κ τ ε ρ) : Prop := ∀ i, c.sessions i = none

/-- A transaction may run to its end while nobody else is connected. -/
theorem Reaches.alone {programs : Tx σ ω κ τ ε ρ → Prop} {meets : τ → Prop} {s t : σ}
    {c : System σ ω κ τ ε ρ} {p : Tx σ ω κ τ ε ρ} {a : ρ} (h : Reaches programs meets s c)
    (hq : c.Quiet) (hp : programs p) (hm : p.Met meets c.committed)
    (hrun : p.run c.committed = .ok (a, t)) :
    ∃ d, Reaches programs meets s d ∧ d.Quiet ∧ d.committed = t := by
  have hgen : ∀ {d : System σ ω κ τ ε ρ} {ws : List ω} {ks : List κ},
      Reaches programs meets s d → (∀ j, j ≠ 0 → d.sessions j = none) →
      d.sessions 0 = some ⟨p, ws, ks⟩ → p.Met meets (applyAll ws d.committed) →
      p.run (applyAll ws d.committed) = .ok (a, t) →
      ∃ d', Reaches programs meets s d' ∧ d'.Quiet ∧ d'.committed = t := by
    clear hm hrun hp h
    induction p with
    | done b =>
      intro d ws ks hd hothers h0 _ hrun
      cases hrun
      refine ⟨_, hd.step (.commit _ 0 h0), fun j => ?_, rfl⟩
      by_cases hj : j = 0
      · rw [hj, put_self]
      · rw [put_other _ hj]
        exact hothers j hj
    | fail e => intro d ws ks _ _ _ _ hrun; cases hrun
    | stmt l x w n ih =>
      intro d ws ks hd hothers h0 hm hrun
      have hfree : d.Free 0 (l (applyAll ws d.committed)) := by
        intro j y hj hy
        rw [hothers j hj] at hy
        cases hy
      refine ih _ (hd.step (.statement _ 0 h0 hfree hm.1)) (fun j hj => ?_) (put_self _ _ _) ?_ ?_
      · rw [put_other _ hj]
        exact hothers j hj
      · rw [put_committed, applyAll_append]
        exact hm.2
      · rw [put_committed, applyAll_append]
        exact hrun
  refine hgen (h.step (.begin _ 0 p (hq 0) hp)) (fun j hj => ?_) (put_self _ _ _) hm hrun
  rw [put_other _ hj]
  exact hq j

/-- What holds of a system between two steps: the committed state is good, every
session will stay good, and no row is held twice. -/
structure Safe (P : Promise σ κ τ) (Ends : ρ → List ω → List κ → σ → Prop)
    (c : System σ ω κ τ ε ρ) : Prop where
  inv : P.Inv c.committed
  ok : ∀ i x, c.sessions i = some x →
    P.Ok (fun a ws ks t => P.Commits ws ks t ∧ Ends a ws ks t) x.prog x.pending x.held c.committed
  apart : ∀ i j x y, i ≠ j → c.sessions i = some x → c.sessions j = some y →
    ∀ k ∈ x.held, k ∉ y.held

theorem Safe.idle {s : σ} (h : P.Inv s) :
    Safe P Ends (System.idle s : System σ ω κ τ ε ρ) where
  inv := h
  ok i x hx := by simp [System.idle] at hx
  apart i j x y _ hx := by simp [System.idle] at hx

/-- Replacing one session keeps safety if the new session is good and its rows are free. -/
theorem Safe.put {c : System σ ω κ τ ε ρ} (h : Safe P Ends c) (i : Nat)
    (x : Option (Session σ ω κ τ ε ρ))
    (hok : ∀ y, x = some y → P.Ok (fun a ws ks t => P.Commits ws ks t ∧ Ends a ws ks t)
      y.prog y.pending y.held c.committed)
    (hfree : ∀ y, x = some y → c.Free i y.held) : Safe P Ends (c.put i x) where
  inv := h.inv
  ok j y hy := by
    by_cases e : j = i
    · subst e; rw [put_self] at hy; exact hok y hy
    · rw [put_other c e] at hy; exact h.ok j y hy
  apart j k y z hne hy hz r hr := by
    by_cases ej : j = i
    · subst ej
      rw [put_self] at hy
      rw [put_other c (Ne.symm hne)] at hz
      exact hfree y hy k z (Ne.symm hne) hz r hr
    · rw [put_other c ej] at hy
      by_cases ek : k = i
      · subst ek
        rw [put_self] at hz
        exact fun hr' => hfree z hz j y ej hy r hr' hr
      · rw [put_other c ek] at hz
        exact h.apart j k y z hne hy hz r hr

theorem Safe.step {programs : Tx σ ω κ τ ε ρ → Prop} {c d : System σ ω κ τ ε ρ}
    (h : Safe P Ends c) (hp : ∀ p, programs p → P.Honours Ends p)
    (hs : Step programs P.Assumes c d) : Safe P Ends d := by
  cases hs with
  | begin i p _ hprog =>
    refine h.put i _ ?_ ?_
    · rintro y ⟨⟩; exact hp p hprog _ h.inv
    · rintro y ⟨⟩; intro j z _ _ k hk; cases hk
  | @statement i l x w n ws ks hi hfree hx =>
    have hok := h.ok i _ hi c.committed h.inv (P.refl _ _) hx
    refine h.put i _ ?_ ?_
    · rintro y ⟨⟩; exact hok
    · rintro y ⟨⟩ j z hne hz k hk
      rcases List.mem_append.mp hk with hk | hk
      · exact h.apart i j _ z (Ne.symm hne) hi hz k hk
      · exact hfree j z hne hz k hk
  | @commit i a ws ks hi =>
    obtain ⟨⟨hinv, hrely⟩, -⟩ := h.ok i _ hi c.committed h.inv (P.refl _ _)
    refine ⟨hinv, ?_, ?_⟩
    · intro j y hy
      by_cases e : j = i
      · subst e; simp at hy
      · rw [put_other _ e] at hy
        exact (h.ok j y hy).stable (hrely _ (h.apart j i y _ e hy hi))
    · intro j k y z hne hy hz r hr
      by_cases ej : j = i
      · subst ej; simp at hy
      by_cases ek : k = i
      · subst ek; simp at hz
      rw [put_other _ ej] at hy
      rw [put_other _ ek] at hz
      exact h.apart j k y z hne hy hz r hr
  | rollback i _ =>
    refine h.put i _ ?_ ?_ <;> rintro y ⟨⟩

/-- Soundness: if every program honours the promise, every interleaving whose statements
find what they expect is safe. -/
theorem Reaches.safe {programs : Tx σ ω κ τ ε ρ → Prop} {s : σ} {c : System σ ω κ τ ε ρ}
    (hs : P.Inv s) (hp : ∀ p, programs p → P.Honours Ends p)
    (h : Reaches programs P.Assumes s c) : Safe P Ends c := by
  induction h with
  | idle => exact .idle hs
  | step _ hd ih => exact ih.step hp hd

/-- A single step changes no more than everyone tolerates. -/
theorem Safe.step_rely {programs : Tx σ ω κ τ ε ρ → Prop} {c d : System σ ω κ τ ε ρ}
    (h : Safe P Ends c) (hs : Step programs P.Assumes c d) : P.Rely [] c.committed d.committed := by
  cases hs with
  | begin i p _ _ => exact P.refl _ _
  | statement i hi _ _ => exact P.refl _ _
  | @commit i a ws ks hi =>
    obtain ⟨⟨-, hrely⟩, -⟩ := h.ok i _ hi c.committed h.inv (P.refl _ _)
    exact hrely [] (by simp)
  | rollback i _ => exact P.refl _ _

/-- A transaction about to commit ends as its program promises. -/
theorem Safe.ends {c : System σ ω κ τ ε ρ} (h : Safe P Ends c) {i : Nat} {a : ρ} {ws : List ω}
    {ks : List κ} (hi : c.sessions i = some ⟨.done a, ws, ks⟩) : Ends a ws ks c.committed :=
  (h.ok i _ hi c.committed h.inv (P.refl _ _)).2

end System

/-! ## Replaying a schedule -/

/-- A system with finitely many connections, to compute with. -/
structure Board (σ ω κ τ ε ρ : Type) where
  committed : σ
  sessions : List (Option (Session σ ω κ τ ε ρ))

/-- What a schedule lets happen next: a transaction begins on a connection, a
connection runs its next statement, or it commits. -/
inductive Move (σ ω κ τ ε ρ : Type) where
  | begin (i : Nat) (p : Tx σ ω κ τ ε ρ)
  | go (i : Nat)
  | commit (i : Nat)

namespace Board
variable {σ ω κ τ ε ρ : Type}

def toSystem (b : Board σ ω κ τ ε ρ) : System σ ω κ τ ε ρ :=
  ⟨b.committed, fun i => b.sessions[i]?.join⟩

/-- `n` connections, nobody connected. -/
def idle (n : Nat) (s : σ) : Board σ ω κ τ ε ρ := ⟨s, List.replicate n none⟩

theorem toSystem_idle (n : Nat) (s : σ) :
    (idle n s : Board σ ω κ τ ε ρ).toSystem = System.idle s := by
  unfold toSystem idle System.idle
  congr 1
  funext i
  rw [List.getElem?_replicate]
  split <;> rfl

def free [DecidableEq κ] (b : Board σ ω κ τ ε ρ) (i : Nat) (rows : List κ) : Bool :=
  b.sessions.zipIdx.all fun (x, j) =>
    j == i || x.all fun y => rows.all fun k => !y.held.contains k

theorem free_iff [DecidableEq κ] {b : Board σ ω κ τ ε ρ} {i : Nat} {rows : List κ}
    (h : b.free i rows = true) : b.toSystem.Free i rows := by
  intro j x hj hx k hk hheld
  have hx' : b.sessions[j]? = some (some x) := Option.join_eq_some_iff.mp hx
  have hm : (some x, j) ∈ b.sessions.zipIdx := List.mk_mem_zipIdx_iff_getElem?.mpr hx'
  have := List.all_eq_true.mp h _ hm
  simp only [Bool.or_eq_true, beq_iff_eq, hj, false_or, Option.all_some, List.all_eq_true] at this
  simpa [hheld] using this k hk

def put (b : Board σ ω κ τ ε ρ) (i : Nat) (x : Option (Session σ ω κ τ ε ρ)) :
    Board σ ω κ τ ε ρ := { b with sessions := b.sessions.set i x }

theorem toSystem_put {b : Board σ ω κ τ ε ρ} {i : Nat} {y : Option (Session σ ω κ τ ε ρ)}
    (h : b.sessions[i]? = some y) (x : Option (Session σ ω κ τ ε ρ)) :
    (b.put i x).toSystem = b.toSystem.put i x := by
  unfold toSystem put System.put
  congr 1
  funext j
  obtain ⟨hi, -⟩ := List.getElem?_eq_some_iff.mp h
  by_cases hj : j = i
  · subst hj; simp [hi]
  · simp [hj, Ne.symm hj]

variable [Writable σ ω] [DecidableEq κ]

/-- Make a move; `none` if it is not possible. -/
def play (b : Board σ ω κ τ ε ρ) : Move σ ω κ τ ε ρ → Option (Board σ ω κ τ ε ρ)
  | .begin i p => match b.sessions[i]? with
    | some none => some (b.put i (some ⟨p, [], []⟩))
    | _ => none
  | .go i => match b.sessions[i]? with
    | some (some ⟨.stmt l _ w n, ws, ks⟩) =>
      let view := applyAll ws b.committed
      if b.free i (l view) then some (b.put i (some ⟨n view, ws ++ w view, ks ++ l view⟩))
      else none
    | _ => none
  | .commit i => match b.sessions[i]? with
    | some (some ⟨.done _, ws, _⟩) =>
      some ({ b with committed := applyAll ws b.committed }.put i none)
    | _ => none

/-- Follow a schedule to its end. -/
def replay (b : Board σ ω κ τ ε ρ) : List (Move σ ω κ τ ε ρ) → Option (Board σ ω κ τ ε ρ)
  | [] => some b
  | m :: ms => (b.play m).bind fun c => c.replay ms

/-- The transactions a schedule starts. -/
def begun (ms : List (Move σ ω κ τ ε ρ)) : List (Tx σ ω κ τ ε ρ) :=
  ms.filterMap fun | .begin _ p => some p | _ => none

omit [Writable σ ω] [DecidableEq κ] in
theorem begun_cons (m : Move σ ω κ τ ε ρ) (ms : List (Move σ ω κ τ ε ρ)) :
    begun (m :: ms) = begun [m] ++ begun ms :=
  List.filterMap_append (l := [m])

theorem play_step {programs : Tx σ ω κ τ ε ρ → Prop} {b c : Board σ ω κ τ ε ρ}
    {m : Move σ ω κ τ ε ρ} (hp : ∀ p ∈ begun [m], programs p) (h : b.play m = some c) :
    System.Step programs (fun _ => False) b.toSystem c.toSystem := by
  cases m with
  | begin i p =>
    simp only [play] at h
    split at h
    · rename_i hi
      cases h
      rw [toSystem_put hi]
      exact .begin _ i p (by simp [toSystem, hi]) (hp p (by simp [begun]))
    · cases h
  | go i =>
    simp only [play] at h
    split at h
    · rename_i l x w n ws ks hi
      split at h
      · rename_i hfree
        cases h
        have hs : b.toSystem.sessions i = some ⟨.stmt l x w n, ws, ks⟩ := by simp [toSystem, hi]
        rw [toSystem_put hi]
        exact .statement _ i hs (free_iff hfree) nofun
      · cases h
    · cases h
  | commit i =>
    simp only [play] at h
    split at h
    · rename_i a ws ks hi
      cases h
      have hs : b.toSystem.sessions i = some ⟨.done a, ws, ks⟩ := by simp [toSystem, hi]
      rw [toSystem_put (b := { b with committed := applyAll ws b.committed }) hi]
      exact .commit _ i hs
    · cases h

theorem replay_reaches {programs : Tx σ ω κ τ ε ρ → Prop} {s : σ}
    {b c : Board σ ω κ τ ε ρ} {ms : List (Move σ ω κ τ ε ρ)}
    (hb : System.Reaches programs (fun _ => False) s b.toSystem)
    (hp : ∀ p ∈ begun ms, programs p) (h : b.replay ms = some c) :
    System.Reaches programs (fun _ => False) s c.toSystem := by
  induction ms generalizing b with
  | nil => cases h; exact hb
  | cons m ms ih =>
    obtain ⟨d, hd, hrest⟩ := Option.bind_eq_some_iff.mp h
    rw [begun_cons] at hp
    have hm : ∀ p ∈ begun [m], programs p := fun p hmem => hp p (List.mem_append_left _ hmem)
    have hms : ∀ p ∈ begun ms, programs p := fun p hmem => hp p (List.mem_append_right _ hmem)
    exact ih (hb.step (play_step hm hd)) hms hrest

/-- Where a schedule ends is where an interleaving may end. -/
theorem replay_idle_reaches {programs : Tx σ ω κ τ ε ρ → Prop} {s : σ} {n : Nat}
    {c : Board σ ω κ τ ε ρ} {ms : List (Move σ ω κ τ ε ρ)}
    (hp : ∀ p ∈ begun ms, programs p) (h : (idle n s).replay ms = some c) :
    System.Reaches programs (fun _ => False) s c.toSystem :=
  replay_reaches (toSystem_idle n s ▸ .idle) hp h

/-- A schedule whose last committed state passes a check shows a state that is reached. -/
theorem exists_reaches {programs : Tx σ ω κ τ ε ρ → Prop} {s : σ} {n : Nat}
    {ms : List (Move σ ω κ τ ε ρ)} {check : σ → Bool} (hp : ∀ p ∈ begun ms, programs p)
    (h : ((idle n s).replay ms).any (fun b => check b.committed) = true) :
    ∃ sys, System.Reaches programs (fun _ => False) s sys ∧ check sys.committed = true := by
  cases hr : (idle n s).replay ms with
  | none => rw [hr] at h; cases h
  | some b =>
    rw [hr] at h
    exact ⟨b.toSystem, replay_idle_reaches hp hr, h⟩

/-- The same of a transaction that is under way when the schedule ends. -/
theorem exists_session {programs : Tx σ ω κ τ ε ρ → Prop} {s : σ} {n i : Nat}
    {ms : List (Move σ ω κ τ ε ρ)} {check : Session σ ω κ τ ε ρ → σ → Bool}
    (hp : ∀ p ∈ begun ms, programs p) (h : ((idle n s).replay ms).any (fun b =>
      b.sessions[i]?.join.any fun x => check x b.committed) = true) :
    ∃ sys x, System.Reaches programs (fun _ => False) s sys ∧ sys.sessions i = some x ∧
      check x sys.committed = true := by
  cases hr : (idle n s).replay ms with
  | none => rw [hr] at h; cases h
  | some b =>
    rw [hr, Option.any_some] at h
    cases hx : b.sessions[i]?.join with
    | none => rw [hx] at h; cases h
    | some x =>
      rw [hx] at h
      exact ⟨b.toSystem, x, replay_idle_reaches hp hr, hx, h⟩

end Board

end Pwos
