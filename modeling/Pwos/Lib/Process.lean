import Pwos.Lib.Interleaving

/-!
# Interleaved processes

A `Process` makes one transaction after the other, and between them single statements that
commit by themselves. Any number of processes run interleaved over one committed state;
each may crash at any point, and the world around them may move too.

`Promise.Good` is what a process owes a `Promise`, and `World.Reaches.safe` lifts it from each
process alone to every interleaving.
-/

namespace Pwos

inductive Process (σ ω κ τ α : Type) : Type where
  | done (a : α)
  /-- A statement of the open transaction. -/
  | stmt (locks : σ → List κ) (expects : τ → σ → Prop) (writes : σ → List ω)
      (next : σ → Process σ ω κ τ α)
  | commit (next : Process σ ω κ τ α)
  | abort (next : Process σ ω κ τ α)
  /-- A statement that commits by itself. -/
  | auto (locks : σ → List κ) (expects : τ → σ → Prop) (writes : σ → List ω)
      (next : σ → Process σ ω κ τ α)

namespace Process
variable {σ ω κ τ ε α β : Type}

def bind : Process σ ω κ τ α → (α → Process σ ω κ τ β) → Process σ ω κ τ β
  | .done a, f => f a
  | .stmt l x w n, f => .stmt l x w fun s => (n s).bind f
  | .commit n, f => .commit (n.bind f)
  | .abort n, f => .abort (n.bind f)
  | .auto l x w n, f => .auto l x w fun s => (n s).bind f

instance : Monad (Process σ ω κ τ) where
  pure := .done
  bind := bind

/-- One transaction: what it returns, or the error it is rolled back with. -/
def transaction : Tx σ ω κ τ ε α → Process σ ω κ τ (Except ε α)
  | .done a => .commit (.done (.ok a))
  | .fail e => .abort (.done (.error e))
  | .stmt l x w n => .stmt l x w fun s => transaction (n s)

/-- Every statement a transaction of its own. -/
def statements : Tx σ ω κ τ ε α → Process σ ω κ τ (Except ε α)
  | .done a => .done (.ok a)
  | .fail e => .done (.error e)
  | .stmt l x w n => .auto l x w fun s => statements (n s)

section Run
variable [Writable σ ω]

/-- What the process ends with when nothing else happens. -/
def run : Process σ ω κ τ α → List ω → σ → α × σ
  | .done a, _, s => (a, s)
  | .stmt _ _ w n, ws, s => (n (applyAll ws s)).run (ws ++ w (applyAll ws s)) s
  | .commit n, ws, s => n.run [] (applyAll ws s)
  | .abort n, _, s => n.run [] s
  | .auto _ _ w n, ws, s => (n s).run ws (applyAll (w s) s)

/-- Statements that go through, then the rest from where they end. -/
theorem run_statements_bind {p : Tx σ ω κ τ ε α} {f : Except ε α → Process σ ω κ τ β} {ws : List ω}
    {s u : σ} {b : β} (h : ((statements p).bind f).run ws s = (b, u)) :
    (∃ a t, p.run s = .ok (a, t) ∧ (f (.ok a)).run ws t = (b, u)) ∨
      ∃ e t, p.run s = .error e ∧ (f (.error e)).run ws t = (b, u) := by
  induction p generalizing s with
  | done a => exact .inl ⟨a, s, rfl, h⟩
  | fail e => exact .inr ⟨e, s, rfl, h⟩
  | stmt l x w n ih => exact ih s h

/-- A transaction, then the rest from what it committed. -/
theorem run_transaction_bind {p : Tx σ ω κ τ ε α} {f : Except ε α → Process σ ω κ τ β}
    {ws : List ω} {s u : σ} {b : β} (h : ((transaction p).bind f).run ws s = (b, u)) :
    (∃ a t, p.run (applyAll ws s) = .ok (a, t) ∧ (f (.ok a)).run [] t = (b, u)) ∨
      ∃ e, p.run (applyAll ws s) = .error e ∧ (f (.error e)).run [] s = (b, u) := by
  induction p generalizing ws with
  | done a => exact .inl ⟨a, applyAll ws s, rfl, h⟩
  | fail e => exact .inr ⟨e, rfl, h⟩
  | stmt l x w n ih =>
    have hnext := ih _ h
    rwa [applyAll_append] at hnext

/-- Its statements then find what they expect. -/
def Met (meets : τ → Prop) : Process σ ω κ τ α → List ω → σ → Prop
  | .done _, _, _ => True
  | .stmt _ x w n, ws, s => (∀ a, meets a → x a (applyAll ws s)) ∧
      (n (applyAll ws s)).Met meets (ws ++ w (applyAll ws s)) s
  | .commit n, ws, s => n.Met meets [] (applyAll ws s)
  | .abort n, _, s => n.Met meets [] s
  | .auto _ x w n, ws, s => (∀ a, meets a → x a s) ∧ (n s).Met meets ws (applyAll (w s) s)

end Run

end Process

/-- A process in flight, with the writes and the locks of its open transaction. -/
structure Running (σ ω κ τ α : Type) where
  proc : Process σ ω κ τ α
  pending : List ω
  held : List κ

structure World (σ ω κ τ α : Type) where
  committed : σ
  running : Nat → Option (Running σ ω κ τ α)

namespace World
variable {σ ω κ τ α : Type}

/-- Nothing runs. -/
def idle (s : σ) : World σ ω κ τ α := ⟨s, fun _ => none⟩

def put (c : World σ ω κ τ α) (i : Nat) (x : Option (Running σ ω κ τ α)) : World σ ω κ τ α :=
  { c with running := Function.update c.running i x }

/-- Nobody else holds any of the rows. -/
def Free (c : World σ ω κ τ α) (i : Nat) (rows : List κ) : Prop :=
  ∀ j x, j ≠ i → c.running j = some x → ∀ k ∈ rows, k ∉ x.held

@[simp] theorem put_committed (c : World σ ω κ τ α) (i : Nat) (x : Option (Running σ ω κ τ α)) :
    (c.put i x).committed = c.committed := rfl

@[simp] theorem put_self (c : World σ ω κ τ α) (i : Nat) (x : Option (Running σ ω κ τ α)) :
    (c.put i x).running i = x := by simp [put]

theorem put_other (c : World σ ω κ τ α) {i j : Nat} (h : j ≠ i)
    (x : Option (Running σ ω κ τ α)) : (c.put i x).running j = c.running j := by simp [put, h]

variable [Writable σ ω]

/-- One step of some process, or of the world around them. A statement runs only once its rows
are free, and meets the kinds of assumption in `meets`. -/
inductive Step (programs : Process σ ω κ τ α → Prop) (outside : σ → σ → Prop)
    (meets : τ → Prop) : World σ ω κ τ α → World σ ω κ τ α → Prop where
  | start (c : World σ ω κ τ α) (i : Nat) (p : Process σ ω κ τ α) :
      c.running i = none → programs p → Step programs outside meets c (c.put i (some ⟨p, [], []⟩))
  | statement (c : World σ ω κ τ α) (i : Nat) {l : σ → List κ} {x : τ → σ → Prop}
      {w : σ → List ω} {n : σ → Process σ ω κ τ α} {ws : List ω} {ks : List κ} :
      c.running i = some ⟨.stmt l x w n, ws, ks⟩ →
      c.Free i (l (applyAll ws c.committed)) →
      (∀ a, meets a → x a (applyAll ws c.committed)) →
      Step programs outside meets c (c.put i (some ⟨n (applyAll ws c.committed),
        ws ++ w (applyAll ws c.committed), ks ++ l (applyAll ws c.committed)⟩))
  | commit (c : World σ ω κ τ α) (i : Nat) {n : Process σ ω κ τ α} {ws : List ω} {ks : List κ} :
      c.running i = some ⟨.commit n, ws, ks⟩ →
      Step programs outside meets c
        ({ c with committed := applyAll ws c.committed }.put i (some ⟨n, [], []⟩))
  | abort (c : World σ ω κ τ α) (i : Nat) {n : Process σ ω κ τ α} {ws : List ω} {ks : List κ} :
      c.running i = some ⟨.abort n, ws, ks⟩ →
      Step programs outside meets c (c.put i (some ⟨n, [], []⟩))
  | auto (c : World σ ω κ τ α) (i : Nat) {l : σ → List κ} {x : τ → σ → Prop}
      {w : σ → List ω} {n : σ → Process σ ω κ τ α} {ws : List ω} {ks : List κ} :
      c.running i = some ⟨.auto l x w n, ws, ks⟩ →
      c.Free i (l c.committed) → (∀ a, meets a → x a c.committed) →
      Step programs outside meets c ({ c with
        committed := applyAll (w c.committed) c.committed }.put i (some ⟨n c.committed, ws, ks⟩))
  /-- The process has ended, or it crashes. -/
  | leave (c : World σ ω κ τ α) (i : Nat) : Step programs outside meets c (c.put i none)
  | outside (c : World σ ω κ τ α) {t : σ} :
      outside c.committed t → Step programs outside meets c { c with committed := t }

/-- The worlds an interleaving reaches when nothing runs at first. -/
inductive Reaches (programs : Process σ ω κ τ α → Prop) (outside : σ → σ → Prop)
    (meets : τ → Prop) (s : σ) : World σ ω κ τ α → Prop where
  | idle : Reaches programs outside meets s (idle s)
  | step {c d : World σ ω κ τ α} : Reaches programs outside meets s c →
      Step programs outside meets c d → Reaches programs outside meets s d

end World

namespace Promise
variable {σ ω κ τ ε α β : Type} [Writable σ ω] (P : Promise σ κ τ)

/-- From state `s`, with the writes `ws` pending and the rows `ks` held, the process keeps the
promise whatever the others do meanwhile, and ends in `Q`. -/
def Good (Q : α → σ → Prop) : Process σ ω κ τ α → List ω → List κ → σ → Prop
  | .done a, _, ks, s => ∀ t, P.Inv t → P.Rely ks s t → Q a t
  | .stmt l x w n, ws, ks, s => ∀ t, P.Inv t → P.Rely ks s t →
      (∀ a, P.Assumes a → x a (applyAll ws t)) →
      Good Q (n (applyAll ws t)) (ws ++ w (applyAll ws t)) (ks ++ l (applyAll ws t)) t
  | .commit n, ws, ks, s => ∀ t, P.Inv t → P.Rely ks s t →
      P.Commits ws ks t ∧ Good Q n [] [] (applyAll ws t)
  | .abort n, _, ks, s => ∀ t, P.Inv t → P.Rely ks s t → Good Q n [] [] t
  | .auto l x w n, ws, ks, s => ∀ t, P.Inv t → P.Rely ks s t → (∀ a, P.Assumes a → x a t) →
      P.Commits (w t) (l t) t ∧ Good Q (n t) ws ks (applyAll (w t) t)

variable {P} {Q : α → σ → Prop}

/-- Interference before the next step is already accounted for. -/
theorem Good.stable {p : Process σ ω κ τ α} {ws : List ω} {ks : List κ} {s t : σ}
    (h : P.Good Q p ws ks s) (hr : P.Rely ks s t) : P.Good Q p ws ks t := by
  cases p with
  | done a => exact fun u hu htu => h u hu (P.trans hr htu)
  | stmt l x w n => exact fun u hu htu => h u hu (P.trans hr htu)
  | commit n => exact fun u hu htu => h u hu (P.trans hr htu)
  | abort n => exact fun u hu htu => h u hu (P.trans hr htu)
  | auto l x w n => exact fun u hu htu => h u hu (P.trans hr htu)

/-! Statements that each commit by themselves. -/

section Statements
variable {R : Except ε α → σ → Prop} {ws : List ω} {ks : List κ} {s : σ}

theorem Good.statements_read {f : σ → β} {k : β → Tx σ ω κ τ ε α}
    (h : ∀ t, P.Inv t → P.Rely ks s t → P.Good R (.statements (k (f t))) ws ks t) :
    P.Good R (.statements (Tx.read f >>= k)) ws ks s :=
  fun t ht hr _ => ⟨⟨ht, fun _ _ => P.refl _ _⟩, h t ht hr⟩

theorem Good.statements_require {c : Prop} [Decidable c] {e : ε} {k : Unit → Tx σ ω κ τ ε α}
    (herr : ∀ t, P.Inv t → P.Rely ks s t → R (.error e) t)
    (h : c → P.Good R (.statements (k ())) ws ks s) :
    P.Good R (.statements (Tx.require c e >>= k)) ws ks s := by
  unfold Tx.require
  split
  · exact h ‹_›
  · exact herr

theorem Good.statements_ofExcept {r : Except ε β} {k : β → Tx σ ω κ τ ε α}
    (herr : ∀ e t, P.Inv t → P.Rely ks s t → R (.error e) t)
    (h : ∀ b, P.Good R (.statements (k b)) ws ks s) :
    P.Good R (.statements (Tx.ofExcept r >>= k)) ws ks s := by
  cases r with
  | ok b => exact h b
  | error e => exact herr e

theorem Good.statements_writeExpecting {rows : σ → List κ} {x : τ → σ → Prop} {w : σ → List ω}
    {k : Unit → Tx σ ω κ τ ε α}
    (h : ∀ t, P.Inv t → P.Rely ks s t → (∀ a, P.Assumes a → x a t) →
      P.Commits (w t) (rows t) t ∧ P.Good R (.statements (k ())) ws ks (applyAll (w t) t)) :
    P.Good R (.statements (Tx.writeExpecting rows x w >>= k)) ws ks s := h

end Statements

end Promise

namespace World
variable {σ ω κ τ α : Type} [Writable σ ω] {P : Promise σ κ τ} {Q : α → σ → Prop}

/-- What holds of a world between two steps: the committed state is good, every process will
stay good, and no row is held twice. -/
structure Safe (P : Promise σ κ τ) (Q : α → σ → Prop) (c : World σ ω κ τ α) : Prop where
  inv : P.Inv c.committed
  good : ∀ i x, c.running i = some x → P.Good Q x.proc x.pending x.held c.committed
  apart : ∀ i j x y, i ≠ j → c.running i = some x → c.running j = some y →
    ∀ k ∈ x.held, k ∉ y.held

theorem Safe.idle {s : σ} (h : P.Inv s) : Safe P Q (World.idle s : World σ ω κ τ α) where
  inv := h
  good i x hx := by simp [World.idle] at hx
  apart i j x y _ hx := by simp [World.idle] at hx

/-- One process moves on, and the committed state to `t`: safety is kept if what the others rely
on holds and the process is good with rows that are free. -/
theorem Safe.move {c : World σ ω κ τ α} (h : Safe P Q c) {t : σ} (ht : P.Inv t) (i : Nat)
    (x : Option (Running σ ω κ τ α))
    (hothers : ∀ j y, j ≠ i → c.running j = some y → P.Rely y.held c.committed t)
    (hgood : ∀ y, x = some y → P.Good Q y.proc y.pending y.held t)
    (hfree : ∀ y, x = some y → c.Free i y.held) :
    Safe P Q ({ c with committed := t }.put i x) where
  inv := ht
  good j y hy := by
    by_cases e : j = i
    · subst e; rw [put_self] at hy; exact hgood y hy
    · rw [put_other _ e] at hy; exact (h.good j y hy).stable (hothers j y e hy)
  apart j k y z hne hy hz r hr := by
    by_cases ej : j = i
    · subst ej
      rw [put_self] at hy
      rw [put_other _ (Ne.symm hne)] at hz
      exact hfree y hy k z (Ne.symm hne) hz r hr
    · rw [put_other _ ej] at hy
      by_cases ek : k = i
      · subst ek
        rw [put_self] at hz
        exact fun hr' => hfree z hz j y ej hy r hr' hr
      · rw [put_other _ ek] at hz
        exact h.apart j k y z hne hy hz r hr

theorem Safe.step {programs : Process σ ω κ τ α → Prop} {outside : σ → σ → Prop}
    {c d : World σ ω κ τ α} (h : Safe P Q c)
    (hp : ∀ p, programs p → ∀ s, P.Inv s → P.Good Q p [] [] s)
    (hout : ∀ s t, P.Inv s → outside s t → P.Inv t ∧ ∀ ks, P.Rely ks s t)
    (hs : Step programs outside P.Assumes c d) : Safe P Q d := by
  have hsame : ∀ j y, c.running j = some y → P.Rely y.held c.committed c.committed :=
    fun _ _ _ => P.refl _ _
  cases hs with
  | start i p _ hprog =>
    refine h.move h.inv i _ (fun j y _ => hsame j y) ?_ ?_
    · rintro y ⟨⟩; exact hp p hprog _ h.inv
    · rintro y ⟨⟩ j z _ _ k hk; cases hk
  | @statement i l x w n ws ks hi hfree hx =>
    have hgood := h.good i _ hi c.committed h.inv (P.refl _ _) hx
    refine h.move h.inv i _ (fun j y _ => hsame j y) ?_ ?_
    · rintro y ⟨⟩; exact hgood
    · rintro y ⟨⟩ j z hne hz k hk
      rcases List.mem_append.mp hk with hk | hk
      · exact h.apart i j _ z (Ne.symm hne) hi hz k hk
      · exact hfree j z hne hz k hk
  | @commit i n ws ks hi =>
    obtain ⟨⟨hinv, hrely⟩, hgood⟩ := h.good i _ hi c.committed h.inv (P.refl _ _)
    refine h.move hinv i _ (fun j y hne hy => hrely _ (h.apart j i y _ hne hy hi)) ?_ ?_
    · rintro y ⟨⟩; exact hgood
    · rintro y ⟨⟩ j z _ _ k hk; cases hk
  | @abort i n ws ks hi =>
    have hgood := h.good i _ hi c.committed h.inv (P.refl _ _)
    refine h.move h.inv i _ (fun j y _ => hsame j y) ?_ ?_
    · rintro y ⟨⟩; exact hgood
    · rintro y ⟨⟩ j z _ _ k hk; cases hk
  | @auto i l x w n ws ks hi hfree hx =>
    obtain ⟨⟨hinv, hrely⟩, hgood⟩ := h.good i _ hi c.committed h.inv (P.refl _ _) hx
    refine h.move hinv i _ (fun j y hne hy => hrely _ fun k hk hk' => ?_) ?_ ?_
    · exact hfree j y hne hy k hk' hk
    · rintro y ⟨⟩; exact hgood
    · rintro y ⟨⟩ j z hne hz k hk
      exact h.apart i j _ z (Ne.symm hne) hi hz k hk
  | leave i =>
    refine h.move h.inv i _ (fun j y _ => hsame j y) ?_ ?_ <;> rintro y ⟨⟩
  | @outside t ht =>
    obtain ⟨hinv, hrely⟩ := hout _ _ h.inv ht
    exact ⟨hinv, fun i x hx => (h.good i x hx).stable (hrely _), h.apart⟩

/-- Soundness: if every process keeps the promise alone, and so does the world around them,
every interleaving whose statements find what they expect is safe. -/
theorem Reaches.safe {programs : Process σ ω κ τ α → Prop} {outside : σ → σ → Prop} {s : σ}
    {c : World σ ω κ τ α} (hs : P.Inv s)
    (hp : ∀ p, programs p → ∀ s, P.Inv s → P.Good Q p [] [] s)
    (hout : ∀ s t, P.Inv s → outside s t → P.Inv t ∧ ∀ ks, P.Rely ks s t)
    (h : Reaches programs outside P.Assumes s c) : Safe P Q c := by
  induction h with
  | idle => exact .idle hs
  | step _ hd ih => exact ih.step hp hout hd

end World

/-! ## A process alone -/

namespace World
variable {σ ω κ τ α : Type} [Writable σ ω]

def Quiet (c : World σ ω κ τ α) : Prop := ∀ i, c.running i = none

omit [Writable σ ω] in
/-- Rows are free for the only process there is. -/
theorem free_of_alone {c : World σ ω κ τ α} (h : ∀ j, j ≠ 0 → c.running j = none) (rows : List κ) :
    c.Free 0 rows := by
  intro j x hj hx
  rw [h j hj] at hx
  cases hx

/-- A process may run to its end while nothing else runs. -/
theorem Reaches.alone {programs : Process σ ω κ τ α → Prop} {outside : σ → σ → Prop}
    {meets : τ → Prop} {s : σ} {c : World σ ω κ τ α} {p : Process σ ω κ τ α}
    (h : Reaches programs outside meets s c) (hq : c.Quiet) (hp : programs p)
    (hm : p.Met meets [] c.committed) :
    ∃ d, Reaches programs outside meets s d ∧ d.Quiet ∧
      d.committed = (p.run [] c.committed).2 := by
  have hgen : ∀ {d : World σ ω κ τ α} {ws : List ω} {ks : List κ},
      Reaches programs outside meets s d → (∀ j, j ≠ 0 → d.running j = none) →
      d.running 0 = some ⟨p, ws, ks⟩ → p.Met meets ws d.committed →
      ∃ d', Reaches programs outside meets s d' ∧ d'.Quiet ∧
        d'.committed = (p.run ws d.committed).2 := by
    clear hm hp h
    have hput : ∀ {d : World σ ω κ τ α} {x : Option (Running σ ω κ τ α)},
        (∀ j, j ≠ 0 → d.running j = none) → ∀ j, j ≠ 0 → (d.put 0 x).running j = none := by
      intro d x hothers j hj
      rw [put_other _ hj]
      exact hothers j hj
    induction p with
    | done b =>
      intro d ws ks hd hothers h0 _
      refine ⟨_, hd.step (.leave d 0), fun j => ?_, rfl⟩
      by_cases hj : j = 0
      · rw [hj, put_self]
      · rw [put_other _ hj]
        exact hothers j hj
    | stmt l x w n ih =>
      intro d ws ks hd hothers h0 hm
      exact ih _ (d := d.put 0 _) (hd.step (.statement _ 0 h0 (free_of_alone hothers _) hm.1))
        (hput hothers) (put_self _ _ _) hm.2
    | commit n ih =>
      intro d ws ks hd hothers h0 hm
      exact ih (hd.step (.commit _ 0 h0)) (hput hothers) (put_self _ _ _) hm
    | abort n ih =>
      intro d ws ks hd hothers h0 hm
      exact ih (d := d.put 0 _) (hd.step (.abort _ 0 h0)) (hput hothers) (put_self _ _ _) hm
    | auto l x w n ih =>
      intro d ws ks hd hothers h0 hm
      exact ih _ (hd.step (.auto _ 0 h0 (free_of_alone hothers _) hm.1)) (hput hothers)
        (put_self _ _ _) hm.2
  refine hgen (d := c.put 0 _) (h.step (.start _ 0 p (hq 0) hp)) (fun j hj => ?_) (put_self _ _ _) hm
  rw [put_other _ hj]
  exact hq j

end World

/-! ## Replaying a schedule -/

/-- A world with finitely many places, to compute with. -/
structure Stage (σ ω κ τ α : Type) where
  committed : σ
  running : List (Option (Running σ ω κ τ α))

/-- What a schedule lets happen next: a process starts at a place, or the one that runs there
makes its next step, or leaves. -/
inductive Cue (σ ω κ τ α : Type) where
  | start (i : Nat) (p : Process σ ω κ τ α)
  | go (i : Nat)
  | leave (i : Nat)

namespace Stage
variable {σ ω κ τ α : Type}

def toWorld (b : Stage σ ω κ τ α) : World σ ω κ τ α := ⟨b.committed, fun i => b.running[i]?.join⟩

/-- `n` places, nothing runs. -/
def idle (n : Nat) (s : σ) : Stage σ ω κ τ α := ⟨s, List.replicate n none⟩

theorem toWorld_idle (n : Nat) (s : σ) :
    (idle n s : Stage σ ω κ τ α).toWorld = World.idle s := by
  unfold toWorld idle World.idle
  congr 1
  funext i
  rw [List.getElem?_replicate]
  split <;> rfl

def free [DecidableEq κ] (b : Stage σ ω κ τ α) (i : Nat) (rows : List κ) : Bool :=
  b.running.zipIdx.all fun (x, j) =>
    j == i || x.all fun y => rows.all fun k => !y.held.contains k

theorem free_iff [DecidableEq κ] {b : Stage σ ω κ τ α} {i : Nat} {rows : List κ}
    (h : b.free i rows = true) : b.toWorld.Free i rows := by
  intro j x hj hx k hk hheld
  have hx' : b.running[j]? = some (some x) := Option.join_eq_some_iff.mp hx
  have hm : (some x, j) ∈ b.running.zipIdx := List.mk_mem_zipIdx_iff_getElem?.mpr hx'
  have := List.all_eq_true.mp h _ hm
  simp only [Bool.or_eq_true, beq_iff_eq, hj, false_or, Option.all_some, List.all_eq_true] at this
  simpa [hheld] using this k hk

def put (b : Stage σ ω κ τ α) (i : Nat) (x : Option (Running σ ω κ τ α)) : Stage σ ω κ τ α :=
  { b with running := b.running.set i x }

theorem toWorld_put {b : Stage σ ω κ τ α} {i : Nat} {y : Option (Running σ ω κ τ α)}
    (h : b.running[i]? = some y) (x : Option (Running σ ω κ τ α)) :
    (b.put i x).toWorld = b.toWorld.put i x := by
  unfold toWorld put World.put
  congr 1
  funext j
  obtain ⟨hi, -⟩ := List.getElem?_eq_some_iff.mp h
  by_cases hj : j = i
  · subst hj; simp [hi]
  · simp [hj, Ne.symm hj]

variable [Writable σ ω] [DecidableEq κ]

/-- Follow one cue; `none` if it is not possible. -/
def play (b : Stage σ ω κ τ α) : Cue σ ω κ τ α → Option (Stage σ ω κ τ α)
  | .start i p => match b.running[i]? with
    | some none => some (b.put i (some ⟨p, [], []⟩))
    | _ => none
  | .leave i => match b.running[i]? with
    | some _ => some (b.put i none)
    | none => none
  | .go i => match b.running[i]? with
    | some (some ⟨.stmt l _ w n, ws, ks⟩) =>
      let view := applyAll ws b.committed
      if b.free i (l view) then some (b.put i (some ⟨n view, ws ++ w view, ks ++ l view⟩))
      else none
    | some (some ⟨.commit n, ws, _⟩) =>
      some ({ b with committed := applyAll ws b.committed }.put i (some ⟨n, [], []⟩))
    | some (some ⟨.abort n, _, _⟩) => some (b.put i (some ⟨n, [], []⟩))
    | some (some ⟨.auto l _ w n, ws, ks⟩) =>
      let view := b.committed
      if b.free i (l view) then
        some ({ b with committed := applyAll (w view) view }.put i (some ⟨n view, ws, ks⟩))
      else none
    | _ => none

def replay (b : Stage σ ω κ τ α) : List (Cue σ ω κ τ α) → Option (Stage σ ω κ τ α)
  | [] => some b
  | m :: ms => (b.play m).bind fun c => c.replay ms

/-- The processes a schedule starts. -/
def started (ms : List (Cue σ ω κ τ α)) : List (Process σ ω κ τ α) :=
  ms.filterMap fun | .start _ p => some p | _ => none

omit [Writable σ ω] [DecidableEq κ] in
theorem started_cons (m : Cue σ ω κ τ α) (ms : List (Cue σ ω κ τ α)) :
    started (m :: ms) = started [m] ++ started ms :=
  List.filterMap_append (l := [m])

theorem play_step {programs : Process σ ω κ τ α → Prop} {outside : σ → σ → Prop}
    {b c : Stage σ ω κ τ α} {m : Cue σ ω κ τ α} (hp : ∀ p ∈ started [m], programs p)
    (h : b.play m = some c) :
    World.Step programs outside (fun _ => False) b.toWorld c.toWorld := by
  have hat : ∀ {i x}, b.running[i]? = some (some x) → b.toWorld.running i = some x := by
    intro i x hi
    simp [toWorld, hi]
  cases m with
  | start i p =>
    simp only [play] at h
    split at h
    · rename_i hi
      cases h
      rw [toWorld_put hi]
      exact .start _ i p (by simp [toWorld, hi]) (hp p (by simp [started]))
    · cases h
  | leave i =>
    simp only [play] at h
    split at h
    · rename_i hi
      cases h
      rw [toWorld_put hi]
      exact .leave _ i
    · cases h
  | go i =>
    simp only [play] at h
    split at h
    · rename_i l x w n ws ks hi
      split at h
      · rename_i hfree
        cases h
        rw [toWorld_put hi]
        exact .statement _ i (hat hi) (free_iff hfree) nofun
      · cases h
    · rename_i n ws ks hi
      cases h
      rw [toWorld_put (b := { b with committed := applyAll ws b.committed }) hi]
      exact .commit _ i (hat hi)
    · rename_i n ws ks hi
      cases h
      rw [toWorld_put hi]
      exact .abort _ i (hat hi)
    · rename_i l x w n ws ks hi
      split at h
      · rename_i hfree
        cases h
        rw [toWorld_put (b := { b with committed := applyAll (w b.committed) b.committed }) hi]
        exact .auto _ i (hat hi) (free_iff hfree) nofun
      · cases h
    · cases h

theorem replay_reaches {programs : Process σ ω κ τ α → Prop} {outside : σ → σ → Prop} {s : σ}
    {b c : Stage σ ω κ τ α} {ms : List (Cue σ ω κ τ α)}
    (hb : World.Reaches programs outside (fun _ => False) s b.toWorld)
    (hp : ∀ p ∈ started ms, programs p) (h : b.replay ms = some c) :
    World.Reaches programs outside (fun _ => False) s c.toWorld := by
  induction ms generalizing b with
  | nil => cases h; exact hb
  | cons m ms ih =>
    obtain ⟨d, hd, hrest⟩ := Option.bind_eq_some_iff.mp h
    rw [started_cons] at hp
    have hm : ∀ p ∈ started [m], programs p := fun p hmem => hp p (List.mem_append_left _ hmem)
    have hms : ∀ p ∈ started ms, programs p := fun p hmem => hp p (List.mem_append_right _ hmem)
    exact ih (hb.step (play_step hm hd)) hms hrest

/-- A schedule whose last committed state passes a check shows a state that is reached. -/
theorem exists_reaches {programs : Process σ ω κ τ α → Prop} {outside : σ → σ → Prop} {s : σ}
    {n : Nat} {ms : List (Cue σ ω κ τ α)} (check : σ → Bool) (hp : ∀ p ∈ started ms, programs p)
    (h : ((idle n s).replay ms).any (fun b => check b.committed) = true) :
    ∃ c, World.Reaches programs outside (fun _ => False) s c ∧ check c.committed = true := by
  cases hr : (idle n s).replay ms with
  | none => rw [hr] at h; cases h
  | some b =>
    rw [hr] at h
    exact ⟨b.toWorld, replay_reaches (toWorld_idle n s ▸ .idle) hp hr, h⟩

end Stage

end Pwos
