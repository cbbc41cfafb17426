import Pwos.Lib.Process

/-!
# Calls among other calls

A `World` does not tell which call a process came from. A `Calls` does, and whether the call has
made a step yet, so that a `Conduct` can say of a run that two calls do not overlap, or that none
stops half-way. `Calls.Reaches.world`: without its calls such a run is one of the interleaved
processes.
-/

namespace Pwos

namespace World
variable {σ ω κ τ α : Type} [Writable σ ω]

/-- The process at place `i` makes its next step. -/
inductive Turn (meets : τ → Prop) (c : World σ ω κ τ α) (i : Nat) : World σ ω κ τ α → Prop where
  | statement {l : σ → List κ} {x : τ → σ → Prop} {w : σ → List ω} {n : σ → Process σ ω κ τ α}
      {ws : List ω} {ks : List κ} :
      c.running i = some ⟨.stmt l x w n, ws, ks⟩ → c.Free i (l (applyAll ws c.committed)) →
      (∀ a, meets a → x a (applyAll ws c.committed)) →
      Turn meets c i (c.put i (some ⟨n (applyAll ws c.committed),
        ws ++ w (applyAll ws c.committed), ks ++ l (applyAll ws c.committed)⟩))
  | commit {n : Process σ ω κ τ α} {ws : List ω} {ks : List κ} :
      c.running i = some ⟨.commit n, ws, ks⟩ →
      Turn meets c i ({ c with committed := applyAll ws c.committed }.put i (some ⟨n, [], []⟩))
  | abort {n : Process σ ω κ τ α} {ws : List ω} {ks : List κ} :
      c.running i = some ⟨.abort n, ws, ks⟩ → Turn meets c i (c.put i (some ⟨n, [], []⟩))
  | auto {l : σ → List κ} {x : τ → σ → Prop} {w : σ → List ω} {n : σ → Process σ ω κ τ α}
      {ws : List ω} {ks : List κ} :
      c.running i = some ⟨.auto l x w n, ws, ks⟩ → c.Free i (l c.committed) →
      (∀ a, meets a → x a c.committed) →
      Turn meets c i ({ c with committed := applyAll (w c.committed) c.committed }.put i
        (some ⟨n c.committed, ws, ks⟩))

variable {meets : τ → Prop} {c d : World σ ω κ τ α} {i : Nat}

theorem Turn.step {programs : Process σ ω κ τ α → Prop} {outside : σ → σ → Prop}
    (h : c.Turn meets i d) : Step programs outside meets c d := by
  cases h with
  | statement hi hfree hx => exact .statement c i hi hfree hx
  | commit hi => exact .commit c i hi
  | abort hi => exact .abort c i hi
  | auto hi hfree hx => exact .auto c i hi hfree hx

theorem Turn.running (h : c.Turn meets i d) : ∃ x, c.running i = some x := by
  cases h with
  | statement hi _ _ => exact ⟨_, hi⟩
  | commit hi => exact ⟨_, hi⟩
  | abort hi => exact ⟨_, hi⟩
  | auto hi _ _ => exact ⟨_, hi⟩

/-! What the turn is, for a process that is known. -/

theorem Turn.of_done {a : α} {ws : List ω} {ks : List κ}
    (hi : c.running i = some ⟨.done a, ws, ks⟩) : ¬ c.Turn meets i d := by
  intro h
  cases h <;> simp_all

theorem Turn.of_auto {l : σ → List κ} {x : τ → σ → Prop} {w : σ → List ω}
    {n : σ → Process σ ω κ τ α} {ws : List ω} {ks : List κ}
    (hi : c.running i = some ⟨.auto l x w n, ws, ks⟩) (h : c.Turn meets i d) :
    d = { c with committed := applyAll (w c.committed) c.committed }.put i
      (some ⟨n c.committed, ws, ks⟩) := by
  cases h <;> simp_all

theorem Turn.of_stmt {l : σ → List κ} {x : τ → σ → Prop} {w : σ → List ω}
    {n : σ → Process σ ω κ τ α} {ws : List ω} {ks : List κ}
    (hi : c.running i = some ⟨.stmt l x w n, ws, ks⟩) (h : c.Turn meets i d) :
    d = c.put i (some ⟨n (applyAll ws c.committed), ws ++ w (applyAll ws c.committed),
      ks ++ l (applyAll ws c.committed)⟩) := by
  cases h <;> simp_all

theorem Turn.of_commit {n : Process σ ω κ τ α} {ws : List ω} {ks : List κ}
    (hi : c.running i = some ⟨.commit n, ws, ks⟩) (h : c.Turn meets i d) :
    d = { c with committed := applyAll ws c.committed }.put i (some ⟨n, [], []⟩) := by
  cases h <;> simp_all

theorem Turn.of_abort {n : Process σ ω κ τ α} {ws : List ω} {ks : List κ}
    (hi : c.running i = some ⟨.abort n, ws, ks⟩) (h : c.Turn meets i d) :
    d = c.put i (some ⟨n, [], []⟩) := by
  cases h <;> simp_all

end World

structure Calls (σ ω κ τ α ι : Type) where
  world : World σ ω κ τ α
  call : Nat → Option ι
  begun : Nat → Bool

/-- Which steps a run takes. -/
structure Conduct (σ ω κ τ α ι : Type) where
  turns : Calls σ ω κ τ α ι → Nat → Prop
  leaves : Calls σ ω κ τ α ι → Nat → Prop

namespace Calls
variable {σ ω κ τ α ι : Type}

/-- Nothing runs. -/
def idle (s : σ) : Calls σ ω κ τ α ι := ⟨World.idle s, fun _ => none, fun _ => false⟩

/-- The call has made a step and has another one to make. -/
def Midway (c : Calls σ ω κ τ α ι) (i : Nat) (k : ι) : Prop :=
  c.call i = some k ∧ c.begun i = true ∧
    ∃ x, c.world.running i = some x ∧ ∀ a, x.proc ≠ .done a

theorem Midway.of_same {c d : Calls σ ω κ τ α ι} {i : Nat} {k : ι} (h : c.Midway i k)
    (hcall : d.call i = c.call i) (hbegun : d.begun i = c.begun i)
    (hrunning : d.world.running i = c.world.running i) : d.Midway i k := by
  obtain ⟨hk, hb, x, hx, hproc⟩ := h
  exact ⟨hcall.trans hk, hbegun.trans hb, x, hrunning.trans hx, hproc⟩

theorem Midway.running {c : Calls σ ω κ τ α ι} {i : Nat} {k : ι} (h : c.Midway i k) :
    c.world.running i ≠ none := by
  obtain ⟨-, -, x, hx, -⟩ := h
  rw [hx]
  exact Option.some_ne_none x

variable [Writable σ ω]

/-- One step of a run: a call starts at a free place, makes a step, ends or crashes, or the world
around them moves. -/
inductive Step (prog : ι → Process σ ω κ τ α) (outside : σ → σ → Prop) (meets : τ → Prop)
    (conduct : Conduct σ ω κ τ α ι) : Calls σ ω κ τ α ι → Calls σ ω κ τ α ι → Prop where
  | start (c : Calls σ ω κ τ α ι) (i : Nat) (k : ι) : c.world.running i = none →
      Step prog outside meets conduct c
        ⟨c.world.put i (some ⟨prog k, [], []⟩), Function.update c.call i (some k),
          Function.update c.begun i false⟩
  | turn (c : Calls σ ω κ τ α ι) (i : Nat) {d : World σ ω κ τ α} : conduct.turns c i →
      c.world.Turn meets i d →
      Step prog outside meets conduct c ⟨d, c.call, Function.update c.begun i true⟩
  | leave (c : Calls σ ω κ τ α ι) (i : Nat) : conduct.leaves c i →
      Step prog outside meets conduct c { c with world := c.world.put i none }
  | outside (c : Calls σ ω κ τ α ι) {t : σ} : outside c.world.committed t →
      Step prog outside meets conduct c { c with world := { c.world with committed := t } }

inductive Reaches (prog : ι → Process σ ω κ τ α) (outside : σ → σ → Prop) (meets : τ → Prop)
    (conduct : Conduct σ ω κ τ α ι) (s : σ) : Calls σ ω κ τ α ι → Prop where
  | idle : Reaches prog outside meets conduct s (idle s)
  | step {c d : Calls σ ω κ τ α ι} : Reaches prog outside meets conduct s c →
      Step prog outside meets conduct c d → Reaches prog outside meets conduct s d

variable {prog : ι → Process σ ω κ τ α} {outside : σ → σ → Prop} {meets : τ → Prop}
  {conduct : Conduct σ ω κ τ α ι} {s : σ} {c d : Calls σ ω κ τ α ι}

theorem Step.world (h : Step prog outside meets conduct c d) :
    World.Step (fun p => ∃ k, p = prog k) outside meets c.world d.world := by
  cases h with
  | start i k hi => exact .start _ i _ hi ⟨k, rfl⟩
  | turn i _ hturn => exact hturn.step
  | leave i _ => exact .leave _ i
  | outside ht => exact .outside _ ht

theorem Reaches.world (h : Reaches prog outside meets conduct s c) :
    World.Reaches (fun p => ∃ k, p = prog k) outside meets s c.world := by
  induction h with
  | idle => exact .idle
  | step _ hd ih => exact ih.step hd.world

/-- What holds when nothing runs and is kept by every step. -/
theorem Reaches.keeps {I : Calls σ ω κ τ α ι → Prop} (hidle : I (Calls.idle s))
    (hstep : ∀ c d, I c → Step prog outside meets conduct c d → I d)
    (h : Reaches prog outside meets conduct s c) : I c := by
  induction h with
  | idle => exact hidle
  | step _ hd ih => exact hstep _ _ ih hd

/-- A call may run to its end while nothing else runs. -/
theorem Reaches.alone {k : ι} (hconduct : ∀ d : Calls σ ω κ τ α ι, d.call 0 = some k →
      (∀ j, j ≠ 0 → d.world.running j = none) → conduct.turns d 0)
    (hm : (prog k).Met meets [] s) :
    ∃ c, Reaches prog outside meets conduct s c ∧ c.world.committed = ((prog k).run [] s).2 := by
  have hgen : ∀ (p : Process σ ω κ τ α) {d : Calls σ ω κ τ α ι} {ws : List ω} {ks : List κ},
      Reaches prog outside meets conduct s d → d.call 0 = some k →
      (∀ j, j ≠ 0 → d.world.running j = none) → d.world.running 0 = some ⟨p, ws, ks⟩ →
      p.Met meets ws d.world.committed →
      ∃ c, Reaches prog outside meets conduct s c ∧
        c.world.committed = (p.run ws d.world.committed).2 := by
    intro p
    have hput : ∀ {w : World σ ω κ τ α} {x : Option (Running σ ω κ τ α)},
        (∀ j, j ≠ 0 → w.running j = none) → ∀ j, j ≠ 0 → (w.put 0 x).running j = none := by
      intro w x hothers j hj
      rw [World.put_other _ hj]
      exact hothers j hj
    induction p with
    | done a => exact fun hd _ _ _ _ => ⟨_, hd, rfl⟩
    | stmt l x w n ih =>
      intro d ws ks hd hk hothers h0 hm
      exact ih _ (d := ⟨d.world.put 0 _, d.call, _⟩) (hd.step (.turn _ 0 (hconduct d hk hothers)
        (.statement h0 (World.free_of_alone hothers _) hm.1))) hk (hput hothers)
        (World.put_self _ _ _) hm.2
    | commit n ih =>
      intro d ws ks hd hk hothers h0 hm
      exact ih (hd.step (.turn _ 0 (hconduct d hk hothers) (.commit h0))) hk (hput hothers)
        (World.put_self _ _ _) hm
    | abort n ih =>
      intro d ws ks hd hk hothers h0 hm
      exact ih (d := ⟨d.world.put 0 _, d.call, _⟩)
        (hd.step (.turn _ 0 (hconduct d hk hothers) (.abort h0))) hk (hput hothers)
        (World.put_self _ _ _) hm
    | auto l x w n ih =>
      intro d ws ks hd hk hothers h0 hm
      exact ih _ (hd.step (.turn _ 0 (hconduct d hk hothers) (.auto h0
        (World.free_of_alone hothers _) hm.1))) hk (hput hothers) (World.put_self _ _ _) hm.2
  have hstart : Reaches prog outside meets conduct s _ := Reaches.idle.step (.start _ 0 k rfl)
  refine hgen (prog k) hstart ?_ (fun j hj => ?_) (World.put_self _ _ _) hm
  · dsimp only
    rw [Function.update_self]
  · exact World.put_other _ hj _

end Calls

/-! ## Transactions that write the same whatever they read -/

/-- The program ends and writes `vs`. -/
def Tx.Adds {σ ω κ τ ε α : Type} : Tx σ ω κ τ ε α → List ω → Prop
  | .done _, vs => vs = []
  | .fail _, _ => False
  | .stmt _ _ w n, vs => ∀ s, ∃ rest, vs = w s ++ rest ∧ (n s).Adds rest

namespace Tx
variable {σ ω κ τ ε α β : Type}

theorem Adds.bind {p : Tx σ ω κ τ ε α} {f : α → Tx σ ω κ τ ε β} {vs us : List ω} (h : p.Adds vs)
    (hf : ∀ a, (f a).Adds us) : (p >>= f).Adds (vs ++ us) := by
  induction p generalizing vs with
  | done a =>
    obtain rfl : vs = [] := h
    exact hf a
  | fail e => exact absurd h id
  | stmt l x w n ih =>
    intro s
    obtain ⟨rest, rfl, hrest⟩ := h s
    exact ⟨rest ++ us, List.append_assoc .., ih s hrest⟩

theorem Adds.each {γ : Type} {f : γ → Tx σ ω κ τ ε Unit} {g : γ → List ω} {xs : List γ}
    (h : ∀ x, (f x).Adds (g x)) : (Tx.each xs f).Adds (xs.flatMap g) := by
  induction xs with
  | nil => rfl
  | cons x xs ih => exact (h x).bind fun _ => ih

end Tx

/-- Such a transaction is at its commit, or makes another statement. -/
theorem World.Turn.of_adds {σ ω κ τ ε β : Type} [Writable σ ω] {meets : τ → Prop}
    {c d : World σ ω κ τ (Except ε β)} {i : Nat} {p : Tx σ ω κ τ ε β} {ws vs : List ω} {ks : List κ}
    (hi : c.running i = some ⟨.transaction p, ws, ks⟩) (hadds : p.Adds vs)
    (h : c.Turn meets i d) :
    (vs = [] ∧ (∃ n, c.running i = some ⟨.commit n, ws, ks⟩) ∧ ∃ r,
      d = { c with committed := applyAll ws c.committed }.put i (some ⟨.done r, [], []⟩)) ∨
    ∃ q us rest js, vs = us ++ rest ∧ q.Adds rest ∧
      d = c.put i (some ⟨.transaction q, ws ++ us, js⟩) := by
  cases p with
  | done a => exact .inl ⟨hadds, ⟨_, hi⟩, _, h.of_commit hi⟩
  | fail e => exact absurd hadds id
  | stmt l x w n =>
    obtain ⟨rest, hvs, hrest⟩ := hadds (applyAll ws c.committed)
    exact .inr ⟨_, _, rest, _, hvs, hrest, h.of_stmt hi⟩

end Pwos
