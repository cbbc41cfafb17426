import Pwos.Lib.Leads

/-!
# Histories of interleaved transactions

A history lists the systems an interleaving has been through, the latest first. What a
transaction returns may depend on a moment when one of its statements ran; `Tx.Sees` says so of
the program, and `System.History.passed` finds the moment in every history.
-/

namespace Pwos

namespace System
variable {σ ω κ τ ε ρ : Type} [Writable σ ω]

/-- The systems an interleaving goes through from an idle database. -/
inductive History (programs : Tx σ ω κ τ ε ρ → Prop) (meets : τ → Prop) (s : σ) :
    List (System σ ω κ τ ε ρ) → Prop where
  | idle : History programs meets s [idle s]
  | step {c d : System σ ω κ τ ε ρ} {past : List (System σ ω κ τ ε ρ)} :
      History programs meets s (c :: past) → Step programs meets c d →
      History programs meets s (d :: c :: past)

variable {programs : Tx σ ω κ τ ε ρ → Prop} {meets : τ → Prop} {s : σ}
  {past : List (System σ ω κ τ ε ρ)}

theorem History.reaches {c : System σ ω κ τ ε ρ} (h : History programs meets s (c :: past)) :
    Reaches programs meets s c := by
  induction past generalizing c with
  | nil =>
    cases h
    exact .idle
  | cons d past ih =>
    cases h with
    | step h hd => exact (ih h).step hd

/-- What an interleaving reaches has a history. -/
theorem Reaches.history {c : System σ ω κ τ ε ρ} (h : Reaches programs meets s c) :
    ∃ past, History programs meets s (c :: past) := by
  induction h with
  | idle => exact ⟨[], .idle⟩
  | @step c d _ hd ih =>
    obtain ⟨past, hpast⟩ := ih
    exact ⟨c :: past, hpast.step hd⟩

/-- From any moment of a safe history to its end the committed state has changed no more than
everyone tolerates. -/
theorem History.rely {P : Promise σ κ τ} {Ends : ρ → List ω → List κ → σ → Prop} (hs : P.Inv s)
    (hp : ∀ p, programs p → P.Honours Ends p) {c : System σ ω κ τ ε ρ}
    (h : History programs P.Assumes s (c :: past)) :
    ∀ e ∈ past, P.Rely [] e.committed c.committed := by
  induction past generalizing c with
  | nil => exact fun e he => absurd he List.not_mem_nil
  | cons d past ih =>
    cases h with
    | step h hd =>
      have hstep := (h.reaches.safe hs hp).step_rely hd
      intro e he
      rcases List.mem_cons.mp he with rfl | he
      · exact hstep
      · exact P.trans (ih h e he) hstep

/-- At some moment of the transaction that is now on connection `i`, its session and the committed
state passed the check. -/
def Passed (past : List (System σ ω κ τ ε ρ)) (i : Nat) (check : Session σ ω κ τ ε ρ → σ → Prop) :
    Prop :=
  ∃ later d earlier x, past = later ++ d :: earlier ∧ (∀ e ∈ later, (e.sessions i).isSome) ∧
    d.sessions i = some x ∧ check x d.committed

omit [Writable σ ω] in
theorem Passed.now {c : System σ ω κ τ ε ρ} {i : Nat} {x : Session σ ω κ τ ε ρ}
    {check : Session σ ω κ τ ε ρ → σ → Prop} (hx : c.sessions i = some x)
    (h : check x c.committed) : Passed (c :: past) i check :=
  ⟨[], c, past, x, rfl, nofun, hx, h⟩

omit [Writable σ ω] in
theorem Passed.later {c : System σ ω κ τ ε ρ} {i : Nat}
    {check : Session σ ω κ τ ε ρ → σ → Prop} (h : Passed past i check)
    (hc : (c.sessions i).isSome) : Passed (c :: past) i check := by
  obtain ⟨later, d, earlier, x, rfl, hlater, hx, hcheck⟩ := h
  exact ⟨c :: later, d, earlier, x, rfl, List.forall_mem_cons.mpr ⟨hc, hlater⟩, hx, hcheck⟩

omit [Writable σ ω] in
theorem Passed.mono {i : Nat} {check test : Session σ ω κ τ ε ρ → σ → Prop}
    (h : Passed past i check) (imp : ∀ x t, check x t → test x t) : Passed past i test := by
  obtain ⟨later, d, earlier, x, hpast, hlater, hx, hcheck⟩ := h
  exact ⟨later, d, earlier, x, hpast, hlater, hx, imp _ _ hcheck⟩

end System

namespace Tx
variable {σ ω κ τ ε α β : Type} [Writable σ ω]

/-- Whatever the program returns is plain, or was `seen` by the statement it was about to run. -/
def Sees (plain : α → Prop) (seen : α → Session σ ω κ τ ε α → σ → Prop) :
    Tx σ ω κ τ ε α → List ω → List κ → Prop
  | .done a, _, _ => plain a
  | .fail _, _, _ => True
  | .stmt l x w n, ws, ks => ∀ t,
      (∀ a, (n (applyAll ws t)).Gives (fun _ => True) a → seen a ⟨.stmt l x w n, ws, ks⟩ t) ∨
      Sees plain seen (n (applyAll ws t)) (ws ++ w (applyAll ws t)) (ks ++ l (applyAll ws t))

variable {plain : α → Prop} {seen : α → Session σ ω κ τ ε α → σ → Prop} {ws : List ω}
  {ks : List κ}

/-- A program with plain results has nothing to see. -/
theorem Sees.of_plain {p : Tx σ ω κ τ ε α} (h : ∀ a, p.Gives (fun _ => True) a → plain a) :
    p.Sees plain seen ws ks := by
  induction p generalizing ws ks with
  | done a => exact h a rfl
  | fail e => trivial
  | stmt l x w n ih => exact fun t => .inr (ih _ fun a ha => h a ⟨_, trivial, ha⟩)

theorem Sees.readOnly_bind {p : Tx σ ω κ τ ε β} {f : β → Tx σ ω κ τ ε α} (hp : p.ReadOnly)
    (h : ∀ b, (f b).Sees plain seen ws ks) : (p >>= f).Sees plain seen ws ks := by
  induction p with
  | done b => exact h b
  | fail e => trivial
  | stmt l x w n ih =>
    intro t
    obtain ⟨hl, hw, hn⟩ := hp (applyAll ws t)
    rw [hl, hw, List.append_nil, List.append_nil]
    exact .inr (ih _ hn)

theorem Sees.lock_bind {rows : σ → List κ} {f : σ → β} {k : β → Tx σ ω κ τ ε α}
    (h : ∀ t, (k (f (applyAll ws t))).Sees plain seen ws (ks ++ rows (applyAll ws t))) :
    (Tx.lock rows f >>= k).Sees plain seen ws ks := by
  intro t
  simpa using .inr (h t)

/-- The read is the moment. -/
theorem Sees.read_bind {f : σ → β} {k : β → Tx σ ω κ τ ε α}
    (h : ∀ t a, (k (f (applyAll ws t))).Gives (fun _ => True) a →
      seen a ⟨Tx.read f >>= k, ws, ks⟩ t) :
    (Tx.read f >>= k).Sees plain seen ws ks :=
  fun t => .inl (h t)

end Tx

namespace System
variable {σ ω κ τ ε ρ : Type} [Writable σ ω] {programs : Tx σ ω κ τ ε ρ → Prop}
  {meets : τ → Prop} {s : σ} {plain : ρ → Prop} {seen : ρ → Session σ ω κ τ ε ρ → σ → Prop}

/-- What is known of a session: it is still to see its result, or the moment has passed. -/
def Watched (plain : ρ → Prop) (seen : ρ → Session σ ω κ τ ε ρ → σ → Prop)
    (past : List (System σ ω κ τ ε ρ)) (i : Nat) (x : Session σ ω κ τ ε ρ) : Prop :=
  x.prog.Sees plain seen x.pending x.held ∨
    Passed past i fun y t => ∀ a, x.prog.Gives (fun _ => True) a → seen a y t

theorem Watched.later {past : List (System σ ω κ τ ε ρ)} {c : System σ ω κ τ ε ρ} {i : Nat}
    {x : Session σ ω κ τ ε ρ} (h : Watched plain seen past i x) (hc : c.sessions i = some x) :
    Watched plain seen (c :: past) i x :=
  h.imp_right fun h => h.later (by simp [hc])

/-- A statement of the session itself. -/
theorem Watched.statement {past : List (System σ ω κ τ ε ρ)} {c : System σ ω κ τ ε ρ} {i : Nat}
    {l : σ → List κ} {x : τ → σ → Prop} {w : σ → List ω} {n : σ → Tx σ ω κ τ ε ρ} {ws : List ω}
    {ks : List κ} (h : Watched plain seen past i ⟨.stmt l x w n, ws, ks⟩)
    (hc : c.sessions i = some ⟨.stmt l x w n, ws, ks⟩) :
    Watched plain seen (c :: past) i ⟨n (applyAll ws c.committed),
      ws ++ w (applyAll ws c.committed), ks ++ l (applyAll ws c.committed)⟩ := by
  rcases h with h | h
  · rcases h c.committed with hseen | hsees
    · exact .inr (.now hc hseen)
    · exact .inl hsees
  · right
    refine (h.later (by simp [hc])).mono fun y t hall a ha => hall a ?_
    exact ⟨_, trivial, ha⟩

theorem History.watched {c : System σ ω κ τ ε ρ} {past : List (System σ ω κ τ ε ρ)}
    (hp : ∀ p, programs p → p.Sees plain seen [] [])
    (h : History programs meets s (c :: past)) {i : Nat} {x : Session σ ω κ τ ε ρ}
    (hx : c.sessions i = some x) : Watched plain seen past i x := by
  induction past generalizing c i x with
  | nil =>
    cases h
    cases hx
  | cons d past ih =>
    obtain ⟨hd, hstep⟩ : History programs meets s (d :: past) ∧ Step programs meets d c := by
      cases h with
      | step h hstep => exact ⟨h, hstep⟩
    -- a session the step is not about stays as it was
    have hother : ∀ j y, j ≠ i → c.sessions = (d.put j y).sessions →
        Watched plain seen (d :: past) i x := by
      intro j y hne hc
      rw [hc, put_other _ (Ne.symm hne)] at hx
      exact (ih hd hx).later hx
    cases hstep with
    | begin j p hj hprog =>
      by_cases hne : j = i
      · subst hne
        rw [put_self] at hx
        cases hx
        exact .inl (hp p hprog)
      · exact hother j _ hne rfl
    | @statement j l y w n ws ks hj hfree hexp =>
      by_cases hne : j = i
      · subst hne
        rw [put_self] at hx
        cases hx
        exact (ih hd hj).statement hj
      · exact hother j _ hne rfl
    | commit j hj =>
      by_cases hne : j = i
      · subst hne
        rw [put_self] at hx
        cases hx
      · exact hother j none hne rfl
    | rollback j hj =>
      by_cases hne : j = i
      · subst hne
        rw [put_self] at hx
        cases hx
      · exact hother j none hne rfl

/-- A result that is about to be committed is plain, or was seen at a moment of its transaction. -/
theorem History.passed {c : System σ ω κ τ ε ρ} {past : List (System σ ω κ τ ε ρ)}
    (hp : ∀ p, programs p → p.Sees plain seen [] [])
    (h : History programs meets s (c :: past)) {i : Nat} {a : ρ} {ws : List ω} {ks : List κ}
    (hi : c.sessions i = some ⟨.done a, ws, ks⟩) : plain a ∨ Passed past i (seen a) :=
  (h.watched hp hi).imp_right fun hpassed => hpassed.mono fun _ _ hall => hall a rfl

end System

/-! ## Recording a schedule -/

namespace Board
variable {σ ω κ τ ε ρ : Type} [Writable σ ω] [DecidableEq κ]

/-- Follow a schedule and keep every board on the way, the latest first. -/
def record (past : List (Board σ ω κ τ ε ρ)) (b : Board σ ω κ τ ε ρ) :
    List (Move σ ω κ τ ε ρ) → Option (List (Board σ ω κ τ ε ρ))
  | [] => some (b :: past)
  | m :: ms => (b.play m).bind fun c => record (b :: past) c ms

theorem record_history {programs : Tx σ ω κ τ ε ρ → Prop} {s : σ} {b : Board σ ω κ τ ε ρ}
    {past all : List (Board σ ω κ τ ε ρ)} {ms : List (Move σ ω κ τ ε ρ)}
    (h : System.History programs (fun _ => False) s ((b :: past).map toSystem))
    (hp : ∀ p ∈ begun ms, programs p) (hrec : record past b ms = some all) :
    System.History programs (fun _ => False) s (all.map toSystem) := by
  induction ms generalizing b past with
  | nil =>
    cases hrec
    exact h
  | cons m ms ih =>
    obtain ⟨c, hc, hrest⟩ := Option.bind_eq_some_iff.mp hrec
    rw [begun_cons] at hp
    have hm : ∀ p ∈ begun [m], programs p := fun p hmem => hp p (List.mem_append_left _ hmem)
    have hms : ∀ p ∈ begun ms, programs p := fun p hmem => hp p (List.mem_append_right _ hmem)
    have hnext : System.History programs (fun _ => False) s ((c :: b :: past).map toSystem) :=
      .step h (play_step hm hc)
    exact ih hnext hms hrest

/-- What is recorded from an idle database is a history. -/
theorem record_idle {programs : Tx σ ω κ τ ε ρ → Prop} {s : σ} {n : Nat}
    {all : List (Board σ ω κ τ ε ρ)} {ms : List (Move σ ω κ τ ε ρ)}
    (hp : ∀ p ∈ begun ms, programs p) (h : record [] (idle n s) ms = some all) :
    System.History programs (fun _ => False) s (all.map toSystem) := by
  have hidle : System.History programs (fun _ => False) s ([idle n s].map toSystem) := by
    rw [List.map_cons, List.map_nil, toSystem_idle]
    exact .idle
  exact record_history hidle hp h

end Board

/-- To unpack a check of something recorded. -/
theorem exists_of_any {α : Type} {o : Option α} {p : α → Bool} (h : o.any p = true) :
    ∃ a, o = some a ∧ p a = true := by
  cases o with
  | none => cases h
  | some a => exact ⟨a, rfl, h⟩

end Pwos
