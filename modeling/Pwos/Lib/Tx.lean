import Mathlib.Data.List.Basic
import Mathlib.Tactic

/-!
# Database transactions as programs

`Tx` is a transaction: a finite tree of SQL statements. A statement sees a database
state (the committed state under the transaction's own writes), takes row locks,
issues writes and continues with what it read. Writes are data, applied to the
committed state when the transaction commits.

`Tx.run` executes a transaction alone. `Pwos.Lib.Interleaving` executes any number of
them statement by statement. Nothing here depends on a particular schema.
-/

namespace Pwos

/-- The effect of one write on a database. -/
class Writable (σ : Type) (ω : outParam Type) where
  apply : ω → σ → σ

section Writable
variable {σ ω : Type} [Writable σ ω]

/-- Writes take effect in the order they were issued. -/
def applyAll (ws : List ω) (s : σ) : σ := ws.foldl (fun t w => Writable.apply w t) s

@[simp] theorem applyAll_nil (s : σ) : applyAll ([] : List ω) s = s := rfl

@[simp] theorem applyAll_cons (w : ω) (ws : List ω) (s : σ) :
    applyAll (w :: ws) s = applyAll ws (Writable.apply w s) := rfl

@[simp] theorem applyAll_append (ws vs : List ω) (s : σ) :
    applyAll (ws ++ vs) s = applyAll vs (applyAll ws s) := by
  simp [applyAll, List.foldl_append]

/-- What each of the writes keeps. -/
theorem applyAll_keeps {β : Type} {f : σ → β} {ws : List ω}
    (h : ∀ w ∈ ws, ∀ s, f (Writable.apply w s) = f s) (s : σ) : f (applyAll ws s) = f s := by
  induction ws generalizing s with
  | nil => rfl
  | cons w ws ih =>
    rw [applyAll_cons, ih (fun v hv => h v (List.mem_cons_of_mem _ hv)), h w List.mem_cons_self]

end Writable

/-- A transaction over states `σ`, writes `ω`, lockable rows `κ` and errors `ε`.

`expects` is what the program takes for granted about the state when the statement
runs, one condition for each kind of assumption `τ`. No execution looks at it; only
conditions on runs do. -/
inductive Tx (σ ω κ τ ε : Type) (α : Type) : Type where
  | done (a : α)
  | fail (e : ε)
  | stmt (locks : σ → List κ) (expects : τ → σ → Prop) (writes : σ → List ω)
      (next : σ → Tx σ ω κ τ ε α)

namespace Tx
variable {σ ω κ τ ε α β γ : Type}

def bind : Tx σ ω κ τ ε α → (α → Tx σ ω κ τ ε β) → Tx σ ω κ τ ε β
  | .done a, f => f a
  | .fail e, _ => .fail e
  | .stmt l x w n, f => .stmt l x w (fun s => (n s).bind f)

instance : Monad (Tx σ ω κ τ ε) where
  pure := .done
  bind := bind

@[simp] theorem pure_eq (a : α) : (pure a : Tx σ ω κ τ ε α) = .done a := rfl
@[simp] theorem done_bind (a : α) (f : α → Tx σ ω κ τ ε β) : (Tx.done a >>= f) = f a := rfl
@[simp] theorem fail_bind (e : ε) (f : α → Tx σ ω κ τ ε β) :
    (Tx.fail e >>= f) = Tx.fail e := rfl
@[simp] theorem stmt_bind (l : σ → List κ) (x : τ → σ → Prop) (w : σ → List ω)
    (n : σ → Tx σ ω κ τ ε α) (f : α → Tx σ ω κ τ ε β) :
    (Tx.stmt l x w n >>= f) = Tx.stmt l x w (fun s => n s >>= f) := rfl

theorem bind_assoc (p : Tx σ ω κ τ ε α) (f : α → Tx σ ω κ τ ε β) (g : β → Tx σ ω κ τ ε γ) :
    (p >>= f >>= g) = (p >>= fun a => f a >>= g) := by
  induction p with
  | done a => rfl
  | fail e => rfl
  | stmt l x w n ih => simp only [stmt_bind, ih]

/-- A statement that only reads. -/
def read (f : σ → α) : Tx σ ω κ τ ε α :=
  .stmt (fun _ => []) (fun _ _ => True) (fun _ => []) (fun s => .done (f s))

/-- `SELECT … FOR UPDATE`: lock the selected rows, return what was selected. -/
def lock (rows : σ → List κ) (f : σ → α) : Tx σ ω κ τ ε α :=
  .stmt rows (fun _ _ => True) (fun _ => []) (fun s => .done (f s))

/-- `INSERT`, `UPDATE` or `DELETE`: lock the rows, write. -/
def write (rows : σ → List κ) (ws : σ → List ω) : Tx σ ω κ τ ε Unit :=
  .stmt rows (fun _ _ => True) ws (fun _ => .done ())

/-- A read that takes something for granted. -/
def readExpecting (expects : τ → σ → Prop) (f : σ → α) : Tx σ ω κ τ ε α :=
  .stmt (fun _ => []) expects (fun _ => []) (fun s => .done (f s))

/-- A write computed from an earlier read of the rows it overwrites. -/
def writeExpecting (rows : σ → List κ) (expects : τ → σ → Prop) (ws : σ → List ω) :
    Tx σ ω κ τ ε Unit :=
  .stmt rows expects ws (fun _ => .done ())

/-- Go on only if the condition holds. -/
def require (c : Prop) [Decidable c] (e : ε) : Tx σ ω κ τ ε Unit :=
  if c then .done () else .fail e

/-- The outcome of a computation that touches no database. -/
def ofExcept : Except ε α → Tx σ ω κ τ ε α
  | .ok a => .done a
  | .error e => .fail e

/-- `INSERT` under the constraints of the table: lock the keys, check, write. -/
def insert (rows : σ → List κ) (ok : σ → Prop) [DecidablePred ok] (ws : σ → List ω) (e : ε) :
    Tx σ ω κ τ ε Unit :=
  .stmt rows (fun _ _ => True) (fun s => if ok s then ws s else [])
    (fun s => if ok s then .done () else .fail e)

/-- `try … catch`: the error becomes a value. -/
def attempt : Tx σ ω κ τ ε α → Tx σ ω κ τ ε (Except ε α)
  | .done a => .done (.ok a)
  | .fail e => .done (.error e)
  | .stmt l x w n => .stmt l x w fun s => (n s).attempt

/-- Run a command under a condition. -/
def when (c : Prop) [Decidable c] (p : Tx σ ω κ τ ε Unit) : Tx σ ω κ τ ε Unit :=
  if c then p else .done ()

/-- Run a command for each element, in order. -/
def each (xs : List α) (f : α → Tx σ ω κ τ ε Unit) : Tx σ ω κ τ ε Unit :=
  match xs with
  | [] => .done ()
  | x :: xs => do f x; each xs f

@[simp] theorem each_nil (f : α → Tx σ ω κ τ ε Unit) : each [] f = .done () := rfl
@[simp] theorem each_cons (x : α) (xs : List α) (f : α → Tx σ ω κ τ ε Unit) :
    each (x :: xs) f = (f x >>= fun _ => each xs f) := rfl

/-! ## A transaction alone -/

section Run
variable [Writable σ ω]

/-- Execute with nobody else in the database. An error leaves no state behind:
the transaction is rolled back. -/
def run : Tx σ ω κ τ ε α → σ → Except ε (α × σ)
  | .done a, s => .ok (a, s)
  | .fail e, _ => .error e
  | .stmt _ _ w n, s => (n s).run (applyAll (w s) s)

@[simp] theorem run_done (a : α) (s : σ) : (Tx.done a : Tx σ ω κ τ ε α).run s = .ok (a, s) := rfl
@[simp] theorem run_fail (e : ε) (s : σ) : (Tx.fail e : Tx σ ω κ τ ε α).run s = .error e := rfl
@[simp] theorem run_stmt (l : σ → List κ) (x : τ → σ → Prop) (w : σ → List ω)
    (n : σ → Tx σ ω κ τ ε α) (s : σ) :
    (Tx.stmt l x w n).run s = (n s).run (applyAll (w s) s) := rfl

theorem run_bind (p : Tx σ ω κ τ ε α) (f : α → Tx σ ω κ τ ε β) (s : σ) :
    (p >>= f).run s = match p.run s with
      | .ok (a, t) => (f a).run t
      | .error e => .error e := by
  induction p generalizing s with
  | done a => rfl
  | fail e => rfl
  | stmt l x w n ih => simpa using ih s (applyAll (w s) s)

/-- A successful sequence: the first part succeeds, the second from where it ended. -/
theorem run_bind_ok {p : Tx σ ω κ τ ε α} {f : α → Tx σ ω κ τ ε β} {s u : σ} {b : β} :
    (p >>= f).run s = .ok (b, u) ↔
      ∃ a t, p.run s = .ok (a, t) ∧ (f a).run t = .ok (b, u) := by
  rw [run_bind]
  cases h : p.run s with
  | error e => simp
  | ok r => obtain ⟨a, t⟩ := r; simp

theorem run_bind_of_ok {p : Tx σ ω κ τ ε α} {f : α → Tx σ ω κ τ ε β} {s t : σ} {a : α}
    (h : p.run s = .ok (a, t)) : (p >>= f).run s = (f a).run t := by
  rw [run_bind, h]

theorem run_bind_of_error {p : Tx σ ω κ τ ε α} {f : α → Tx σ ω κ τ ε β} {s : σ} {e : ε}
    (h : p.run s = .error e) : (p >>= f).run s = .error e := by
  rw [run_bind, h]

@[simp] theorem run_read (f : σ → α) (s : σ) :
    (read f : Tx σ ω κ τ ε α).run s = .ok (f s, s) := rfl
@[simp] theorem run_readExpecting (x : τ → σ → Prop) (f : σ → α) (s : σ) :
    (readExpecting x f : Tx σ ω κ τ ε α).run s = .ok (f s, s) := rfl
@[simp] theorem run_require (c : Prop) [Decidable c] (e : ε) (s : σ) :
    (require c e : Tx σ ω κ τ ε Unit).run s = if c then .ok ((), s) else .error e := by
  unfold require; split <;> rfl
@[simp] theorem run_ofExcept (r : Except ε α) (s : σ) :
    (ofExcept r : Tx σ ω κ τ ε α).run s = r.map (fun a => (a, s)) := by cases r <;> rfl
@[simp] theorem run_insert (rows : σ → List κ) (ok : σ → Prop) [DecidablePred ok]
    (ws : σ → List ω) (e : ε) (s : σ) :
    (insert rows ok ws e : Tx σ ω κ τ ε Unit).run s =
      if ok s then .ok ((), applyAll (ws s) s) else .error e := by
  unfold insert; rw [run_stmt]; split <;> rfl
@[simp] theorem run_lock (rows : σ → List κ) (f : σ → α) (s : σ) :
    (lock rows f : Tx σ ω κ τ ε α).run s = .ok (f s, s) := rfl
@[simp] theorem run_write (rows : σ → List κ) (ws : σ → List ω) (s : σ) :
    (write rows ws : Tx σ ω κ τ ε Unit).run s = .ok ((), applyAll (ws s) s) := rfl
@[simp] theorem run_writeExpecting (rows : σ → List κ) (x : τ → σ → Prop) (ws : σ → List ω) (s : σ) :
    (writeExpecting rows x ws : Tx σ ω κ τ ε Unit).run s = .ok ((), applyAll (ws s) s) := rfl

theorem run_ofExcept_ok {r : Except ε α} {s t : σ} {a : α} :
    (ofExcept r : Tx σ ω κ τ ε α).run s = .ok (a, t) ↔ r = .ok a ∧ t = s := by
  cases r with
  | error e => simp [Except.map]
  | ok b => simp [Except.map, eq_comm]

/-! A first step that cannot fail, or fails by its own check alone. -/

@[simp] theorem run_read_bind (f : σ → α) (k : α → Tx σ ω κ τ ε β) (s : σ) :
    (read f >>= k).run s = (k (f s)).run s := rfl
@[simp] theorem run_readExpecting_bind (x : τ → σ → Prop) (f : σ → α) (k : α → Tx σ ω κ τ ε β)
    (s : σ) : (readExpecting x f >>= k).run s = (k (f s)).run s := rfl
@[simp] theorem run_lock_bind (rows : σ → List κ) (f : σ → α) (k : α → Tx σ ω κ τ ε β) (s : σ) :
    (lock rows f >>= k).run s = (k (f s)).run s := rfl
@[simp] theorem run_write_bind (rows : σ → List κ) (ws : σ → List ω) (k : Unit → Tx σ ω κ τ ε β)
    (s : σ) : (write rows ws >>= k).run s = (k ()).run (applyAll (ws s) s) := rfl
@[simp] theorem run_require_bind (c : Prop) [Decidable c] (e : ε) (k : Unit → Tx σ ω κ τ ε β)
    (s : σ) : (require c e >>= k).run s = if c then (k ()).run s else .error e := by
  unfold require; split <;> rfl
@[simp] theorem run_insert_bind (rows : σ → List κ) (ok : σ → Prop) [DecidablePred ok]
    (ws : σ → List ω) (e : ε) (k : Unit → Tx σ ω κ τ ε β) (s : σ) :
    (insert rows ok ws e >>= k).run s =
      if ok s then (k ()).run (applyAll (ws s) s) else .error e := by
  unfold insert; rw [stmt_bind, run_stmt]; split <;> rfl

/-- The database after the transaction was tried: unchanged when it failed. -/
def exec (p : Tx σ ω κ τ ε α) (s : σ) : σ :=
  match p.run s with
  | .ok (_, t) => t
  | .error _ => s

theorem exec_of_ok {p : Tx σ ω κ τ ε α} {s t : σ} {a : α} (h : p.run s = .ok (a, t)) :
    p.exec s = t := by simp [exec, h]

theorem exec_of_error {p : Tx σ ω κ τ ε α} {s : σ} {e : ε} (h : p.run s = .error e) :
    p.exec s = s := by simp [exec, h]

/-- The transaction was refused. -/
def Refused (p : Tx σ ω κ τ ε α) (s : σ) : Prop := ∃ e, p.run s = .error e

theorem Refused.exec {p : Tx σ ω κ τ ε α} {s : σ} (h : p.Refused s) : p.exec s = s := by
  obtain ⟨e, h⟩ := h
  exact exec_of_error h

theorem ok_or_refused (p : Tx σ ω κ τ ε α) (s : σ) :
    (∃ a t, p.run s = .ok (a, t)) ∨ p.Refused s := by
  cases h : p.run s with
  | ok r => exact .inl ⟨r.1, r.2, rfl⟩
  | error e => exact .inr ⟨e, h⟩

/-- `each` keeps an invariant that every round keeps. -/
theorem each_keeps {I : σ → Prop} {xs : List α} {f : α → Tx σ ω κ τ ε Unit}
    (step : ∀ x ∈ xs, ∀ s t, I s → (f x).run s = .ok ((), t) → I t) {s t : σ} (hs : I s)
    (h : (each xs f).run s = .ok ((), t)) : I t := by
  induction xs generalizing s with
  | nil => simp at h; exact h ▸ hs
  | cons x xs ih =>
    obtain ⟨_, u, hu, ht⟩ := run_bind_ok.mp h
    exact ih (fun y hy => step y (by simp [hy])) (step x (by simp) s u hs hu) ht

end Run

/-! ## How a transaction can fail -/

section Fails
variable {E : ε → Prop}

/-- The error, if the transaction is refused. -/
def refusal [Writable σ ω] (p : Tx σ ω κ τ ε α) (s : σ) : Option ε :=
  match p.run s with
  | .ok _ => none
  | .error e => some e

theorem refusal_eq_some [Writable σ ω] {p : Tx σ ω κ τ ε α} {s : σ} {e : ε} :
    p.refusal s = some e ↔ p.run s = .error e := by
  unfold refusal
  cases p.run s <;> simp

instance [Writable σ ω] (p : Tx σ ω κ τ ε α) (s : σ) : Decidable (p.Refused s) :=
  match h : p.run s with
  | .ok _ => isFalse fun ⟨_, he⟩ => by rw [h] at he; cases he
  | .error e => isTrue ⟨e, h⟩

/-- Every error of the program satisfies `E`. -/
def FailsWith (E : ε → Prop) : Tx σ ω κ τ ε α → Prop
  | .done _ => True
  | .fail e => E e
  | .stmt _ _ _ n => ∀ s, (n s).FailsWith E

theorem FailsWith.error [Writable σ ω] {p : Tx σ ω κ τ ε α} (h : p.FailsWith E) {s : σ} {e : ε}
    (he : p.run s = .error e) : E e := by
  induction p generalizing s with
  | done a => cases he
  | fail e' => cases he; exact h
  | stmt l x w n ih => exact ih _ (h s) he

theorem FailsWith.bind {p : Tx σ ω κ τ ε α} {f : α → Tx σ ω κ τ ε β} (hp : p.FailsWith E)
    (hf : ∀ a, (f a).FailsWith E) : (p >>= f).FailsWith E := by
  induction p with
  | done a => exact hf a
  | fail e => exact hp
  | stmt l x w n ih => exact fun s => ih s (hp s)

theorem FailsWith.each {xs : List α} {f : α → Tx σ ω κ τ ε Unit} (h : ∀ x, (f x).FailsWith E) :
    (Tx.each xs f).FailsWith E := by
  induction xs with
  | nil => trivial
  | cons x xs ih => exact (h x).bind fun _ => ih

theorem FailsWith.require {c : Prop} [Decidable c] {e : ε} (h : E e) :
    (Tx.require c e : Tx σ ω κ τ ε Unit).FailsWith E := by
  unfold Tx.require
  split
  · trivial
  · exact h

theorem FailsWith.insert {rows : σ → List κ} {ok : σ → Prop} [DecidablePred ok]
    {ws : σ → List ω} {e : ε} (h : E e) :
    (Tx.insert rows ok ws e : Tx σ ω κ τ ε Unit).FailsWith E := by
  intro s
  simp only
  split
  · trivial
  · exact h

theorem FailsWith.when {c : Prop} [Decidable c] {p : Tx σ ω κ τ ε Unit} (h : p.FailsWith E) :
    (Tx.when c p).FailsWith E := by
  unfold Tx.when
  split
  · exact h
  · trivial

end Fails

/-! ## What a program returns, writes and locks -/

section Yields
variable {R : α → List ω → List κ → Prop} {vs : List ω} {js : List κ}

/-- Whatever its statements find, the program ends with a result, writes and locks related by
`R`. Before it, `vs` has been written and `js` locked. -/
def Yields (R : α → List ω → List κ → Prop) : Tx σ ω κ τ ε α → List ω → List κ → Prop
  | .done a, vs, js => R a vs js
  | .fail _, _, _ => True
  | .stmt l _ w n, vs, js => ∀ s, (n s).Yields R (vs ++ w s) (js ++ l s)

theorem Yields.bind {S : β → List ω → List κ → Prop} {p : Tx σ ω κ τ ε α}
    {f : α → Tx σ ω κ τ ε β} (hp : p.Yields R vs js)
    (hf : ∀ a ws ks, R a ws ks → (f a).Yields S ws ks) : (p >>= f).Yields S vs js := by
  induction p generalizing vs js with
  | done a => exact hf a vs js hp
  | fail e => trivial
  | stmt l x w n ih => exact fun s => ih s (hp s)

theorem Yields.mono {S : α → List ω → List κ → Prop} {p : Tx σ ω κ τ ε α} (hp : p.Yields R vs js)
    (imp : ∀ a ws ks, R a ws ks → S a ws ks) : p.Yields S vs js := by
  induction p generalizing vs js with
  | done a => exact imp a vs js hp
  | fail e => trivial
  | stmt l x w n ih => exact fun s => ih s (hp s)

/-- Steps of a loop that each keep `R`. -/
theorem Yields.each {R : List ω → List κ → Prop} {xs : List α} {f : α → Tx σ ω κ τ ε Unit}
    (h : R vs js)
    (step : ∀ x ∈ xs, ∀ ws ks, R ws ks → (f x).Yields (fun _ ws ks => R ws ks) ws ks) :
    (Tx.each xs f).Yields (fun _ ws ks => R ws ks) vs js := by
  induction xs generalizing vs js with
  | nil => exact h
  | cons x xs ih =>
    exact (step x (by simp) vs js h).bind fun _ ws ks hr =>
      ih hr fun y hy => step y (by simp [hy])

/-- A successful run has made such writes. -/
theorem Yields.run_ok [Writable σ ω] {p : Tx σ ω κ τ ε α} (hp : p.Yields R vs js) {s t : σ} {a : α}
    (h : p.run (applyAll vs s) = .ok (a, t)) : ∃ ws ks, R a ws ks ∧ t = applyAll ws s := by
  induction p generalizing vs js with
  | done b => cases h; exact ⟨vs, js, hp, rfl⟩
  | fail e => cases h
  | stmt l x w n ih =>
    refine ih _ (hp (applyAll vs s)) ?_
    rw [applyAll_append]
    exact h

theorem Yields.read {f : σ → α} (h : ∀ s, R (f s) vs js) :
    (Tx.read f : Tx σ ω κ τ ε α).Yields R vs js := by
  intro s
  simpa [Yields] using h s

theorem Yields.require {c : Prop} [Decidable c] {e : ε} {R : Unit → List ω → List κ → Prop}
    (h : c → R () vs js) : (Tx.require c e : Tx σ ω κ τ ε Unit).Yields R vs js := by
  unfold Tx.require
  split
  · exact h ‹_›
  · trivial

theorem Yields.ofExcept {r : Except ε α} (h : ∀ a, r = .ok a → R a vs js) :
    (Tx.ofExcept r : Tx σ ω κ τ ε α).Yields R vs js := by
  cases r with
  | ok a => exact h a rfl
  | error e => trivial

end Yields

/-! ## What a program may write -/

section WritesOnly
variable {W : ω → Prop}

/-- Every write of the program satisfies `W`. -/
def WritesOnly (W : ω → Prop) : Tx σ ω κ τ ε α → Prop
  | .done _ => True
  | .fail _ => True
  | .stmt _ _ w n => ∀ s, (∀ v ∈ w s, W v) ∧ (n s).WritesOnly W

theorem WritesOnly.bind {p : Tx σ ω κ τ ε α} {f : α → Tx σ ω κ τ ε β} (hp : p.WritesOnly W)
    (hf : ∀ a, (f a).WritesOnly W) : (p >>= f).WritesOnly W := by
  induction p with
  | done a => exact hf a
  | fail e => trivial
  | stmt l x w n ih => exact fun s => ⟨(hp s).1, ih s (hp s).2⟩

theorem WritesOnly.mono {V : ω → Prop} {p : Tx σ ω κ τ ε α} (hp : p.WritesOnly W)
    (imp : ∀ w, W w → V w) : p.WritesOnly V := by
  induction p with
  | done a => trivial
  | fail e => trivial
  | stmt l x w n ih => exact fun s => ⟨fun v hv => imp v ((hp s).1 v hv), ih s (hp s).2⟩

theorem writesOnly_insert {rows : σ → List κ} {ok : σ → Prop} [DecidablePred ok] {ws : σ → List ω}
    {e : ε} (h : ∀ s, ∀ w ∈ ws s, W w) :
    (Tx.insert rows ok ws e : Tx σ ω κ τ ε Unit).WritesOnly W := by
  intro s
  constructor
  · intro w hw
    simp only at hw
    split at hw
    · exact h s w hw
    · cases hw
  · simp only
    split <;> trivial

/-- A successful run has applied writes of that kind. -/
theorem WritesOnly.run_ok [Writable σ ω] {p : Tx σ ω κ τ ε α} (hp : p.WritesOnly W) {s t : σ}
    {a : α} (h : p.run s = .ok (a, t)) : ∃ ws : List ω, (∀ w ∈ ws, W w) ∧ t = applyAll ws s := by
  induction p generalizing s with
  | done b => cases h; exact ⟨[], by simp, rfl⟩
  | fail e => cases h
  | stmt l x w n ih =>
    obtain ⟨ws, hws, rfl⟩ := ih s (hp s).2 h
    refine ⟨w s ++ ws, ?_, by rw [applyAll_append]⟩
    intro v hv
    rcases List.mem_append.mp hv with hv | hv
    · exact (hp s).1 v hv
    · exact hws v hv

/-- Whatever is locked. -/
theorem WritesOnly.yields {p : Tx σ ω κ τ ε α} (hp : p.WritesOnly W) {vs : List ω} {js : List κ}
    (h : ∀ v ∈ vs, W v) : p.Yields (fun _ ws _ => ∀ w ∈ ws, W w) vs js := by
  induction p generalizing vs js with
  | done a => exact h
  | fail e => trivial
  | stmt l x w n ih =>
    refine fun s => ih s (hp s).2 fun v hv => ?_
    rcases List.mem_append.mp hv with hv | hv
    · exact h v hv
    · exact (hp s).1 v hv

/-- After other writes. -/
theorem WritesOnly.yields_append {p : Tx σ ω κ τ ε α} (hp : p.WritesOnly W) {vs : List ω}
    {js : List κ} :
    p.Yields (fun _ ws _ => ∃ us, ws = vs ++ us ∧ ∀ w ∈ us, W w) vs js := by
  induction p generalizing vs js with
  | done a => exact ⟨[], by simp, by simp⟩
  | fail e => trivial
  | stmt l x w n ih =>
    intro s
    refine (ih s (hp s).2).mono ?_
    rintro _ _ _ ⟨us, rfl, hus⟩
    refine ⟨w s ++ us, by simp, fun v hv => ?_⟩
    rcases List.mem_append.mp hv with hv | hv
    · exact (hp s).1 v hv
    · exact hus v hv

end WritesOnly

/-! ## Programs that leave the database alone -/

/-- The program takes no lock and writes nothing. -/
def ReadOnly : Tx σ ω κ τ ε α → Prop
  | .done _ => True
  | .fail _ => True
  | .stmt l _ w n => ∀ s, l s = [] ∧ w s = [] ∧ (n s).ReadOnly

@[simp] theorem readOnly_done (a : α) : (Tx.done a : Tx σ ω κ τ ε α).ReadOnly := trivial
@[simp] theorem readOnly_fail (e : ε) : (Tx.fail e : Tx σ ω κ τ ε α).ReadOnly := trivial
@[simp] theorem readOnly_read (f : σ → α) : (read f : Tx σ ω κ τ ε α).ReadOnly :=
  fun _ => ⟨rfl, rfl, trivial⟩

@[simp] theorem readOnly_require (c : Prop) [Decidable c] (e : ε) :
    (require c e : Tx σ ω κ τ ε Unit).ReadOnly := by
  unfold require; split <;> trivial

@[simp] theorem readOnly_ofExcept (r : Except ε α) :
    (ofExcept r : Tx σ ω κ τ ε α).ReadOnly := by cases r <;> trivial

@[simp] theorem readOnly_readExpecting (x : τ → σ → Prop) (f : σ → α) :
    (readExpecting x f : Tx σ ω κ τ ε α).ReadOnly := fun _ => ⟨rfl, rfl, trivial⟩

theorem ReadOnly.bind {p : Tx σ ω κ τ ε α} {f : α → Tx σ ω κ τ ε β} (hp : p.ReadOnly)
    (hf : ∀ a, (f a).ReadOnly) : (p >>= f).ReadOnly := by
  induction p with
  | done a => exact hf a
  | fail e => trivial
  | stmt l x w n ih => exact fun s => ⟨(hp s).1, (hp s).2.1, ih s (hp s).2.2⟩

theorem ReadOnly.attempt {p : Tx σ ω κ τ ε α} (hp : p.ReadOnly) : p.attempt.ReadOnly := by
  induction p with
  | done a => trivial
  | fail e => trivial
  | stmt l x w n ih => exact fun s => ⟨(hp s).1, (hp s).2.1, ih s (hp s).2.2⟩

theorem ReadOnly.writesOnly {W : ω → Prop} {p : Tx σ ω κ τ ε α} (hp : p.ReadOnly) :
    p.WritesOnly W := by
  induction p with
  | done a => trivial
  | fail e => trivial
  | stmt l x w n ih =>
    intro s
    obtain ⟨_, hw, hn⟩ := hp s
    exact ⟨by simp [hw], ih s hn⟩

/-- A part that only reads may return anything, and that is all. -/
theorem ReadOnly.yields_bind {R : β → List ω → List κ → Prop} {p : Tx σ ω κ τ ε α}
    {f : α → Tx σ ω κ τ ε β} (hp : p.ReadOnly) {vs : List ω} {js : List κ}
    (h : ∀ a, (f a).Yields R vs js) : (p >>= f).Yields R vs js := by
  induction p with
  | done a => exact h a
  | fail e => trivial
  | stmt l x w n ih =>
    intro s
    obtain ⟨hl, hw, hn⟩ := hp s
    rw [hl, hw, List.append_nil, List.append_nil]
    exact ih s hn

theorem ReadOnly.run_state [Writable σ ω] {p : Tx σ ω κ τ ε α} (hp : p.ReadOnly) {s t : σ} {a : α}
    (h : p.run s = .ok (a, t)) : t = s := by
  induction p with
  | done b => simp at h; exact h.2.symm
  | fail e => simp at h
  | stmt l x w n ih =>
    obtain ⟨_, hw, hn⟩ := hp s
    rw [run_stmt, hw] at h
    exact ih s hn h

/-- What a program that only reads returns. -/
def answer [Writable σ ω] (p : Tx σ ω κ τ ε α) (s : σ) : Except ε α := (p.run s).map Prod.fst

theorem ReadOnly.run_eq [Writable σ ω] {p : Tx σ ω κ τ ε α} (hp : p.ReadOnly) (s : σ) :
    p.run s = (p.answer s).map (·, s) := by
  unfold answer
  cases h : p.run s with
  | error e => rfl
  | ok r => obtain ⟨a, t⟩ := r; rw [hp.run_state h]; rfl

theorem ReadOnly.run_ok [Writable σ ω] {p : Tx σ ω κ τ ε α} (hp : p.ReadOnly) {s t : σ} {a : α} :
    p.run s = .ok (a, t) ↔ p.answer s = .ok a ∧ t = s := by
  rw [hp.run_eq]
  cases p.answer s with
  | error e => simp [Except.map]
  | ok b => simp [Except.map, eq_comm]

/-- After a part that only reads, the rest runs from the same state. -/
theorem ReadOnly.run_bind_ok [Writable σ ω] {p : Tx σ ω κ τ ε α} {f : α → Tx σ ω κ τ ε β}
    (hp : p.ReadOnly) {s t : σ} {b : β} (h : (p >>= f).run s = .ok (b, t)) :
    ∃ a, (f a).run s = .ok (b, t) := by
  obtain ⟨a, u, hu, hb⟩ := Tx.run_bind_ok.mp h
  obtain rfl := hp.run_state hu
  exact ⟨a, hb⟩

/-- Two states give the same answer when what is read of them is the same. -/
theorem answer_bind_congr [Writable σ ω] {p : Tx σ ω κ τ ε α} {f : α → Tx σ ω κ τ ε β} {s t : σ}
    (hp : p.ReadOnly) (hsame : p.answer t = p.answer s)
    (hf : ∀ a, (f a).answer t = (f a).answer s) : (p >>= f).answer t = (p >>= f).answer s := by
  unfold answer
  rw [run_bind, run_bind, hp.run_eq, hp.run_eq, hsame]
  cases p.answer s with
  | error e => rfl
  | ok a => exact hf a

theorem answer_read_congr [Writable σ ω] {f : σ → α} {s t : σ} (h : f t = f s) :
    (read f : Tx σ ω κ τ ε α).answer t = (read f : Tx σ ω κ τ ε α).answer s := by
  simp [answer, h, Except.map]

end Tx

end Pwos
