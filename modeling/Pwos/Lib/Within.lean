import Pwos.Lib.Tx

/-!
# Transactions of a part of a database

A transaction that knows some tables only, run over a database that has more: it sees and writes
its own tables, and locks their rows.
-/

namespace Pwos

/-- Where a database with its writes, rows and assumptions stands in a larger one. -/
structure Part (σ ω κ τ σ' ω' κ' τ' : Type) where
  get : σ' → σ
  write : ω → ω'
  row : κ → κ'
  kind : τ' → Option τ

namespace Tx
variable {σ ω κ τ σ' ω' κ' τ' ε α β : Type} (part : Part σ ω κ τ σ' ω' κ' τ')

def within : Tx σ ω κ τ ε α → Tx σ' ω' κ' τ' ε α
  | .done a => .done a
  | .fail e => .fail e
  | .stmt l x w n => .stmt (fun s => (l (part.get s)).map part.row)
      (fun a s => ∀ b ∈ part.kind a, x b (part.get s))
      (fun s => (w (part.get s)).map part.write) fun s => within (n (part.get s))

variable {part}

/-- It writes and locks what the transaction does, and nothing outside the part. -/
theorem Yields.within {R : α → List ω → List κ → Prop} {p : Tx σ ω κ τ ε α} {vs : List ω}
    {js : List κ} (h : p.Yields R vs js) : (p.within part).Yields
      (fun a ws ks => ∃ us is, ws = us.map part.write ∧ ks = is.map part.row ∧ R a us is)
      (vs.map part.write) (js.map part.row) := by
  induction p generalizing vs js with
  | done a => exact ⟨vs, js, rfl, rfl, h⟩
  | fail e => trivial
  | stmt l x w n ih =>
    intro s
    have hnext := ih _ (h (part.get s))
    rwa [List.map_append, List.map_append] at hnext

theorem ReadOnly.within {p : Tx σ ω κ τ ε α} (h : p.ReadOnly) : (p.within part).ReadOnly := by
  induction p with
  | done a => trivial
  | fail e => trivial
  | stmt l x w n ih =>
    intro s
    obtain ⟨hl, hw, hn⟩ := h (part.get s)
    exact ⟨by simp [hl], by simp [hw], ih _ hn⟩

end Tx

end Pwos
