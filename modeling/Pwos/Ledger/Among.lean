import Pwos.Ledger.CommandRuns
import Pwos.Ledger.Statements
import Pwos.Lib.Interleaving

/-!
# Postings among other transactions

What a posting comes to when others run beside it, for every promise under which entries stay:
a replay of an entry that is there, or a new entry under an id that stays its own.
-/

namespace Pwos

/-! ## What the writes add -/

/-- The writes add entries and snapshots and leave the installments, their settlements and the
vehicles alone. -/
structure Adds (ws : List Write) (es : List JournalEntry) (fs : List EntryFxSnapshot) : Prop where
  entries : ∀ db : Db, (applyAll ws db).journalEntries = db.journalEntries ++ es
  snapshots : ∀ db : Db, (applyAll ws db).entryFxSnapshots = db.entryFxSnapshots ++ fs
  installments : ∀ db : Db, (applyAll ws db).installments = db.installments
  settlements : ∀ db : Db, (applyAll ws db).settlements = db.settlements
  vehicles : ∀ db : Db, (applyAll ws db).vehicleAssets = db.vehicleAssets

namespace Adds
variable {ws vs : List Write} {es es' : List JournalEntry} {fs fs' : List EntryFxSnapshot}

theorem nil : Adds [] [] [] := ⟨by simp, by simp, by simp, by simp, by simp⟩

theorem append (h : Adds ws es fs) (h' : Adds vs es' fs') :
    Adds (ws ++ vs) (es ++ es') (fs ++ fs') where
  entries := by simp [h.entries, h'.entries]
  snapshots := by simp [h.snapshots, h'.snapshots]
  installments := by simp [h.installments, h'.installments]
  settlements := by simp [h.settlements, h'.settlements]
  vehicles := by simp [h.vehicles, h'.vehicles]

theorem entry (e : JournalEntry) : Adds [.insertEntry e] [e] [] :=
  ⟨fun _ => rfl, fun _ => (List.append_nil _).symm, fun _ => rfl, fun _ => rfl, fun _ => rfl⟩

theorem snapshot (f : EntryFxSnapshot) : Adds [.insertFxSnapshot f] [] [f] :=
  ⟨fun _ => (List.append_nil _).symm, fun _ => rfl, fun _ => rfl, fun _ => rfl, fun _ => rfl⟩

/-- Writes into other tables. -/
theorem quiet (h : ∀ w ∈ ws, w.AddsAccount ∨ w.OnLots ∨ (∃ ps, w = .insertPostings ps) ∨
    (∃ d, w = .settleDebt d) ∨ ∃ c e, w = .clearCheque c e) : Adds ws [] [] := by
  induction ws with
  | nil => exact .nil
  | cons w ws ih =>
    have hw : Adds [w] [] [] := by
      rcases h w (by simp) with ⟨a, rfl⟩ | hw | ⟨ps, rfl⟩ | ⟨d, rfl⟩ | ⟨c, e, rfl⟩
      · exact ⟨fun _ => (List.append_nil _).symm, fun _ => (List.append_nil _).symm,
          fun _ => rfl, fun _ => rfl, fun _ => rfl⟩
      · cases w <;> first
          | exact ⟨fun _ => (List.append_nil _).symm, fun _ => (List.append_nil _).symm,
              fun _ => rfl, fun _ => rfl, fun _ => rfl⟩
          | exact hw.elim
      · exact ⟨fun _ => (List.append_nil _).symm, fun _ => (List.append_nil _).symm,
          fun _ => rfl, fun _ => rfl, fun _ => rfl⟩
      · exact ⟨fun _ => (List.append_nil _).symm, fun _ => (List.append_nil _).symm,
          fun _ => rfl, fun _ => rfl, fun _ => rfl⟩
      · exact ⟨fun _ => (List.append_nil _).symm, fun _ => (List.append_nil _).symm,
          fun _ => rfl, fun _ => rfl, fun _ => rfl⟩
    exact hw.append (ih fun v hv => h v (by simp [hv]))

theorem accounts (h : ∀ w ∈ ws, w.AddsAccount) : Adds ws [] [] :=
  .quiet fun w hw => .inl (h w hw)

/-- An entry, its lines and its lots. -/
theorem posting {lots : List Write} (e : JournalEntry) (ps : List Posting)
    (h : ∀ w ∈ lots, w.OnLots) : Adds (.insertEntry e :: .insertPostings ps :: lots) [e] [] := by
  have hlines : Adds [.insertPostings ps] [] [] := .quiet (by simp)
  have hlots : Adds lots [] [] := .quiet fun w hw => .inr (.inl (h w hw))
  exact (Adds.entry e).append (hlines.append hlots)

end Adds

/-! ## The posting -/

/-- Entries stay, under their tenants and keys, and so does an unused id that is held. -/
structure Promise.KeepsEntries (P : Promise Db Row Assumption) : Prop where
  kept : ∀ {ks s t}, P.Rely ks s t → ∀ e ∈ s.journalEntries, ∃ f ∈ t.journalEntries,
    f.id = e.id ∧ f.userId = e.userId ∧ f.idempotencyKey = e.idempotencyKey
  unused : ∀ {ks s t i}, P.Rely ks s t → Row.entry i ∈ ks → (∀ e ∈ s.journalEntries, e.id ≠ i) →
    ∀ e ∈ t.journalEntries, e.id ≠ i

/-- At `t`, after the writes `vs` and with the rows `js` held, the result `r` with the writes
`ws` and the locks `ks` is that of a posting, or of a replay. -/
inductive PostEntryInput.Among (env : Env) (input : PostEntryInput) (vs : List Write)
    (js : List Row) (t : Db) : PostResult → List Write → List Row → Prop
  | replayed {e : JournalEntry} {k : String} (mem : e ∈ t.journalEntries)
    (key : trimmedKey input.idempotencyKey = some k) (has : e.idempotencyKey = some k) :
    Among env input vs js t ⟨e.id, true⟩ vs js
  | posted (userId : Option Uuid) (lots : List Write) (ks : List Row)
    (onLots : ∀ w ∈ lots, w.OnLots) (sub : js ⊆ ks) (held : Row.entry env.entryId ∈ ks)
    (unused : ∀ e ∈ t.journalEntries, e.id ≠ env.entryId) :
    Among env input vs js t ⟨env.entryId, false⟩
      (vs ++ .insertEntry (input.entryRow env.entryId userId) ::
        .insertPostings (input.postings.map (DraftPosting.row env.entryId)) :: lots) ks

section Post
variable {P : Promise Db Row Assumption} {env : Env} {input : PostEntryInput} {ws : List Write}
  {ks : List Row} {s : Db}

theorem writeEntry_among (hP : P.KeepsEntries) (priced : Option (List OpenLot))
    (userId : Option Uuid) {js : List Row} (hjs : js ⊆ ks)
    (hws : ∀ db : Db, (applyAll ws db).journalEntries = db.journalEntries) :
    P.Ok (fun _ vs ls t => input.Among env ws js t ⟨env.entryId, false⟩ vs ls)
      (writeEntry env priced input userId) ws ks s := by
  unfold writeEntry insertEntry
  refine .bind (.insert ?_)
  intro t _ _ hnew u _ htu
  rw [Db.EntryInsertable, hws] at hnew
  set key : List Row := .entry (input.entryRow env.entryId userId).id :: _
  refine .yields (writeLines_yields env priced input userId) ?_
  rintro _ _ ls v _ huv ⟨lots, rfl, hlots, -, -⟩
  have hheld : Row.entry env.entryId ∈ ks ++ key :=
    List.mem_append_right _ List.mem_cons_self
  have hunused := hP.unused huv hheld (hP.unused htu hheld hnew.1)
  have hwrites : ws ++ [Write.insertEntry (input.entryRow env.entryId userId)] ++ ([] ++
      .insertPostings (input.postings.map (DraftPosting.row env.entryId)) :: lots) =
      ws ++ .insertEntry (input.entryRow env.entryId userId) ::
        .insertPostings (input.postings.map (DraftPosting.row env.entryId)) :: lots := by simp
  rw [hwrites]
  refine .posted userId lots _ hlots ?_ (List.mem_append_left _ hheld) hunused
  exact List.Subset.trans hjs
    (List.Subset.trans (List.subset_append_left _ _) (List.subset_append_left _ _))

/-- Once the key is new. -/
theorem postFresh_among (hP : P.KeepsEntries) (priced : Option (List OpenLot))
    (userId : Option Uuid) (hws : ∀ db : Db, (applyAll ws db).journalEntries = db.journalEntries) :
    P.Ok (fun r vs js t => input.Among env ws ks t r vs js) (do
      lockAccounts (input.postings.map (·.accountId))
      Tx.when (input.preventOverdraft = true) (guardOverdraft userId input.postings)
      writeEntry env priced input userId
      pure ⟨env.entryId, false⟩ : Sql PostResult) ws ks s := by
  refine .bind (.yields (lockAccounts_yields _) ?_)
  rintro _ _ js t _ _ ⟨rfl, -, -⟩
  rw [List.append_nil]
  refine .bind (.of_readOnly (readOnly_when (readOnly_guardOverdraft _ _)) fun _ u _ _ => ?_)
  exact .map (writeEntry_among hP priced userId (List.subset_append_left _ _) hws)

theorem postEntryPriced_among (hP : P.KeepsEntries) (priced : Option (List OpenLot))
    (input : PostEntryInput)
    (hws : ∀ db : Db, (applyAll ws db).journalEntries = db.journalEntries) :
    P.Ok (fun r vs js t => input.Among env ws ks t r vs js)
      (postEntryPriced priced env input) ws ks s := by
  unfold postEntryPriced
  refine .bind (.of_readOnly (Tx.readOnly_ofExcept _) fun _ t₀ _ _ => ?_)
  refine .bind (.of_readOnly (readOnly_resolveServiceUserId _ _ _) fun userId t₁ _ _ => ?_)
  cases hkey : trimmedKey input.idempotencyKey with
  | none => exact postFresh_among hP priced userId hws
  | some k =>
    refine .bind (.bind (.read ?_))
    intro t _ _ u _ htu
    cases hfound : (applyAll ws t).findByIdempotencyKey userId k with
    | none => exact fun v _ _ => postFresh_among hP priced userId hws
    | some found =>
      have hmem : found ∈ t.journalEntries := hws t ▸ List.mem_of_find?_eq_some hfound
      have hhas : found.userId = userId ∧ found.idempotencyKey = some k := by
        simpa using List.find?_some hfound
      refine .bind (.require fun _ v _ huv => ?_)
      intro w _ hvw x _ hwx
      have hrely := P.trans (P.trans htu huv) (P.trans hvw hwx)
      obtain ⟨e, he, hid, -, hsame⟩ := hP.kept hrely found hmem
      rw [← hid]
      exact .replayed he hkey (hsame.trans hhas.2)

theorem postEntry_among (hP : P.KeepsEntries) (input : PostEntryInput)
    (hws : ∀ db : Db, (applyAll ws db).journalEntries = db.journalEntries) :
    P.Ok (fun r vs js t => input.Among env ws ks t r vs js) (postEntry env input) ws ks s :=
  postEntryPriced_among hP none input hws

end Post

end Pwos
