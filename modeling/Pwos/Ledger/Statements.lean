import Pwos.Ledger.Recorded

/-!
# The statements of a posting

What `postEntry` returns, writes and locks whatever its statements find, for the
transactions that run among others: the entry and its lines, then lots only, under the
locks of all its accounts; or nothing, for a replay.
-/

namespace Pwos

/-- A write into the tables of lots. -/
def Write.OnLots : Write → Prop
  | .insertLot _ | .setRemaining _ _ | .insertConsumption _ => True
  | _ => False

/-- From the writes `vs` and the locks `js`, the result `r` with the writes `ws` and the locks
`ks` is that of a posting, or of a replay. -/
inductive PostEntryInput.Ends (env : Env) (input : PostEntryInput) (vs : List Write)
    (js : List Row) : PostResult → List Write → List Row → Prop
  | replayed (id : Uuid) (key : input.idempotencyKey ≠ none) :
    Ends env input vs js ⟨id, true⟩ vs js
  | posted (userId : Option Uuid) (lots : List Write) (ks : List Row)
    (onLots : ∀ w ∈ lots, w.OnLots)
    (plain : input.lotList = [] → input.closeLot = none → lots = [])
    (held : js ⊆ ks) (accounts : ∀ p ∈ input.postings, Row.account p.accountId ∈ ks) :
    Ends env input vs js ⟨env.entryId, false⟩
      (vs ++ .insertEntry (input.entryRow env.entryId userId) ::
        .insertPostings (input.postings.map (DraftPosting.row env.entryId)) :: lots) ks

section Yields
variable {vs : List Write} {js : List Row}

theorem lockAccounts_yields (ids : List Uuid) : (lockAccounts ids).Yields
    (fun _ ws ks => ws = vs ∧ js ⊆ ks ∧ ∀ i ∈ ids, Row.account i ∈ ks) vs js := by
  have hmem : ∀ i, i ∈ ids ↔ i ∈ ids.dedup.insertionSort (· ≤ ·) := by simp
  unfold lockAccounts
  simp only [hmem]
  generalize ids.dedup.insertionSort (· ≤ ·) = is
  induction is generalizing js with
  | nil => exact ⟨rfl, List.Subset.refl _, by simp⟩
  | cons i is ih =>
    rw [Tx.each_cons]
    refine Tx.Yields.bind (R := fun _ ws ks => ws = vs ∧ ks = js ++ [Row.account i]) ?_ ?_
    · intro s
      exact Tx.Yields.require fun _ => ⟨List.append_nil _, rfl⟩
    · rintro _ ws ks ⟨rfl, rfl⟩
      refine ih.mono fun _ ws ks h => ?_
      obtain ⟨rfl, hsub, hall⟩ := h
      refine ⟨rfl, List.Subset.trans (List.subset_append_left _ _) hsub, ?_⟩
      intro j hj
      rcases List.mem_cons.mp hj with rfl | hj
      · exact hsub (by simp)
      · exact hall j hj

/-- Writes on lots are all that is added to `vs`, under no fewer locks than `js`. -/
def AddsOnLots (vs : List Write) (js : List Row) (ws : List Write) (ks : List Row) : Prop :=
  ∃ lots, ws = vs ++ lots ∧ (∀ w ∈ lots, w.OnLots) ∧ js ⊆ ks

theorem AddsOnLots.refl : AddsOnLots vs js vs js := ⟨[], by simp, by simp, List.Subset.refl _⟩

theorem AddsOnLots.trans {ws us : List Write} {ks ls : List Row} (h : AddsOnLots vs js ws ks)
    (h' : AddsOnLots ws ks us ls) : AddsOnLots vs js us ls := by
  obtain ⟨lots, rfl, hl, hs⟩ := h
  obtain ⟨lots', rfl, hl', hs'⟩ := h'
  refine ⟨lots ++ lots', by rw [List.append_assoc], ?_, List.Subset.trans hs hs'⟩
  intro w hw
  rcases List.mem_append.mp hw with hw | hw
  · exact hl w hw
  · exact hl' w hw

/-- A program all of whose writes are on lots. -/
theorem yields_onLots {α : Type} {p : Sql α} (hp : p.WritesOnly Write.OnLots) :
    p.Yields (fun _ ws ks => AddsOnLots vs js ws ks) vs js := by
  induction p generalizing vs js with
  | done a => exact .refl
  | fail e => trivial
  | stmt l x w n ih =>
    intro s
    refine (ih s (hp s).2).mono fun _ ws ks h => ?_
    have hstep : AddsOnLots vs js (vs ++ w s) (js ++ l s) :=
      ⟨w s, rfl, (hp s).1, List.subset_append_left _ _⟩
    exact hstep.trans h

end Yields

theorem writesOnly_each {α : Type} {W : Write → Prop} {f : α → Sql Unit} (xs : List α)
    (h : ∀ x, (f x).WritesOnly W) : (Tx.each xs f).WritesOnly W := by
  induction xs with
  | nil => trivial
  | cons x xs ih => exact (h x).bind fun _ => ih

theorem openLot_onLots (env : Env) (input : PostEntryInput) (userId : Option Uuid)
    (l : LotInput × Nat) : (openLot env input userId l).WritesOnly Write.OnLots := by
  unfold openLot
  refine (Tx.readOnly_require _ _).writesOnly.bind fun _ => ?_
  refine (Tx.readOnly_require _ _).writesOnly.bind fun _ => ?_
  unfold Tx.when insertLot
  split
  · intro s
    constructor
    · intro w hw
      simp only at hw
      split at hw
      · obtain rfl := List.mem_singleton.mp hw
        trivial
      · cases hw
    · simp only
      split <;> trivial
  · trivial

theorem consumeLots_onLots (env : Env) (priced : Option (List OpenLot)) (userId : Option Uuid)
    (c : CloseLot) : (consumeLots env priced userId c).WritesOnly Write.OnLots := by
  unfold consumeLots
  refine Tx.WritesOnly.bind (fun s => ⟨by simp, trivial⟩) fun _ => ?_
  refine (Tx.readOnly_readExpecting _ _).writesOnly.bind fun opened => ?_
  refine (Tx.readOnly_require _ _).writesOnly.bind fun _ => ?_
  refine writesOnly_each _ fun a => ?_
  unfold consumeLot updateRemaining
  refine Tx.WritesOnly.bind (fun s => ⟨?_, trivial⟩) fun _ s => ⟨?_, trivial⟩
  · intro w hw
    obtain rfl := List.mem_singleton.mp hw
    trivial
  · intro w hw
    obtain rfl := List.mem_singleton.mp hw
    trivial

/-- All that follows the entry: its lines, then lots. -/
theorem writeLines_yields (env : Env) (priced : Option (List OpenLot)) (input : PostEntryInput)
    (userId : Option Uuid) {vs : List Write} {js : List Row} : (do
      insertPostings (input.postings.map (DraftPosting.row env.entryId))
      Tx.each input.lotList.zipIdx (openLot env input userId)
      match input.closeLot with
      | none => pure ()
      | some c => Tx.when (0 < c.quantity) (consumeLots env priced userId c)
      : Sql Unit).Yields (fun _ ws ks => ∃ lots,
        ws = vs ++ .insertPostings (input.postings.map (DraftPosting.row env.entryId)) :: lots ∧
        (∀ w ∈ lots, w.OnLots) ∧ (input.lotList = [] → input.closeLot = none → lots = []) ∧
        js ⊆ ks) vs js := by
  have hlines : (insertPostings (input.postings.map (DraftPosting.row env.entryId))).Yields
      (fun _ ws ks => ws = vs ++ [Write.insertPostings
        (input.postings.map (DraftPosting.row env.entryId))] ∧ js ⊆ ks) vs js :=
    fun _ => ⟨rfl, List.subset_append_left _ _⟩
  refine hlines.bind ?_
  rintro _ _ ks ⟨rfl, hks⟩
  by_cases hplain : input.lotList = [] ∧ input.closeLot = none
  · rw [hplain.1, hplain.2]
    exact ⟨[], by simp, by simp, fun _ _ => rfl, hks⟩
  · have hlots : (do
        Tx.each input.lotList.zipIdx (openLot env input userId)
        match input.closeLot with
        | none => pure ()
        | some c => Tx.when (0 < c.quantity) (consumeLots env priced userId c)
        : Sql Unit).WritesOnly Write.OnLots := by
      refine (writesOnly_each _ fun l => openLot_onLots _ _ _ _).bind fun _ => ?_
      split
      · trivial
      · unfold Tx.when
        split
        · exact consumeLots_onLots _ _ _ _
        · trivial
    refine (yields_onLots hlots).mono ?_
    rintro _ _ ls ⟨lots, rfl, hl, hs⟩
    refine ⟨lots, by simp, hl, fun h₁ h₂ => absurd ⟨h₁, h₂⟩ hplain, List.Subset.trans hks hs⟩

/-- The lots of an entry, after it is inserted. -/
theorem writeEntry_yields (env : Env) (priced : Option (List OpenLot)) (input : PostEntryInput)
    (userId : Option Uuid) {vs : List Write} {js : List Row} :
    (writeEntry env priced input userId).Yields (fun _ ws ks => ∃ lots,
      ws = vs ++ Write.insertEntry (input.entryRow env.entryId userId) ::
        Write.insertPostings (input.postings.map (DraftPosting.row env.entryId)) :: lots ∧
      (∀ w ∈ lots, w.OnLots) ∧ (input.lotList = [] → input.closeLot = none → lots = []) ∧
      js ⊆ ks) vs js := by
  have hentry : (insertEntry (input.entryRow env.entryId userId)).Yields (fun _ ws ks =>
      ws = vs ++ [Write.insertEntry (input.entryRow env.entryId userId)] ∧ js ⊆ ks) vs js := by
    intro s
    simp only
    split
    · exact ⟨rfl, List.subset_append_left _ _⟩
    · trivial
  refine hentry.bind ?_
  rintro _ _ ks ⟨rfl, hks⟩
  refine (writeLines_yields env priced input userId).mono ?_
  rintro _ _ ls ⟨lots, rfl, hl, hplain, hs⟩
  exact ⟨lots, by simp, hl, hplain, List.Subset.trans hks hs⟩

/-- Once the key is new. -/
theorem postFresh_yields (env : Env) (priced : Option (List OpenLot)) (input : PostEntryInput)
    (userId : Option Uuid) {vs : List Write} {js : List Row} : (do
      lockAccounts (input.postings.map (·.accountId))
      Tx.when (input.preventOverdraft = true) (guardOverdraft userId input.postings)
      writeEntry env priced input userId
      pure ⟨env.entryId, false⟩ : Sql PostResult).Yields
        (fun r ws ks => input.Ends env vs js r ws ks ∧ r = ⟨env.entryId, false⟩) vs js := by
  refine (lockAccounts_yields _).bind ?_
  rintro _ ws ks ⟨rfl, hsub, hacc⟩
  refine (readOnly_when (readOnly_guardOverdraft _ _)).yields_bind fun _ => ?_
  refine (writeEntry_yields _ _ _ _).bind ?_
  rintro _ _ ls ⟨lots, rfl, hlots, hplain, hls⟩
  refine ⟨.posted userId lots ls hlots hplain (List.Subset.trans hsub hls) fun p hp => ?_, rfl⟩
  exact hls (hacc _ (List.mem_map_of_mem hp))

theorem postEntryPriced_yields (env : Env) (priced : Option (List OpenLot)) (input : PostEntryInput)
    {vs : List Write} {js : List Row} :
    (postEntryPriced priced env input).Yields (input.Ends env vs js) vs js := by
  unfold postEntryPriced
  refine (Tx.readOnly_ofExcept _).yields_bind fun _ => ?_
  refine (readOnly_resolveServiceUserId _ _ _).yields_bind fun userId => ?_
  cases hkey : trimmedKey input.idempotencyKey with
  | none =>
    have hnone : findReplay userId none (canonicalizePayload input) = .done none := rfl
    rw [hnone, Tx.done_bind]
    exact (postFresh_yields _ _ _ _).mono fun _ _ _ h => h.1
  | some k =>
    have hsome : input.idempotencyKey ≠ none := by
      intro h
      rw [h] at hkey
      cases hkey
    refine (readOnly_findReplay _ _ _).yields_bind fun replay => ?_
    cases replay with
    | some id => exact .replayed id hsome
    | none => exact (postFresh_yields _ _ _ _).mono fun _ _ _ h => h.1

theorem postEntry_yields (env : Env) (input : PostEntryInput) {vs : List Write} {js : List Row} :
    (postEntry env input).Yields (input.Ends env vs js) vs js :=
  postEntryPriced_yields env none input

/-- A write of a posting. -/
def Write.OfEntry (w : Write) : Prop :=
  (∃ e, w = .insertEntry e) ∨ (∃ ps, w = .insertPostings ps) ∨ w.OnLots

theorem writeEntry_writesOnly (env : Env) (priced : Option (List OpenLot)) (input : PostEntryInput)
    (userId : Option Uuid) : (writeEntry env priced input userId).WritesOnly Write.OfEntry := by
  have hlots : ∀ w : Write, w.OnLots → w.OfEntry := fun _ h => .inr (.inr h)
  unfold writeEntry
  refine (Tx.writesOnly_insert ?_).bind fun _ => ?_
  · intro s w hw
    exact .inl ⟨_, List.mem_singleton.mp hw⟩
  refine Tx.WritesOnly.bind (fun s => ⟨?_, trivial⟩) fun _ => ?_
  · intro w hw
    exact .inr (.inl ⟨_, List.mem_singleton.mp hw⟩)
  refine (writesOnly_each _ fun l => (openLot_onLots _ _ _ _).mono hlots).bind fun _ => ?_
  split
  · trivial
  · unfold Tx.when
    split
    · exact (consumeLots_onLots _ _ _ _).mono hlots
    · trivial

theorem postEntry_writesOnly (env : Env) (input : PostEntryInput) :
    (postEntry env input).WritesOnly Write.OfEntry := by
  have hlock : (lockAccounts (input.postings.map (·.accountId))).WritesOnly Write.OfEntry := by
    refine writesOnly_each _ fun a => Tx.WritesOnly.bind (fun s => ⟨by simp, trivial⟩) fun _ => ?_
    exact (Tx.readOnly_require _ _).writesOnly
  unfold postEntry postEntryPriced
  refine (Tx.readOnly_ofExcept _).writesOnly.bind fun _ => ?_
  refine (readOnly_resolveServiceUserId _ _ _).writesOnly.bind fun userId => ?_
  refine (readOnly_findReplay _ _ _).writesOnly.bind fun replay => ?_
  cases replay with
  | some id => trivial
  | none =>
    refine hlock.bind fun _ => ?_
    refine (readOnly_when (readOnly_guardOverdraft _ _)).writesOnly.bind fun _ => ?_
    exact (writeEntry_writesOnly _ _ _ _).bind fun _ => trivial

theorem postEntry_writes (env : Env) (input : PostEntryInput) :
    (postEntry env input).Yields (fun _ ws _ => ∀ w ∈ ws, w.OfEntry) [] [] :=
  (postEntry_writesOnly env input).yields (by simp)

end Pwos
