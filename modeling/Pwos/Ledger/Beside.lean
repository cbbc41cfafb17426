import Pwos.Ledger.Among
import Pwos.Ledger.ReverseEntry

/-!
# Postings and reversals beside each other

Transactions that run at once each write under the id of an entry of their own. Whatever they
commit, the entries that are there stay, their lines have an entry, and an id that a transaction
holds is left to it.
-/

namespace Pwos

/-- Every line has its entry. -/
def Db.LinesOwned (db : Db) : Prop := ∀ p ∈ db.postings, ∃ e ∈ db.journalEntries, e.id = p.entryId

/-- A write of a transaction whose entry is `own`, and whose new accounts satisfy `adds`. -/
def Write.Beside (own : Uuid) (adds : Account → Prop) : Write → Prop
  | .insertEntry e => e.id = own
  | .insertPostings ps => ∀ p ∈ ps, p.entryId = own
  | .insertAccount a => adds a
  | .insertLot _ | .setRemaining _ _ | .insertConsumption _ | .deleteConsumptions _ | .setVoid _
  | .insertFxSnapshot _ | .insertTradingMark _ => True
  | _ => False

/-- The transaction holds the id of its entry, and writes no lines without it. -/
structure WritesBeside (own : Uuid) (adds : Account → Prop) (ws : List Write) (ks : List Row) :
    Prop where
  writes : ∀ w ∈ ws, w.Beside own adds
  entry : ∀ ps, .insertPostings ps ∈ ws → ∃ e, .insertEntry e ∈ ws
  held : ∀ e, .insertEntry e ∈ ws → Row.entry own ∈ ks

/-- What such writes make of a state. -/
structure After (own : Uuid) (adds : Account → Prop) (ws : List Write) (s t : Db) : Prop where
  kept : ∀ e ∈ s.journalEntries, ∃ f ∈ t.journalEntries,
    f.id = e.id ∧ f.userId = e.userId ∧ f.idempotencyKey = e.idempotencyKey
  ids : ∀ f ∈ t.journalEntries, (∃ e ∈ s.journalEntries, e.id = f.id) ∨
    f.id = own ∧ ∃ e, .insertEntry e ∈ ws
  inserted : ∀ e, .insertEntry e ∈ ws → ∃ f ∈ t.journalEntries, f.id = own
  lines : ∀ p ∈ t.postings, p ∈ s.postings ∨ p.entryId = own ∧ ∃ ps, .insertPostings ps ∈ ws
  accounts : ∀ a ∈ s.accounts, a ∈ t.accounts
  added : ∀ a ∈ t.accounts, a ∈ s.accounts ∨ adds a

section After
variable {own : Uuid} {adds : Account → Prop} {ws vs : List Write} {ks : List Row} {s t u : Db}
  {w : Write}

theorem After.trans (h : After own adds ws s t) (h' : After own adds vs t u) :
    After own adds (ws ++ vs) s u where
  kept e he := by
    obtain ⟨f, hf, hid, huser, hkey⟩ := h.kept e he
    obtain ⟨g, hg, hid', huser', hkey'⟩ := h'.kept f hf
    exact ⟨g, hg, hid'.trans hid, huser'.trans huser, hkey'.trans hkey⟩
  ids f hf := by
    have := h'.ids f hf
    have := h.ids
    grind
  inserted e he := by
    rcases List.mem_append.mp he with he | he
    · obtain ⟨f, hf, hid⟩ := h.inserted e he
      obtain ⟨g, hg, hid', -⟩ := h'.kept f hf
      exact ⟨g, hg, hid'.trans hid⟩
    · exact h'.inserted e he
  lines p hp := by
    have := h'.lines p hp
    have := h.lines p
    grind
  accounts a ha := h'.accounts a (h.accounts a ha)
  added a ha := (h'.added a ha).elim (h.added a) .inr

/-- A write that touches neither entries nor lines nor accounts. -/
theorem After.aside (hnew : ∀ e, w ≠ .insertEntry e) (hentries : t.journalEntries = s.journalEntries)
    (hlines : t.postings = s.postings) (haccounts : t.accounts = s.accounts) :
    After own adds [w] s t where
  kept e he := ⟨e, hentries ▸ he, rfl, rfl, rfl⟩
  ids f hf := .inl ⟨f, hentries ▸ hf, rfl⟩
  inserted e he := absurd (List.mem_singleton.mp he).symm (hnew e)
  lines _ hp := .inl (hlines ▸ hp)
  accounts _ ha := haccounts ▸ ha
  added _ ha := .inl (haccounts ▸ ha)

theorem Write.Beside.after (hw : w.Beside own adds) : After own adds [w] s (w.apply s) := by
  cases w with
  | insertEntry e =>
    obtain rfl : e.id = own := hw
    constructor <;> simp only [Write.apply] <;> grind
  | insertPostings ps =>
    have hlines : ∀ p ∈ ps, p.entryId = own := hw
    constructor <;> simp only [Write.apply] <;> grind
  | insertAccount a =>
    have hadds : adds a := hw
    constructor <;> simp only [Write.apply] <;> grind
  | setVoid i =>
    have hsame : ∀ e : JournalEntry, (if e.id = i ∧ e.status = .posted then e.setVoid else e).id = e.id ∧
        (if e.id = i ∧ e.status = .posted then e.setVoid else e).userId = e.userId ∧
        (if e.id = i ∧ e.status = .posted then e.setVoid else e).idempotencyKey =
          e.idempotencyKey := by
      intro e
      split <;> exact ⟨rfl, rfl, rfl⟩
    constructor <;> simp only [Write.apply] <;> grind
  | insertLot _ | setRemaining _ _ | insertConsumption _ | deleteConsumptions _
  | insertFxSnapshot _ | insertTradingMark _ => exact .aside (by simp) rfl rfl rfl
  | _ => exact hw.elim

theorem after_applyAll (h : ∀ w ∈ ws, w.Beside own adds) (s : Db) :
    After own adds ws s (applyAll ws s) := by
  induction ws generalizing s with
  | nil => constructor <;> grind [applyAll_nil]
  | cons w ws ih =>
    have hw : After own adds [w] s (w.apply s) := (h w (by simp)).after
    exact hw.trans (ih (fun v hv => h v (by simp [hv])) _)

end After

/-! ## The promise -/

/-- Entries stay, and an unused id that is held stays unused. -/
structure EntriesKept (ks : List Row) (s t : Db) : Prop where
  kept : ∀ e ∈ s.journalEntries, ∃ f ∈ t.journalEntries,
    f.id = e.id ∧ f.userId = e.userId ∧ f.idempotencyKey = e.idempotencyKey
  unused : ∀ i, Row.entry i ∈ ks → (∀ e ∈ s.journalEntries, e.id ≠ i) →
    ∀ e ∈ t.journalEntries, e.id ≠ i

/-- Beside the lines, the accounts may be asked for something that new ones do not break. -/
def besidePromise (chart : Db → Prop) : Promise Db Row Assumption where
  Assumes _ := False
  Inv db := db.LinesOwned ∧ chart db
  Rely := EntriesKept
  refl _ _ := ⟨fun e he => ⟨e, he, rfl, rfl, rfl⟩, fun _ _ h => h⟩
  trans h h' :=
    { kept := fun e he => by
        obtain ⟨f, hf, hid, huser, hkey⟩ := h.kept e he
        obtain ⟨g, hg, hid', huser', hkey'⟩ := h'.kept f hf
        exact ⟨g, hg, hid'.trans hid, huser'.trans huser, hkey'.trans hkey⟩
      unused := fun i hi hs => h'.unused i hi (h.unused i hi hs) }
  mono hsub h := ⟨h.kept, fun i hi => h.unused i (hsub hi)⟩

section Promise
variable {chart : Db → Prop} {own : Uuid} {adds : Account → Prop} {ws : List Write}
  {ks : List Row} {s t : Db} {env : Env}

theorem besidePromise_keepsEntries : (besidePromise chart).KeepsEntries where
  kept h := h.kept
  unused h hi := h.unused _ hi

theorem WritesBeside.commits (hchart : ∀ ws s t, After own adds ws s t → chart s → chart t)
    (h : WritesBeside own adds ws ks) (ht : (besidePromise chart).Inv t) :
    (besidePromise chart).Commits ws ks t := by
  have hafter := after_applyAll h.writes t
  refine ⟨⟨fun p hp => ?_, hchart _ _ _ hafter ht.2⟩, fun others hfree => ⟨hafter.kept, ?_⟩⟩
  · rcases hafter.lines p hp with hp | ⟨hid, ps, hps⟩
    · obtain ⟨e, he, hid⟩ := ht.1 p hp
      obtain ⟨f, hf, hid', -⟩ := hafter.kept e he
      exact ⟨f, hf, hid'.trans hid⟩
    · obtain ⟨e, he⟩ := h.entry ps hps
      obtain ⟨f, hf, hid'⟩ := hafter.inserted e he
      exact ⟨f, hf, hid'.trans hid.symm⟩
  · intro i hi hs f hf
    rcases hafter.ids f hf with ⟨e, he, hid⟩ | ⟨hid, e, he⟩
    · exact hid ▸ hs e he
    · rintro rfl
      exact hfree _ hi (hid ▸ h.held e he)

theorem postEntry_beside (input : PostEntryInput) :
    (besidePromise chart).Ok (fun _ vs ls _ => WritesBeside env.entryId adds vs ls)
      (postEntry env input) [] [] s := by
  refine (postEntry_among besidePromise_keepsEntries input fun _ => rfl).mono ?_
  rintro _ _ _ t _ ⟨⟩
  · exact ⟨by simp, by simp, by simp⟩
  · rename_i onLots _ _ held
    refine ⟨fun w hw => ?_, fun _ _ => ⟨_, List.mem_cons_self⟩, fun _ _ => held⟩
    simp only [List.nil_append, List.mem_cons] at hw
    rcases hw with rfl | rfl | hw
    · rfl
    · intro p hp
      obtain ⟨d, -, rfl⟩ := List.mem_map.mp hp
      rfl
    · have := onLots w hw
      cases w <;> trivial

/-- The lots are put back before the entry of the reversal is inserted. -/
def Write.PutsBack (w : Write) : Prop := w.OnLots ∨ ∃ i, w = .deleteConsumptions i

theorem Write.PutsBack.beside {w : Write} (h : w.PutsBack) : w.Beside own adds := by
  rcases h with h | ⟨i, rfl⟩
  · cases w <;> trivial
  · trivial

theorem updateRemaining_putsBack (i : Uuid) (current qty : Decimal) :
    (updateRemaining i current qty).WritesOnly Write.PutsBack := by
  intro s
  refine ⟨fun w hw => ?_, trivial⟩
  obtain rfl := List.mem_singleton.mp hw
  exact .inl trivial

/-- The entry of the reversal and its lines. -/
theorem reversal_yields {original : JournalEntry} {lines : List Posting} {entryId : Uuid}
    (hws : ∀ w ∈ ws, w.PutsBack) : (do
      insertEntry (original.reversalRow env.entryId env.today)
      insertPostings (lines.map (Posting.mirrored env.entryId))
      voidEntry entryId
      pure ⟨env.entryId, false⟩ : Sql PostResult).Yields
        (fun _ ws ks => WritesBeside env.entryId adds ws ks) ws ks := by
  have hnone : ∀ {w}, w ∈ ws → (∀ e, w ≠ .insertEntry e) ∧ ∀ ps, w ≠ .insertPostings ps := by
    intro w hw
    rcases hws w hw with h | ⟨i, rfl⟩
    · constructor <;> rintro _ rfl <;> exact h
    · simp
  unfold insertEntry insertPostings voidEntry Tx.insert
  intro s
  dsimp only
  split
  · intro t u
    dsimp only
    split
    · refine ⟨?_, fun _ _ => ⟨original.reversalRow env.entryId env.today, by simp⟩, fun _ _ => ?_⟩
      · intro w hw
        simp only [List.mem_append, List.mem_singleton, or_assoc] at hw
        rcases hw with hw | rfl | rfl | rfl
        · exact (hws w hw).beside
        · rfl
        · intro p hp
          obtain ⟨q, -, rfl⟩ := List.mem_map.mp hp
          rfl
        · trivial
      · simp [JournalEntry.reversalRow]
    · trivial
  · trivial

theorem reverseEntry_yields (entryId : Uuid) :
    (reverseEntry env entryId).Yields (fun _ ws ks => WritesBeside env.entryId adds ws ks) [] [] := by
  have hback : ∀ {ws : List Write} {ks : List Row} {α : Type} {p : Sql α}, (∀ w ∈ ws, w.PutsBack) →
      p.WritesOnly Write.PutsBack → p.Yields (fun _ ws _ => ∀ w ∈ ws, w.PutsBack) ws ks :=
    fun hws hp => hp.yields hws
  have hlock : (Tx.lock (fun _ => [Row.entry entryId]) fun _ => () : Sql Unit).WritesOnly
      Write.PutsBack := fun _ => ⟨by simp, trivial⟩
  unfold reverseEntry
  refine (hback (by simp) hlock).bind fun _ ws ks hws => ?_
  refine (Tx.readOnly_read _).yields_bind fun found => ?_
  cases found with
  | none => trivial
  | some original =>
  dsimp only
  refine (Tx.readOnly_require _ _).yields_bind fun _ => ?_
  refine (Tx.readOnly_read _).yields_bind fun openLots => ?_
  refine (hback hws (writesOnly_each _ fun l => ?_)).bind fun _ ws ks hws => ?_
  · exact (Tx.readOnly_require _ _).writesOnly.bind fun _ => updateRemaining_putsBack _ _ _
  refine (Tx.readOnly_read _).yields_bind fun consumptions => ?_
  refine (hback hws (writesOnly_each _ fun c => ?_)).bind fun _ ws ks hws => ?_
  · refine (Tx.readOnly_read _).writesOnly.bind fun lot => ?_
    cases lot with
    | none => trivial
    | some l => exact updateRemaining_putsBack _ _ _
  refine (hback hws ?_).bind fun _ ws ks hws => ?_
  · unfold Tx.when
    split
    · intro s
      refine ⟨fun w hw => ?_, trivial⟩
      obtain rfl := List.mem_singleton.mp hw
      exact .inr ⟨_, rfl⟩
    · trivial
  refine (Tx.readOnly_read _).yields_bind fun lines => ?_
  exact reversal_yields hws

end Promise

end Pwos
