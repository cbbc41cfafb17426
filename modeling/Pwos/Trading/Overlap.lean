import Pwos.Ledger.Beside
import Pwos.Lib.Leads
import Pwos.Trading.Views

/-!
# Marks beside other transactions

The balance that a mark is compared with is read before anything is locked. Among postings,
reversals and other marks, a mark leaves its account within a cent of what the venue shows if and
only if it commits to about the balance it has read (`mark_commits`).
-/

namespace Pwos

/-! ## The transactions -/

/-- A mark, with what it is about and the balance it has read. -/
inductive TradingCommit where
  | mark (accountId : Uuid) (input : MarkInput) (balance : Decimal)
  | other

/-- `recordTradingMark`. -/
def markTransaction (env : Env) (rules : TradingRules) (userId accountId : Uuid)
    (input : MarkInput) : Sql TradingCommit := do
  let basis ← markBasis rules userId accountId input
  let _ ← recordAgainst env userId accountId input basis
  pure (.mark accountId input basis.balance)

inductive TradingTransaction : Sql TradingCommit → Prop
  | mark (env : Env) (rules : TradingRules) (userId accountId : Uuid) (input : MarkInput) :
    TradingTransaction (markTransaction env rules userId accountId input)
  | post (env : Env) (input : PostEntryInput) :
    TradingTransaction (postEntry env input >>= fun _ => pure .other)
  | reverse (env : Env) (entryId : Uuid) :
    TradingTransaction (reverseEntry env entryId >>= fun _ => pure .other)

/-! ## The chart of accounts -/

/-- The asset accounts are those of the ids, and none of them is the account of results. -/
structure MarginChart (ids : List Uuid) (db : Db) : Prop where
  known : ∀ i ∈ ids, ∃ a ∈ db.accounts, a.id = i
  asset : ∀ a ∈ db.accounts, a.type = .asset → a.id ∈ ids
  apart : ∀ a ∈ db.accounts, a.id ∈ ids → a.code ≠ REALIZED_PNL_CODE

/-- A new account that is none of them. -/
def AddsElsewhere (ids : List Uuid) (a : Account) : Prop := a.id ∉ ids ∧ a.type ≠ .asset

def Write.AddsElsewhere (ids : List Uuid) (w : Write) : Prop :=
  ∃ a, w = .insertAccount a ∧ Pwos.AddsElsewhere ids a

section Chart
variable {ids : List Uuid} {own : Uuid} {ws : List Write} {s t : Db} {env : Env}
  {userId : Option Uuid} {code : String}

theorem MarginChart.after (h : MarginChart ids s) (ha : After own (AddsElsewhere ids) ws s t) :
    MarginChart ids t where
  known i hi := by
    obtain ⟨a, hmem, hid⟩ := h.known i hi
    exact ⟨a, ha.accounts a hmem, hid⟩
  asset a hmem htype := (ha.added a hmem).elim (h.asset a · htype) fun hnew => absurd htype hnew.2
  apart a hmem hid := (ha.added a hmem).elim (h.apart a · hid) fun hnew => absurd hid hnew.1

theorem Write.AddsElsewhere.beside {w : Write} (h : w.AddsElsewhere ids) :
    w.Beside own (Pwos.AddsElsewhere ids) := by
  obtain ⟨a, rfl, ha⟩ := h
  exact ha

theorem MarginChart.writes (h : MarginChart ids s) (hws : ∀ w ∈ ws, w.AddsElsewhere ids) :
    MarginChart ids (applyAll ws s) := by
  have hafter : After 0 (Pwos.AddsElsewhere ids) ws s (applyAll ws s) :=
    after_applyAll (fun w hw => (hws w hw).beside) s
  exact h.after hafter

/-- An account found by its code. -/
theorem resolveSystemAccount_gives {V : Db → Prop} {found : Option Account}
    (h : (resolveSystemAccount code userId).Gives V found) :
    ∀ a ∈ found, ∃ s, V s ∧ a ∈ s.accounts ∧ a.code = code := by
  obtain ⟨own, ⟨s, hs, rfl⟩, h⟩ := Tx.gives_bind.mp h
  dsimp only at h
  split at h
  · rename_i a hown
    obtain rfl := h
    rintro _ ⟨⟩
    obtain ⟨u, -, hown⟩ := Option.bind_eq_some_iff.mp hown
    obtain ⟨hmem, hp⟩ := oldestAccount_spec hown
    exact ⟨s, hs, hmem, (of_decide_eq_true hp).1⟩
  · obtain ⟨t, ht, rfl⟩ := h
    intro a ha
    obtain ⟨hmem, hp⟩ := oldestAccount_spec ha
    exact ⟨t, ht, hmem, (of_decide_eq_true hp).1⟩

theorem resolvePnl_elsewhere {found : Option Account}
    (h : (resolveSystemAccount REALIZED_PNL_CODE userId).Gives (MarginChart ids) found) :
    ∀ a ∈ found, a.id ∉ ids := by
  intro a ha hid
  obtain ⟨s, hs, hmem, hcode⟩ := resolveSystemAccount_gives h a ha
  exact hs.apart a hmem hid hcode

/-- The account of results is none of the asset accounts, and providing it leaves them alone. -/
theorem ensureRealizedPnlAccount_leads {α : Type} {f : Option Account → Sql α}
    {T : Sql α → Prop}
    (hf : ∀ found, (∀ a ∈ found, a.id ∉ ids) →
      (f found).Leads (MarginChart ids) (Write.AddsElsewhere ids) T) :
    (ensureRealizedPnlAccount env userId >>= f).Leads (MarginChart ids)
      (Write.AddsElsewhere ids) T := by
  have hresolve : (resolveSystemAccount REALIZED_PNL_CODE userId >>= f).Leads (MarginChart ids)
      (Write.AddsElsewhere ids) T :=
    (readOnly_resolveSystemAccount _ _).leads_bind fun own hown => hf own (resolvePnl_elsewhere hown)
  unfold ensureRealizedPnlAccount ensureSystemAccount
  simp only [Tx.bind_assoc]
  refine (readOnly_resolveSystemAccount _ _).leads_bind fun own hown => ?_
  cases own with
  | some a => exact hf _ (resolvePnl_elsewhere hown)
  | none =>
  dsimp only
  simp only [Tx.bind_assoc]
  refine (readOnly_resolveSystemAccount _ _).leads_bind fun own hown => ?_
  cases own with
  | some a => exact hf _ (resolvePnl_elsewhere hown)
  | none =>
  dsimp only
  simp only [Tx.bind_assoc]
  refine readOnly_findBaseAssetId.leads_bind fun base _ => ?_
  refine .stmt (fun s hs w hw => ?_) fun s hs => ?_
  · split at hw
    · cases hw
    · rename_i hfree
      obtain rfl := List.mem_singleton.mp hw
      refine ⟨_, rfl, fun hid => hfree (.inr (hs.known _ hid)), by simp⟩
  · dsimp only
    split
    · exact hresolve
    · split
      · exact .fail _
      · rename_i hfree
        refine hf _ ?_
        rintro _ ⟨⟩ hid
        exact hfree (hs.known _ hid)

end Chart

/-! ## What a mark writes -/

/-- The writes add entries and lines. -/
structure Books (ws : List Write) (es : List JournalEntry) (ps : List Posting) : Prop where
  entries : ∀ db : Db, (applyAll ws db).journalEntries = db.journalEntries ++ es
  lines : ∀ db : Db, (applyAll ws db).postings = db.postings ++ ps

/-- A write that books nothing. -/
def Write.BooksNothing (w : Write) : Prop :=
  w.OnLots ∨ (∃ a, w = .insertAccount a) ∨ (∃ f, w = .insertFxSnapshot f) ∨
    ∃ m, w = .insertTradingMark m

section Books
variable {ws vs : List Write} {es es' : List JournalEntry} {ps ps' : List Posting}

theorem Books.append (h : Books ws es ps) (h' : Books vs es' ps') :
    Books (ws ++ vs) (es ++ es') (ps ++ ps') where
  entries := by simp [h.entries, h'.entries]
  lines := by simp [h.lines, h'.lines]

theorem Books.nothing (h : ∀ w ∈ ws, w.BooksNothing) : Books ws [] [] := by
  have hkeep : ∀ w ∈ ws, ∀ db : Db, (w.apply db).journalEntries = db.journalEntries ∧
      (w.apply db).postings = db.postings := by
    intro w hw db
    rcases h w hw with hw | ⟨_, rfl⟩ | ⟨_, rfl⟩ | ⟨_, rfl⟩
    · cases w <;> first | exact ⟨rfl, rfl⟩ | exact hw.elim
    all_goals exact ⟨rfl, rfl⟩
  constructor
  · intro db
    rw [List.append_nil]
    exact applyAll_keeps (f := Db.journalEntries) (fun w hw db => (hkeep w hw db).1) db
  · intro db
    rw [List.append_nil]
    exact applyAll_keeps (f := Db.postings) (fun w hw db => (hkeep w hw db).2) db

theorem Books.entry (e : JournalEntry) (ps : List Posting) :
    Books [.insertEntry e, .insertPostings ps] [e] ps := ⟨fun _ => rfl, fun _ => rfl⟩

/-- A posted entry of its own adds its lines to the balance. -/
theorem Books.postedQuantity {db : Db} {e : JournalEntry} (h : Books ws [e] ps)
    (howned : db.LinesOwned) (hunused : ∀ f ∈ db.journalEntries, f.id ≠ e.id)
    (hposted : e.status = .posted) (hps : ∀ p ∈ ps, p.entryId = e.id) (accountId : Uuid) :
    (applyAll ws db).postedQuantity accountId = db.postedQuantity accountId +
      ((ps.filter (·.accountId = accountId)).map (·.quantity)).sum := by
  have hlive : (applyAll ws db).livePostings none = db.livePostings none ++ ps := by
    simp only [Db.livePostings, h.entries, h.lines, List.filter_append]
    congr 1
    · refine List.filter_congr fun p hp => decide_eq_decide.mpr ?_
      have := howned p hp
      simp only [InTenantScope]
      grind
    · refine List.filter_eq_self.mpr fun p hp => decide_eq_true ?_
      exact ⟨e, by simp, (hps p hp).symm, hposted, by simp [InTenantScope]⟩
  rw [Db.postedQuantity, hlive, List.filter_append, List.map_append, List.sum_append]
  rfl

theorem Books.postedQuantity_nil (h : Books ws [] []) (db : Db) (accountId : Uuid) :
    (applyAll ws db).postedQuantity accountId = db.postedQuantity accountId := by
  simp only [Db.postedQuantity, Db.livePostings, h.entries, h.lines, List.append_nil]

end Books

/-! ## The program of a mark -/

/-- What is left of a mark once everything it is computed from is read. -/
inductive MarkTail (ids : List Uuid) (env : Env) (userId accountId : Uuid) (input : MarkInput) :
    Sql TradingCommit → Prop
  | booked (basis : MarkBasis) (pnlId : Uuid) (baseValue : Decimal) (account : basis.account.id = accountId)
    (mem : accountId ∈ ids) (elsewhere : pnlId ∉ ids)
    (worth : TRADING_TOLERANCE ≤ (input.realized - basis.balance).abs) :
    MarkTail ids env userId accountId input (do
      let entry ← postEntry env (realizedInput userId (input.day env) basis.account pnlId
        (input.realized - basis.balance) baseValue)
      freezeRate { entryId := entry.id, fxRate := basis.rate }
      storeMark env userId accountId input (some entry.id)
      pure (.mark accountId input basis.balance))
  | unbooked (basis : MarkBasis)
    (small : ¬ TRADING_TOLERANCE ≤ (input.realized - basis.balance).abs) :
    MarkTail ids env userId accountId input (do
      storeMark env userId accountId input none
      pure (.mark accountId input basis.balance))

/-- By how much a mark moves the balance of its account. -/
def MarkMoves (ws : List Write) (t : Db) : TradingCommit → Prop
  | .mark accountId input balance =>
    (applyAll ws t).postedQuantity accountId = t.postedQuantity accountId +
      if TRADING_TOLERANCE ≤ (input.realized - balance).abs then input.realized - balance else 0
  | .other => True

section Program
variable {ids : List Uuid} {env : Env} {rules : TradingRules} {userId accountId : Uuid}
  {input : MarkInput} {ws : List Write} {ks : List Row} {s : Db}

/-- The account that is read is an asset account. -/
theorem markBasis_gives {basis : MarkBasis}
    (h : (markBasis rules userId accountId input).Gives (MarginChart ids) basis) :
    basis.account.id = accountId ∧ accountId ∈ ids := by
  obtain ⟨_, -, h⟩ := Tx.gives_bind.mp h
  obtain ⟨_, -, h⟩ := Tx.gives_bind.mp h
  obtain ⟨_, -, h⟩ := Tx.gives_bind.mp h
  obtain ⟨found, ⟨t, ht, hfound⟩, h⟩ := Tx.gives_bind.mp h
  cases found with
  | none => exact h.elim
  | some account =>
  obtain ⟨fx, -, h⟩ := Tx.gives_bind.mp h
  obtain ⟨balance, -, h⟩ := Tx.gives_bind.mp h
  obtain rfl := h
  obtain ⟨a, ha, hrest⟩ := Option.bind_eq_some_iff.mp hfound
  obtain ⟨x, -, hrest⟩ := Option.bind_eq_some_iff.mp hrest
  obtain ⟨place, -, rfl⟩ := Option.map_eq_some_iff.mp hrest
  have hown := List.find?_some ha
  simp only [decide_eq_true_eq] at hown
  obtain ⟨hid, -, htype, -⟩ := hown
  exact ⟨hid, hid ▸ ht.asset a (List.mem_of_find?_eq_some ha) htype⟩

theorem markTransaction_leads : (markTransaction env rules userId accountId input).Leads
    (MarginChart ids) (Write.AddsElsewhere ids) (MarkTail ids env userId accountId input) := by
  unfold markTransaction
  refine readOnly_markBasis.leads_bind fun basis hbasis => ?_
  obtain ⟨haccount, hmem⟩ := markBasis_gives hbasis
  by_cases hworth : TRADING_TOLERANCE ≤ (input.realized - basis.balance).abs
  · simp only [recordAgainst, bookDifference, bookRealized, if_pos hworth, Tx.bind_assoc]
    refine (readOnly_nativeUnitPriceUsd _ _).leads_bind fun unitUsd _ => ?_
    refine ensureRealizedPnlAccount_leads fun found hfound => ?_
    cases found with
    | none => exact .fail _
    | some pnl =>
      dsimp only
      simp only [Tx.bind_assoc]
      exact .tail (.booked basis pnl.id _ haccount hmem (hfound pnl rfl) hworth)
  · simp only [recordAgainst, bookDifference, if_neg hworth, Tx.bind_assoc, Tx.pure_eq, Tx.done_bind]
    exact .tail (.unbooked basis hworth)

theorem storeMark_yields (entryId : Option Uuid) :
    (storeMark env userId accountId input entryId).Yields
      (fun _ ws _ => ∀ w ∈ ws, ∃ m, w = .insertTradingMark m) [] [] :=
  Tx.WritesOnly.yields (Tx.writesOnly_insert fun _ _ hw => ⟨_, List.mem_singleton.mp hw⟩) (by simp)

theorem freezeRate_yields (f : EntryFxSnapshot) :
    (freezeRate f).Yields (fun _ ws _ => ∀ w ∈ ws, ∃ f, w = .insertFxSnapshot f) [] [] := by
  have honly : (freezeRate f).WritesOnly fun w => ∃ f, w = .insertFxSnapshot f := by
    refine fun s => ⟨fun w hw => ?_, trivial⟩
    dsimp only at hw
    split at hw
    · cases hw
    · exact ⟨f, List.mem_singleton.mp hw⟩
  exact honly.yields (by simp)

/-- At its end a mark has written beside the others, and moved the balance by the difference. -/
def MarkEnds (ids : List Uuid) (own : Uuid) (ws : List Write) (ks : List Row) (t : Db)
    (c : TradingCommit) : Prop :=
  WritesBeside own (AddsElsewhere ids) ws ks ∧ MarkMoves ws t c

theorem unbooked_ends {basis : MarkBasis} (hws : ∀ w ∈ ws, w.AddsElsewhere ids)
    (hsmall : ¬ TRADING_TOLERANCE ≤ (input.realized - basis.balance).abs) :
    (besidePromise (MarginChart ids)).Ok (fun c vs js t => MarkEnds ids env.entryId vs js t c) (do
      storeMark env userId accountId input none
      pure (.mark accountId input basis.balance)) ws ks s := by
  refine .map (.yields (storeMark_yields none) ?_)
  rintro _ vs js t _ _ hvs
  have hbeside : ∀ w ∈ ws ++ vs, w.AddsElsewhere ids ∨ ∃ m, w = .insertTradingMark m := by
    intro w hw
    exact (List.mem_append.mp hw).imp (hws w) (hvs w)
  have hnothing : Books (ws ++ vs) [] [] := .nothing fun w hw => by
    rcases hbeside w hw with ⟨a, rfl, -⟩ | ⟨m, rfl⟩
    · exact .inr (.inl ⟨a, rfl⟩)
    · exact .inr (.inr (.inr ⟨m, rfl⟩))
  refine ⟨⟨fun w hw => ?_, fun ps hps => ?_, fun e he => ?_⟩, ?_⟩
  · rcases hbeside w hw with h | ⟨m, rfl⟩
    · exact h.beside
    · trivial
  · rcases hbeside _ hps with ⟨a, h, -⟩ | ⟨m, h⟩ <;> cases h
  · rcases hbeside _ he with ⟨a, h, -⟩ | ⟨m, h⟩ <;> cases h
  · simp only [MarkMoves, if_neg hsmall, add_zero]
    exact hnothing.postedQuantity_nil t accountId

theorem booked_ends {basis : MarkBasis} {pnlId : Uuid} {baseValue : Decimal}
    (haccount : basis.account.id = accountId) (hmem : accountId ∈ ids) (hpnl : pnlId ∉ ids)
    (hworth : TRADING_TOLERANCE ≤ (input.realized - basis.balance).abs)
    (hws : ∀ w ∈ ws, w.AddsElsewhere ids) :
    (besidePromise (MarginChart ids)).Ok (fun c vs js t => MarkEnds ids env.entryId vs js t c) (do
      let entry ← postEntry env (realizedInput userId (input.day env) basis.account pnlId
        (input.realized - basis.balance) baseValue)
      freezeRate { entryId := entry.id, fxRate := basis.rate }
      storeMark env userId accountId input (some entry.id)
      pure (.mark accountId input basis.balance)) ws ks s := by
  have hentries : ∀ db : Db, (applyAll ws db).journalEntries = db.journalEntries := fun db =>
    applyAll_keeps (f := Db.journalEntries) (fun w hw db => by
      obtain ⟨a, rfl, -⟩ := hws w hw
      rfl) db
  refine .bind ((postEntry_among besidePromise_keepsEntries _ hentries).mono ?_)
  rintro r vs js t ht hamong
  cases hamong with
  | replayed _ hkey _ => cases hkey
  | posted tenant lots _ onLots sub held unused =>
  refine .bind (.yields (freezeRate_yields _) ?_)
  rintro _ us ls u _ htu hus
  refine .map (.yields (storeMark_yields _) ?_)
  rintro _ us' ls' v hv huv hus'
  have hnone : ∀ f ∈ v.journalEntries, f.id ≠ env.entryId := by
    have hu := htu.unused _ held unused
    exact huv.unused _ (List.mem_append_left _ held) hu
  set entry := (realizedInput userId (input.day env) basis.account pnlId
    (input.realized - basis.balance) baseValue).entryRow env.entryId tenant with hentry
  set lines := (realizedInput userId (input.day env) basis.account pnlId
    (input.realized - basis.balance) baseValue).postings.map (DraftPosting.row env.entryId) with hlines
  have hbooks : Books (ws ++ .insertEntry entry :: .insertPostings lines :: lots ++ us ++ us')
      [entry] lines := by
    have hws' : Books ws [] [] := .nothing fun w hw => by
      obtain ⟨a, rfl, -⟩ := hws w hw
      exact .inr (.inl ⟨a, rfl⟩)
    have hlots : Books lots [] [] := .nothing fun w hw => .inl (onLots w hw)
    have hus : Books us [] [] := .nothing fun w hw => .inr (.inr (.inl (hus w hw)))
    have hus' : Books us' [] [] := .nothing fun w hw => .inr (.inr (.inr (hus' w hw)))
    simpa using (((hws'.append ((Books.entry entry lines).append hlots)).append hus).append hus')
  refine ⟨⟨fun w hw => ?_, fun _ _ => ⟨entry, by simp⟩, fun _ _ => ?_⟩, ?_⟩
  · simp only [List.mem_append, List.mem_cons] at hw
    rcases hw with ((hw | rfl | rfl | hw) | hw) | hw
    · exact (hws w hw).beside
    · rfl
    · intro p hp
      obtain ⟨d, -, rfl⟩ := List.mem_map.mp hp
      rfl
    · have := onLots w hw
      cases w <;> trivial
    · obtain ⟨f, rfl⟩ := hus w hw
      trivial
    · obtain ⟨m, rfl⟩ := hus' w hw
      trivial
  · exact List.mem_append_left _ (List.mem_append_left _ held)
  · have hlineIds : ∀ p ∈ lines, p.entryId = entry.id := by
      intro p hp
      obtain ⟨d, -, rfl⟩ := List.mem_map.mp hp
      rfl
    have hapart : pnlId ≠ accountId := fun h => hpnl (h ▸ hmem)
    simp only [MarkMoves, if_pos hworth]
    rw [hbooks.postedQuantity hv.1 hnone rfl hlineIds accountId]
    simp [hlines, realizedInput, DraftPosting.row, haccount, hapart]

theorem markTransaction_ok (env : Env) (rules : TradingRules) (userId accountId : Uuid)
    (input : MarkInput) (s : Db) :
    (besidePromise (MarginChart ids)).Ok (fun c vs js t => MarkEnds ids env.entryId vs js t c)
      (markTransaction env rules userId accountId input) [] [] s := by
  refine .leads markTransaction_leads (by simp) (fun vs t hvs ht => ht.2.writes hvs) ?_
  rintro q vs js t hq hvs - -
  cases hq with
  | booked basis pnlId baseValue account mem elsewhere worth =>
    exact booked_ends account mem elsewhere worth hvs
  | unbooked basis small => exact unbooked_ends hvs small

theorem TradingTransaction.honours {p : Sql TradingCommit} (hp : TradingTransaction p) :
    (besidePromise (MarginChart ids)).Honours (fun c ws _ t => MarkMoves ws t c) p := by
  intro s _
  have hchart : ∀ own ws s t, After own (AddsElsewhere ids) ws s t → MarginChart ids s →
      MarginChart ids t := fun _ _ _ _ h hs => hs.after h
  cases hp with
  | mark env rules userId accountId input =>
    refine (markTransaction_ok env rules userId accountId input s).mono ?_
    exact fun c ws ks t ht h => ⟨h.1.commits (hchart _) ht, h.2⟩
  | post env input =>
    have hposts : (besidePromise (MarginChart ids)).Ok
        (fun _ ws ks _ => WritesBeside env.entryId (AddsElsewhere ids) ws ks)
        (postEntry env input) [] [] s := postEntry_beside input
    refine .map (hposts.mono ?_)
    exact fun _ ws ks t ht h => ⟨h.commits (hchart _) ht, trivial⟩
  | reverse env entryId =>
    have hreverses : (reverseEntry env entryId).Yields
        (fun _ ws ks => WritesBeside env.entryId (AddsElsewhere ids) ws ks) [] [] :=
      reverseEntry_yields entryId
    refine .map (.yields hreverses ?_)
    intro _ ws ks t ht _ h
    exact ⟨h.commits (hchart _) ht, trivial⟩

end Program

/-! ## Every interleaving -/

/-- Ids are unique, lines have entries, and the account of results is no asset account. -/
structure Db.MarginBooks (db : Db) : Prop where
  accountIds : (db.accounts.map (·.id)).Nodup
  lines : db.LinesOwned
  chart : ∀ a ∈ db.accounts, a.type = .asset → a.code ≠ REALIZED_PNL_CODE

theorem Db.MarginBooks.inv {db : Db} (h : db.MarginBooks) :
    (besidePromise (MarginChart
      ((db.accounts.filter (·.type = .asset)).map (·.id)))).Inv db := by
  have hmem : ∀ i, i ∈ (db.accounts.filter (·.type = .asset)).map (·.id) ↔
      ∃ a ∈ db.accounts, a.type = .asset ∧ a.id = i := by
    simp [and_assoc]
  refine ⟨h.lines, fun i hi => ?_, fun a ha htype => ?_, fun a ha hid => ?_⟩
  · obtain ⟨a, ha, -, hid⟩ := (hmem i).mp hi
    exact ⟨a, ha, hid⟩
  · exact (hmem a.id).mpr ⟨a, ha, htype, rfl⟩
  · obtain ⟨b, hb, htype, hid⟩ := (hmem a.id).mp hid
    obtain rfl := List.inj_on_of_nodup_map h.accountIds hb ha hid
    exact h.chart b hb htype

/-- What the others have committed since the balance was read comes to less than a cent; or
nothing is booked, and the balance is within a cent of what the venue shows. -/
def Undisturbed (accountId : Uuid) (input : MarkInput) (balance : Decimal) (db : Db) : Prop :=
  if TRADING_TOLERANCE ≤ (input.realized - balance).abs then
    (db.postedQuantity accountId - balance).abs < TRADING_TOLERANCE
  else (db.postedQuantity accountId - input.realized).abs < TRADING_TOLERANCE

instance (accountId : Uuid) (input : MarkInput) (balance : Decimal) (db : Db) :
    Decidable (Undisturbed accountId input balance db) := by
  unfold Undisturbed
  infer_instance

/-- In every interleaving, a mark that commits leaves its account within a cent of what the venue
shows exactly if it is undisturbed. -/
theorem mark_commits {db : Db} (h : db.MarginBooks)
    {sys : System Db Write Row Assumption AppError TradingCommit}
    (hr : System.Reaches TradingTransaction (fun _ => False) db sys) {i : Nat} {accountId : Uuid}
    {input : MarkInput} {balance : Decimal} {ws : List Write} {ks : List Row}
    (hi : sys.sessions i = some ⟨.done (.mark accountId input balance), ws, ks⟩) :
    ((applyAll ws sys.committed).postedQuantity accountId - input.realized).abs <
        TRADING_TOLERANCE ↔ Undisturbed accountId input balance sys.committed := by
  have hsafe := System.Reaches.safe h.inv (fun _ hp => TradingTransaction.honours hp) hr
  have hmoves : MarkMoves ws sys.committed (.mark accountId input balance) := hsafe.ends hi
  simp only [MarkMoves] at hmoves
  rw [hmoves, Undisturbed]
  split
  · have hsame : sys.committed.postedQuantity accountId + (input.realized - balance) -
        input.realized = sys.committed.postedQuantity accountId - balance := by abel
    rw [hsame]
  · rw [add_zero]

theorem demoRated_books : demoRated.MarginBooks := ⟨by decide, nofun, by decide⟩

/-- The venue shows 90, ten of which the open positions have lost. -/
def demoReading : MarkInput := { accountValue := .ofInt 90, unrealizedPnl := .ofInt (-10) }

def demoMargin (entryId : Uuid) : Sql TradingCommit :=
  markTransaction { entryId, today := 20260701 } marginRules 1 10 demoReading

/-- A mark of the margin account is about to commit, and `check` holds of it. -/
def aboutToCommit (check : Decimal → List Write → Db → Bool)
    (x : Session Db Write Row Assumption AppError TradingCommit) (db : Db) : Bool :=
  match x with
  | ⟨.done (.mark accountId input balance), ws, _⟩ =>
    decide (accountId = 10 ∧ input = demoReading) && check balance ws db
  | _ => false

theorem aboutToCommit_spec {check : Decimal → List Write → Db → Bool}
    {x : Session Db Write Row Assumption AppError TradingCommit} {db : Db}
    (h : aboutToCommit check x db = true) : ∃ balance ws ks,
      x = ⟨.done (.mark 10 demoReading balance), ws, ks⟩ ∧ check balance ws db = true := by
  unfold aboutToCommit at h
  split at h
  · simp only [Bool.and_eq_true, decide_eq_true_eq] at h
    obtain ⟨⟨rfl, rfl⟩, hcheck⟩ := h
    exact ⟨_, _, _, rfl, hcheck⟩
  · cases h

theorem undisturbed_mark : ∃ (sys : System Db Write Row Assumption AppError TradingCommit)
    (balance : Decimal) (ws : List Write) (ks : List Row),
    System.Reaches TradingTransaction (fun _ => False) demoRated sys ∧
      sys.sessions 0 = some ⟨.done (.mark 10 demoReading balance), ws, ks⟩ ∧
      Undisturbed 10 demoReading balance sys.committed ∧
      ((applyAll ws sys.committed).postedQuantity 10 - demoReading.realized).abs <
        TRADING_TOLERANCE := by
  have hreplay : ((Board.idle 1 demoRated).replay
      (Move.begin 0 (demoMargin 100) :: List.replicate 11 (Move.go 0))).any (fun b =>
        b.sessions[0]?.join.any fun x => aboutToCommit
          (fun balance _ db => Undisturbed 10 demoReading balance db) x b.committed) = true := by
    decide
  have hmarks : ∀ p ∈ [demoMargin 100], TradingTransaction p := by
    intro p hp
    obtain rfl := List.mem_singleton.mp hp
    exact .mark _ _ _ _ _
  obtain ⟨sys, x, hr, hx, hcheck⟩ := Board.exists_session hmarks hreplay
  obtain ⟨balance, ws, ks, rfl, hcheck⟩ := aboutToCommit_spec hcheck
  have hundisturbed := of_decide_eq_true hcheck
  exact ⟨sys, balance, ws, ks, hr, hx, hundisturbed,
    (mark_commits demoRated_books hr hx).mpr hundisturbed⟩

/-- Both marks read a balance of nothing, and book the same hundred. -/
theorem booked_twice : demoRated.MarginBooks ∧
    ∃ (sys : System Db Write Row Assumption AppError TradingCommit) (balance : Decimal)
      (ws : List Write) (ks : List Row),
      System.Reaches TradingTransaction (fun _ => False) demoRated sys ∧
        sys.sessions 0 = some ⟨.done (.mark 10 demoReading balance), ws, ks⟩ ∧
        (applyAll ws sys.committed).postedQuantity 10 = .ofInt 200 ∧
        ¬ ((applyAll ws sys.committed).postedQuantity 10 - demoReading.realized).abs <
          TRADING_TOLERANCE := by
  have hreplay : ((Board.idle 2 demoRated).replay
      ([Move.begin 0 (demoMargin 100), Move.begin 1 (demoMargin 101)] ++
        List.replicate 3 (Move.go 0) ++ List.replicate 11 (Move.go 1) ++ [Move.commit 1] ++
        List.replicate 8 (Move.go 0))).any (fun b =>
        b.sessions[0]?.join.any fun x => aboutToCommit
          (fun _ ws db => (applyAll ws db).postedQuantity 10 = .ofInt 200) x b.committed) =
        true := by
    decide
  have hmarks : ∀ p ∈ [demoMargin 100, demoMargin 101], TradingTransaction p := by
    intro p hp
    have hp : p = demoMargin 100 ∨ p = demoMargin 101 := by simpa using hp
    rcases hp with rfl | rfl <;> exact .mark _ _ _ _ _
  obtain ⟨sys, x, hr, hx, hcheck⟩ := Board.exists_session hmarks hreplay
  obtain ⟨balance, ws, ks, rfl, hcheck⟩ := aboutToCommit_spec hcheck
  have htwice := of_decide_eq_true hcheck
  refine ⟨demoRated_books, sys, balance, ws, ks, hr, hx, htwice, ?_⟩
  rw [htwice]
  decide

end Pwos
