import Pwos.Actions.FormRuns
import Pwos.Ledger.Among
import Pwos.Planning.Settlements

/-!
# Settlements of one installment at once

Quick Pay locks the row of the installment; the form reads it before its transaction and
overwrites it with what follows from that read. Where every form finds the row as it read
it, the row adds up in every interleaving.
-/

namespace Pwos

/-! ## The transactions -/

inductive SettleCall where
  | quick (c : PayCall)
  /-- The form, with what it prepared at an earlier time. -/
  | form (c : TxCall) (prep : Prepared)

def SettleCall.program : SettleCall → Sql Unit
  | .quick c => do
    let _ ← payInstallment c.env c.cmd
    pure ()
  | .form c prep => do
    let _ ← c.record prep
    pure ()

/-! ## The promise -/

/-- The row holds a balance that its settlements add up to, all of posted entries. -/
structure Settling (i : Uuid) (contract : Nat) (db : Db) : Prop where
  ids : (db.installments.map (·.id)).Nodup
  row : ∃ r, db.findInstallment i = some r ∧ ∃ b : Balance, b.contract = contract ∧ r.Holds b ∧
    db.settledToman i = .ofInt b.paid
  posted : ∀ s ∈ db.settlementsOf i, db.Posted s.entryId
  frozen : db.KeysFrozen

/-- What others leave alone: entries and snapshots stay, and the row while it is held. -/
structure Beside (i : Uuid) (ks : List Row) (s t : Db) : Prop where
  entries : s.journalEntries ⊆ t.journalEntries
  row : Row.installment i ∈ ks → t.findInstallment i = s.findInstallment i

theorem Beside.trans {i : Uuid} {ks : List Row} {s t u : Db} (h : Beside i ks s t)
    (h' : Beside i ks t u) : Beside i ks s u :=
  ⟨List.Subset.trans h.entries h'.entries, fun hk => (h'.row hk).trans (h.row hk)⟩

def settlePromise (i : Uuid) (contract : Nat) : Promise Db Row Assumption where
  Assumes := (· = .installmentAsRead)
  Inv := Settling i contract
  Rely := Beside i
  refl := fun _ _ => ⟨List.Subset.refl _, fun _ => rfl⟩
  trans := Beside.trans
  mono := fun hsub h => ⟨h.entries, fun hk => h.row (hsub hk)⟩

theorem Db.Posted.mono {s t : Db} (h : s.journalEntries ⊆ t.journalEntries) {e : Uuid}
    (he : s.Posted e) : t.Posted e := by
  obtain ⟨f, hf, hid, hp⟩ := he
  exact ⟨f, h hf, hid, hp⟩

section Commits
variable {i : Uuid} {contract : Nat} {ws vs : List Write} {es : List JournalEntry}
  {fs : List EntryFxSnapshot} {ks : List Row} {t : Db}

/-- The entries that are added have their rates frozen. -/
def FrozenAll (es : List JournalEntry) (fs : List EntryFxSnapshot) : Prop :=
  ∀ e ∈ es, e.idempotencyKey ≠ none → ∃ f ∈ fs, f.entryId = e.id

theorem KeysFrozen.adds {u : Db} (h : t.KeysFrozen) (hf : FrozenAll es fs)
    (he : u.journalEntries = t.journalEntries ++ es)
    (hs : u.entryFxSnapshots = t.entryFxSnapshots ++ fs) : u.KeysFrozen := by
  intro e hmem hkey
  rw [he, List.mem_append] at hmem
  rw [hs]
  rcases hmem with hmem | hmem
  · obtain ⟨f, hf, hid⟩ := h e hmem hkey
    exact ⟨f, List.mem_append_left _ hf, hid⟩
  · obtain ⟨f, hf, hid⟩ := hf e hmem hkey
    exact ⟨f, List.mem_append_right _ hf, hid⟩

/-- A transaction that settles nothing. -/
theorem commits_plain (hinv : Settling i contract t) (ha : Adds ws es fs) (hf : FrozenAll es fs) :
    (settlePromise i contract).Commits ws ks t := by
  have hentries : t.journalEntries ⊆ (applyAll ws t).journalEntries := by
    rw [ha.entries]
    exact List.subset_append_left _ _
  have hfind : (applyAll ws t).findInstallment i = t.findInstallment i := by
    unfold Db.findInstallment
    rw [ha.installments]
  have hsettled : (applyAll ws t).settlementsOf i = t.settlementsOf i := by
    unfold Db.settlementsOf
    rw [ha.settlements]
  refine ⟨⟨?_, ?_, ?_, ?_⟩, fun _ _ => ⟨hentries, fun _ => hfind⟩⟩
  · rw [ha.installments]
    exact hinv.ids
  · unfold Db.settledToman
    rw [hfind, hsettled]
    exact hinv.row
  · intro s hs
    rw [hsettled] at hs
    exact (hinv.posted s hs).mono hentries
  · exact KeysFrozen.adds hinv.frozen hf (ha.entries t) (ha.snapshots t)

/-- The row as a settlement of it leaves it. -/
def Fills (c : SettledColumns) (s : Settlement) (b : Balance) : Prop :=
  ∃ k : Nat, ∃ _ : k ≤ b.left, c.status = (b.afterPaying k).status ∧
    c.paidToman = (b.afterPaying k).paidToman ∧ s.toman = .ofInt k

/-- A transaction that settles a row, which it holds, by what is left of it. -/
theorem commits_settle {j : Uuid} {c : SettledColumns} {s : Settlement}
    (hinv : Settling i contract t) (ha : Adds ws es fs) (hv : Adds vs [] []) (hf : FrozenAll es fs)
    (hheld : Row.installment j ∈ ks) (hs : s.installmentId = j)
    (hposted : ∃ e ∈ es, e.id = s.entryId ∧ e.status = .posted)
    (hfills : j = i → ∀ r b, t.findInstallment i = some r → r.Holds b → Fills c s b) :
    (settlePromise i contract).Commits (ws ++ [Write.settleInstallment j c, Write.noteSettlement s] ++ vs) ks t := by
  set u := applyAll (ws ++ [Write.settleInstallment j c, Write.noteSettlement s] ++ vs) t with hu
  have hentries : u.journalEntries = t.journalEntries ++ es := by
    rw [hu, applyAll_append, hv.entries, List.append_nil, applyAll_append]
    exact ha.entries t
  have hsnapshots : u.entryFxSnapshots = t.entryFxSnapshots ++ fs := by
    rw [hu, applyAll_append, hv.snapshots, List.append_nil, applyAll_append]
    exact ha.snapshots t
  have hrows : u.installments = t.installments.map fun r => if r.id = j then r.settle c else r := by
    rw [hu, applyAll_append, hv.installments, applyAll_append, ← ha.installments t]
    rfl
  have hsettlements : u.settlements = t.settlements ++ [s] := by
    rw [hu, applyAll_append, hv.settlements, applyAll_append, ← ha.settlements t]
    rfl
  have hsub : t.journalEntries ⊆ u.journalEntries := by
    rw [hentries]
    exact List.subset_append_left _ _
  have hfind := findInstallment_settle (i := i) hrows
  have hof : u.settlementsOf i = t.settlementsOf i ++ if j = i then [s] else [] := by
    unfold Db.settlementsOf
    rw [hsettlements, List.filter_append]
    by_cases hj : j = i <;> simp [hs, hj]
  refine ⟨⟨?_, ?_, ?_, ?_⟩, fun others hfree => ⟨hsub, fun hk => ?_⟩⟩
  · rw [hrows, List.map_map]
    convert hinv.ids using 2
    funext r
    simp only [Function.comp]
    split <;> rfl
  · obtain ⟨r, hr, b, hb, hholds, hsum⟩ := hinv.row
    rw [hfind, hr]
    refine ⟨_, rfl, ?_⟩
    unfold Db.settledToman at hsum ⊢
    rw [hof, List.map_append, List.sum_append, hsum]
    dsimp only
    by_cases hj : j = i
    · obtain ⟨k, hk, hstatus, hpaid, htoman⟩ := hfills hj r b hr hholds
      rw [if_pos hj.symm, if_pos hj]
      refine ⟨b.fill k hk, hb, hholds.settle hk hstatus hpaid, ?_⟩
      simp [htoman, Decimal.ofInt_add, Balance.fill]
    · rw [if_neg (Ne.symm hj), if_neg hj]
      exact ⟨b, hb, hholds, by simp⟩
  · intro s' hs'
    rw [hof, List.mem_append] at hs'
    rcases hs' with hs' | hs'
    · exact (hinv.posted s' hs').mono hsub
    · have hss : s' = s := by
        split at hs'
        · exact List.mem_singleton.mp hs'
        · cases hs'
      obtain ⟨e, he, hid, hp⟩ := hposted
      exact ⟨e, hentries ▸ List.mem_append_right _ he, hss ▸ hid, hp⟩
  · exact KeysFrozen.adds hinv.frozen hf hentries hsnapshots
  · have hne : i ≠ j := by
      rintro rfl
      exact hfree _ hk hheld
    rw [hfind]
    cases t.findInstallment i with
    | none => rfl
    | some r => simp [hne]

end Commits

/-! ## Quick Pay -/

theorem settleDebtIfPaid_yields (debtId : Uuid) {vs : List Write} {js : List Row} :
    (settleDebtIfPaid debtId).Yields (fun _ ws _ => ∃ close, ws = vs ++ close ∧
      ∀ w ∈ close, ∃ d, w = .settleDebt d) vs js := by
  unfold settleDebtIfPaid
  refine (Tx.readOnly_read _).yields_bind fun pending => ?_
  unfold Tx.when
  split
  · exact fun _ => ⟨_, rfl, by simp⟩
  · exact ⟨[], by simp, by simp⟩

/-- What Quick Pay writes, once it has read the row: a bucket at most, or a payment. -/
inductive QuickWrites (env : Env) (inst : Installment) : List Write → Prop where
  | nothing {ws : List Write} (accounts : ∀ w ∈ ws, w.AddsAccount) : QuickWrites env inst ws
  | settled {ws close : List Write} {cmd : PayCmd} {rate : Decimal} {p : Payment} (u : Option Uuid)
      (accounts : ∀ w ∈ ws, w.AddsAccount) (row : p.inst = inst) (owed : p.Owed cmd rate)
      (closing : ∀ w ∈ close, ∃ d, w = .settleDebt d) :
      QuickWrites env inst (ws ++ p.writes env u ++ close)

theorem payRow_yields {env : Env} {cmd : PayCmd} {rate : Decimal} {p : Payment} {vs : List Write}
    {js : List Row} (hvs : ∀ w ∈ vs, w.AddsAccount) (owed : p.Owed cmd rate) :
    (payRow env p).Yields (fun _ ws _ => QuickWrites env p.inst ws) vs js := by
  unfold payRow
  refine (postEntry_yields env (p.input env)).bind ?_
  rintro entry ws ks hends
  cases hends with
  | replayed id key => exact absurd rfl key
  | posted u lots ks onLots plain held locked =>
  obtain rfl := plain rfl rfl
  refine Tx.Yields.bind (R := fun _ ws _ => ws = vs ++ p.writes env u) ?_ ?_
  · intro _
    simp [Tx.Yields, Payment.writes, Payment.entry, Payment.lines]
  · rintro _ ws ks rfl
    refine (settleDebtIfPaid_yields _).bind ?_
    rintro _ _ ls ⟨close, rfl, hclose⟩
    exact .settled u hvs rfl owed hclose

theorem quick_yields (env : Env) (cmd : PayCmd) (userId : Option Uuid) (inst : Installment)
    (debt : Debt) {js : List Row} : (if inst.status = .paid then pure (.alreadyPaid inst.paidEntryId)
      else do
        match ← Payment.resolve env userId cmd inst debt with
        | none => pure (.alreadyPaid inst.paidEntryId)
        | some p => payRow env p : Sql PayResult).Yields
      (fun _ ws _ => QuickWrites env inst ws) [] js := by
  split
  · exact .nothing (by simp)
  rw [resolve_eq, Tx.bind_assoc]
  have hnone : ∀ w ∈ ([] : List Write), w.Adds (Account.IsBucket debt.direction userId) := by simp
  refine ((resolveContra_adds env userId debt).yields hnone).bind ?_
  intro contra ws ks hws
  have hadds : ∀ w ∈ ws, w.AddsAccount := by
    intro w hw
    obtain ⟨a, -, rfl⟩ := hws w hw
    exact ⟨a, rfl⟩
  refine (amounts_yields userId cmd inst debt contra).bind ?_
  rintro result _ _ ⟨rfl, rfl, hfits⟩
  cases result with
  | none => exact .nothing hadds
  | some p =>
    obtain ⟨-, -, rfl, -, -, rate, howed⟩ := hfits p rfl
    exact payRow_yields hadds howed

section Programs
variable {i : Uuid} {contract : Nat}

theorem Adds.closing {ws : List Write} (h : ∀ w ∈ ws, ∃ d, w = .settleDebt d) : Adds ws [] [] :=
  .quiet fun w hw => .inr (.inr (.inr (.inl (h w hw))))

theorem commits_quick {env : Env} {inst : Installment} {ws : List Write} {ks : List Row} {t : Db}
    (hinv : Settling i contract t) (h : QuickWrites env inst ws)
    (hheld : Row.installment inst.id ∈ ks) (hrow : inst.id = i → t.findInstallment i = some inst) :
    (settlePromise i contract).Commits ws ks t := by
  cases h with
  | nothing accounts => exact commits_plain hinv (.accounts accounts) (by simp [FrozenAll])
  | @settled ws close cmd rate p u accounts row owed closing =>
    subst row
    have hsplit : ws ++ p.writes env u ++ close = ws ++ [Write.insertEntry (p.entry env u)] ++
        [Write.insertPostings (p.lines env)] ++
        [Write.settleInstallment p.inst.id (p.columns env env.entryId),
          Write.noteSettlement (p.settlement env.entryId)] ++ close := by
      simp [Payment.writes]
    rw [hsplit]
    have hlines : Adds [.insertPostings (p.lines env)] [] [] := .quiet (by simp)
    have hadds : Adds (ws ++ [Write.insertEntry (p.entry env u)] ++
        [Write.insertPostings (p.lines env)])
        [p.entry env u] [] := ((Adds.accounts accounts).append (.entry _)).append hlines
    refine commits_settle hinv hadds (.closing closing) ?_ hheld rfl
      ⟨p.entry env u, by simp, rfl, rfl⟩ ?_
    · simp [FrozenAll, Payment.entry, Payment.input, PostEntryInput.entryRow, trimmedKey]
    · intro hid r b hr hb
      obtain rfl := Option.some.inj ((hrow hid).symm.trans hr)
      obtain ⟨k, -, hk, hsettled, hnext⟩ := owed.fills hb
      exact ⟨k, hk, by rw [← hnext]; rfl, by rw [← hnext]; rfl, hsettled⟩

theorem quick_honours (c : PayCall) : (settlePromise i contract).Honours (fun _ _ _ _ => True)
    (SettleCall.quick c).program := by
  intro s _
  refine .map ?_
  unfold payInstallment
  refine .bind (.of_readOnly (readOnly_resolvePlanningUserId _ _) ?_)
  intro userId t₀ _ _
  refine .bind (.lock ?_)
  intro t₁ _ _ t₂ _ _
  refine .bind (.read ?_)
  intro t _ _ u _ htu
  have hheld : Row.installment c.cmd.installmentId ∈
      [] ++ [Row.installment c.cmd.installmentId] := by simp
  have hview : (applyAll [] t : Db).payableRow userId c.cmd.installmentId =
      t.payableRow userId c.cmd.installmentId := rfl
  rw [hview]
  cases hrow : t.payableRow userId c.cmd.installmentId with
  | none => trivial
  | some found =>
  obtain ⟨inst, debt⟩ := found
  obtain ⟨r, hr, hfound⟩ := Option.bind_eq_some_iff.mp hrow
  obtain ⟨d, -, heq⟩ := Option.map_eq_some_iff.mp hfound
  obtain ⟨rfl, rfl⟩ := Prod.mk.inj heq
  have hid : r.id = c.cmd.installmentId := by simpa using List.find?_some hr
  refine .yields (quick_yields _ _ _ _ _) ?_
  rintro _ ws ks v hv huv hwrites
  have hsub := List.subset_append_left ([] ++ [Row.installment c.cmd.installmentId]) ks
  refine ⟨commits_quick hv hwrites (hid ▸ hsub hheld) fun hi => ?_, trivial⟩
  have hcall : c.cmd.installmentId = i := hid.symm.trans hi
  have hfind : t.findInstallment i = some r := hcall ▸ hr
  exact ((htu.trans huv).row (by simp [hcall])).trans hfind

end Programs

/-! ## The form -/

/-- What a posting comes to at `t`, with all its writes: a replay of an entry that is there, or
a new entry. -/
inductive EntryEnds (env : Env) (t : Db) : PostResult → List Write → Prop where
  | replayed {e : JournalEntry} {ws : List Write} (mem : e ∈ t.journalEntries)
      (key : e.idempotencyKey ≠ none) (adds : Adds ws [] []) : EntryEnds env t ⟨e.id, true⟩ ws
  | posted {e : JournalEntry} {ws : List Write} (id : e.id = env.entryId)
      (status : e.status = .posted) (adds : Adds ws [e] []) :
      EntryEnds env t ⟨env.entryId, false⟩ ws

section Form
variable {i : Uuid} {contract : Nat} {env : Env} {ws : List Write} {ks : List Row} {s : Db}

theorem EntryEnds.mono {t : Db} {r : PostResult} (h : EntryEnds env s r ws)
    (hsub : s.journalEntries ⊆ t.journalEntries) : EntryEnds env t r ws := by
  cases h with
  | replayed mem key adds => exact .replayed (hsub mem) key adds
  | posted id status adds => exact .posted id status adds

/-- New accounts hide no entry. -/
theorem findByIdempotencyKey_accounts (hws : ∀ w ∈ ws, w.AddsAccount) (t : Db)
    (userId : Option Uuid) (k : String) :
    (applyAll ws t).findByIdempotencyKey userId k = t.findByIdempotencyKey userId k := by
  unfold Db.findByIdempotencyKey
  rw [(Adds.accounts hws).entries, List.append_nil]

theorem replayed_of_key (hws : ∀ w ∈ ws, w.AddsAccount) {t u : Db} {userId : Option Uuid}
    {k : String} {found : JournalEntry} (h : t.findByIdempotencyKey userId k = some found)
    (hsub : t.journalEntries ⊆ u.journalEntries) : EntryEnds env u ⟨found.id, true⟩ ws := by
  have hkey : found.userId = userId ∧ found.idempotencyKey = some k := by
    simpa using List.find?_some h
  refine .replayed (hsub (List.mem_of_find?_eq_some h)) ?_ (.accounts hws)
  rw [hkey.2]
  exact Option.some_ne_none k

theorem postEntryPriced_keeps (priced : Option (List OpenLot)) (input : PostEntryInput)
    (hws : ∀ w ∈ ws, w.AddsAccount) : (settlePromise i contract).Ok
      (fun r vs _ t => EntryEnds env t r vs) (postEntryPriced priced env input) ws ks s := by
  have hfresh : ∀ (userId : Option Uuid) (js : List Row) (t : Db), (settlePromise i contract).Ok
      (fun r vs _ t => EntryEnds env t r vs) (do
        lockAccounts (input.postings.map (·.accountId))
        Tx.when (input.preventOverdraft = true) (guardOverdraft userId input.postings)
        writeEntry env priced input userId
        pure ⟨env.entryId, false⟩ : Sql PostResult) ws js t := by
    intro userId js t
    refine .yields (postFresh_yields _ _ _ _) ?_
    rintro _ vs ls u hu htu ⟨hends, rfl⟩
    cases hends with
    | posted userId lots ls onLots plain held locked =>
      exact .posted (e := input.entryRow env.entryId userId) rfl rfl
        ((Adds.accounts hws).append (.posting _ _ onLots))
  unfold postEntryPriced
  refine .bind (.of_readOnly (Tx.readOnly_ofExcept _) fun _ t₀ _ _ => ?_)
  refine .bind (.of_readOnly (readOnly_resolveServiceUserId _ _ _) fun userId t₁ _ _ => ?_)
  cases trimmedKey input.idempotencyKey with
  | none => exact hfresh _ _ _
  | some k =>
    refine .bind (.bind (.read ?_))
    intro t _ _ u _ htu
    rw [findByIdempotencyKey_accounts hws]
    cases hfound : t.findByIdempotencyKey userId k with
    | none => exact fun v _ _ => hfresh _ _ _
    | some found =>
      refine .bind (.require fun _ v _ huv => ?_)
      intro w _ hvw x _ hwx
      exact replayed_of_key hws hfound (((htu.trans huv).trans hvw).trans hwx).entries

theorem recordSell_keeps (cmd : TradeCmd) (hws : ∀ w ∈ ws, w.AddsAccount) :
    (settlePromise i contract).Ok (fun r vs _ t => EntryEnds env t r vs)
      (recordSell env cmd) ws ks s := by
  have hsale : ∀ (userId : Option Uuid) (t : Db), (settlePromise i contract).Ok
      (fun r vs _ t => EntryEnds env t r vs) (do
        let lots ← Tx.read (·.sellableLots cmd.assetId userId env.previewOrder)
        let preview := consumeFifo lots cmd.quantity cmd.netProceeds
        let pnlLines ← cmd.sellPnlLines env userId (cmd.netProceeds - preview.totalCost)
        postEntryPriced (some lots) env (cmd.sellInput preview.totalCost pnlLines)
        : Sql PostResult) ws ks t := by
    intro userId t
    refine .bind (.of_readOnly (Tx.readOnly_read _) fun lots u _ _ => ?_)
    refine .bind (.yields ((sellPnlLines_writesOnly _ _ _ _).yields (by simp)) ?_)
    intro lines vs js v _ _ hvs
    refine postEntryPriced_keeps _ _ fun w hw => ?_
    rcases List.mem_append.mp hw with hw | hw
    · exact hws w hw
    · exact hvs w hw
  unfold recordSell
  refine .bind (.of_readOnly (readOnly_resolveServiceUserId _ _ _) fun userId t _ _ => ?_)
  cases trimmedKey cmd.idempotencyKey with
  | none => exact hsale _ _
  | some k =>
    refine .bind (.read ?_)
    intro u _ _ v _ huv
    rw [findByIdempotencyKey_accounts hws]
    cases hfound : u.findByIdempotencyKey userId k with
    | none => exact hsale _ _
    | some found => exact fun w _ hvw => replayed_of_key hws hfound (huv.trans hvw).entries

variable {rules : TxRules} {form : TxForm} {prep : Prepared}

theorem bookEntry_keeps : (settlePromise i contract).Ok
    (fun booked vs _ t => EntryEnds env t booked.entry vs) (bookEntry rules env form prep) [] ks s := by
  refine .leads (V := fun _ => True) bookEntry_leads (by simp) (fun _ _ _ _ => trivial) ?_
  intro q vs js t hq hvs _ _
  cases hq with
  | post asks => exact .map (postEntryPriced_keeps _ _ hvs)
  | sell asks => exact .map (recordSell_keeps _ hvs)

theorem clearChequeInTx_writesOnly (chequeId userId entryId : Uuid) (type : TxType) :
    (clearChequeInTx chequeId userId entryId type).WritesOnly
      (fun w => ∃ c e, w = .clearCheque c e) := by
  unfold clearChequeInTx
  refine Tx.WritesOnly.bind (fun s => ⟨by simp, trivial⟩) fun found => ?_
  split
  · trivial
  · refine (Tx.readOnly_require _ _).writesOnly.bind fun _ s => ⟨?_, trivial⟩
    intro w hw
    exact ⟨_, _, List.mem_singleton.mp hw⟩

/-- The settlement of the row the request was linked to, after its entry is written. -/
theorem settleLinked_keeps {booked : Booked} {inst : Installment} {e : JournalEntry}
    {f : EntryFxSnapshot} (ha : Adds ws [e] [f]) (hf : FrozenAll [e] [f])
    (hid : e.id = booked.entry.id) (hposted : e.status = .posted) :
    (settlePromise i contract).Ok (fun _ vs js t => (settlePromise i contract).Commits vs js t)
      (settleLinked form prep inst booked) ws ks s := by
  unfold settleLinked
  refine .bind (.ofExcept fun snapshot hsnapshot t₀ _ _ => ?_)
  refine .bind (.ofExcept fun contractual hcontract t₁ _ _ => ?_)
  refine .bind (.ofExcept fun next hnext t₂ _ _ => ?_)
  refine .bind (.writeExpecting ?_)
  intro t ht _ hread u hu htu
  refine .yields (settleDebtIfPaid_yields _) ?_
  rintro _ _ js v hv huv ⟨close, rfl, hclose⟩
  have hrow : inst.id = i → v.findInstallment i = t.findInstallment i := by
    rintro rfl
    exact (htu.trans huv).row (by simp)
  refine commits_settle hv ha (.closing hclose) hf (by simp) rfl ⟨e, by simp, hid, hposted⟩ ?_
  intro hi r b hr hb
  rw [hrow hi] at hr
  obtain rfl : r = inst := by
    refine hread _ rfl rfl r ?_ ?_
    · rw [ha.installments]
      exact List.mem_of_find?_eq_some hr
    · exact Eq.trans (by simpa using List.find?_some hr) hi.symm
  obtain rfl := hb.contractual_eq hcontract
  obtain ⟨-, rfl⟩ := calculateInstallmentPayment_ok hsnapshot
  obtain ⟨k, -, hk, htoman, rfl⟩ := (applyPartialPayment_iff hb booked.toman next).mp hnext
  exact ⟨k, hk, rfl, rfl, htoman⟩

/-- The rate of an entry is frozen once: a replay, whose rate is frozen, links nothing. -/
theorem linkEntry_keeps {booked : Booked} (h : EntryEnds env s booked.entry ws) :
    (settlePromise i contract).Ok (fun _ vs js t => (settlePromise i contract).Commits vs js t)
      (linkEntry env form prep booked) ws ks s := by
  have hrest : ∀ {e : JournalEntry} {f : EntryFxSnapshot} {vs : List Write} {js : List Row} {u : Db},
      Adds vs [e] [f] → FrozenAll [e] [f] → e.id = booked.entry.id → e.status = .posted →
      (settlePromise i contract).Ok (fun _ vs js t => (settlePromise i contract).Commits vs js t)
        (Tx.each prep.inst.toList fun inst => settleLinked form prep inst booked) vs js u := by
    intro e f vs js u ha hf hid hposted
    cases prep.inst with
    | none => exact fun v hv _ => commits_plain hv ha hf
    | some inst =>
      exact .map (settleLinked_keeps ha hf hid hposted)
  unfold linkEntry
  refine .bind (.insert ?_)
  intro t ht hst hnew u hu htu
  obtain ⟨entry, toman⟩ := booked
  cases h.mono hst.entries with
  | @replayed e _ mem key adds =>
    obtain ⟨f, hf, hid⟩ := ht.frozen e mem key
    rw [adds.snapshots, List.append_nil] at hnew
    exact absurd hid (hnew f hf)
  | @posted e _ id status adds =>
    have hsnap := adds.append (.snapshot { entryId := env.entryId, fxRate := prep.rate })
    have hfrozen : FrozenAll [e] [{ entryId := env.entryId, fxRate := prep.rate }] := by
      simp [FrozenAll, id]
    dsimp only
    split
    · refine .bind (.yields ((clearChequeInTx_writesOnly _ _ _ _).yields (by simp)) ?_)
      intro _ vs js v _ _ hclears
      have hquiet : Adds vs [] [] :=
        .quiet fun w hw => .inr (.inr (.inr (.inr (hclears w hw))))
      exact hrest (hsnap.append hquiet) hfrozen id status
    · exact hrest hsnap hfrozen id status

theorem form_honours (c : TxCall) (prep : Prepared) : (settlePromise i contract).Honours
    (fun _ _ _ _ => True) (SettleCall.form c prep).program := by
  intro s _
  refine .map ?_
  unfold TxCall.record recordTransaction
  refine .bind (bookEntry_keeps.mono fun booked vs js t _ hends => ?_)
  exact .map ((linkEntry_keeps hends).mono fun _ _ _ _ _ hc => ⟨hc, trivial⟩)

end Form

/-! ## Runs -/

/-- What the settlements of an installment by posted entries settled. -/
def Db.postedToman (db : Db) (installmentId : Uuid) : Decimal :=
  (((db.settlementsOf installmentId).filter (db.Posted ·.entryId)).map (·.toman)).sum

theorem Settling.adds_up {i : Uuid} {contract : Nat} {db : Db} (h : Settling i contract db) :
    ∃ r, db.findInstallment i = some r ∧ r.amountToman = some (.ofInt contract) ∧
      r.paidToman.getD 0 = db.postedToman i ∧ r.paidToman.getD 0 ≤ .ofInt contract := by
  obtain ⟨r, hr, b, rfl, hholds, hsum⟩ := h.row
  have hall : (db.settlementsOf i).filter (db.Posted ·.entryId) = db.settlementsOf i :=
    List.filter_eq_self.mpr fun s hs => decide_eq_true (h.posted s hs)
  refine ⟨r, hr, hholds.contract, ?_, ?_⟩
  · rw [Db.postedToman, hall, hholds.paid, ← hsum]
    rfl
  · rw [hholds.paid, Decimal.ofInt_le]
    have := b.within
    omega

/-- Where every form finds the row of an installment, when it overwrites it, as it read it,
the row adds up in every interleaving: what is paid is what the posted entries settled, and
no more than the contract. -/
theorem settlements_add_up {i : Uuid} {contract : Nat} {db : Db} (h : Settling i contract db)
    {sys : System Db Write Row Assumption AppError Unit}
    (hr : System.Reaches (fun p => ∃ c : SettleCall, p = c.program) (· = .installmentAsRead) db sys) :
    ∃ r, sys.committed.findInstallment i = some r ∧ r.amountToman = some (.ofInt contract) ∧
      r.paidToman.getD 0 = sys.committed.postedToman i ∧ r.paidToman.getD 0 ≤ .ofInt contract := by
  have hall : ∀ p : Sql Unit, (∃ c : SettleCall, p = c.program) →
      (settlePromise i contract).Honours (fun _ _ _ _ => True) p := by
    rintro _ ⟨c, rfl⟩
    cases c with
    | quick c => exact quick_honours c
    | form c prep => exact form_honours c prep
  exact (System.Reaches.safe h hall hr).inv.adds_up

theorem demoDebt_settling : Settling 1 60 demoDebt where
  ids := by decide
  row := by
    refine ⟨_, rfl, .fresh 60 (by decide), rfl, ?_, by decide⟩
    exact ⟨rfl, by decide, by decide⟩
  posted := by decide
  frozen := by decide

theorem quick_adds_up : ∃ sys : System Db Write Row Assumption AppError Unit,
    System.Reaches (fun p => ∃ c : SettleCall, p = c.program) (· = .installmentAsRead) demoDebt sys ∧
      ∃ r, sys.committed.findInstallment 1 = some r ∧ r.paidToman = some (.ofInt 20) ∧
        r.paidToman.getD 0 = sys.committed.postedToman 1 := by
  have hmet : (SettleCall.quick (demoPay 1 1 11 (some (.ofInt 20)))).program.Met
      (· = .installmentAsRead) demoDebt := by
    repeat first | exact trivial | refine ⟨fun _ _ => trivial, ?_⟩
  have hidle : System.Reaches (fun p => ∃ c : SettleCall, p = c.program) (· = .installmentAsRead)
      demoDebt (System.idle demoDebt) := .idle
  obtain ⟨sys, hreach, -, hsys⟩ := hidle.alone (fun _ => rfl) ⟨_, rfl⟩ hmet rfl
  obtain ⟨r, hr, -, hsum, -⟩ := settlements_add_up demoDebt_settling hreach
  refine ⟨sys, hreach, r, hr, ?_, hsum⟩
  rw [hsys] at hr
  cases hr
  rfl

/-- What a form of 40 Toman reads in `demoDebt`. -/
def demoPrep : Prepared :=
  { dated := false, rate := .ofInt 100000, usd := ⟨400000000000000⟩, toman := .ofInt 40
    feeUsd := 0, debt := demoDebt.findDebt 1, inst := demoDebt.findInstallment 1
    categoryAccountId := none }

def demoSettle (entryId : Uuid) : Sql Unit :=
  (SettleCall.form (demoForm entryId (.ofInt 40)) demoPrep).program

/-- One form after the other; the second finds the bucket that the first has made. -/
def oneAfterOther (p q : Sql Unit) : List (Move Db Write Row Assumption AppError Unit) :=
  [Move.begin 0 p, Move.begin 1 q] ++ List.replicate 14 (Move.go 0) ++ [Move.commit 0] ++
    List.replicate 11 (Move.go 1) ++ [Move.commit 1]

theorem begun_oneAfterOther (p q : Sql Unit) : Board.begun (oneAfterOther p q) = [p, q] := rfl

def CountedOnce (db : Db) : Bool :=
  (db.findInstallment 1).bind (·.paidToman) = some (.ofInt 40) ∧ db.postedToman 1 = .ofInt 80

/-- Two forms read the row of 60 Toman before either settles 40 of it. Both post, and the row
counts one. -/
theorem two_forms_count_once : Settling 1 60 demoDebt ∧
    ∃ sys : System Db Write Row Assumption AppError Unit, System.Reaches
      (fun p => ∃ c prep, c.prepare.answer demoDebt = .ok prep ∧
        p = (SettleCall.form c prep).program) (fun _ => False) demoDebt sys ∧
      (sys.committed.findInstallment 1).bind (·.paidToman) = some (.ofInt 40) ∧
      sys.committed.postedToman 1 = .ofInt 80 := by
  refine ⟨demoDebt_settling, ?_⟩
  have hrun : ((Board.idle 2 demoDebt).replay (oneAfterOther (demoSettle 1) (demoSettle 2))).any
      (fun b => CountedOnce b.committed) = true := by decide
  have hprep : ∀ e, (demoForm e (.ofInt 40)).prepare.answer demoDebt = .ok demoPrep := fun _ => rfl
  have hbegun : ∀ p ∈ Board.begun (oneAfterOther (demoSettle 1) (demoSettle 2)), ∃ c prep,
      c.prepare.answer demoDebt = .ok prep ∧ p = (SettleCall.form c prep).program := by
    rw [begun_oneAfterOther]
    intro p hp
    rcases List.mem_pair.mp hp with rfl | rfl
    · exact ⟨_, _, hprep 1, rfl⟩
    · exact ⟨_, _, hprep 2, rfl⟩
  obtain ⟨sys, hreach, hcheck⟩ := Board.exists_reaches hbegun hrun
  exact ⟨sys, hreach, of_decide_eq_true hcheck⟩

end Pwos
