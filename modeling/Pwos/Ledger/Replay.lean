import Pwos.Ledger.CommandRuns

/-!
# Retried commands

A command may be sent twice under one idempotency key. `postEntry` compares the payload
with the one recorded: the same payload gets the recorded entry, another payload is a
conflict. `recordSell` has a check of its own before it prices the sale, and that one
compares nothing.
-/

namespace Pwos

/-- The payload is one the command asks for, at the rates, with the accounts and at the
cost of some moment. -/
def Command.Explains (cmd : Command) (hash : Digest) : Prop :=
  ∃ input, cmd.Asks input ∧ canonicalizePayload input = hash

/-- The first entry under the key, by its id and payload. -/
def Db.KeyHeld (db : Db) (userId : Option Uuid) (key : String) (id : Uuid) (hash : Digest) : Prop :=
  (db.findByIdempotencyKey userId key).map (fun e => (e.id, e.idempotencyHash)) =
    some (id, some hash)

instance (db : Db) (userId : Option Uuid) (key : String) (id : Uuid) (hash : Digest) :
    Decidable (db.KeyHeld userId key id hash) := inferInstanceAs (Decidable (_ = _))

/-- What a command other than a sell does before `postEntry`. -/
def Command.prepare (env : Env) : Command → Option (Sql PostEntryInput)
  | .transfer cmd => some do cmd.check; pure cmd.input
  | .fx cmd => some do cmd.check; pure cmd.input
  | .buy cmd => some do let feeLines ← cmd.buyFeeLines env; pure (cmd.buyInput feeLines)
  | .income cmd => some (pure (cmd.input .income 1))
  | .expense cmd => some (pure (cmd.input .expense (-1)))
  | .sell _ | .reverse _ => none

/-- The call passes its own checks and looks the key up for the tenant. -/
inductive LooksUp (userId : Option Uuid) (key : String) (db : Db) : Call → Prop where
  | sell {env : Env} {cmd : TradeCmd}
      (user : (resolveServiceUserId env cmd.userId [cmd.assetAccountId]).answer db = .ok userId)
      (hkey : trimmedKey cmd.idempotencyKey = some key) : LooksUp userId key db ⟨env, .sell cmd⟩
  | other {c : Call} {p : Sql PostEntryInput} {input : PostEntryInput} {db' : Db}
      (prepare : c.cmd.prepare c.env = some p) (prepared : p.run db = .ok (input, db'))
      (balanced : Balanced input.postings)
      (user : (resolveServiceUserId c.env input.userId (input.postings.map (·.accountId))).answer
        db' = .ok userId)
      (hkey : trimmedKey input.idempotencyKey = some key) : LooksUp userId key db c

/-- The call recorded its entry under the key. -/
structure Call.RecordsUnder (c : Call) (userId : Option Uuid) (key : String) (hash : Digest)
    (db : Db) : Prop where
  records : c.Records db
  entry : (c.exec db).KeyHeld userId key c.env.entryId hash

/-- Entries, postings, lots and consumptions are the same. -/
structure SameLedger (db db' : Db) : Prop where
  journalEntries : db'.journalEntries = db.journalEntries
  postings : db'.postings = db.postings
  lots : db'.lots = db.lots
  lotConsumptions : db'.lotConsumptions = db.lotConsumptions

/-- The law of idempotency for a call under a key that holds the entry `id`. -/
structure RetryLaw (c : Call) (id : Uuid) (hash : Digest) (db : Db) : Prop where
  same : c.cmd.Explains hash → c.program.answer db = .ok ⟨id, true⟩
  differs : ¬ c.cmd.Explains hash → c.program.refusal db = some .idempotencyConflict
  unchanged : SameLedger db (c.exec db)

/-- A sell must be the recorded one; a buy that is the recorded one must come to the
commission line that was recorded. -/
def RetryFaithful (c : Call) (hash : Digest) (db : Db) : Prop :=
  match c.cmd with
  | .sell cmd => (Command.sell cmd).Explains hash
  | .buy cmd => (Command.buy cmd).Explains hash → ∀ feeLines db',
      (cmd.buyFeeLines c.env).run db = .ok (feeLines, db') →
        canonicalizePayload (cmd.buyInput feeLines) = hash
  | _ => True

section Held
variable {env : Env} {db db' : Db} {userId : Option Uuid} {key : String} {id : Uuid} {hash : Digest}

theorem KeyHeld.found (h : db.KeyHeld userId key id hash) :
    ∃ e, db.findByIdempotencyKey userId key = some e ∧ e.id = id ∧
      e.idempotencyHash = some hash := by
  obtain ⟨e, he, hpair⟩ := Option.map_eq_some_iff.mp h
  rw [Prod.mk.injEq] at hpair
  exact ⟨e, he, hpair⟩

/-- What `postEntry` does under a key that is held. -/
theorem postEntry_of_held {input : PostEntryInput} (hb : Balanced input.postings)
    (huser : (resolveServiceUserId env input.userId (input.postings.map (·.accountId))).answer db =
      .ok userId) (hkey : trimmedKey input.idempotencyKey = some key)
    (h : db.KeyHeld userId key id hash) :
    (postEntry env input).run db =
      if canonicalizePayload input = hash then .ok (⟨id, true⟩, db)
      else .error .idempotencyConflict := by
  obtain ⟨e, he, rfl, hhash⟩ := KeyHeld.found h
  have hbal : (Tx.ofExcept ((assertBalanced input.postings).mapError AppError.unbalanced) :
      Sql Unit).run db = .ok ((), db) := by
    rw [assertBalanced_ok.mpr hb]; rfl
  rw [postEntry, postEntryPriced, Tx.run_bind_of_ok hbal,
    Tx.run_bind_of_ok ((readOnly_resolveServiceUserId _ _ _).run_ok.mpr ⟨huser, rfl⟩), hkey,
    Tx.run_bind, findReplay, Tx.run_read_bind, he]
  simp only [Tx.run_require_bind, hhash, reduceCtorEq, false_or, Option.some.injEq]
  by_cases hsame : canonicalizePayload input = hash
  · simp [hsame]
  · simp [hsame, Ne.symm hsame]

theorem recordSell_of_held {cmd : TradeCmd}
    (huser : (resolveServiceUserId env cmd.userId [cmd.assetAccountId]).answer db = .ok userId)
    (hkey : trimmedKey cmd.idempotencyKey = some key) (h : db.KeyHeld userId key id hash) :
    (recordSell env cmd).run db = .ok (⟨id, true⟩, db) := by
  obtain ⟨e, he, rfl, -⟩ := KeyHeld.found h
  rw [recordSell, Tx.run_bind_of_ok ((readOnly_resolveServiceUserId _ _ _).run_ok.mpr ⟨huser, rfl⟩),
    hkey, earlyReplay, Tx.run_read_bind, he]
  rfl

/-! ## Before the look-up -/

theorem prepare_program {cmd : Command} {p : Sql PostEntryInput}
    (h : cmd.prepare env = some p) : cmd.program env = p >>= postEntry env := by
  cases cmd with
  | transfer cmd => cases h; exact (Tx.bind_assoc cmd.check (fun _ => pure cmd.input) (postEntry env)).symm
  | fx cmd => cases h; exact (Tx.bind_assoc cmd.check (fun _ => pure cmd.input) (postEntry env)).symm
  | buy cmd =>
    cases h
    exact (Tx.bind_assoc (cmd.buyFeeLines env) (fun lines => pure (cmd.buyInput lines))
      (postEntry env)).symm
  | sell cmd => cases h
  | income cmd => cases h; rfl
  | expense cmd => cases h; rfl
  | reverse entryId => cases h

/-- The checks write accounts at most, and what they prepare is what the command asks for. -/
theorem prepare_ok {cmd : Command} {p : Sql PostEntryInput} {input : PostEntryInput}
    (h : cmd.prepare env = some p) (hp : p.run db = .ok (input, db')) :
    cmd.Asks input ∧ ∃ accounts, db' = db.withAccounts accounts := by
  have hnone : ∃ accounts, db = db.withAccounts accounts := ⟨[], (withAccounts_nil db).symm⟩
  cases cmd with
  | transfer cmd =>
    cases h
    obtain ⟨_, _, hcheck, hrest⟩ := (Tx.run_bind_ok (p := cmd.check)).mp hp
    have hsame := (readOnly_transferCheck cmd).run_state hcheck
    cases hrest
    subst hsame
    exact ⟨.transfer cmd, hnone⟩
  | fx cmd =>
    cases h
    obtain ⟨_, _, hcheck, hrest⟩ := (Tx.run_bind_ok (p := cmd.check)).mp hp
    have hsame := (readOnly_fxCheck cmd).run_state hcheck
    cases hrest
    subst hsame
    exact ⟨.fx cmd, hnone⟩
  | buy cmd =>
    cases h
    obtain ⟨feeLines, _, hlines, hp⟩ := (Tx.run_bind_ok (p := cmd.buyFeeLines env)).mp hp
    obtain ⟨ws, hws, rfl⟩ := (buyFeeLines_writesOnly cmd env).run_ok hlines
    cases hp
    exact ⟨.buy cmd (buyFeeLines_ok hlines), (applyAll_addsAccount hws).imp fun _ h => h db⟩
  | sell cmd => cases h
  | income cmd => cases h; cases hp; exact ⟨.income cmd, hnone⟩
  | expense cmd => cases h; cases hp; exact ⟨.expense cmd, hnone⟩
  | reverse entryId => cases h

/-- A buy that is prepared has come to its commission line. -/
theorem prepare_buy {cmd : TradeCmd} {p : Sql PostEntryInput} {input : PostEntryInput}
    (h : (Command.buy cmd).prepare env = some p) (hp : p.run db = .ok (input, db')) :
    ∃ feeLines, (cmd.buyFeeLines env).run db = .ok (feeLines, db') ∧
      input = cmd.buyInput feeLines := by
  cases h
  obtain ⟨feeLines, _, hlines, hp⟩ := (Tx.run_bind_ok (p := cmd.buyFeeLines env)).mp hp
  cases hp
  exact ⟨feeLines, hlines, rfl⟩

/-! ## The law -/

/-- Except for a buy, what a command asks for is fixed. -/
theorem retryFaithful_iff {c : Call} {p : Sql PostEntryInput} {input : PostEntryInput}
    (hprep : c.cmd.prepare c.env = some p) (hp : p.run db = .ok (input, db')) :
    RetryFaithful c hash db ↔ (c.cmd.Explains hash → canonicalizePayload input = hash) := by
  obtain ⟨env, cmd⟩ := c
  cases cmd with
  | transfer cmd =>
    have hasks := (prepare_ok hprep hp).1
    cases hasks
    exact iff_of_true trivial fun ⟨i, hi, h⟩ => by cases hi; exact h
  | fx cmd =>
    have hasks := (prepare_ok hprep hp).1
    cases hasks
    exact iff_of_true trivial fun ⟨i, hi, h⟩ => by cases hi; exact h
  | buy cmd =>
    obtain ⟨feeLines, hlines, rfl⟩ := prepare_buy hprep hp
    constructor
    · exact fun h hex => h hex feeLines db' hlines
    · intro h hex feeLines' t ht
      rw [hlines] at ht
      cases ht
      exact h hex
  | sell cmd => cases hprep
  | income cmd =>
    have hasks := (prepare_ok hprep hp).1
    cases hasks
    exact iff_of_true trivial fun ⟨i, hi, h⟩ => by cases hi; exact h
  | expense cmd =>
    have hasks := (prepare_ok hprep hp).1
    cases hasks
    exact iff_of_true trivial fun ⟨i, hi, h⟩ => by cases hi; exact h
  | reverse entryId => cases hprep

/-- The law holds of a call exactly if its payload is compared as it should be. -/
theorem retryLaw_iff_of_held {c : Call} (hlook : LooksUp userId key db c)
    (h : db.KeyHeld userId key id hash) : RetryLaw c id hash db ↔ RetryFaithful c hash db := by
  cases hlook with
  | @sell env cmd huser hkey =>
    have hrun : (recordSell env cmd).run db = .ok (⟨id, true⟩, db) := recordSell_of_held huser hkey h
    constructor
    · intro hlaw
      by_contra hother
      have hrefused := Tx.refusal_eq_some.mp (hlaw.differs hother)
      cases hrefused.symm.trans hrun
    · intro hsame
      refine ⟨fun _ => ?_, fun hother => absurd hsame hother, ?_⟩
      · exact (congrArg (Except.map Prod.fst) hrun : _)
      · rw [show (Call.exec ⟨env, .sell cmd⟩ db) = db from Tx.exec_of_ok hrun]
        exact ⟨rfl, rfl, rfl, rfl⟩
  | @other c p input db' hprep hp hb huser hkey =>
    obtain ⟨hasks, accounts, rfl⟩ := prepare_ok hprep hp
    have hheld : (db.withAccounts accounts).KeyHeld userId key id hash := h
    have hrun : c.program.run db = if canonicalizePayload input = hash then
        .ok (⟨id, true⟩, db.withAccounts accounts) else .error .idempotencyConflict := by
      rw [Call.program, prepare_program hprep, Tx.run_bind_of_ok hp]
      exact postEntry_of_held hb huser hkey hheld
    rw [retryFaithful_iff hprep hp]
    constructor
    · intro hlaw hex
      by_contra hother
      rw [if_neg hother] at hrun
      have hsame := hlaw.same hex
      rw [Tx.answer, hrun] at hsame
      cases hsame
    · intro hsame
      by_cases hpay : canonicalizePayload input = hash
      · rw [if_pos hpay] at hrun
        refine ⟨fun _ => ?_, fun hother => absurd ⟨input, hasks, hpay⟩ hother, ?_⟩
        · rw [Tx.answer, hrun]; rfl
        · rw [Call.exec, Tx.exec_of_ok hrun]
          exact ⟨rfl, rfl, rfl, rfl⟩
      · rw [if_neg hpay] at hrun
        refine ⟨fun hex => absurd (hsame hex) hpay, fun _ => Tx.refusal_eq_some.mpr hrun, ?_⟩
        rw [Call.exec, Tx.exec_of_error hrun]
        exact ⟨rfl, rfl, rfl, rfl⟩

/-! ## In a run -/

theorem keyHeld_outcome (env : Env) (db : Db) (cmd : Command) (r : PostResult) (db' : Db)
    (_ : LedgerInv db) (h : db.KeyHeld userId key id hash) (ho : cmd.Outcome env db r db') :
    db'.KeyHeld userId key id hash := by
  obtain ⟨e, he, rfl, hhash⟩ := KeyHeld.found h
  cases ho with
  | replayed i accounts => exact h
  | posted accounts _ hp =>
    have hfind : db'.findByIdempotencyKey userId key = some e := by
      rw [hp.written.result, Db.findByIdempotencyKey, Db.recorded, List.find?_append]
      exact Option.or_eq_some_iff.mpr (.inl he)
    rw [Db.KeyHeld, hfind, Option.map_some, hhash]
  | @reversed f hf =>
    have hfind : (db.reversed env f).findByIdempotencyKey userId key = some (e.voided f.id) := by
      rw [Db.findByIdempotencyKey, Db.reversed, List.find?_append, List.find?_map]
      simp only [Function.comp_def, voided_userId, voided_idempotencyKey]
      exact Option.or_eq_some_iff.mpr (.inl (Option.map_eq_some_iff.mpr ⟨e, he, rfl⟩))
    rw [Db.KeyHeld, hfind, Option.map_some, voided_id, voided_idempotencyHash, hhash]

/-- The recorded payload is that of the command that recorded it. -/
theorem Call.RecordsUnder.explains {c : Call} (hi : LedgerInv db)
    (h : c.RecordsUnder userId key hash db) : c.cmd.Explains hash := by
  obtain ⟨e, he, hid, hhash⟩ := KeyHeld.found h.entry
  rcases c.exec_outcome hi.lotIds with ⟨⟨err, href⟩, -⟩ | ⟨r, hrun, ho⟩
  · have hrec := h.records
    simp [Call.Records, Tx.answer, href, Except.map, Except.toOption] at hrec
  have hr : r = ⟨c.env.entryId, false⟩ := by
    have hrec := h.records
    simpa [Call.Records, Tx.answer, hrun, Except.map, Except.toOption] using hrec
  clear h hrun
  generalize c.exec db = db' at he ho
  obtain ⟨env, cmd⟩ := c
  cases ho with
  | replayed i accounts => cases hr
  | @posted _ input u _ accounts asks hp =>
    have hmem := List.mem_of_find?_eq_some he
    rw [hp.written.result] at hmem
    rcases List.mem_append.mp hmem with hold | hnew
    · exact absurd hid (hp.written.entry.1 e hold)
    · rw [List.mem_singleton.mp hnew] at hhash
      obtain ⟨_, -, hpay⟩ := Option.map_eq_some_iff.mp hhash
      exact ⟨input, asks, hpay⟩
  | @reversed f hf =>
    have hmem := List.mem_of_find?_eq_some he
    rcases List.mem_append.mp hmem with hold | hnew
    · obtain ⟨g, hg, rfl⟩ := List.mem_map.mp hold
      rw [voided_id] at hid
      exact absurd hid (hf.insertable.1 g hg)
    · rw [List.mem_singleton.mp hnew] at hhash
      cases hhash

end Held

/-- A command is retried in any run after it was recorded: the law of idempotency holds
of the retry exactly if a sell is the recorded one, and a buy that is the recorded one
comes to the recorded commission line. -/
theorem retryLaw_iff {db : Db} (h : db.EmptyLedger) (before after : List Call)
    {first second : Call} {userId : Option Uuid} {key : String} {hash : Digest}
    (hfirst : first.RecordsUnder userId key hash (runCalls before db))
    (hsecond : LooksUp userId key (runCalls (before ++ first :: after) db) second) :
    RetryLaw second first.env.entryId hash (runCalls (before ++ first :: after) db) ↔
      RetryFaithful second hash (runCalls (before ++ first :: after) db) := by
  have hi := first.exec_inv (runCalls_inv before h.inv)
  have hheld := (runCalls_keeps keyHeld_outcome after hi hfirst.entry).2
  rw [runCalls, runAll_append] at hsecond ⊢
  exact retryLaw_iff_of_held hsecond hheld

/-- A trade under a key. -/
def demoKeyed (quantity value : Int) : TradeCmd :=
  { demoTrade quantity value with idempotencyKey := some "k" }

/-- Ten coins are bought, two are sold under a key. -/
def demoBought : List Call := [⟨{ entryId := 1 }, .buy (demoTrade 10 1000)⟩]
def demoSold : Call := ⟨{ entryId := 2 }, .sell (demoKeyed 2 300)⟩

/-- What the first sell is recorded with: cost 200, a gain of 100. -/
def demoSoldPayload : Digest := canonicalizePayload ((demoKeyed 2 300).sellInput (.ofInt 200)
  [{ accountId := 15, assetId := 1, quantity := .ofInt (-100), baseValue := .ofInt (-100) }])

theorem demoSold_recorded :
    demoSold.RecordsUnder (some 1) "k" demoSoldPayload (runCalls demoBought demo) :=
  ⟨by decide, by decide⟩

theorem demoSold_retryLaw :
    RetryLaw demoSold 2 demoSoldPayload (runCalls (demoBought ++ [demoSold]) demo) ↔
      RetryFaithful demoSold demoSoldPayload (runCalls (demoBought ++ [demoSold]) demo) :=
  retryLaw_iff demo_empty demoBought [] demoSold_recorded (.sell (by decide) (by decide))

/-- Selling five coins under the key of the sale of two gets that sale's entry back. -/
theorem sell_ignores_payload :
    (recordSell { entryId := 3 } (demoKeyed 5 900)).answer
        (runCalls (demoBought ++ [demoSold]) demo) = .ok ⟨2, true⟩ ∧
      ¬ (Command.sell (demoKeyed 5 900)).Explains demoSoldPayload ∧
      ¬ RetryLaw ⟨{ entryId := 3 }, .sell (demoKeyed 5 900)⟩ 2 demoSoldPayload
        (runCalls (demoBought ++ [demoSold]) demo) := by
  have hanswer : (recordSell { entryId := 3 } (demoKeyed 5 900)).answer
      (runCalls (demoBought ++ [demoSold]) demo) = .ok ⟨2, true⟩ := by rfl
  have hother : ¬ (Command.sell (demoKeyed 5 900)).Explains demoSoldPayload := by
    rintro ⟨input, hasks, hpay⟩
    cases hasks
    have hquantity : some (Decimal.ofInt 5) = some (.ofInt 2) :=
      congrArg (fun d => d.closeLot.map (·.quantity)) hpay
    exact absurd hquantity (by decide)
  refine ⟨hanswer, hother, fun hlaw => ?_⟩
  have hrefused := Tx.refusal_eq_some.mp (hlaw.differs hother)
  rw [Tx.answer] at hanswer
  change (recordSell _ _).run _ = _ at hrefused
  rw [hrefused] at hanswer
  cases hanswer

end Pwos
