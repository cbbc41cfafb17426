import Pwos.Ledger.Commands
import Pwos.Ledger.Run

/-!
# Runs of commands

What a recorded command does, by itself and in a run: it may add accounts for its
counter-legs, then it replays an earlier entry, or posts the entry it asks for, or
reverses one.
-/

namespace Pwos

/-- The command asks for the entry: its own lines, and whatever counter-legs, rates and
cost the database gives. -/
inductive Command.Asks : Command → PostEntryInput → Prop where
  | transfer (cmd : TransferCmd) : Asks (.transfer cmd) cmd.input
  | fx (cmd : FxCmd) : Asks (.fx cmd) cmd.input
  | buy (cmd : TradeCmd) {feeLines : List DraftPosting}
      (fee : ∀ p ∈ feeLines, 0 < cmd.feeBase ∧ ∃ acct units, p = cmd.buyFeeLine acct units) :
      Asks (.buy cmd) (cmd.buyInput feeLines)
  | sell (cmd : TradeCmd) (cost : Decimal) {pnlLines : List DraftPosting}
      (pnl : ∀ p ∈ pnlLines, ∃ acct units, p = cmd.sellPnlLine acct units (cmd.netProceeds - cost)) :
      Asks (.sell cmd) (cmd.sellInput cost pnlLines)
  | income (cmd : FlowCmd) : Asks (.income cmd) (cmd.input .income 1)
  | expense (cmd : FlowCmd) : Asks (.expense cmd) (cmd.input .expense (-1))

/-! ## Counter-legs -/

def Write.AddsAccount (w : Write) : Prop := ∃ a, w = .insertAccount a

@[simp] theorem withAccounts_nil (db : Db) : db.withAccounts [] = db := by
  simp [Db.withAccounts]

theorem applyAll_addsAccount {ws : List Write} (h : ∀ w ∈ ws, w.AddsAccount) :
    ∃ accounts, ∀ db : Db, applyAll ws db = db.withAccounts accounts := by
  induction ws with
  | nil => exact ⟨[], fun db => (withAccounts_nil db).symm⟩
  | cons w ws ih =>
    obtain ⟨a, rfl⟩ := h w (by simp)
    obtain ⟨as, has⟩ := ih fun v hv => h v (by simp [hv])
    refine ⟨a :: as, fun db => (has (db.withAccounts [a])).trans ?_⟩
    simp [Db.withAccounts]

theorem readOnly_resolveSystemAccount (code : String) (userId : Option Uuid) :
    (resolveSystemAccount code userId).ReadOnly := by
  unfold resolveSystemAccount
  refine (Tx.readOnly_read _).bind fun own => ?_
  split
  · exact Tx.readOnly_done _
  · exact Tx.readOnly_read _

theorem readOnly_findBaseAssetId : findBaseAssetId.ReadOnly := by
  unfold findBaseAssetId
  refine (Tx.readOnly_read _).bind fun usd => ?_
  split
  · exact Tx.readOnly_done _
  refine (Tx.readOnly_read _).bind fun irt => ?_
  split
  · exact Tx.readOnly_done _
  · exact (Tx.readOnly_read _).bind fun _ => Tx.readOnly_done _

theorem readOnly_assertSystemAccount (account : Option Account) (code label : String) :
    (assertSystemAccount account code label).ReadOnly := by
  cases account <;> trivial

theorem readOnly_counterUnits (account : Account) (cashUnitsPerUsd : Decimal)
    (userId : Option Uuid) : (counterUnits account cashUnitsPerUsd userId).ReadOnly := by
  unfold counterUnits nativeUnitsPerUsd
  split
  · exact Tx.readOnly_done _
  split
  · exact Tx.readOnly_done _
  refine ((readOnly_nativeUnitPriceUsd _ _).attempt).bind fun r => ?_
  cases r <;> exact Tx.readOnly_done _

section AddsAccount

theorem insertAccount_writesOnly (a : Account) :
    (insertAccountOnConflictDoNothing a).WritesOnly Write.AddsAccount := by
  intro db
  constructor
  · intro w hw
    simp only at hw
    split at hw
    · cases hw
    · exact ⟨a, List.mem_singleton.mp hw⟩
  · simp only
    split
    · trivial
    · split <;> trivial

theorem ensureSystemAccount_writesOnly (env : Env) (code name : String) (type : AccountType)
    (userId : Option Uuid) :
    (ensureSystemAccount env code name type userId).WritesOnly Write.AddsAccount := by
  unfold ensureSystemAccount
  refine (readOnly_resolveSystemAccount _ _).writesOnly.bind fun own => ?_
  split
  · trivial
  refine readOnly_findBaseAssetId.writesOnly.bind fun base => ?_
  refine (insertAccount_writesOnly _).bind fun created => ?_
  split
  · trivial
  · exact (readOnly_resolveSystemAccount _ _).writesOnly

theorem chosenOrEnsured_writesOnly {ensure : Sql (Option Account)}
    (h : ensure.WritesOnly Write.AddsAccount) (chosen userId : Option Uuid) :
    (chosenOrEnsured chosen userId ensure).WritesOnly Write.AddsAccount := by
  cases chosen with
  | none => exact h
  | some a =>
    refine (Tx.readOnly_read _).writesOnly.bind fun own => ?_
    cases own with
    | none => exact h
    | some a => trivial

variable (cmd : TradeCmd) (env : Env)

theorem buyFeeLines_writesOnly : (cmd.buyFeeLines env).WritesOnly Write.AddsAccount := by
  unfold TradeCmd.buyFeeLines
  split
  · refine (chosenOrEnsured_writesOnly (ensureSystemAccount_writesOnly _ _ _ _ _) _ _).bind
      fun acct => ?_
    refine (readOnly_assertSystemAccount _ _ _).writesOnly.bind fun _ => ?_
    exact (readOnly_counterUnits _ _ _).writesOnly.bind fun _ => trivial
  · trivial

theorem ensureRealizedPnlAccount_writesOnly (userId : Option Uuid) :
    (ensureRealizedPnlAccount env userId).WritesOnly Write.AddsAccount := by
  unfold ensureRealizedPnlAccount
  refine (readOnly_resolveSystemAccount _ _).writesOnly.bind fun own => ?_
  split
  · trivial
  · exact ensureSystemAccount_writesOnly _ _ _ _ _

theorem sellPnlLines_writesOnly (userId : Option Uuid) (realized : Decimal) :
    (cmd.sellPnlLines env userId realized).WritesOnly Write.AddsAccount := by
  unfold TradeCmd.sellPnlLines
  split
  · trivial
  · refine (chosenOrEnsured_writesOnly (ensureRealizedPnlAccount_writesOnly _ _) _ _).bind
      fun acct => ?_
    refine (readOnly_assertSystemAccount _ _ _).writesOnly.bind fun _ => ?_
    exact (readOnly_counterUnits _ _ _).writesOnly.bind fun _ => trivial

end AddsAccount

/-- An accepted counter-leg is a line of the command. -/
theorem buyFeeLines_ok {cmd : TradeCmd} {env : Env} {db db' : Db} {lines : List DraftPosting}
    (h : (cmd.buyFeeLines env).run db = .ok (lines, db')) :
    ∀ p ∈ lines, 0 < cmd.feeBase ∧ ∃ acct units, p = cmd.buyFeeLine acct units := by
  unfold TradeCmd.buyFeeLines at h
  split at h
  · rename_i hfee
    obtain ⟨_, _, -, h⟩ := Tx.run_bind_ok.mp h
    obtain ⟨acct, _, -, h⟩ := Tx.run_bind_ok.mp h
    obtain ⟨units, _, -, h⟩ := Tx.run_bind_ok.mp h
    cases h
    intro p hp
    exact ⟨hfee, acct, units, List.mem_singleton.mp hp⟩
  · cases h
    simp

theorem sellPnlLines_ok {cmd : TradeCmd} {env : Env} {userId : Option Uuid} {realized : Decimal}
    {db db' : Db} {lines : List DraftPosting}
    (h : (cmd.sellPnlLines env userId realized).run db = .ok (lines, db')) :
    ∀ p ∈ lines, ∃ acct units, p = cmd.sellPnlLine acct units realized := by
  unfold TradeCmd.sellPnlLines at h
  split at h
  · cases h
    simp
  · obtain ⟨_, _, -, h⟩ := Tx.run_bind_ok.mp h
    obtain ⟨acct, _, -, h⟩ := Tx.run_bind_ok.mp h
    obtain ⟨units, _, -, h⟩ := Tx.run_bind_ok.mp h
    cases h
    intro p hp
    exact ⟨acct, units, List.mem_singleton.mp hp⟩

/-! ## One command -/

/-- What an accepted command did. -/
inductive Command.Outcome (env : Env) (db : Db) : Command → PostResult → Db → Prop where
  | replayed {cmd : Command} (id : Uuid) (accounts : List Account) :
      Outcome env db cmd ⟨id, true⟩ (db.withAccounts accounts)
  | posted {cmd : Command} {input : PostEntryInput} {userId : Option Uuid} {db' : Db}
      (accounts : List Account) (asks : cmd.Asks input)
      (posted : Posted env input userId (db.withAccounts accounts) db') :
      Outcome env db cmd ⟨env.entryId, false⟩ db'
  | reversed {e : JournalEntry} (reversible : Reversible db env e) :
      Outcome env db (.reverse e.id) ⟨env.entryId, false⟩ (db.reversed env e)

section Outcome
variable {env : Env} {db db' : Db} {r : PostResult}

theorem Command.Outcome.replayed' {cmd : Command} (id : Uuid) :
    cmd.Outcome env db ⟨id, true⟩ db := by
  have h : cmd.Outcome env db ⟨id, true⟩ (db.withAccounts []) := .replayed id []
  rwa [withAccounts_nil] at h

/-- After the counter-legs: replayed or posted. -/
theorem outcome_of_post {cmd : Command} {priced : Option (List OpenLot)} {input : PostEntryInput}
    {accounts : List Account} (hnd : (db.lots.map (·.id)).Nodup) (hasks : cmd.Asks input)
    (h : (postEntryPriced priced env input).run (db.withAccounts accounts) = .ok (r, db')) :
    cmd.Outcome env db r db' := by
  have hnd' : ((db.withAccounts accounts).lots.map (·.id)).Nodup := hnd
  rcases postEntryPriced_ok hnd' h with ⟨hreplay, rfl⟩ | ⟨rfl, u, hp⟩
  · obtain ⟨_, _, found, -, -, -, rfl, -⟩ := hreplay
    exact .replayed _ _
  · exact .posted accounts hasks hp

theorem outcome_of_post' {cmd : Command} {input : PostEntryInput}
    (hnd : (db.lots.map (·.id)).Nodup) (hasks : cmd.Asks input)
    (h : (postEntry env input).run db = .ok (r, db')) : cmd.Outcome env db r db' := by
  rw [← withAccounts_nil db] at h
  exact outcome_of_post hnd hasks h

theorem readOnly_transferCheck (cmd : TransferCmd) : cmd.check.ReadOnly :=
  (Tx.readOnly_read _).bind fun _ => (Tx.readOnly_read _).bind fun _ =>
    (Tx.readOnly_require _ _).bind fun _ => Tx.readOnly_require _ _

theorem recordTransfer_outcome {cmd : TransferCmd} (hnd : (db.lots.map (·.id)).Nodup)
    (h : (recordTransfer env cmd).run db = .ok (r, db')) :
    (Command.transfer cmd).Outcome env db r db' := by
  obtain ⟨_, h⟩ := (readOnly_transferCheck cmd).run_bind_ok h
  exact outcome_of_post' hnd (.transfer cmd) h

theorem readOnly_checkRate (cmd : FxCmd) : cmd.checkRate.ReadOnly := by
  unfold FxCmd.checkRate
  split
  · exact Tx.readOnly_done _
  · exact (Tx.readOnly_require _ _).bind fun _ => (Tx.readOnly_require _ _).bind fun _ =>
      Tx.readOnly_require _ _

theorem readOnly_fxCheck (cmd : FxCmd) : cmd.check.ReadOnly :=
  (Tx.readOnly_require _ _).bind fun _ => (Tx.readOnly_read _).bind fun _ =>
    (Tx.readOnly_read _).bind fun _ => (Tx.readOnly_require _ _).bind fun _ =>
      (Tx.readOnly_require _ _).bind fun _ => (readOnly_checkRate cmd).bind fun _ =>
        Tx.readOnly_require _ _

theorem recordFx_outcome {cmd : FxCmd} (hnd : (db.lots.map (·.id)).Nodup)
    (h : (recordFx env cmd).run db = .ok (r, db')) : (Command.fx cmd).Outcome env db r db' := by
  obtain ⟨_, h⟩ := (readOnly_fxCheck cmd).run_bind_ok h
  exact outcome_of_post' hnd (.fx cmd) h

theorem recordBuy_outcome {cmd : TradeCmd} (hnd : (db.lots.map (·.id)).Nodup)
    (h : (recordBuy env cmd).run db = .ok (r, db')) : (Command.buy cmd).Outcome env db r db' := by
  obtain ⟨lines, db₁, h₁, h⟩ := Tx.run_bind_ok.mp h
  obtain ⟨ws, hws, rfl⟩ := (buyFeeLines_writesOnly cmd env).run_ok h₁
  obtain ⟨accounts, has⟩ := applyAll_addsAccount hws
  rw [has] at h
  exact outcome_of_post hnd (.buy cmd (buyFeeLines_ok h₁)) h

theorem recordSell_outcome {cmd : TradeCmd} (hnd : (db.lots.map (·.id)).Nodup)
    (h : (recordSell env cmd).run db = .ok (r, db')) : (Command.sell cmd).Outcome env db r db' := by
  obtain ⟨userId, h⟩ := (readOnly_resolveServiceUserId _ _ _).run_bind_ok h
  obtain ⟨early, db₁, h₁, h⟩ := Tx.run_bind_ok.mp h
  have hread : (earlyReplay userId (trimmedKey cmd.idempotencyKey)).ReadOnly := by
    unfold earlyReplay
    split
    · exact Tx.readOnly_done _
    · exact Tx.readOnly_read _
  obtain rfl := hread.run_state h₁
  cases early with
  | some found =>
    cases h
    exact .replayed' found.id
  | none =>
    obtain ⟨lots, h⟩ := (Tx.readOnly_read _).run_bind_ok h
    obtain ⟨lines, db₂, h₂, h⟩ := Tx.run_bind_ok.mp h
    obtain ⟨ws, hws, rfl⟩ := (sellPnlLines_writesOnly cmd env _ _).run_ok h₂
    obtain ⟨accounts, has⟩ := applyAll_addsAccount hws
    rw [has] at h
    exact outcome_of_post hnd (.sell cmd _ (sellPnlLines_ok h₂)) h

/-- Every accepted command replays, posts what it asks for, or reverses. -/
theorem Command.outcome (cmd : Command) (hnd : (db.lots.map (·.id)).Nodup)
    (h : (cmd.program env).run db = .ok (r, db')) : cmd.Outcome env db r db' := by
  cases cmd with
  | transfer cmd => exact recordTransfer_outcome hnd h
  | fx cmd => exact recordFx_outcome hnd h
  | buy cmd => exact recordBuy_outcome hnd h
  | sell cmd => exact recordSell_outcome hnd h
  | income cmd => exact outcome_of_post' hnd (.income cmd) h
  | expense cmd => exact outcome_of_post' hnd (.expense cmd) h
  | reverse entryId =>
    obtain ⟨e, rfl, he, rfl, rfl⟩ := (reverseEntry_ok hnd).mp h
    exact .reversed he

theorem Command.Outcome.inv {cmd : Command} (hi : LedgerInv db) (h : cmd.Outcome env db r db') :
    LedgerInv db' := by
  cases h with
  | replayed id accounts => exact hi.step (.provision accounts)
  | posted accounts _ hp =>
    have hi' := hi.step (.provision accounts)
    exact hi'.step (hp.step hi'.lotIds)
  | reversed he => exact hi.step (.reverse he)

end Outcome

/-! ## Runs -/

/-- A command, with what the world supplies when it is made. -/
structure Call where
  env : Env
  cmd : Command

namespace Call

def program (c : Call) : Sql PostResult := c.cmd.program c.env

def exec (c : Call) (db : Db) : Db := c.program.exec db

/-- The call records a new entry. -/
def Records (c : Call) (db : Db) : Prop :=
  (c.program.answer db).toOption = some ⟨c.env.entryId, false⟩

instance (c : Call) (db : Db) : Decidable (c.Records db) := inferInstanceAs (Decidable (_ = _))

/-- A call is refused and changes nothing, or it has an outcome. -/
theorem exec_outcome (c : Call) {db : Db} (hnd : (db.lots.map (·.id)).Nodup) :
    (c.program.Refused db ∧ c.exec db = db) ∨
      ∃ r, c.program.run db = .ok (r, c.exec db) ∧ c.cmd.Outcome c.env db r (c.exec db) := by
  rcases c.program.ok_or_refused db with ⟨r, db', h⟩ | h
  · refine .inr ⟨r, ?_, ?_⟩
    · rw [exec, Tx.exec_of_ok h, h]
    · rw [exec, Tx.exec_of_ok h]
      exact c.cmd.outcome hnd h
  · exact .inl ⟨h, h.exec⟩

theorem exec_inv (c : Call) {db : Db} (hi : LedgerInv db) : LedgerInv (c.exec db) := by
  rcases c.exec_outcome hi.lotIds with ⟨-, h⟩ | ⟨r, -, h⟩
  · rwa [h]
  · exact h.inv hi

end Call

def runCalls (calls : List Call) (db : Db) : Db := runAll Call.exec calls db

theorem runCalls_inv (calls : List Call) {db : Db} (hi : LedgerInv db) :
    LedgerInv (runCalls calls db) := runAll_keeps (fun c _ => c.exec_inv) calls hi

/-- What every outcome keeps, every run of commands keeps. -/
theorem runCalls_keeps {I : Db → Prop}
    (step : ∀ env db cmd r db', LedgerInv db → I db → Command.Outcome env db cmd r db' → I db')
    (calls : List Call) {db : Db} (hi : LedgerInv db) (hI : I db) :
    LedgerInv (runCalls calls db) ∧ I (runCalls calls db) := by
  refine runAll_keeps (I := fun s => LedgerInv s ∧ I s) ?_ calls ⟨hi, hI⟩
  rintro c s ⟨hi, hs⟩
  refine ⟨c.exec_inv hi, ?_⟩
  rcases c.exec_outcome hi.lotIds with ⟨-, h⟩ | ⟨r, -, h⟩
  · rwa [h]
  · exact step _ _ _ _ _ hi hs h

/-- User 1 buys or sells coins for dollars. -/
def demoTrade (quantity value : Int) : TradeCmd :=
  { entryDate := 1, description := "معامله", assetAccountId := 12, cashAccountId := 10
    assetId := 3, quantity := .ofInt quantity, cashAssetId := 1, cashQuantity := .ofInt value
    baseValue := .ofInt value, userId := some 1 }

end Pwos
