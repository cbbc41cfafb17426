import Pwos.Ledger.Statements
import Pwos.Lib.Interleaving
import Pwos.Setup.OpeningEntry

/-!
# Setups that run at once

Any number of direct calls of `completeSetup` for one user. They check whether the setup was done,
then wait for the row of the user, and do not check again: nothing in the tables keeps a second
opening entry out. Where every call that comes to insert its row finds the setup not yet done, one
call commits at most (`setups_once`).
-/

namespace Pwos

/-! ## What a setup writes -/

/-- Writes into other tables than the journal and the state of the setup. -/
def Write.OfSetup : Write → Prop
  | .insertAsset _ | .restoreAsset _ | .insertAccount _ | .insertFxSnapshot _ => True
  | _ => False

/-- The writes add these entries and these states. -/
structure SetsUp (ws : List Write) (es : List JournalEntry) (ss : List UserSetupState) : Prop where
  entries : ∀ db : Db, (applyAll ws db).journalEntries = db.journalEntries ++ es
  states : ∀ db : Db, (applyAll ws db).userSetupState = db.userSetupState ++ ss

section SetsUp
variable {ws vs : List Write} {es es' : List JournalEntry} {ss ss' : List UserSetupState}

theorem SetsUp.append (h : SetsUp ws es ss) (h' : SetsUp vs es' ss') :
    SetsUp (ws ++ vs) (es ++ es') (ss ++ ss') where
  entries := by simp [h.entries, h'.entries]
  states := by simp [h.states, h'.states]

theorem setsUp_nil : SetsUp [] [] [] := ⟨by simp, by simp⟩

theorem setsUp_quiet (h : ∀ w ∈ ws, SetsUp [w] [] []) : SetsUp ws [] [] := by
  induction ws with
  | nil => exact setsUp_nil
  | cons w ws ih =>
    exact (h w List.mem_cons_self).append (ih fun v hv => h v (List.mem_cons_of_mem w hv))

theorem setsUp_aside (h : ∀ w ∈ ws, w.OfSetup) : SetsUp ws [] [] := by
  refine setsUp_quiet fun w hw => ?_
  have hset := h w hw
  cases w <;> first
    | exact ⟨fun _ => (List.append_nil _).symm, fun _ => (List.append_nil _).symm⟩
    | exact hset.elim

theorem setsUp_onLots (h : ∀ w ∈ ws, w.OnLots) : SetsUp ws [] [] := by
  refine setsUp_quiet fun w hw => ?_
  have hlots := h w hw
  cases w <;> first
    | exact ⟨fun _ => (List.append_nil _).symm, fun _ => (List.append_nil _).symm⟩
    | exact hlots.elim

theorem setsUp_posting {lots : List Write} (e : JournalEntry) (ps : List Posting)
    (h : ∀ w ∈ lots, w.OnLots) : SetsUp (.insertEntry e :: .insertPostings ps :: lots) [e] [] := by
  have hentry : SetsUp [.insertEntry e, .insertPostings ps] [e] [] :=
    ⟨fun _ => rfl, fun _ => (List.append_nil _).symm⟩
  exact hentry.append (setsUp_onLots h)

end SetsUp

section Programs
variable {rules : SetupRules} {env : Env} {ids : SetupIds} {userId : Uuid}
  {assetMap : String → Option Uuid} {accounts : List Account} {rates : SetupRates}

theorem insertRequiredAsset_ofSetup (row : String × String) :
    (insertRequiredAsset rules ids row).WritesOnly Write.OfSetup := by
  refine fun s => ⟨?_, trivial⟩
  intro w hw
  dsimp only at hw
  split at hw
  · cases hw
  · rw [List.mem_singleton.mp hw]
    trivial

theorem reviveSymbol_ofSetup (symbol : String) : (reviveSymbol symbol).WritesOnly Write.OfSetup := by
  refine Tx.writesOnly_insert fun s w hw => ?_
  obtain ⟨a, -, rfl⟩ := List.mem_map.mp hw
  trivial

theorem reviveAsset_ofSetup (asset : Asset) : (reviveAsset asset).WritesOnly Write.OfSetup := by
  refine Tx.writesOnly_insert fun s w hw => ?_
  rw [List.mem_singleton.mp hw]
  trivial

theorem insertNewAsset_ofSetup (asset : Asset) : (insertNewAsset asset).WritesOnly Write.OfSetup := by
  refine Tx.writesOnly_insert fun s w hw => ?_
  rw [List.mem_singleton.mp hw]
  trivial

theorem insertAccount_ofSetup (a : Account) :
    (insertAccountOnConflictDoNothing a).WritesOnly Write.OfSetup := by
  intro s
  constructor
  · intro w hw
    dsimp only at hw
    split at hw
    · cases hw
    · rw [List.mem_singleton.mp hw]
      trivial
  · dsimp only
    split
    · trivial
    · split <;> trivial

theorem fillChartRow_ofSetup (row : ChartRow) :
    (fillChartRow env ids userId assetMap row).WritesOnly Write.OfSetup := by
  refine (Tx.readOnly_read _).writesOnly.bind fun existing => ?_
  split
  · trivial
  · refine (insertAccount_ofSetup _).bind fun created => ?_
    split
    · trivial
    · exact (Tx.readOnly_read _).writesOnly.bind fun _ => (Tx.readOnly_require _ _).writesOnly

theorem openChart_ofSetup (plan : SetupPlan) :
    (openChart rules env ids userId assetMap plan).WritesOnly Write.OfSetup := by
  refine (writesOnly_each _ fun row => fillChartRow_ofSetup row).bind fun _ => ?_
  refine (Tx.readOnly_read _).writesOnly.bind fun _ => ?_
  refine (Tx.readOnly_ofExcept _).writesOnly.bind fun _ => ?_
  exact (Tx.readOnly_require _ _).writesOnly.bind fun _ => trivial

theorem gather_ofSetup {α β : Type} {f : α → Sql (Option β)}
    (h : ∀ x, (f x).WritesOnly Write.OfSetup) (xs : List α) :
    (gather xs f).WritesOnly Write.OfSetup := by
  induction xs with
  | nil => trivial
  | cons x xs ih => exact (h x).bind fun _ => ih.bind fun _ => trivial

theorem readOnly_moneyLine (accountId : Option Uuid) (amount : Option Decimal) (rate : Decimal)
    (memo : String) : (moneyLine accountId amount rate memo).ReadOnly := by
  refine (Tx.readOnly_ofExcept _).bind fun qty => ?_
  split
  · trivial
  split
  · trivial
  refine Tx.ReadOnly.bind ?_ fun _ => trivial
  refine (Tx.readOnly_read _).bind fun asset => ?_
  split
  · trivial
  split
  · exact (Tx.readOnly_require _ _).bind fun _ => trivial
  · trivial

theorem readOnly_cryptoLine (pick : CryptoPick) :
    (cryptoLine assetMap accounts rates pick).ReadOnly := by
  refine (Tx.readOnly_ofExcept _).bind fun qty => ?_
  split
  · split
    · trivial
    · exact (Tx.readOnly_ofExcept _).bind fun _ => (Tx.readOnly_ofExcept _).bind fun _ => trivial
  · trivial

theorem readOnly_goldLine (input : SetupInput) (price : Decimal) :
    (goldLine assetMap accounts rates input price).ReadOnly := by
  refine (Tx.readOnly_ofExcept _).bind fun qty => ?_
  split
  · trivial
  · split <;> trivial

theorem ensureHoldingAccount_ofSetup (code name : String) (assetId : Uuid) :
    (ensureHoldingAccount env ids userId code name assetId).WritesOnly Write.OfSetup := by
  refine (Tx.readOnly_read _).writesOnly.bind fun existing => ?_
  split
  · trivial
  · refine (insertAccount_ofSetup _).bind fun created => ?_
    split
    · trivial
    · exact (Tx.readOnly_read _).writesOnly

theorem registerInstrument_ofSetup (kind : InstrumentKind) (symbol : String) (name : Option String) :
    (registerInstrument rules env ids userId kind symbol name).WritesOnly Write.OfSetup := by
  have haccount (assetId : Uuid) (name : String) :
      (ensureInstrumentAccount rules env ids userId assetId name symbol).WritesOnly Write.OfSetup :=
    (ensureHoldingAccount_ofSetup _ _ _).bind fun _ => trivial
  refine (Tx.readOnly_read _).writesOnly.bind fun existing => ?_
  split
  · exact (reviveAsset_ofSetup _).bind fun _ => (haccount _ _).bind fun _ => trivial
  · exact (insertNewAsset_ofSetup _).bind fun _ => (haccount _ _).bind fun _ => trivial

theorem registerWallexAsset_ofSetup (symbol : String) :
    (registerWallexAsset rules env ids userId symbol).WritesOnly Write.OfSetup := by
  refine (Tx.readOnly_read _).writesOnly.bind fun entry => ?_
  refine (Tx.readOnly_require _ _).writesOnly.bind fun _ => ?_
  refine Tx.WritesOnly.bind ?_ fun assetId => ?_
  · refine (Tx.readOnly_read _).writesOnly.bind fun existing => ?_
    split
    · exact (reviveAsset_ofSetup _).bind fun _ => trivial
    · refine (Tx.readOnly_ofExcept _).writesOnly.bind fun _ => ?_
      exact (insertNewAsset_ofSetup _).bind fun _ => trivial
  · refine (ensureHoldingAccount_ofSetup _ _ _).bind fun account => ?_
    split <;> trivial

theorem instrumentLine_ofSetup (instrument : SetupInstrument) :
    (instrumentLine rules env ids userId rates instrument).WritesOnly Write.OfSetup := by
  unfold instrumentLine
  split
  · trivial
  refine Tx.WritesOnly.bind ?_ fun registered => ?_
  · unfold registerSetupInstrument
    split
    · exact registerWallexAsset_ofSetup _
    · exact registerInstrument_ofSetup _ _ _
  · split
    · trivial
    refine (Tx.readOnly_ofExcept _).writesOnly.bind fun qty => ?_
    split
    · trivial
    refine (Tx.readOnly_ofExcept _).writesOnly.bind fun _ => ?_
    exact (Tx.readOnly_ofExcept _).writesOnly.bind fun _ => trivial

theorem openingLines_ofSetup (plan : SetupPlan) :
    (openingLines rules env ids userId assetMap accounts rates plan).WritesOnly Write.OfSetup := by
  have hplace (pick : TomanPick) : (placeLine rules accounts rates pick).ReadOnly := by
    unfold placeLine
    split
    · trivial
    · exact readOnly_moneyLine _ _ _ _
  refine (Tx.readOnly_ofExcept _).writesOnly.bind fun _ => ?_
  refine (readOnly_moneyLine _ _ _ _).writesOnly.bind fun _ => ?_
  refine (gather_ofSetup (fun _ => (readOnly_moneyLine _ _ _ _).writesOnly) _).bind fun _ => ?_
  refine (readOnly_moneyLine _ _ _ _).writesOnly.bind fun _ => ?_
  refine (gather_ofSetup (fun pick => (hplace pick).writesOnly) _).bind fun _ => ?_
  refine (gather_ofSetup (fun pick => (readOnly_cryptoLine pick).writesOnly) _).bind fun _ => ?_
  refine (readOnly_goldLine _ _).writesOnly.bind fun _ => ?_
  exact (gather_ofSetup instrumentLine_ofSetup _).bind fun _ => trivial

/-- The opening entry, and the rate frozen with it. -/
theorem postOpening_yields (lines : List OpeningLine) :
    (postOpening env userId assetMap accounts rates lines).Yields
      (fun _ ws _ => ∃ es, es.length ≤ 1 ∧ SetsUp ws es []) [] [] := by
  unfold postOpening
  split
  · trivial
  refine (Tx.readOnly_read _).yields_bind fun equity => ?_
  split
  · trivial
  refine (postEntry_yields env _).bind ?_
  rintro opening _ ks hends
  cases hends with
  | replayed id key => exact absurd rfl key
  | posted userId' lots ks onLots plain held accounts =>
    unfold Tx.when
    split
    · intro db
      refine ⟨_, le_rfl, (setsUp_posting _ _ onLots).append (setsUp_aside ?_)⟩
      intro w hw
      dsimp only at hw
      split at hw
      · cases hw
      · rw [List.mem_singleton.mp hw]
        trivial
    · exact ⟨_, le_rfl, setsUp_posting _ _ onLots⟩

end Programs

/-! ## One setup among others -/

/-- The rows that say the user's setup is done. -/
def Db.completions (db : Db) (userId : Uuid) : List UserSetupState :=
  db.userSetupState.filter fun s => s.userId = userId ∧ s.completed = true

/-- The opening entries of the user. -/
def Db.openings (db : Db) (userId : Uuid) : List JournalEntry :=
  db.journalEntries.filter fun e => e.type = .opening ∧ e.userId = some userId

/-- From `s` to `t` nothing was set up, or the user once: one row, and at most one opening entry. -/
def SetUpOnce (userId : Uuid) (s t : Db) : Prop :=
  (t.completions userId = s.completions userId ∧ t.openings userId = s.openings userId) ∨
    (s.completions userId = [] ∧ (t.completions userId).length = 1 ∧
      (t.openings userId).length ≤ (s.openings userId).length + 1)

instance (userId : Uuid) (s t : Db) : Decidable (SetUpOnce userId s t) :=
  inferInstanceAs (Decidable ((_ ∧ _) ∨ (_ ∧ _ ∧ _)))

/-- Whoever holds the row of the user sees nothing of the setup change. -/
def setupPromise (userId : Uuid) (s₀ : Db) : Promise Db Row Assumption where
  Assumes := (· = .setupIncomplete)
  Inv := SetUpOnce userId s₀
  Rely ks s t := Row.user userId ∈ ks →
    t.completions userId = s.completions userId ∧ t.openings userId = s.openings userId
  refl _ _ _ := ⟨rfl, rfl⟩
  trans h h' hk := ⟨(h' hk).1.trans (h hk).1, (h' hk).2.trans (h hk).2⟩
  mono hsub h hk := h (hsub hk)

section Once
variable {userId : Uuid} {s₀ t : Db}

theorem setupCompleted_iff {db : Db} : db.setupCompleted userId ↔ db.completions userId ≠ [] := by
  unfold Db.setupCompleted Db.completions
  simp [List.filter_eq_nil_iff]

/-- The row of a setup that finds none is the only one. -/
theorem commits_setup {ws : List Write} {ks : List Row} {es : List JournalEntry}
    {row : UserSetupState} (hinv : SetUpOnce userId s₀ t) (hheld : Row.user userId ∈ ks)
    (hnone : t.completions userId = []) (hes : es.length ≤ 1) (hws : SetsUp ws es [row])
    (hrow : row.userId = userId ∧ row.completed = true) :
    (setupPromise userId s₀).Commits ws ks t := by
  refine ⟨?_, fun others hothers hk => absurd hheld (hothers _ hk)⟩
  rcases hinv with ⟨hcompletions, hopenings⟩ | ⟨-, hone, -⟩
  swap
  · rw [hnone] at hone
    cases hone
  refine .inr ⟨hcompletions ▸ hnone, ?_, ?_⟩
  · have hfilter : (applyAll ws t).completions userId = t.completions userId ++ [row] := by
      unfold Db.completions
      rw [hws.states, List.filter_append, List.filter_cons_of_pos (by simpa using hrow)]
      rfl
    rw [hfilter, hnone]
    rfl
  · have hfilter : (applyAll ws t).openings userId = t.openings userId ++
        es.filter fun e => e.type = .opening ∧ e.userId = some userId := by
      unfold Db.openings
      rw [hws.entries, List.filter_append]
    have hle := List.length_filter_le
      (fun e : JournalEntry => decide (e.type = .opening ∧ e.userId = some userId)) es
    rw [hfilter, List.length_append, hopenings]
    omega

theorem readOnly_prepareSetup {rules : SetupRules} {env : Env} {input : SetupInput} :
    (prepareSetup rules env userId input).ReadOnly := by
  refine (Tx.readOnly_ofExcept _).bind fun r => ?_
  refine (Tx.readOnly_read _).bind fun completed => ?_
  refine (Tx.readOnly_require _ _).bind fun _ => ?_
  exact (readOnly_gather (readOnly_datedRate _) _).bind fun _ => trivial

theorem completeSetup_honours (rules : SetupRules) (env : Env) (ids : SetupIds) (input : SetupInput) :
    (setupPromise userId s₀).Honours (fun _ _ _ _ => True)
      (completeSetup rules env ids userId false input) := by
  have haside {α : Type} {p : Sql α} (h : p.WritesOnly Write.OfSetup) :
      p.Yields (fun _ ws _ => ∀ w ∈ ws, w.OfSetup) [] [] :=
    h.yields fun _ hw => absurd hw List.not_mem_nil
  intro s _
  refine .bind (.of_readOnly readOnly_prepareSetup fun r t₀ _ _ => ?_)
  unfold runSetup
  refine .bind (.yields (haside (writesOnly_each _ insertRequiredAsset_ofSetup)) ?_)
  rintro _ vs₁ js₁ t₁ _ _ hvs₁
  refine .bind (.yields (haside (writesOnly_each _ reviveSymbol_ofSetup)) ?_)
  rintro _ vs₂ js₂ t₂ _ _ hvs₂
  refine .bind (.of_readOnly (Tx.readOnly_read _) fun assetMap t₃ _ _ => ?_)
  refine .bind (.lock fun t₄ _ _ t₅ _ _ => ?_)
  set held : List Row := [] ++ js₁ ++ js₂ ++ [.user userId]
  refine .bind (.require fun _ t₆ _ _ => ?_)
  refine .bind (.of_readOnly (readOnly_resolveSetupRate _) fun rate t₇ _ _ => ?_)
  refine .bind (.ofExcept fun plan _ t₈ _ _ => ?_)
  refine .bind (.yields (haside (openChart_ofSetup plan)) ?_)
  rintro accounts vs₃ js₃ t₉ _ _ hvs₃
  refine .bind (.yields (haside (openingLines_ofSetup plan)) ?_)
  rintro lines vs₄ js₄ t₁₀ _ _ hvs₄
  have hposts : (Tx.when (lines ≠ []) (postOpening env userId assetMap accounts
      ⟨r.2.2, rate⟩ lines)).Yields (fun _ ws _ => ∃ es, es.length ≤ 1 ∧ SetsUp ws es []) [] [] := by
    unfold Tx.when
    split
    · exact postOpening_yields lines
    · exact ⟨[], Nat.zero_le _, setsUp_nil⟩
  refine .bind (.yields hposts ?_)
  rintro _ vs₅ js₅ t₁₁ _ _ ⟨es, hes, hvs₅⟩
  have hassets := (setsUp_nil.append (setsUp_aside hvs₁)).append (setsUp_aside hvs₂)
  have hbooks := (hassets.append (setsUp_aside hvs₃)).append (setsUp_aside hvs₄)
  have hquiet := hbooks.append hvs₅
  refine .writeExpecting ?_
  intro t _ _ hexpects u hu htu
  have hheld : Row.user userId ∈ held ++ js₃ ++ js₄ ++ js₅ ++ [] := by simp [held]
  have hnone : t.completions userId = [] := by
    by_contra hdone
    refine hexpects .setupIncomplete rfl rfl (setupCompleted_iff.mpr ?_)
    unfold Db.completions
    rw [hquiet.states]
    simp only [List.append_nil]
    exact hdone
  have hrow : SetsUp [.insertSetupState ⟨userId, true, 9, env.now⟩] []
      [⟨userId, true, 9, env.now⟩] := ⟨fun _ => (List.append_nil _).symm, fun _ => rfl⟩
  refine ⟨commits_setup hu hheld ((htu hheld).1.trans hnone) ?_ (hquiet.append hrow) ⟨rfl, rfl⟩,
    trivial⟩
  simpa using hes

/-- A direct call of `completeSetup` for the user. -/
def SetupCall (userId : Uuid) (p : Sql Unit) : Prop :=
  ∃ rules env ids input, p = completeSetup rules env ids userId false input

/-- Where every call that comes to insert its row finds the setup not yet done, however many run at
once, the user is set up once: of the calls one at most commits. -/
theorem setups_once {db : Db} {sys : System Db Write Row Assumption AppError Unit}
    (h : System.Reaches (SetupCall userId) (· = .setupIncomplete) db sys) :
    SetUpOnce userId db sys.committed := by
  have hsafe : System.Safe (setupPromise userId db) (fun _ _ _ _ => True) sys := by
    refine System.Reaches.safe (.inl ⟨rfl, rfl⟩) ?_ h
    rintro _ ⟨rules, env, ids, input, rfl⟩
    exact completeSetup_honours rules env ids input
  exact hsafe.inv

/-! ### A setup with cash -/

def cashSetup : SetupInput where
  noBank := true
  fxRate := some (.ofInt 60000)
  cashAssetSymbol := some "IRT"
  cashOpeningBalance := some (.ofInt 1200000)

def cashCall (entryId : Uuid) : Sql Unit :=
  completeSetup { setupRules with coins := [] } { entryId, today := 20000 } setupIds 1 false cashSetup

theorem cashCall_call (entryId : Uuid) : SetupCall 1 (cashCall entryId) := ⟨_, _, _, _, rfl⟩

/-- One call, and one opening entry. -/
theorem cash_setup_once : ∃ sys : System Db Write Row Assumption AppError Unit,
    System.Reaches (SetupCall 1) (· = .setupIncomplete) beforeSetup sys ∧
      (sys.committed.openings 1).length = 1 ∧ SetUpOnce 1 beforeSetup sys.committed := by
  have hmet : (cashCall 7).Met (· = .setupIncomplete) beforeSetup := by
    repeat first
      | exact trivial
      | refine ⟨fun _ _ => trivial, ?_⟩
      | refine ⟨fun _ _ _ => by decide, ?_⟩
  have hok : ((cashCall 7).run beforeSetup).isOk = true := by decide
  cases hrun : (cashCall 7).run beforeSetup with
  | error e =>
    rw [hrun] at hok
    cases hok
  | ok r =>
    have hidle : System.Reaches (SetupCall 1) (· = .setupIncomplete) beforeSetup
        (System.idle (beforeSetup : Db)) := .idle
    obtain ⟨sys, hreach, -, hsys⟩ := hidle.alone (fun _ => rfl) (cashCall_call 7) hmet hrun
    refine ⟨sys, hreach, ?_, setups_once hreach⟩
    have hexec := Tx.exec_of_ok hrun
    rw [hsys, ← hexec]
    decide

/-- Both calls check before either commits. -/
def bothCheck : List (Move Db Write Row Assumption AppError Unit) :=
  [Move.begin 0 (cashCall 7), Move.go 0, Move.begin 1 (cashCall 8), Move.go 1] ++
    List.replicate 62 (Move.go 0) ++ [Move.commit 0] ++ List.replicate 43 (Move.go 1) ++
    [Move.commit 1]

def SetUpTwice (db : Db) : Bool :=
  (db.completions 1).length = 2 && (db.openings 1).length = 2

/-- The second call re-uses the accounts of the first, and posts the opening balances again. -/
theorem cash_setup_twice : ∃ sys : System Db Write Row Assumption AppError Unit,
    System.Reaches (SetupCall 1) (fun _ => False) beforeSetup sys ∧
      (sys.committed.completions 1).length = 2 ∧ (sys.committed.openings 1).length = 2 := by
  have hreplay : ((Board.idle 2 beforeSetup).replay bothCheck).any
      (fun b => SetUpTwice b.committed) = true := by decide
  have hbegun : Board.begun bothCheck = [cashCall 7, cashCall 8] := rfl
  have hcalls : ∀ p ∈ Board.begun bothCheck, SetupCall 1 p := by
    rw [hbegun]
    intro p hp
    rcases List.mem_pair.mp hp with rfl | rfl <;> exact cashCall_call _
  obtain ⟨sys, hreach, hcheck⟩ := Board.exists_reaches hcalls hreplay
  unfold SetUpTwice at hcheck
  simp only [Bool.and_eq_true, decide_eq_true_eq] at hcheck
  exact ⟨sys, hreach, hcheck⟩

end Once

end Pwos
