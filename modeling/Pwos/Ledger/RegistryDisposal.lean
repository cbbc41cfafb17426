import Pwos.Ledger.CommandRuns
import Pwos.Ledger.Recorded
import Pwos.Reconcile.Checkpoints

/-!
# Disposals of the registries

`recordRegistryDisposal` of `features/ledger/service.ts`: an asset the ledger keeps no lots of
is sold. What its own account carries leaves, the net proceeds arrive, and the difference is
booked as a result, or against the opening equity where nothing was carried.
-/

namespace Pwos

structure RegistryDisposalCmd where
  entryDate : IsoDate
  description : String
  assetId : Uuid
  assetAccountId : Option Uuid := none
  cashAccountId : Uuid
  cashAssetId : Uuid
  cashQuantity : Decimal
  proceedsBase : Decimal
  feeBase : Decimal := 0
  irtAmount : Option Decimal := none
  fxRate : Option Decimal := none
  userId : Option Uuid := none
  idempotencyKey : Option String := none
  memo : Option String := none

/-- 0.00000001: less than that is no position. -/
def POSITION_TOLERANCE : Decimal := ⟨10 ^ 10⟩

/-! ## What is carried -/

namespace Db
variable (db : Db)

/-- The book value of an account over the live entries, whoever's they are. -/
def postedBase (accountId : Uuid) : Decimal :=
  ((db.postings.filter fun p => p.accountId = accountId ∧ db.Posted p.entryId).map (·.baseValue)).sum

/-- The rows of the `left join` that are the asset's: its postings on the account, or the account
itself when it has none. Postings count whatever became of their entry. -/
def HoldsPosition (assetId : Uuid) (userId : Option Uuid) (a : Account) : Prop :=
  a.type = .asset ∧ a.deleted = false ∧ (userId = none ∨ a.userId = userId ∨ a.userId = none) ∧
    ((∃ p ∈ db.postings, p.accountId = a.id ∧ p.assetId = assetId) ∨
      (∀ p ∈ db.postings, p.accountId ≠ a.id) ∧ a.assetId = some assetId)

instance (assetId : Uuid) (userId : Option Uuid) : DecidablePred (db.HoldsPosition assetId userId) :=
  fun _ => inferInstanceAs (Decidable (_ ∧ _ ∧ _ ∧ ((∃ p ∈ db.postings, _) ∨ (∀ p ∈ db.postings, _) ∧ _)))

/-- `coalesce(sum(p.base_value), 0)`. -/
def positionBase (assetId accountId : Uuid) : Decimal :=
  ((db.postings.filter fun p => p.accountId = accountId ∧ p.assetId = assetId).map (·.baseValue)).sum

/-- The account with the greatest position, the first by code among equals. -/
def positionAccount (assetId : Uuid) (userId : Option Uuid) : Option Account :=
  ((db.accounts.filter fun a => db.HoldsPosition assetId userId a).insertionSort fun a b =>
    (db.positionBase assetId b.id).abs < (db.positionBase assetId a.id).abs ∨
      (db.positionBase assetId b.id).abs = (db.positionBase assetId a.id).abs ∧
        a.code ≤ b.code).head?

end Db

/-- The account of the position with what it carries, if there is one. -/
def carriedPosition (cmd : RegistryDisposalCmd) (userId : Option Uuid) :
    Sql (Option Uuid × Decimal) :=
  match cmd.assetAccountId with
  | some a => do
    let carrying ← Tx.read (·.postedBase a)
    pure (some a, carrying)
  | none => do
    let row ← Tx.read fun db =>
      (db.positionAccount cmd.assetId userId).map fun a => (a.id, db.positionBase cmd.assetId a.id)
    match row.filter fun r => POSITION_TOLERANCE < r.2.abs with
    | some (a, carrying) => pure (some a, carrying)
    | none => pure (none, 0)

/-! ## The entry -/

namespace RegistryDisposalCmd
variable (cmd : RegistryDisposalCmd)

def net : Decimal := cmd.proceedsBase - cmd.feeBase

def cashUnitsPerUsd : Decimal :=
  if cmd.proceedsBase = 0 then 0 else cmd.cashQuantity.div cmd.proceedsBase

/-- The position leaves with as many units as dollars. -/
def assetLine (accountId : Uuid) (carrying : Decimal) : DraftPosting :=
  { accountId, assetId := cmd.assetId, quantity := -carrying, baseValue := -carrying
    memo := some (cmd.memo.getD "خروج دارایی به بهای ثبت‌شده") }

def cashLine : DraftPosting :=
  { accountId := cmd.cashAccountId, assetId := cmd.cashAssetId
    quantity := safeQty (cmd.net.mul cmd.cashUnitsPerUsd) cmd.net, baseValue := cmd.net
    memo := some (if 0 < cmd.feeBase then
      "واریز خالص وجه (کسر کارمزد $" ++ String.ofList cmd.feeBase.toText ++ ")"
      else "واریز وجه فروش") }

/-- What is left is a result, or equity if nothing was carried. -/
def resultLine (counter : Account) (carrying : Decimal) : DraftPosting :=
  { accountId := counter.id, assetId := counter.assetId.getD cmd.cashAssetId
    quantity := safeQty (-(cmd.net - carrying)) (cmd.net - carrying)
    baseValue := -(cmd.net - carrying)
    memo := some (if carrying = 0 then "ورود دارایی ثبت‌نشده (موجودی اولیه)"
      else "سود/زیان تحقق‌یافته از فروش دارایی") }

def assetLines (accountId : Option Uuid) (carrying : Decimal) : List DraftPosting :=
  if carrying = 0 then [] else accountId.toList.map fun a => cmd.assetLine a carrying

def input (lines : List DraftPosting) : PostEntryInput :=
  { entryDate := cmd.entryDate, type := .sell, description := cmd.description
    postings := lines, userId := cmd.userId, idempotencyKey := cmd.idempotencyKey }

def frozen (entryId : Uuid) : Option EntryFxSnapshot :=
  match cmd.irtAmount, cmd.fxRate with
  | some irt, some rate => some
    { entryId, fxRate := rate
      amounts := some ⟨irt.toFixed 0, cmd.proceedsBase, cmd.entryDate⟩ }
  | _, _ => none

end RegistryDisposalCmd

def ensureOpeningEquity (env : Env) (userId : Option Uuid) : Sql (Option Account) :=
  ensureSystemAccount env OPENING_EQUITY_CODE "سرمایه افتتاحیه" .equity userId

/-- Income is made only of what was carried. -/
def ensureCounter (env : Env) (userId : Option Uuid) (carrying : Decimal) : Sql (Option Account) :=
  if carrying = 0 then ensureOpeningEquity env userId else ensureRealizedPnlAccount env userId

/-- The account of the difference. -/
def disposalCounter (env : Env) (userId : Option Uuid) (carrying : Decimal) : Sql Account := do
  match ← ensureCounter env userId carrying with
  | some a => pure a
  | none =>
    match ← ensureOpeningEquity env userId with
    | some a => pure a
    | none => .fail (.failure "حساب سیستمی سود/زیان یا سرمایه افتتاحیه در دسترس نیست.")

def resultLines (env : Env) (cmd : RegistryDisposalCmd) (userId : Option Uuid)
    (carrying : Decimal) : Sql (List DraftPosting) :=
  if cmd.net - carrying = 0 then pure []
  else do
    let counter ← disposalCounter env userId carrying
    pure [cmd.resultLine counter carrying]

def freezeSale (snapshot : Option EntryFxSnapshot) : Sql Unit :=
  match snapshot with
  | some f => freezeRate f
  | none => pure ()

structure RegistryDisposal where
  entry : PostResult
  carryingBase : Decimal
  realizedBase : Decimal

def recordRegistryDisposal (env : Env) (cmd : RegistryDisposalCmd) : Sql RegistryDisposal := do
  Tx.require (0 < cmd.net) (.failure "مبلغ خالص فروش باید بزرگ‌تر از صفر باشد.")
  let userId ← resolveServiceUserId env cmd.userId [cmd.cashAccountId]
  let (account, carrying) ← carriedPosition cmd userId
  let result ← resultLines env cmd userId carrying
  let entry ← postEntry env
    (cmd.input (cmd.assetLines account carrying ++ cmd.cashLine :: result))
  freezeSale (cmd.frozen entry.id)
  pure ⟨entry, carrying, cmd.net - carrying⟩

/-! ## Its steps -/

section Steps
variable {env : Env} {cmd : RegistryDisposalCmd} {db db' : Db}

theorem disposalCounter_writesOnly (env : Env) (userId : Option Uuid) (carrying : Decimal) :
    (disposalCounter env userId carrying).WritesOnly Write.AddsAccount := by
  have hequity : (ensureOpeningEquity env userId).WritesOnly Write.AddsAccount :=
    ensureSystemAccount_writesOnly _ _ _ _ _
  have hcounter : (ensureCounter env userId carrying).WritesOnly Write.AddsAccount := by
    unfold ensureCounter
    split
    · exact hequity
    · exact ensureRealizedPnlAccount_writesOnly _ _
  unfold disposalCounter
  refine hcounter.bind fun counter => ?_
  split
  · trivial
  · refine hequity.bind fun equity => ?_
    split <;> trivial

theorem resultLines_writesOnly (env : Env) (cmd : RegistryDisposalCmd) (userId : Option Uuid)
    (carrying : Decimal) : (resultLines env cmd userId carrying).WritesOnly Write.AddsAccount := by
  unfold resultLines
  split
  · trivial
  · exact (disposalCounter_writesOnly _ _ _).bind fun _ => trivial

theorem readOnly_carriedPosition (cmd : RegistryDisposalCmd) (userId : Option Uuid) :
    (carriedPosition cmd userId).ReadOnly := by
  unfold carriedPosition
  split
  · exact (Tx.readOnly_read _).bind fun _ => Tx.readOnly_done _
  · refine (Tx.readOnly_read _).bind fun row => ?_
    split <;> trivial

/-- An accepted disposal, step by step. -/
structure RegistryDisposalCmd.Steps (env : Env) (cmd : RegistryDisposalCmd) (db : Db)
    (r : RegistryDisposal) (db' : Db) where
  userId : Option Uuid
  account : Option Uuid
  result : List DraftPosting
  /-- After the counter-account. -/
  db₁ : Db
  /-- After the entry. -/
  db₂ : Db
  net : 0 < cmd.net
  user : (resolveServiceUserId env cmd.userId [cmd.cashAccountId]).answer db = .ok userId
  position : (carriedPosition cmd userId).answer db = .ok (account, r.carryingBase)
  realized : r.realizedBase = cmd.net - r.carryingBase
  counter : (resultLines env cmd userId r.carryingBase).run db = .ok (result, db₁)
  entry : (postEntry env (cmd.input
    (cmd.assetLines account r.carryingBase ++ cmd.cashLine :: result))).run db₁ = .ok (r.entry, db₂)
  frozen : (freezeSale (cmd.frozen r.entry.id)).run db₂ = .ok ((), db')

theorem recordRegistryDisposal_ok {r : RegistryDisposal}
    (h : (recordRegistryDisposal env cmd).run db = .ok (r, db')) :
    Nonempty (cmd.Steps env db r db') := by
  unfold recordRegistryDisposal at h
  rw [Tx.run_require_bind] at h
  split at h
  · rename_i hnet
    obtain ⟨userId, _, h₁, k₁⟩ := Tx.run_bind_ok.mp h
    obtain ⟨huser, rfl⟩ := (readOnly_resolveServiceUserId _ _ _).run_ok.mp h₁
    obtain ⟨⟨account, carrying⟩, _, h₂, k₂⟩ := Tx.run_bind_ok.mp k₁
    obtain ⟨hposition, rfl⟩ := (readOnly_carriedPosition _ _).run_ok.mp h₂
    obtain ⟨result, db₁, hcounter, k₃⟩ := Tx.run_bind_ok.mp k₂
    obtain ⟨entry, db₂, hentry, k₄⟩ := Tx.run_bind_ok.mp k₃
    obtain ⟨_, db₃, hfrozen, k₅⟩ := Tx.run_bind_ok.mp k₄
    cases k₅
    exact ⟨⟨userId, account, result, db₁, db₂, hnet, huser, hposition, rfl, hcounter, hentry,
      hfrozen⟩⟩
  · cases h

end Steps

end Pwos
