import Pwos.Lib.OrderedMap
import Pwos.Lib.Fenced
import Pwos.Lib.Within
import Pwos.Lib.CodeUnits
import Pwos.Planning.CreateDebt
import Pwos.Rwa.Purchase
import Pwos.Setup.CompleteSetup

/-!
# The workflow of the setup

`finishSetup` and `saveSetupDraft` of `features/setup/workflow.ts`. A run takes a lease of five
minutes on the row of its user under a random token, and keeps the progress in memory. Every asset
is created in a transaction of its own, that also writes the receipt for it into the row: a run
whose lease has gone to another finds the token changed there, and is rolled back.

The answers of the wizard, its digests and the encryption are parameters. The valuations after a
vehicle and the intents of the last transaction are left out.
-/

namespace Pwos

/-! ## The row of a user -/

inductive ItemKind where
  | vehicle | property | debt
  deriving DecidableEq, Repr

/-- `vehicle:0`, `property:0`, `debt:0` and so on. -/
structure ItemKey where
  kind : ItemKind
  index : Nat
  deriving DecidableEq, Repr

structure Receipt where
  id : Uuid
  hash : String
  deriving DecidableEq, Repr

structure SetupProgress where
  fxRate : Option Decimal := none
  inputMethod : Option String := none
  base : Option String := none
  items : OrderedMap ItemKey Receipt := .empty
  done : Bool := false

structure SetupSession where
  userId : Uuid
  draft : Option String := none
  progress : SetupProgress := {}
  leaseToken : Option Uuid := none
  leaseUntil : Option Nat := none

structure SetupWorld where
  db : Db
  sessions : List SetupSession := []
  /-- The tokens under which leases were taken: for the specification alone. -/
  tokens : List Uuid := []
  now : Nat := 0

inductive SetupWrite where
  | db (w : Write)
  | insertSession (s : SetupSession)
  | takeLease (userId token : Uuid) (expiry : Nat)
  | setProgress (userId : Uuid) (progress : SetupProgress) (expiry : Nat)
  | setDraft (userId : Uuid) (draft : Option String)
  | completeState (userId : Uuid) (now : Nat)
  | release (userId : Uuid)

/-- `update(setupSessions).set(…).where(eq(setupSessions.userId, userId))`. -/
def SetupWorld.setSession (userId : Uuid) (f : SetupSession → SetupSession) (w : SetupWorld) :
    SetupWorld :=
  { w with sessions := w.sessions.map fun s => if s.userId = userId then f s else s }

/-- `.set({ completed: true, currentStep: 9, updatedAt: now })`, of the rows of the user. -/
def UserSetupState.completeOf (userId : Uuid) (now : Nat) (s : UserSetupState) : UserSetupState :=
  if s.userId = userId then { s with completed := true, currentStep := 9, updatedAt := now } else s

def SetupWrite.apply : SetupWrite → SetupWorld → SetupWorld
  | .db v, w => { w with db := v.apply w.db }
  | .insertSession s, w => { w with sessions := w.sessions ++ [s] }
  | .takeLease u token expiry, w => { w.setSession u fun s =>
      { s with leaseToken := some token, leaseUntil := some expiry } with
      tokens := w.tokens ++ [token] }
  | .setProgress u p expiry, w =>
    w.setSession u fun s => { s with progress := p, leaseUntil := some expiry }
  | .setDraft u draft, w => w.setSession u fun s => { s with draft }
  | .completeState u now, w => { w with
      db := { w.db with userSetupState := w.db.userSetupState.map (·.completeOf u now) } }
  | .release u, w => w.setSession u fun s => { s with leaseToken := none, leaseUntil := none }

instance : Writable SetupWorld SetupWrite := ⟨SetupWrite.apply⟩

inductive SetupRow where
  | db (r : Row)
  | session (userId : Uuid)
  deriving DecidableEq

inductive SetupAssumption where
  | db (a : Assumption)
  /-- `crypto.randomUUID()` gives a token that no other run has. -/
  | freshToken
  deriving DecidableEq

abbrev SetupSql := Tx SetupWorld SetupWrite SetupRow SetupAssumption AppError
abbrev SetupRun := Process SetupWorld SetupWrite SetupRow SetupAssumption

/-- The tables of the books. -/
def books : Part Db Write Row Assumption SetupWorld SetupWrite SetupRow SetupAssumption where
  get := (·.db)
  write := .db
  row := .db
  kind := fun | .db a => some a | .freshToken => none

def SetupWorld.session (w : SetupWorld) (userId : Uuid) : Option SetupSession :=
  w.sessions.find? (·.userId = userId)

/-- The row of the user has this token. -/
def SetupWorld.holds (w : SetupWorld) (userId token : Uuid) : Bool :=
  w.sessions.any fun s => s.userId = userId && s.leaseToken = some token

/-- Nobody has a lease on the row, or it has run out. -/
def SetupWorld.leasable (w : SetupWorld) (s : SetupSession) : Bool :=
  s.leaseToken = none || s.leaseUntil.any (· < w.now)

def SETUP_LEASE_MS : Nat := 300000

/-! ## Drafts -/

def MAX_DRAFT_UNITS : Nat := 250000

/-- A row of its own for every user, once. -/
def ensureSession (row : SetupSession) : SetupRun Unit :=
  .auto (fun w => if (w.session row.userId).isNone then [.session row.userId] else [])
    (fun _ _ => True)
    (fun w => if (w.session row.userId).isNone then [.insertSession row] else []) fun _ => .done ()

/-- No run is on its way, and the setup is not done. -/
def SetupWorld.draftable (w : SetupWorld) (userId : Uuid) : Bool :=
  w.sessions.any (fun s => s.userId = userId && s.leaseToken = none) &&
    !decide (w.db.setupCompleted userId)

/-- `text` is the draft as JSON, if it is an object. -/
def saveSetupDraft (encrypt : String → String) (userId : Uuid) (text : Option String) :
    SetupRun (Except AppError Unit) :=
  match text with
  | none => pure (.error (.failure "پیش‌نویس نامعتبر است."))
  | some text =>
    if MAX_DRAFT_UNITS < (codeUnits text).length then
      pure (.error (.failure "پیش‌نویس بیش از حد بزرگ است."))
    else do
      ensureSession { userId, draft := some (encrypt text) }
      .auto (fun w => if w.draftable userId then [.session userId] else []) (fun _ _ => True)
        (fun w => if w.draftable userId then [.setDraft userId (some (encrypt text))] else [])
        fun _ => .done (.ok ())

/-! ## What is to be created -/

structure SetupProperty where
  asset : CreateRealEstateAssetInput
  currentValueToman : Option Decimal := none

structure FinishInput where
  core : SetupInput
  inputMethod : Option String := none
  vehicles : List CreateUserVehicleInput := []
  properties : List SetupProperty := []
  debts : List CreateDebtInput := []

/-- What a digest is taken of. -/
inductive SetupData where
  | core (input : SetupInput)
  | vehicle (row : CreateUserVehicleInput)
  | property (row : SetupProperty)
  | debt (row : CreateDebtInput)

/-- What a run looks up outside the tables, with the ids it draws. -/
structure FinishRules where
  setup : SetupRules
  registry : RegistryRules
  /-- `validateSetupSelection`: the text it refuses with. -/
  refuse : FinishInput → Option String
  digest : SetupData → String
  env : Env
  ids : SetupIds
  itemEnv : ItemKey → Env
  token : Uuid

structure SetupItem where
  key : ItemKey
  hash : String
  create : Sql Uuid

section Items
variable (rules : FinishRules) (userId : Uuid) (input : FinishInput)

def vehicleItem (index : Nat) (row : CreateUserVehicleInput) : SetupItem where
  key := ⟨.vehicle, index⟩
  hash := rules.digest (.vehicle row)
  create := do
    let created ← createUserVehicle rules.registry (rules.itemEnv ⟨.vehicle, index⟩)
      { row with currentUsdRate := input.core.fxRate, userId := some userId }
    pure created.id

/-- Valued today at the value given, else on its day at its price. -/
def propertyItem (index : Nat) (row : SetupProperty) : SetupItem where
  key := ⟨.property, index⟩
  hash := rules.digest (.property row)
  create := do
    let env := rules.itemEnv ⟨.property, index⟩
    let created ← createRealEstateAsset rules.registry env
      { row.asset with
        userId := some userId
        valuationDate :=
          if row.currentValueToman.isSome then some env.today else row.asset.acquisitionDate
        currentValueToman := row.currentValueToman.getD row.asset.purchasePriceToman
        valuationFxRate := row.currentValueToman.bind fun _ => input.core.fxRate }
    pure created.id

def debtItem (index : Nat) (row : CreateDebtInput) : SetupItem where
  key := ⟨.debt, index⟩
  hash := rules.digest (.debt row)
  create := createDebtRecord (rules.itemEnv ⟨.debt, index⟩) row (input.core.fxRate.getD 0)

def setupItems : List SetupItem :=
  input.vehicles.mapIdx (vehicleItem rules userId input) ++
    input.properties.mapIdx (propertyItem rules userId input) ++
    input.debts.mapIdx (debtItem rules input)

end Items

/-! ## One run -/

inductive SetupAnswer where
  | already
  | finished
  deriving DecidableEq, Repr

section Run
variable (rules : FinishRules) (userId : Uuid) (input : FinishInput)

def getSetupCompleted : SetupRun Bool := .look fun w => decide (w.db.setupCompleted userId)

/-- The days whose rates must be there before anything is written. -/
def FinishInput.requiredDates : List OpenedAt :=
  (input.vehicles.filterMap (fun row => row.ownershipDate.map OpenedAt.day) ++
    input.properties.filterMap (fun row => row.asset.acquisitionDate.map OpenedAt.day) ++
    input.core.purchaseDates).dedup

def requireRate (date : OpenedAt) : Sql Unit :=
  match date with
  | .malformed => .fail (.failure "تاریخ خرید معتبر و غیرآینده الزامی است.")
  | .day d =>
    if d = rules.env.today then pure ()
    else do
      let _ ← resolveAutomaticPurchaseRate rules.registry.history rules.env d (some userId)

/-- The progress of the row, if the lease was to be had. -/
def takeLease : SetupRun (Option SetupProgress) :=
  let free (w : SetupWorld) : Option SetupSession := (w.session userId).filter w.leasable
  .auto (fun w => if (free w).isSome then [.session userId] else [])
    (fun a w => a = .freshToken → rules.token ∉ w.tokens)
    (fun w => if (free w).isSome then [.takeLease userId rules.token (w.now + SETUP_LEASE_MS)]
      else [])
    fun w => .done ((free w).map (·.progress))

/-- `update`: the progress is written, and the lease extended, under the token alone. -/
def saveProgress (progress : SetupProgress) : SetupSql Unit :=
  .stmt (fun w => if w.holds userId rules.token then [.session userId] else []) (fun _ _ => True)
    (fun w => if w.holds userId rules.token then
      [.setProgress userId progress (w.now + SETUP_LEASE_MS)] else [])
    fun w => if w.holds userId rules.token then .done ()
      else .fail (.failure "مهلت ثبت منقضی شد؛ وضعیت را دوباره بررسی کنید.")

/-- The rate the setup was confirmed with. -/
def confirmFxRate : SetupSql Unit :=
  match input.core.fxRate.filter (0 < ·) with
  | none => pure ()
  | some rate => Tx.write (fun _ => []) fun _ => [.db (.setUserFxRate ⟨userId, rate⟩)]

def openBooksTx (progress : SetupProgress) : SetupSql SetupProgress := do
  (completeSetup rules.setup rules.env rules.ids userId true input.core).within books
  confirmFxRate userId input
  saveProgress rules userId progress
  pure progress

/-- The accounts and their opening balances, once. -/
def openBooks (progress : SetupProgress) : SetupRun (Except AppError SetupProgress) :=
  let hash := rules.digest (.core input.core)
  match progress.base with
  | some base =>
    if base = hash then pure (.ok progress)
    else pure (.error (.failure
      "حساب‌ها و موجودی اولیه قبلاً ثبت شده‌اند؛ آن‌ها را دوباره تغییر ندهید."))
  | none => do
    let existing ← Process.look fun w => w.db.accounts.any (·.userId = some userId)
    if existing then
      pure (.error (.failure
        "حساب‌های قبلی موجودند؛ مسیر تأیید اطلاعات موجود را تکمیل کنید تا موجودی دوباره ثبت نشود."))
    else
      Process.transaction (openBooksTx rules userId input
        { progress with fxRate := input.core.fxRate, inputMethod := input.inputMethod
                        base := some hash })

/-- `create`, with the receipt in the same transaction. -/
def createItem (item : SetupItem) (progress : SetupProgress) : SetupSql SetupProgress := do
  let id ← item.create.within books
  let progress := { progress with items := progress.items.set item.key ⟨id, item.hash⟩ }
  saveProgress rules userId progress
  pure progress

def makeItem (item : SetupItem) (progress : SetupProgress) :
    SetupRun (Except AppError SetupProgress) :=
  (Process.statements (saveProgress rules userId progress)).andThen fun _ =>
    match progress.items.lookup item.key with
    | some prior =>
      if prior.hash = item.hash then pure (.ok progress)
      else pure (.error (.failure "اطلاعات ثبت‌شده تغییر کرده؛ فقط موارد ثبت‌نشده را اصلاح کنید."))
    | none => Process.transaction (createItem rules userId item progress)

def makeItems : List SetupItem → SetupProgress → SetupRun (Except AppError SetupProgress)
  | [], progress => pure (.ok progress)
  | item :: items, progress =>
    (makeItem rules userId item progress).andThen (makeItems items)

/-- The last transaction. -/
def closeSetup (progress : SetupProgress) : SetupSql SetupAnswer := do
  Tx.write (fun _ => []) fun w => [.completeState userId w.now]
  saveProgress rules userId { progress with inputMethod := input.inputMethod, done := true }
  Tx.write (fun _ => [.session userId]) fun _ => [.setDraft userId none]
  pure .finished

/-- What is done under the lease. -/
def finishUnder (progress : SetupProgress) : SetupRun (Except AppError SetupAnswer) := do
  let completed ← getSetupCompleted userId
  if completed then pure (.ok .already)
  else
    (openBooks rules userId input progress).andThen fun progress =>
      (makeItems rules userId (setupItems rules userId input) progress).andThen fun progress =>
        Process.transaction (closeSetup rules userId input progress)

/-- `finally`. -/
def releaseLease : SetupRun Unit :=
  .auto (fun w => if w.holds userId rules.token then [.session userId] else []) (fun _ _ => True)
    (fun w => if w.holds userId rules.token then [.release userId] else []) fun _ => .done ()

def finishSetup : SetupRun (Except AppError SetupAnswer) := do
  let completed ← getSetupCompleted userId
  if completed then pure (.ok .already)
  else
    (Process.statements ((do
      Tx.ofExcept (refuseInvalid (rules.refuse input))
      Tx.each input.requiredDates (requireRate rules userId) : Sql Unit).within books)).andThen
      fun _ => do
        ensureSession { userId }
        match ← takeLease rules userId with
        | none => pure (.error (.failure
            "ثبت راه‌اندازی در حال انجام است؛ کمی بعد وضعیت را بررسی کنید."))
        | some progress => do
          let answer ← finishUnder rules userId input progress
          releaseLease rules userId
          pure answer

end Run

end Pwos
