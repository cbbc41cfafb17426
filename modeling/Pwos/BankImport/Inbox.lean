import Pwos.BankImport.Message
import Pwos.Lib.Fenced

/-!
# The inbox of bank messages

`features/bankImport/sms.ts` with the actions of `app/actions/bankSms.ts` and what
`confirmBankImportAction` does to the inbox: a device gets a token, its messages wait encrypted in
the inbox of its user until they are confirmed or rejected. The limits are counted under a lock of
the user.

A fingerprint stands for its digest. The hash of the tokens, the encryption and the day in Tehran
are parameters; so is, for a confirmation, what it finds in the ledger.
-/

namespace Pwos

namespace BankInbox

open BankMessage

/-! ## The tables -/

/-- What `smsPayloadSchema` lets through. `sentAt` is missing where it is no date. -/
structure SmsPayload where
  message : Text
  sender : Text
  sentAt : Option Nat
  deriving DecidableEq

/-- What the digest is taken of. -/
structure Fingerprint where
  message : Text
  sender : Text
  sentAt : Nat
  deriving DecidableEq

structure SmsConnection where
  id : Uuid
  userId : Uuid
  name : String
  tokenHash : String
  createdAt : Nat
  revokedAt : Option Nat := none
  lastReceivedAt : Option Nat := none
  deriving DecidableEq

inductive InboxStatus where
  | pending | processing | confirmed | rejected
  deriving DecidableEq, Repr

structure InboxMessage where
  id : Uuid
  userId : Uuid
  connectionId : Uuid
  encryptedPayload : Option String
  fingerprint : Fingerprint
  sentAt : Nat
  receivedAt : Nat
  status : InboxStatus := .pending
  processingAt : Option Nat := none
  entryId : Option Uuid := none
  deriving DecidableEq

/-- `status in ('pending','processing')`. -/
def InboxMessage.waits (m : InboxMessage) : Bool :=
  m.status = .pending || m.status = .processing

structure SmsWorld where
  /-- The users whose setup is completed. -/
  completed : List Uuid := []
  connections : List SmsConnection := []
  inbox : List InboxMessage := []
  now : Nat := 0

/-- `UPDATE`s of a message: each has its own conditions beside the id and the user. -/
inductive MessageChange where
  | reject
  | claim (time : Nat)
  | release (time : Nat)
  | replay (entryId : Uuid)
  | confirm (entryId : Uuid)

def CLAIM_MS : Nat := 300000

def MessageChange.admits (now : Nat) (m : InboxMessage) : MessageChange → Bool
  | .reject => m.status = .pending
  | .claim _ => m.status = .pending ||
      m.status = .processing && m.processingAt.any (· + CLAIM_MS < now)
  | .release time => m.status = .processing && m.processingAt = some time
  | .replay _ => true
  | .confirm _ => true

def MessageChange.set (m : InboxMessage) : MessageChange → InboxMessage
  | .reject => { m with status := .rejected, encryptedPayload := none }
  | .claim time => { m with status := .processing, processingAt := some time }
  | .release _ => { m with status := .pending, processingAt := none }
  | .replay entryId =>
    { m with status := .confirmed, entryId := some entryId, encryptedPayload := none }
  | .confirm entryId =>
    { m with status := .confirmed, entryId := some entryId, encryptedPayload := none
             processingAt := none }

/-- The rows an `UPDATE` is about. -/
def MessageChange.isAbout (now : Nat) (userId id : Uuid) (c : MessageChange) (m : InboxMessage) :
    Bool :=
  m.id = id && m.userId = userId && c.admits now m

inductive SmsWrite where
  | insertConnection (k : SmsConnection)
  | revoke (userId id : Uuid) (time : Nat)
  | received (id : Uuid) (time : Nat)
  | insertMessage (m : InboxMessage)
  | change (userId id : Uuid) (c : MessageChange)

def SmsWrite.apply : SmsWrite → SmsWorld → SmsWorld
  | .insertConnection k, w => { w with connections := w.connections ++ [k] }
  | .revoke u i time, w => { w with connections := w.connections.map fun k =>
      if k.id = i ∧ k.userId = u then { k with revokedAt := some time } else k }
  | .received i time, w => { w with connections := w.connections.map fun k =>
      if k.id = i then { k with lastReceivedAt := some time } else k }
  | .insertMessage m, w => { w with inbox := w.inbox ++ [m] }
  | .change u i c, w =>
    { w with inbox := w.inbox.map fun m => if c.isAbout w.now u i m then c.set m else m }

instance : Writable SmsWorld SmsWrite := ⟨SmsWrite.apply⟩

/-- Rows, and the keys of the unique indexes. -/
inductive SmsRow where
  | user (id : Uuid)
  | connection (id : Uuid)
  | token (tokenHash : String)
  | message (id : Uuid)
  deriving DecidableEq

inductive SmsFailure where
  /-- `SmsError`. -/
  | sms (status : Nat) (code : String)
  | failure (message : String)
  /-- A unique index refuses the row. -/
  | conflict (index : String)
  deriving DecidableEq, Repr

abbrev SmsSql := Tx SmsWorld SmsWrite SmsRow Empty SmsFailure
abbrev SmsRun := Process SmsWorld SmsWrite SmsRow Empty

def SmsWorld.live (w : SmsWorld) (userId : Uuid) : List SmsConnection :=
  w.connections.filter fun k => k.userId = userId && k.revokedAt = none

def SmsWorld.waiting (w : SmsWorld) (userId : Uuid) : List InboxMessage :=
  w.inbox.filter fun m => m.userId = userId && m.waits

def SmsWorld.byToken (w : SmsWorld) (tokenHash : String) : Option SmsConnection :=
  w.connections.find? fun k => k.tokenHash = tokenHash && k.revokedAt = none

def SmsWorld.message (w : SmsWorld) (userId id : Uuid) : Option InboxMessage :=
  w.inbox.find? fun m => m.userId = userId && m.id = id

/-- The key is in `bank_sms_inbox_replay_idx`. -/
def SmsWorld.has (w : SmsWorld) (userId : Uuid) (f : Fingerprint) : Bool :=
  w.inbox.any fun m => m.userId = userId && m.fingerprint = f

/-- What the server is configured with. -/
structure SmsEnv where
  hashSmsToken : String → String
  /-- `FIELD_ENCRYPTION_KEY` is set. -/
  configured : Bool
  encrypt : Uuid → SmsPayload → String
  tehranDate : Nat → IsoDate
  cal : JalaliCalendar

def MAX_CONNECTIONS : Nat := 5
def MAX_WAITING : Nat := 100

section Calls
variable (env : SmsEnv)

/-! ## Devices -/

def requireSmsSetup (userId : Uuid) : SmsRun (Except SmsFailure Unit) := do
  let completed ← Process.look fun w => w.completed.contains userId
  pure (if completed then .ok () else .error (.sms 403 "SETUP_REQUIRED"))

/-- Under a lock of the user, so that no other device comes in between. -/
def insertConnection (userId : Uuid) (name token : String) (id : Uuid) : SmsSql Uuid := do
  let startedAt ← Tx.read (·.now)
  Tx.lock (fun _ => [.user userId]) fun _ => ()
  let active ← Tx.read fun w => (w.live userId).length
  Tx.require (active < MAX_CONNECTIONS) (.sms 409 "CONNECTION_LIMIT")
  let row : SmsConnection :=
    { id, userId, name, tokenHash := env.hashSmsToken token, createdAt := startedAt }
  Tx.insert (fun _ => [.connection id, .token row.tokenHash])
    (fun w => ∀ k ∈ w.connections, k.id ≠ id ∧ k.tokenHash ≠ row.tokenHash)
    (fun _ => [.insertConnection row]) (.conflict "bank_sms_connections_token_idx")
  pure id

def createSmsConnection (userId : Uuid) (name token : String) (id : Uuid) :
    SmsRun (Except SmsFailure Uuid) :=
  (requireSmsSetup userId).andThen fun _ =>
    if env.configured then Process.transaction (insertConnection env userId name token id)
    else pure (.error (.failure "SMS encryption is not configured"))

/-- Whether there was such a connection. -/
def revokeIphoneConnection (userId id : Uuid) : SmsRun (Except SmsFailure Bool) :=
  (requireSmsSetup userId).andThen fun _ =>
    .auto (fun _ => [.connection id]) (fun _ _ => True) (fun w => [.revoke userId id w.now])
      fun w => .done (.ok (w.connections.any fun k => k.id = id && k.userId = userId))

/-! ## Messages -/

/-- Blanks are single in a normalized text. -/
def codeWords : List Text :=
  "رمز".toList ::
    ((apart "یک".toList "بار".toList).flatMap (apart · "مصرف".toList) ++
      ["تأیید".toList, "تایید".toList, "فعال".toList].flatMap (apart "کد".toList))

def SmsPayload.fingerprint (payload : SmsPayload) (sentAt : Nat) : Fingerprint :=
  ⟨normalizeBankText payload.message, payload.sender, sentAt⟩

def CLOCK_SKEW_MS : Nat := 300000

/-- The message waits from now on, or it was there before (`true`). -/
def insertMessage (connection : SmsConnection) (payload : SmsPayload) (sentAt startedAt now : Nat)
    (id : Uuid) : SmsSql Bool := do
  Tx.lock (fun _ => [.user connection.userId]) fun _ => ()
  let previous ← Tx.read fun w => w.has connection.userId (payload.fingerprint sentAt)
  if previous then pure true
  else do
    let count ← Tx.read fun w => (w.waiting connection.userId).length
    Tx.require (count < MAX_WAITING) (.sms 409 "INBOX_FULL")
    Tx.require (env.configured = true) (.failure "SMS encryption is not configured")
    let row : InboxMessage :=
      { id, userId := connection.userId, connectionId := connection.id
        encryptedPayload := some (env.encrypt connection.userId payload)
        fingerprint := payload.fingerprint sentAt, sentAt, receivedAt := startedAt }
    Tx.insert (fun _ => [.message id]) (fun w => ∀ m ∈ w.inbox, m.id ≠ id)
      (fun _ => []) (.conflict "bank_sms_inbox_pkey")
    Tx.insert (fun _ => []) (fun w => w.has row.userId row.fingerprint = false)
      (fun _ => [.insertMessage row]) (.conflict "bank_sms_inbox_replay_idx")
    Tx.write (fun _ => []) fun _ => [.received connection.id now]
    pure false

def storeMessage (token : String) (payload : SmsPayload) (sentAt now : Nat) (id : Uuid) :
    SmsSql Bool := do
  let startedAt ← Tx.read (·.now)
  let hash := env.hashSmsToken token
  match ← Tx.lock (fun w => (w.byToken hash).toList.map fun k => .connection k.id)
    fun w => w.byToken hash with
  | none => .fail (.sms 401 "INVALID_CONNECTION")
  | some connection => do
    let completed ← Tx.read fun w => w.completed.contains connection.userId
    Tx.require (completed = true) (.sms 403 "SETUP_REQUIRED")
    Tx.require (connection.createdAt ≤ sentAt) (.sms 422 "BEFORE_ACTIVATION")
    Tx.require (¬ (parseBankDate env.cal payload.message).any
      (· < env.tehranDate connection.createdAt)) (.sms 422 "BEFORE_ACTIVATION")
    insertMessage env connection payload sentAt startedAt now id

def receiveSms (token : String) (payload : SmsPayload) (id : Uuid) :
    SmsRun (Except SmsFailure Bool) := do
  let now ← Process.look (·.now)
  match payload.sentAt.filter (· ≤ now + CLOCK_SKEW_MS) with
  | none => pure (.error (.sms 400 "INVALID_TIME"))
  | some sentAt =>
    if names codeWords (normalizeBankText payload.message) then
      pure (.error (.sms 422 "NOT_A_TRANSACTION"))
    else Process.transaction (storeMessage env token payload sentAt now id)

/-- An `UPDATE` of one message: whether there was a row for it. -/
def changeMessage (userId id : Uuid) (c : MessageChange) : SmsRun Bool :=
  .auto (fun w => if w.inbox.any (c.isAbout w.now userId id) then [.message id] else [])
    (fun _ _ => True) (fun _ => [.change userId id c])
    fun w => .done (w.inbox.any (c.isAbout w.now userId id))

def rejectBankSms (userId id : Uuid) : SmsRun (Except SmsFailure Bool) :=
  (requireSmsSetup userId).andThen fun _ => do
    let row ← Process.look (·.message userId id)
    if row.isNone then pure (.ok false)
    else do
      let changed ← changeMessage userId id .reject
      pure (.ok changed)

/-! ## Confirmation -/

/-- The transfer a message is to be linked to. -/
structure ExistingTransfer where
  entryId : Uuid
  /-- There is such a transfer of the user, and it is posted. -/
  posted : Bool
  /-- Day, accounts and amount are those of the message. -/
  fits : Bool

/-- What a confirmation finds beside the inbox. -/
structure ConfirmFindings where
  /-- The checks of the form, the accounts and the category pass. -/
  accepted : Bool
  existingTransfer : Option ExistingTransfer
  /-- The entry under the key of the message, before. -/
  replay : Option Uuid
  /-- Nothing similar is there, or the user allows it. -/
  unlike : Bool
  /-- The entry under the key of the message, after the form was posted. -/
  posted : Option Uuid

/-- The message goes to a transfer that is there already. -/
def linkMessage (userId id : Uuid) (transfer : ExistingTransfer) : SmsSql Bool := do
  let current ← Tx.lock (fun w => (w.message userId id).toList.map fun m => .message m.id)
    (·.message userId id)
  match current with
  | none => pure false
  | some current =>
    if !transfer.posted then pure false
    else if current.status = .confirmed then pure (current.entryId = some transfer.entryId)
    else if current.status ≠ .pending ∨ !transfer.fits then pure false
    else do
      Tx.write (fun _ => [.message id]) fun _ => [.change userId id (.confirm transfer.entryId)]
      pure true

/-- The part of `confirmBankImportAction` that has to do with the inbox. -/
def confirmMessage (found : ConfirmFindings) (userId id : Uuid) :
    SmsRun (Except SmsFailure Bool) :=
  (requireSmsSetup userId).andThen fun _ => do
    let row ← Process.look (·.message userId id)
    if row.all (·.status = .rejected) || !found.accepted then pure (.ok false)
    else
      match found.existingTransfer with
      | some transfer => Process.transaction (linkMessage userId id transfer)
      | none =>
        match found.replay with
        | some entryId => do
          let _ ← changeMessage userId id (.replay entryId)
          pure (.ok true)
        | none =>
          if !found.unlike then pure (.ok false)
          else do
            let time ← Process.look (·.now)
            let claimed ← changeMessage userId id (.claim time)
            if !claimed then pure (.ok false)
            else do
              match found.posted with
              | some entryId => do
                let _ ← changeMessage userId id (.confirm entryId)
                let _ ← changeMessage userId id (.release time)
                pure (.ok true)
              | none => do
                let _ ← changeMessage userId id (.release time)
                pure (.ok false)

end Calls

end BankInbox

end Pwos
