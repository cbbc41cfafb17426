import Pwos.Db.Schema
import Pwos.Planning.Obligations

/-!
# The cheque book

`features/cheques/service.ts`: cheques a user has issued or holds. A cheque is cleared
only inside the transaction form's database transaction, and reopened only inside the
reversal that undoes it. Every function takes the owner's id and scopes by it.
-/

namespace Pwos

/-- The types the transaction form offers. -/
inductive TxType where
  | transfer | buy | sell | income | expense | debtRepayment
  deriving DecidableEq, Repr

def CHEQUE_STATUS_LABEL : ChequeStatus → String
  | .pending => "در جریان"
  | .cleared => "پاس شد"
  | .bounced => "برگشتی"
  | .cancelled => "باطل / عودت"

/-- The types that can settle a cheque, by the way money moves. -/
def CLEARING_TYPES : ChequeDirection → List TxType
  | .issued => [.expense, .debtRepayment, .transfer, .buy]
  | .received => [.income, .debtRepayment, .transfer, .sell]

/-- State changes by hand. A cheque is cleared only with its entry. -/
def TRANSITIONS : ChequeStatus → List ChequeStatus
  | .pending => [.bounced, .cancelled]
  | .bounced => [.pending, .cancelled]
  | .cancelled => [.pending]
  | .cleared => []

/-! ## Recording a cheque -/

structure ChequeInput where
  direction : ChequeDirection
  counterparty : String
  amountToman : Decimal
  /-- Nothing for a text that is no day. -/
  dueDate : Option IsoDate
  accountId : Option Uuid := none
  sayadId : Option String := none
  installmentId : Option Uuid := none

/-- The ASCII digit of an ASCII, Persian or Arabic one. -/
def asciiDigit (c : Char) : Option Char :=
  if c.isDigit then some c
  else if 0x06f0 ≤ c.toNat ∧ c.toNat ≤ 0x06f9 then some (Char.ofNat (c.toNat - 0x06f0 + 48))
  else if 0x0660 ≤ c.toNat ∧ c.toNat ≤ 0x0669 then some (Char.ofNat (c.toNat - 0x0660 + 48))
  else none

def normalizeSayadId (v : Option String) : Option String :=
  let digits := (v.getD "").toList.filterMap asciiDigit
  if digits = [] then none else some (String.ofList digits)

/-- A text without the blanks around it. -/
def trimText (v : String) : String :=
  String.ofList ((v.toList.dropWhile Char.isWhitespace).rdropWhile Char.isWhitespace)

def assertOwnMoneyAccount (userId accountId : Uuid) : Sql Unit := do
  let acc ← Tx.read (·.findAccount accountId)
  Tx.require (∃ a ∈ acc, a.userId = some userId ∧ a.type = .asset ∧ !a.deleted)
    (.failure "حساب انتخاب‌شده متعلق به شما نیست.")

def assertOwnPayableInstallment (userId installmentId : Uuid) : Sql Unit := do
  let row ← Tx.read fun db => (db.findInstallment installmentId).bind fun i =>
    (db.findDebt i.debtId).map (i, ·)
  match row with
  | none => .fail (.failure "قسط انتخاب‌شده متعلق به شما نیست.")
  | some (i, d) =>
    Tx.require (d.userId = some userId) (.failure "قسط انتخاب‌شده متعلق به شما نیست.")
    Tx.require (resolveDirection d.direction = .payable)
      (.failure "چک صادره فقط به قسطی وصل می‌شود که شما می‌پردازید.")
    Tx.require (i.status ≠ .paid) (.failure "این قسط قبلاً پرداخت شده است.")

/-- The primary key, and the unique index on `(user_id, sayad_id)`. -/
def Db.ChequeInsertable (db : Db) (c : Cheque) : Prop :=
  ∀ d ∈ db.cheques, d.id ≠ c.id ∧ (c.sayadId.isSome → ¬ (d.userId = c.userId ∧ d.sayadId = c.sayadId))

instance (db : Db) (c : Cheque) : Decidable (db.ChequeInsertable c) :=
  inferInstanceAs (Decidable (∀ d ∈ db.cheques, d.id ≠ c.id ∧ (_ → ¬ _)))

def createCheque (env : Env) (userId : Uuid) (input : ChequeInput) : Sql Uuid := do
  let counterparty := trimText input.counterparty
  Tx.require (counterparty ≠ "" ∧ counterparty.length ≤ 120)
    (.failure "نام طرف حساب را وارد کنید.")
  Tx.require (0 < input.amountToman) (.failure "مبلغ چک باید بیشتر از صفر باشد.")
  match input.dueDate with
  | none => .fail (.failure "تاریخ سررسید معتبر نیست.")
  | some dueDate =>
    let sayadId := normalizeSayadId input.sayadId
    Tx.require (∀ s ∈ sayadId, s.length = 16) (.failure "شناسه صیادی باید ۱۶ رقم باشد.")
    Tx.require (input.direction = .issued → input.accountId.isSome)
      (.failure "حسابی را که چک از آن کشیده شده انتخاب کنید.")
    Tx.each input.accountId.toList (assertOwnMoneyAccount userId)
    let installmentId := if input.direction = .issued then input.installmentId else none
    Tx.each installmentId.toList (assertOwnPayableInstallment userId)
    let cheque : Cheque :=
      { id := env.chequeId, userId, direction := input.direction, counterparty
        amountToman := input.amountToman.toFixed 0, dueDate, accountId := input.accountId
        sayadId, installmentId }
    Tx.insert (fun _ => [.cheque cheque.id]) (·.ChequeInsertable cheque)
      (fun _ => [.insertCheque cheque])
      (.failure "چکی با این شناسه صیادی قبلاً ثبت شده است.")
    pure cheque.id

/-! ## Changes of status -/

def Db.ownCheque (db : Db) (userId id : Uuid) : Option Cheque :=
  (db.findCheque id).filter fun c => c.userId = userId

def setChequeStatus (userId id : Uuid) (next : ChequeStatus)
    (dueDate : Option (Option IsoDate) := none) : Sql Unit := do
  match ← Tx.read (·.ownCheque userId id) with
  | none => .fail (.failure "چک پیدا نشد.")
  | some c =>
    Tx.require (next ∈ TRANSITIONS c.status) (.failure
      (if c.status = .cleared then "چک پاس‌شده را فقط با ابطال سند آن می‌توان برگرداند."
      else "تغییر وضعیت از «" ++ CHEQUE_STATUS_LABEL c.status ++ "» به «" ++
        CHEQUE_STATUS_LABEL next ++ "» ممکن نیست."))
    -- a bounced cheque presented again usually gets a new date
    let due := if next = .pending then dueDate else none
    Tx.require (∀ d ∈ due, d.isSome = true) (.failure "تاریخ سررسید معتبر نیست.")
    Tx.write (fun _ => [.cheque id]) fun _ =>
      [.setChequeStatus id userId c.status next (due.bind fun d => d)]

def deleteCheque (userId id : Uuid) : Sql Unit :=
  Tx.insert (fun _ => [.cheque id]) (fun db => ∃ c ∈ db.ownCheque userId id, c.status ≠ .cleared)
    (fun _ => [.deleteCheque id])
    (.failure "چک پیدا نشد یا پاس شده است؛ چک پاس‌شده حذف نمی‌شود.")

/-! ## Inside other transactions -/

def Db.pendingCheque (db : Db) (userId id : Uuid) : Option Cheque :=
  (db.ownCheque userId id).filter fun c => c.status = .pending

def wrongWay (direction : ChequeDirection) : String :=
  if direction = .issued then
    "چک صادره پول را از حساب شما خارج می‌کند؛ نوع تراکنش را درست انتخاب کنید."
  else "چک دریافتی پول را به حساب شما وارد می‌کند؛ نوع تراکنش را درست انتخاب کنید."

/-- Mark a pending cheque of the user cleared by the entry. -/
def clearChequeInTx (chequeId userId entryId : Uuid) (type : TxType) : Sql Unit := do
  match ← Tx.lock (fun _ => [.cheque chequeId]) (·.pendingCheque userId chequeId) with
  | none => .fail (.failure "چک پیدا نشد یا قبلاً تعیین تکلیف شده است.")
  | some c =>
    Tx.require (type ∈ CLEARING_TYPES c.direction) (.failure (wrongWay c.direction))
    Tx.write (fun _ => [.cheque chequeId]) (fun _ => [.clearCheque chequeId entryId])

/-- The cheque that a reversed entry cleared is pending again. -/
def revertClearedChequeInTx (entryId : Uuid) : Sql Unit :=
  Tx.write
    (fun db => (db.cheques.filter fun c => c.clearedEntryId = some entryId).map fun c => .cheque c.id)
    (fun _ => [.reopenCheques entryId])

end Pwos
