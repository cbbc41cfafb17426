import Pwos.Domain.Jalali
import Pwos.Lib.CodeUnits
import Pwos.Lib.Matching
import Pwos.Search.SearchText

/-!
# Bank messages

`parseBankMessage` of `features/bankImport/parser.ts`: the amounts are numbers behind a label, their
unit is their own or the one of the whole message, and the direction comes from the words in it.
`قابل برداشت` in a balance is no label of an amount, but it is a word of a withdrawal.
-/

namespace Pwos

namespace BankMessage

open Decimal

inductive MoneyUnit where
  | rial | toman
  deriving DecidableEq, Repr

inductive Direction where
  | withdrawal | deposit | unknown
  deriving DecidableEq, Repr

structure BankDraft where
  source : Text
  amountToman : Text
  date : Option IsoDate
  direction : Direction
  warnings : List String
  deriving DecidableEq, Repr

/-! ## The text -/

/-- The non-joiner, and the marks of direction and embedding. -/
def isFormatMark (c : Char) : Bool :=
  c.toNat = 0x200c || c.toNat = 0x200e || c.toNat = 0x200f ||
    (0x202a ≤ c.toNat && c.toNat ≤ 0x202e) || (0x2066 ≤ c.toNat && c.toNat ≤ 0x2069)

/-- One character of the normal form, before blanks are squeezed. -/
def normalChar (c : Char) : Char :=
  let c := latinDigit c
  let c := if c = 'ي' then 'ی' else if c = 'ك' then 'ک' else c
  if isFormatMark c then ' ' else c

def normalizeBankText (s : Text) : Text := trim (squeeze isBlank ' ' false (s.map normalChar))

/-! ## Amounts -/

/-- `\s*`. -/
def skipBlanks (s : Text) : Text := s.dropWhile isBlank

def stripWord (w s : Text) : Option Text := if w <+: s then some (s.drop w.length) else none

def withdrawalWord : Text := "برداشت".toList

def amountLabels : List Text :=
  ["مبلغ".toList, withdrawalWord, "واریز".toList, "خرید".toList, "پرداخت".toList, "دریافت".toList]

/-- The lookbehind `(?<=قابل\s)`, on the text before. -/
def afterAvailable (before : Text) : Bool :=
  match before with
  | [] => false
  | c :: rest => isBlank c && decide ("قابل".toList.reverse <+: rest)

def labelAt (before s : Text) : Option Text :=
  amountLabels.findSome? fun w =>
    if w = withdrawalWord ∧ afterAvailable before then none else stripWord w s

/-- `(?:به\s*مبلغ\s*)?`. -/
def skipByAmount (s : Text) : Text :=
  match stripWord "به".toList s with
  | none => s
  | some r =>
    match stripWord "مبلغ".toList (skipBlanks r) with
    | none => s
    | some r => skipBlanks r

/-- `[:：\-]?`. -/
def skipColon (s : Text) : Text :=
  match s with
  | [] => []
  | c :: r => if c = ':' ∨ c = '：' ∨ c = '-' then r else s

/-- `[0-9,٬]`. -/
def isNumberChar (c : Char) : Bool := c.isDigit || c = ',' || c = '٬'

/-- `(?:[٫.][0-9]{1,2})?`. -/
def fractionAt (s : Text) : Text :=
  match s with
  | [] => []
  | c :: r =>
    if (c = '٫' ∨ c = '.') ∧ r.head?.any Char.isDigit then c :: (r.take 2).takeWhile Char.isDigit
    else []

/-- `[0-9][0-9,٬]*(?:[٫.][0-9]{1,2})?`. -/
def numberAt (s : Text) : Option Text :=
  if s.head?.any Char.isDigit then
    some (s.takeWhile isNumberChar ++ fractionAt (s.dropWhile isNumberChar))
  else none

def unitAt (s : Text) : Option (MoneyUnit × Text) :=
  match stripWord "ریال".toList s with
  | some r => some (.rial, r)
  | none => (stripWord "تومان".toList s).map fun r => (.toman, r)

structure Candidate where
  amount : Text
  unit : Option MoneyUnit
  deriving DecidableEq, Repr

/-- The expression of `amountCandidates` at one place: what it reads, and the text behind it. -/
def amountAt (before s : Text) : Option (Candidate × Text) := do
  let r ← labelAt before s
  let r := skipBlanks (skipColon (skipByAmount (skipBlanks r)))
  let number ← numberAt r
  let r := skipBlanks (r.drop number.length)
  match unitAt r with
  | some (unit, r) => some (⟨number, some unit⟩, r)
  | none => some (⟨number, none⟩, r)

def amountPattern (before s : Text) : Option (Candidate × Nat) :=
  (amountAt before s).map fun found => (found.1, s.length - found.2.length)

def amountCandidates (text : Text) : List Candidate := matchAll amountPattern [] 0 text

/-- The matches of `ریال|تومان`. -/
def unitsIn : Text → List MoneyUnit
  | [] => []
  | c :: s =>
    if "ریال".toList <+: c :: s then .rial :: unitsIn s
    else if "تومان".toList <+: c :: s then .toman :: unitsIn s
    else unitsIn s

/-- The one unit the whole message is written in, if it names exactly one. -/
def messageUnit (text : Text) : Option MoneyUnit :=
  match unitsIn text with
  | [] => none
  | u :: us => if us.all (· = u) then some u else none

/-- `^\d{1,18}(?:\.\d{1,2})?$`. -/
def isMoneyText (s : Text) : Bool :=
  let whole := s.takeWhile Char.isDigit
  let rest := s.dropWhile Char.isDigit
  decide (1 ≤ whole.length) && decide (whole.length ≤ 18) &&
    (rest.isEmpty || rest.head? = some '.' && rest.tail.all Char.isDigit &&
      decide (1 ≤ rest.tail.length) && decide (rest.tail.length ≤ 2))

def money (value : Text) (unit : MoneyUnit) : Text :=
  let canonical := ((value.map latinDigit).filter fun c => !(c = ',' || c = '٬' || isBlank c)).map
    fun c => if c = '٫' then '.' else c
  if !isMoneyText canonical then []
  else
    let amount := parse canonical
    if ¬0 < amount then []
    else
      match unit with
      | .rial => toText (amount.div (.ofInt 10))
      | .toman => toText amount

/-- The amount of a candidate, where its unit is its own or that of the message. -/
def Candidate.money (globalUnit : Option MoneyUnit) (c : Candidate) : Text :=
  match c.unit.or globalUnit with
  | some unit => BankMessage.money c.amount unit
  | none => []

def amountToman (text : Text) : Text :=
  let amounts := (amountCandidates text).map (·.money (messageUnit text))
  match (amounts.filter (· ≠ [])).dedup with
  | [amount] => if amounts.all (· ≠ []) then amount else []
  | _ => []

/-! ## Direction, date and warnings -/

/-- One of the words occurs. -/
def names (words : List Text) (text : Text) : Bool := words.any fun w => decide (w <:+: text)

def withdrawalWords : List Text := [withdrawalWord, "خرید".toList, "پرداخت".toList]
def depositWords : List Text := ["واریز".toList, "دریافت".toList]

def directionOf (text : Text) : Direction :=
  let withdrawal := names withdrawalWords text
  let deposit := names depositWords text
  if withdrawal = deposit then .unknown else if withdrawal then .withdrawal else .deposit

structure DateParts where
  y : Nat
  m : Nat
  d : Nat
  deriving DecidableEq, Repr

/-- One or two digits. -/
def isShortNumber (s : Text) : Bool := decide (1 ≤ s.length) && decide (s.length ≤ 2)

def isDateMark (s : Text) : Bool := s.head? = some '/' || s.head? = some '-'

/-- A year of the centuries 13, 14, 19 and 20, a month and a day, alone as a word. -/
def datePattern (before s : Text) : Option (DateParts × Nat) :=
  let year := s.take 4
  let century := year.take 2
  let afterYear := s.drop 4
  let month := afterYear.tail.takeWhile Char.isDigit
  let afterMonth := afterYear.tail.drop month.length
  let day := afterMonth.tail.takeWhile Char.isDigit
  let rest := afterMonth.tail.drop day.length
  if !before.head?.any isWordChar && year.all Char.isDigit && decide (year.length = 4) &&
      ["13".toList, "14".toList, "19".toList, "20".toList].contains century &&
      isDateMark afterYear && isShortNumber month && isDateMark afterMonth && isShortNumber day &&
      !rest.head?.any isWordChar then
    some (⟨Nat.ofDigitChars 10 year 0, Nat.ofDigitChars 10 month 0, Nat.ofDigitChars 10 day 0⟩,
      s.length - rest.length)
  else none

/-- The first date, if there is such a day. -/
def parseBankDate (cal : JalaliCalendar) (text : Text) : Option IsoDate :=
  match (matchAll datePattern [] 0 (text.map latinDigit)).head? with
  | none => none
  | some date =>
    if date.m < 1 ∨ 12 < date.m ∨ date.d < 1 ∨ 31 < date.d then none
    else if date.y < 1700 then
      let iso := cal.jalaliToIso date.y date.m date.d
      if cal.toJalali iso = ⟨date.y, date.m, date.d⟩ then some iso else none
    else if date.d ≤ daysInMonth date.y date.m then some (IsoDate.ofParts date.y date.m date.d)
    else none

/-- Words with `\s*` between them, in a text whose blanks are single. -/
def apart (first second : Text) : List Text := [first ++ second, first ++ ' ' :: second]

def secretWords : List Text :=
  "رمز".toList :: (apart "کد".toList "تأیید".toList ++ apart "کد".toList "تایید".toList ++
    apart "کد".toList "فعال".toList ++ apart "یکبار".toList "مصرف".toList)

def transferWords : List Text :=
  ["قسط".toList, "اقساط".toList, "وام".toList, "تسهیلات".toList, "انتقال".toList,
    "رمزارز".toList, "سهام".toList, "صندوق".toList, "طلا".toList] ++
    (apart "به".toList "کارت".toList).flatMap (apart "کارت".toList)

def warningsOf (text : Text) (date : Option IsoDate) : List String :=
  (if amountToman text = [] then
    ["مبلغ یا واحد پول روشن نیست؛ مبلغ تراکنش را به تومان وارد کنید."] else []) ++
  (if directionOf text = .unknown then
    ["جهت تراکنش روشن نیست؛ نوع آن را خودتان انتخاب کنید."] else []) ++
  (if names secretWords text then
    ["این متن ممکن است پیام رمز یا تأیید باشد؛ پیش از ثبت بررسی کنید."] else []) ++
  (if names transferWords text then
    ["این جابه‌جایی ممکن است انتقال، بدهی یا خرید دارایی باشد و الزاماً درآمد یا هزینه نیست."]
    else []) ++
  if date = none then ["تاریخ معتبر پیدا نشد؛ تاریخ واقعی تراکنش را انتخاب کنید."] else []

/-- `source.length`, in code units. -/
def lengthOf (source : Text) : Nat := (source.flatMap charUnits).length

/-- Conservative extraction. -/
def parseBankMessage (cal : JalaliCalendar) (source : Text) : Except String BankDraft :=
  if 8000 < lengthOf source then .error "هر پیام باید کمتر از ۸۰۰۰ نویسه باشد."
  else
    let text := normalizeBankText source
    let date := parseBankDate cal text
    .ok
      { source
        amountToman := amountToman text
        date
        direction := directionOf text
        warnings := warningsOf text date }

end BankMessage

end Pwos
