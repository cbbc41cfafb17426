import Pwos.Domain.Decimal
import Pwos.Lib.Matching
import Pwos.Lib.OrderedMap
import Pwos.Pricing.ReferenceQuotes
import Pwos.Search.SearchText

/-!
# Gold and currency rates

`parseGoldCurrency` of `features/pricing/providers/brsapi.ts`. A currency row may be quoted for more
than one unit: the number is read from its name and has to agree with a table. The name is tested
for three spellings of a hundred and three of a thousand, in this order and without looking at what
stands around Persian digits, so a name that states another number can agree.
-/

namespace Pwos

namespace BrsApi

open Decimal

/-! ## Values -/

/-- A field of a row. Of a value that is no text, what `String` makes of it. -/
inductive Field where
  | missing
  | text (s : Text)
  | number (s : Text)
  | other (s : Text)
  deriving DecidableEq, Repr

/-- `String(field ?? "")`. -/
def Field.string : Field → Text
  | .missing => []
  | .text s | .number s | .other s => s

/-- What an object has under a key: an entry of its own, or what every object inherits. -/
inductive Property (α : Type) where
  | own (a : α)
  | inherited (key : Text)
  deriving DecidableEq, Repr

def inheritedKeys : List Text :=
  ["constructor".toList, "__defineGetter__".toList, "__defineSetter__".toList,
    "hasOwnProperty".toList, "__lookupGetter__".toList, "__lookupSetter__".toList,
    "isPrototypeOf".toList, "propertyIsEnumerable".toList, "toString".toList, "valueOf".toList,
    "__proto__".toList, "toLocaleString".toList]

/-- `table[key]`. -/
def propertyOf {α : Type} (table : List (String × α)) (key : Text) : Option (Property α) :=
  match table.find? fun e => e.1.toList = key with
  | some e => some (.own e.2)
  | none => if inheritedKeys.contains key then some (.inherited key) else none

structure Row where
  symbol : Field
  unit : Field
  name : Field
  price : Field
  timeUnix : Field
  deriving DecidableEq, Repr

/-- The error envelope of the provider. -/
structure Envelope where
  /-- `successful === false`. -/
  failed : Bool
  status : Field
  messageError : Field
  deriving DecidableEq, Repr

/-- A parsed body: an object with its two sections, or a value that has none. -/
inductive Parsed where
  | object (envelope : Envelope) (gold currency : List Row)
  | other
  deriving DecidableEq, Repr

def Parsed.gold : Parsed → List Row
  | .object _ gold _ => gold
  | .other => []

def Parsed.currency : Parsed → List Row
  | .object _ _ currency => currency
  | .other => []

/-! ## Reading a field -/

/-- The pattern occurs in the text. -/
def occurs (pattern s : Text) : Bool := pattern <:+: s

/-- The word occurs with no word character on either side. -/
def occursAsWord (word : Text) (inWord : Bool) : Text → Bool
  | [] => false
  | c :: s =>
    (!inWord && word.isPrefixOf (c :: s) && !((c :: s).drop word.length).head?.any isWordChar) ||
      occursAsWord word (isWordChar c) s

/-- `^\d+(\.\d+)?$`. -/
def isPlainDecimal (s : Text) : Bool :=
  let rest := s.dropWhile Char.isDigit
  !(s.takeWhile Char.isDigit).isEmpty &&
    (rest.isEmpty || rest.head? = some '.' && !rest.tail.isEmpty && rest.tail.all Char.isDigit)

/-- Without the zeros after the last digit, or those before the first. -/
def withoutZeros (s : Text) : Text :=
  if s.contains '.' then
    let short := s.rdropWhile (· = '0')
    if short.getLast? = some '.' then short.dropLast else short
  else if (s.dropWhile (· = '0')).isEmpty then ['0'] else s.dropWhile (· = '0')

/-- `^0*(\.0*)?$`. -/
def isZeroText (s : Text) : Bool :=
  let rest := s.dropWhile (· = '0')
  rest.isEmpty || rest.head? = some '.' && rest.tail.all (· = '0')

def exactPositiveDecimal (raw : Field) : Option Text :=
  let text :=
    match raw with
    | .text s => trim s
    | .number s => s
    | _ => []
  if !isPlainDecimal text then none
  else if isZeroText (withoutZeros text) then none
  else some (withoutZeros text)

def MAX_FUTURE_SKEW_MS : Nat := 10 * 60 * 1000

def unixToIso (raw : Field) (fetchedAt : Nat) : Option Nat :=
  let text :=
    match raw with
    | .text s => trim s
    | .number s => s
    | _ => []
  if text.all Char.isDigit && decide (9 ≤ text.length) && decide (text.length ≤ 11) then
    let ms := Nat.ofDigitChars 10 text 0 * 1000
    if fetchedAt + MAX_FUTURE_SKEW_MS < ms then none else some ms
  else none

/-! ## Units -/

def CURRENCY_OF_UNIT : List (String × String) :=
  [("تومان", "IRT"), ("ریال", "IRR"), ("دلار", "USD")]

/-- What one gold or coin price buys. -/
def GOLD_UNITS : List (String × String) :=
  [("IR_GOLD_18K", "gram"), ("IR_GOLD_24K", "gram"), ("IR_COIN_EMAMI", "coin"),
    ("IR_COIN_BAHAR", "coin"), ("IR_COIN_HALF", "coin"), ("IR_COIN_QUARTER", "coin"),
    ("IR_COIN_1G", "coin")]

/-- Currencies quoted for more than one unit. -/
def PER_MANY : List (String × String) := [("JPY", "100")]

def MESGHAL_GRAMS : Decimal := parse "4.6083".toList
def MELTED_PURITY_RATIO : Decimal := parse "0.94".toList
def MELTED_TOLERANCE : Decimal := parse "0.02".toList
def FREE_MARKET_TOLERANCE : Decimal := parse "0.05".toList

def withinShare (actual expected share : Decimal) : Bool :=
  ¬expected.mul share < (actual - expected).abs

/-- The pattern `یکصد|\b100\b|۱۰۰`. -/
def saysHundred (name : Text) : Bool :=
  occurs "یکصد".toList name || occursAsWord "100".toList false name || occurs "۱۰۰".toList name

/-- The pattern `یک ?هزار|\b1000\b|۱۰۰۰`. -/
def saysThousand (name : Text) : Bool :=
  occurs "یک هزار".toList name || occurs "یکهزار".toList name ||
    occursAsWord "1000".toList false name || occurs "۱۰۰۰".toList name

def multiplierInName (name : Text) : String :=
  if saysHundred name then "100" else if saysThousand name then "1000" else "1"

/-! ## Rows -/

structure RateQuote where
  price : Text
  currency : Property String
  observedAt : Nat
  fetchedAt : Nat
  instrumentId : Text
  quantityUnit : Property String
  sourceUnitQuantity : String
  basis : String
  deriving DecidableEq, Repr

/-- What becomes of a row. -/
inductive Taken where
  | skipped
  | refused (ref : Text)
  | stored (ref : Text) (q : RateQuote)
  deriving DecidableEq, Repr

def brsRef (symbol : Text) : Text := "gold_currency:".toList ++ symbol

def Row.symbolText (row : Row) : Text :=
  match row.symbol with
  | .text s => trim s
  | _ => []

def currencyUnit : Property String := .own "currency_unit"

structure Reading where
  currency : Property String
  raw : Text
  observedAt : Nat
  deriving DecidableEq, Repr

/-- The unit, the price and the time of a row, if all are valid. -/
def Row.read (row : Row) (fetchedAt : Nat) : Option Reading :=
  match propertyOf CURRENCY_OF_UNIT (trim row.unit.string), exactPositiveDecimal row.price,
    unixToIso row.timeUnix fetchedAt with
  | some currency, some raw, some observedAt =>
    if currency = .own "USD" then none else some ⟨currency, raw, observedAt⟩
  | _, _, _ => none

/-- The price of one unit, from that of a quantity. -/
def perUnit (raw : Text) (quantity : String) : Text :=
  if quantity = "1" then raw else toText ((parse raw).div (parse quantity.toList))

def expectedQuantity (symbol : Text) : Property String :=
  (propertyOf PER_MANY symbol).getD (.own "1")

section Feed
variable (fetchedAt : Nat)

def Row.quote (row : Row) (r : Reading) (quantityUnit : Property String) (basis quantity : String) :
    RateQuote where
  price := perUnit r.raw quantity
  currency := r.currency
  observedAt := r.observedAt
  fetchedAt := fetchedAt
  instrumentId := row.symbolText
  quantityUnit := quantityUnit
  sourceUnitQuantity := quantity
  basis := basis

def take (quantityUnit : Property String) (basis : String) (row : Row) : Taken :=
  if row.symbolText = [] then .skipped
  else
    let ref := brsRef row.symbolText
    match row.read fetchedAt with
    | none => .refused ref
    | some r =>
      if quantityUnit = currencyUnit then
        let stated := multiplierInName row.name.string
        -- the name and the table have to agree about how many units the price is for
        if .own stated ≠ expectedQuantity row.symbolText then .refused ref
        else .stored ref (row.quote fetchedAt r quantityUnit basis stated)
      else .stored ref (row.quote fetchedAt r quantityUnit basis "1")

/-- A row of the section of currencies. -/
def takeCurrency (row : Row) : Taken := take fetchedAt currencyUnit "unspecified" row

/-! ## The feed -/

structure FeedParse where
  quotes : OrderedMap Text RateQuote := .empty
  rejected : OrderedMap Text PriceFailureCode := .empty

def FeedParse.add (f : FeedParse) : Taken → FeedParse
  | .skipped => f
  | .refused ref => { f with rejected := f.rejected.set ref .invalid_response }
  | .stored ref q => { f with quotes := f.quotes.set ref q }

def takeGold (f : FeedParse) (row : Row) : FeedParse :=
  match propertyOf GOLD_UNITS row.symbol.string with
  | none => f
  | some unit => f.add (take fetchedAt unit "market_rate" row)

def meltedRef : Text := brsRef "IR_GOLD_MELTED".toList

/-- The price of the melted gold against that of the gram, as it should be. -/
def meltedConsistent (melted : RateQuote) : Option RateQuote → Bool
  | none => false
  | some gram18 => melted.currency = gram18.currency &&
      withinShare ((parse melted.price).div (parse gram18.price))
        (MESGHAL_GRAMS.mul MELTED_PURITY_RATIO) MELTED_TOLERANCE

def takeMelted (goldRows : List Row) (f : FeedParse) : FeedParse :=
  match goldRows.find? (·.symbol = .text "IR_GOLD_MELTED".toList) with
  | none => f
  | some row =>
    let f := f.add (take fetchedAt (.own "mesghal_705") "market_rate" row)
    match f.quotes.lookup meltedRef with
    | none => f
    | some melted =>
      if meltedConsistent melted (f.quotes.lookup (brsRef "IR_GOLD_18K".toList)) then f
      else
        { quotes := f.quotes.delete meltedRef
          rejected := f.rejected.set meltedRef .invalid_response }

def usdtRef : Text := brsRef "USDT_IRT".toList

def labelOne (quotes : OrderedMap Text RateQuote) (e : Text × RateQuote) :
    OrderedMap Text RateQuote :=
  if e.2.quantityUnit = currencyUnit ∧ e.1 ≠ usdtRef then
    quotes.set e.1 { e.2 with basis := "free_market" }
  else quotes

/-- The dollar next to the Tether: the currencies are those of the free market. -/
def labelFreeMarket (quotes : OrderedMap Text RateQuote) : OrderedMap Text RateQuote :=
  match quotes.lookup (brsRef "USD".toList), quotes.lookup usdtRef with
  | some usd, some usdt =>
    if usd.currency = usdt.currency &&
        withinShare (parse usd.price) (parse usdt.price) FREE_MARKET_TOLERANCE then
      quotes.entries.foldl labelOne quotes
    else quotes
  | _, _ => quotes

def brsEnvelopeFailure : Parsed → Option PriceFailureCode
  | .other => none
  | .object env _ _ =>
    let said := (env.status.string ++ ' ' :: env.messageError.string).map Char.toLower
    if !env.failed then none
    else if ["limit", "quota", "exceed", "too many", "سقف", "محدودیت"].any
        fun word => occurs word.toList said then
      some .quota_exhausted
    else some .rejected_request

/-- `readJson` is `parseJsonKeepingDigits`, and nothing where it throws. -/
def parseGoldCurrency (readJson : Text → Option Parsed) (body : Text) :
    Except PriceFailureCode FeedParse :=
  match readJson body with
  | none => .error .invalid_response
  | some data =>
    match brsEnvelopeFailure data with
    | some failure => .error failure
    | none =>
      let f := takeMelted fetchedAt data.gold (data.gold.foldl (takeGold fetchedAt) {})
      let f := data.currency.foldl (fun f row => f.add (takeCurrency fetchedAt row)) f
      let f : FeedParse := { f with quotes := labelFreeMarket f.quotes }
      if f.quotes.size = 0 ∧ f.rejected.size = 0 then .error .invalid_response else .ok f

end Feed

/-! ## What a name states -/

/-- A Latin or a Persian digit. -/
def isStatedDigit (c : Char) : Bool := c.isDigit || (0x6f0 ≤ c.toNat && c.toNat ≤ 0x6f9)

/-- The maximal runs of digits, as numbers. -/
def numbersIn (name : Text) : List Nat :=
  ((name.splitOnP fun c => !isStatedDigit c).filter (· ≠ [])).map fun run =>
    Nat.ofDigitChars 10 (run.map latinDigit) 0

/-- The two words. -/
def wordsIn (name : Text) : List Nat :=
  (if occurs "یکصد".toList name then [100] else []) ++
    if occurs "یک هزار".toList name || occurs "یکهزار".toList name then [1000] else []

/-- The numbers of units that a name states, one where it states none. -/
def statedIn (name : Text) : List Nat :=
  if numbersIn name ++ wordsIn name = [] then [1] else numbersIn name ++ wordsIn name

/-- The number of units of the table. -/
def tableQuantity (symbol : Text) : Nat := if symbol = "JPY".toList then 100 else 1

section Units
variable (fetchedAt : Nat) (row : Row)

/-- A stored price is that of the row divided by what its name states, and a row whose name states
another number than the table is refused. -/
structure UnitsKept : Prop where
  stored : ∀ ref q r, takeCurrency fetchedAt row = .stored ref q → row.read fetchedAt = some r →
    ∀ n ∈ statedIn row.name.string, parse q.price = (parse r.raw).div (.ofInt n)
  refused : row.symbolText ≠ [] → ∀ n ∈ statedIn row.name.string,
    n ≠ tableQuantity row.symbolText → takeCurrency fetchedAt row = .refused (brsRef row.symbolText)

/-- What is tested in the name agrees with the table. -/
def SeemsToAgree (symbol name : Text) : Prop :=
  if symbol = "JPY".toList then saysHundred name = true
  else inheritedKeys.contains symbol = false ∧ saysHundred name = false ∧ saysThousand name = false

/-- A row that is in order, whose name states another number than the table without it being seen. -/
structure Misread : Prop where
  symbol : row.symbolText ≠ []
  valid : (row.read fetchedAt).isSome
  agrees : SeemsToAgree row.symbolText row.name.string
  other : ∃ n ∈ statedIn row.name.string, n ≠ tableQuantity row.symbolText

end Units

section Law
variable {fetchedAt : Nat} {row : Row} {r : Reading} {symbol name raw : Text}

theorem multiplierInName_eq_hundred : multiplierInName name = "100" ↔ saysHundred name = true := by
  unfold multiplierInName
  split_ifs <;> simp_all

theorem multiplierInName_eq_one :
    multiplierInName name = "1" ↔ saysHundred name = false ∧ saysThousand name = false := by
  unfold multiplierInName
  split_ifs <;> simp_all

theorem expectedQuantity_eq : expectedQuantity symbol =
    if symbol = "JPY".toList then .own "100"
    else if inheritedKeys.contains symbol then .inherited symbol else .own "1" := by
  unfold expectedQuantity propertyOf PER_MANY
  by_cases hjpy : symbol = "JPY".toList
  · simp [hjpy]
  · have hne : ¬"JPY".toList = symbol := fun h => hjpy h.symm
    simp only [List.find?_cons, List.find?_nil, hne, decide_false, if_neg hjpy]
    split <;> rfl

theorem expected_iff :
    Property.own (multiplierInName name) = expectedQuantity symbol ↔ SeemsToAgree symbol name := by
  rw [expectedQuantity_eq, SeemsToAgree]
  split_ifs with hjpy hinherited
  · rw [Property.own.injEq, multiplierInName_eq_hundred]
  · rw [hinherited]
    simp
  · rw [Property.own.injEq, multiplierInName_eq_one, Bool.eq_false_iff.mpr hinherited]
    simp

/-- The price of one unit, where the name seems to agree. -/
theorem parse_perUnit (h : SeemsToAgree symbol name) :
    parse (perUnit raw (multiplierInName name)) =
      (parse raw).div (.ofInt (tableQuantity symbol)) := by
  unfold SeemsToAgree at h
  unfold tableQuantity
  split_ifs at h ⊢ with hjpy
  · rw [multiplierInName_eq_hundred.mpr h, perUnit, if_neg (by decide), parse_toText]
    rfl
  · rw [multiplierInName_eq_one.mpr h.2, perUnit, if_pos rfl]
    exact (div_ofInt_one _).symm

/-- The three things that become of a currency row. -/
theorem takeCurrency_cases (fetchedAt : Nat) (row : Row) :
    (row.symbolText = [] ∧ takeCurrency fetchedAt row = .skipped) ∨
    (row.symbolText ≠ [] ∧
      ¬((row.read fetchedAt).isSome ∧ SeemsToAgree row.symbolText row.name.string) ∧
      takeCurrency fetchedAt row = .refused (brsRef row.symbolText)) ∨
    ∃ r, row.symbolText ≠ [] ∧ row.read fetchedAt = some r ∧
      SeemsToAgree row.symbolText row.name.string ∧
      takeCurrency fetchedAt row = .stored (brsRef row.symbolText)
        (row.quote fetchedAt r currencyUnit "unspecified" (multiplierInName row.name.string)) := by
  unfold takeCurrency take
  by_cases hsymbol : row.symbolText = []
  · exact .inl ⟨hsymbol, if_pos hsymbol⟩
  rw [if_neg hsymbol]
  cases hread : row.read fetchedAt with
  | none => exact .inr (.inl ⟨hsymbol, by simp, rfl⟩)
  | some r =>
    dsimp only
    rw [if_pos rfl]
    by_cases hagree : SeemsToAgree row.symbolText row.name.string
    · exact .inr (.inr ⟨r, hsymbol, rfl, hagree, if_neg (not_not.mpr (expected_iff.mpr hagree))⟩)
    · exact .inr (.inl ⟨hsymbol, fun h => hagree h.2,
        if_pos fun h => hagree (expected_iff.mp h)⟩)

theorem unitsKept_iff : UnitsKept fetchedAt row ↔ ¬Misread fetchedAt row := by
  constructor
  · intro hkept hmisread
    obtain ⟨n, hn, hother⟩ := hmisread.other
    have hrefused := hkept.refused hmisread.symbol n hn hother
    rcases takeCurrency_cases fetchedAt row with
      ⟨hsymbol, -⟩ | ⟨-, hnot, -⟩ | ⟨r, -, -, -, hstored⟩
    · exact hmisread.symbol hsymbol
    · exact hnot ⟨hmisread.valid, hmisread.agrees⟩
    · rw [hstored] at hrefused
      cases hrefused
  · intro hread
    have hsame : (row.read fetchedAt).isSome → SeemsToAgree row.symbolText row.name.string →
        row.symbolText ≠ [] → ∀ n ∈ statedIn row.name.string,
          n = tableQuantity row.symbolText := by
      intro hvalid hagree hsymbol n hn
      by_contra hother
      exact hread ⟨hsymbol, hvalid, hagree, n, hn, hother⟩
    rcases takeCurrency_cases fetchedAt row with
      ⟨hsymbol, hskipped⟩ | ⟨-, -, hrefused⟩ | ⟨r, hsymbol, hvalid, hagree, hstored⟩
    · refine ⟨fun ref q r hq => ?_, fun hne => absurd hsymbol hne⟩
      rw [hskipped] at hq
      cases hq
    · refine ⟨fun ref q r hq => ?_, fun _ _ _ _ => hrefused⟩
      rw [hrefused] at hq
      cases hq
    · have hall := hsame (by rw [hvalid]; rfl) hagree hsymbol
      refine ⟨fun ref q r' hq hr' n hn => ?_, fun _ n hn hne => absurd (hall n hn) hne⟩
      rw [hstored] at hq
      rw [hvalid] at hr'
      cases hq
      cases hr'
      rw [hall n hn]
      exact parse_perUnit hagree

end Law

/-! ## The prices of the answer -/

section Answer
variable {fetchedAt : Nat} {rows : List Row} {row : Row} {f feed : FeedParse} {t : Taken}
  {readJson : Text → Option Parsed} {body : Text} {data : Parsed}

/-- The price of every currency is the one that was stored for a row of the section. -/
def FromRows (fetchedAt : Nat) (rows : List Row) (quotes : OrderedMap Text RateQuote) : Prop :=
  ∀ ref q, quotes.lookup ref = some q → q.quantityUnit = currencyUnit →
    ∃ row ∈ rows, ∃ stored, takeCurrency fetchedAt row = .stored ref stored ∧
      q.price = stored.price

theorem FromRows.set {quotes : OrderedMap Text RateQuote} (h : FromRows fetchedAt rows quotes)
    {ref : Text} {q : RateQuote} (hq : q.quantityUnit = currencyUnit →
      ∃ row ∈ rows, ∃ stored, takeCurrency fetchedAt row = .stored ref stored ∧
        q.price = stored.price) : FromRows fetchedAt rows (quotes.set ref q) := by
  intro ref' q' hlookup hunit
  by_cases href : ref' = ref
  · subst href
    rw [OrderedMap.lookup_set_self, Option.some.injEq] at hlookup
    subst hlookup
    exact hq hunit
  · rw [OrderedMap.lookup_set_of_ne href] at hlookup
    exact h ref' q' hlookup hunit

theorem FromRows.add (h : FromRows fetchedAt rows f.quotes)
    (ht : ∀ ref q, t = .stored ref q → q.quantityUnit = currencyUnit →
      ∃ row ∈ rows, ∃ stored, takeCurrency fetchedAt row = .stored ref stored ∧
        q.price = stored.price) : FromRows fetchedAt rows (f.add t).quotes := by
  cases t with
  | skipped => exact h
  | refused ref => exact h
  | stored ref q => exact h.set (ht ref q rfl)

/-- A quote keeps the unit it was taken with. -/
theorem quantityUnit_of_take {unit : Property String} {basis : String} {ref : Text} {q : RateQuote}
    (h : take fetchedAt unit basis row = .stored ref q) : q.quantityUnit = unit := by
  unfold take at h
  split at h
  · cases h
  · cases hread : row.read fetchedAt with
    | none =>
      rw [hread] at h
      cases h
    | some r =>
      rw [hread] at h
      dsimp only at h
      split_ifs at h <;> cases h <;> rfl

theorem goldUnit_ne {key : Text} {unit : Property String}
    (h : propertyOf GOLD_UNITS key = some unit) : unit ≠ currencyUnit := by
  unfold propertyOf at h
  split at h
  · rename_i e he
    have hmem := List.mem_of_find?_eq_some he
    have hall : ∀ e ∈ GOLD_UNITS, e.2 ≠ "currency_unit" := by decide
    cases h
    simpa [currencyUnit] using hall e hmem
  · split_ifs at h
    cases h
    simp [currencyUnit]

theorem fromRows_gold (h : FromRows fetchedAt [] f.quotes) (row : Row) :
    FromRows fetchedAt [] (takeGold fetchedAt f row).quotes := by
  unfold takeGold
  cases hunit : propertyOf GOLD_UNITS row.symbol.string with
  | none => exact h
  | some unit =>
    refine h.add fun ref q htake hcurrency => absurd ?_ (goldUnit_ne hunit)
    exact (quantityUnit_of_take htake).symm.trans hcurrency

theorem fromRows_melted (h : FromRows fetchedAt [] f.quotes) (goldRows : List Row) :
    FromRows fetchedAt [] (takeMelted fetchedAt goldRows f).quotes := by
  unfold takeMelted
  split
  · exact h
  · rename_i row _
    have hadd : FromRows fetchedAt []
        (f.add (take fetchedAt (.own "mesghal_705") "market_rate" row)).quotes := by
      refine h.add fun ref q htake hcurrency => ?_
      have hunit := (quantityUnit_of_take htake).symm.trans hcurrency
      exact absurd hunit (by decide)
    dsimp only
    split
    · exact hadd
    · split_ifs
      · exact hadd
      · intro ref q hlookup
        by_cases href : ref = meltedRef
        · rw [href, OrderedMap.lookup_delete_self] at hlookup
          cases hlookup
        · rw [OrderedMap.lookup_delete_of_ne href] at hlookup
          exact hadd ref q hlookup

theorem fromRows_currency (h : FromRows fetchedAt [] f.quotes) (rows : List Row) :
    FromRows fetchedAt rows
      (rows.foldl (fun f row => f.add (takeCurrency fetchedAt row)) f).quotes := by
  induction rows using List.reverseRecOn with
  | nil => exact h
  | append_singleton rows row ih =>
    rw [List.foldl_concat]
    have hmore : ∀ quotes, FromRows fetchedAt rows quotes →
        FromRows fetchedAt (rows ++ [row]) quotes := by
      intro quotes hquotes ref q hlookup hunit
      obtain ⟨r, hr, hstored⟩ := hquotes ref q hlookup hunit
      exact ⟨r, List.mem_append_left _ hr, hstored⟩
    exact (hmore _ ih).add fun ref q htake _ =>
      ⟨row, List.mem_append_right _ List.mem_cons_self, q, htake, rfl⟩

theorem fromRows_label {quotes : OrderedMap Text RateQuote} (h : FromRows fetchedAt rows quotes) :
    FromRows fetchedAt rows (labelFreeMarket quotes) := by
  have hlabel : ∀ (l : List (Text × RateQuote)) (m : OrderedMap Text RateQuote),
      (∀ e ∈ l, quotes.lookup e.1 = some e.2) → FromRows fetchedAt rows m →
      FromRows fetchedAt rows (l.foldl labelOne m) := by
    intro l
    induction l with
    | nil => exact fun _ _ hm => hm
    | cons e l ih =>
      intro m hl hm
      refine ih _ (fun e' he' => hl e' (List.mem_cons_of_mem _ he')) ?_
      unfold labelOne
      split_ifs
      · exact hm.set fun hunit => h e.1 e.2 (hl e List.mem_cons_self) hunit
      · exact hm
  unfold labelFreeMarket
  split
  · split_ifs
    · exact hlabel _ _ (fun e he => OrderedMap.lookup_eq_some.mpr he) h
    · exact h
  · exact h

/-- The rows of the section of currencies. -/
def currencyRows (readJson : Text → Option Parsed) (body : Text) : List Row :=
  ((readJson body).map Parsed.currency).getD []

theorem parseGoldCurrency_fromRows
    (h : parseGoldCurrency fetchedAt readJson body = .ok feed) :
    FromRows fetchedAt (currencyRows readJson body) feed.quotes := by
  unfold parseGoldCurrency at h
  cases hdata : readJson body with
  | none =>
    rw [hdata] at h
    cases h
  | some data =>
    rw [hdata] at h
    dsimp only at h
    split at h
    · cases h
    split_ifs at h
    cases h
    have hstart : FromRows fetchedAt [] ({} : FeedParse).quotes := by
      intro ref q hlookup
      cases hlookup
    have hgold : FromRows fetchedAt [] (data.gold.foldl (takeGold fetchedAt) {}).quotes := by
      revert hstart
      generalize ({} : FeedParse) = f
      intro hf
      induction data.gold generalizing f with
      | nil => exact hf
      | cons row rows ih => exact ih _ (fromRows_gold hf row)
    rw [currencyRows, hdata]
    exact fromRows_label (fromRows_currency (fromRows_melted hgold _) _)

/-- The currencies of an answer have the prices of its rows, and these are kept to their units
exactly if no row is misread. -/
theorem goldCurrency_units_iff (h : parseGoldCurrency fetchedAt readJson body = .ok feed) :
    FromRows fetchedAt (currencyRows readJson body) feed.quotes ∧
      ((∀ row ∈ currencyRows readJson body, UnitsKept fetchedAt row) ↔
        ∀ row ∈ currencyRows readJson body, ¬Misread fetchedAt row) :=
  ⟨parseGoldCurrency_fromRows h, forall₂_congr fun _ _ => unitsKept_iff⟩

/-! ## A thousand taken for a hundred -/

def demoRow (symbol name price : String) : Row where
  symbol := .text symbol.toList
  unit := .text "تومان".toList
  name := .text name.toList
  price := .text price.toList
  timeUnix := .text "1747573140".toList

def demoBody (rows : List Row) : Text → Option Parsed := fun _ =>
  some (.object ⟨false, .missing, .missing⟩ [] rows)

def demoFetched : Nat := 1747573200000

/-- The yen at 56283 for a hundred, with a name that says so. -/
def yenForHundred : List Row := [demoRow "JPY" "یکصد ین ژاپن" "56283"]

theorem yenForHundred_units : ∃ feed,
    parseGoldCurrency demoFetched (demoBody yenForHundred) [] = .ok feed ∧
    FromRows demoFetched (currencyRows (demoBody yenForHundred) []) feed.quotes ∧
      ((∀ row ∈ currencyRows (demoBody yenForHundred) [], UnitsKept demoFetched row) ↔
        ∀ row ∈ currencyRows (demoBody yenForHundred) [], ¬Misread demoFetched row) := by
  obtain ⟨feed, h⟩ : ∃ feed,
    parseGoldCurrency demoFetched (demoBody yenForHundred) [] = .ok feed := ⟨_, rfl⟩
  exact ⟨feed, h, goldCurrency_units_iff h⟩

/-- The yen at 562830 for a thousand, which is stored as 5628.30 instead of 562.83. -/
def yenForThousand : List Row := [demoRow "JPY" "۱۰۰۰ ین ژاپن" "562830"]

theorem yenForThousand_is_off : ∃ feed,
    parseGoldCurrency demoFetched (demoBody yenForThousand) [] = .ok feed ∧
      (feed.quotes.lookup (brsRef "JPY".toList)).map (·.price) = some "5628.3".toList ∧
      statedIn "۱۰۰۰ ین ژاپن".toList = [1000] ∧
      (parse "562830".toList).div (.ofInt 1000) = parse "562.83".toList ∧
      ¬∀ row ∈ currencyRows (demoBody yenForThousand) [], UnitsKept demoFetched row := by
  refine ⟨_, rfl, by decide, by decide, by decide, fun hkept => ?_⟩
  have hmisread : Misread demoFetched (demoRow "JPY" "۱۰۰۰ ین ژاپن" "562830") := by
    refine ⟨by decide, by decide, ?_, 1000, by decide, by decide⟩
    unfold SeemsToAgree
    decide
  exact unitsKept_iff.mp (hkept _ List.mem_cons_self) hmisread

end Answer

end BrsApi

end Pwos
