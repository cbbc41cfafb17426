import Pwos.Lib.CodeUnits

/-!
# The syntax of JSON

A JSON text with all its blanks, as a tree of the grammar, and what it means in an algebra of
values: numbers are given by their digits, strings by their code units, and an object by all its
members in order.
-/

namespace Pwos

namespace JsonSyntax

def isJsonBlank (c : Char) : Bool := c = ' ' || c = '\t' || c = '\n' || c = '\r'

/-- Blanks between two tokens. -/
structure Gap where
  text : List Char
  blanks : text.all isJsonBlank = true

/-! ## Strings -/

/-- What stands in a string as it is. -/
def isPlain (c : Char) : Bool := decide (0x20 ≤ c.toNat) && c != '"' && c != '\\'

def isHex (c : Char) : Bool :=
  c.isDigit || (decide ('a' ≤ c) && decide (c ≤ 'f')) || (decide ('A' ≤ c) && decide (c ≤ 'F'))

def hexDigit (c : Char) : Nat :=
  if c.isDigit then c.toNat - 48 else if 'a' ≤ c then c.toNat - 87 else c.toNat - 55

/-- The code unit of `\` and a letter. -/
def escapeUnit (c : Char) : Option Nat :=
  match c with
  | '"' => some 34
  | '\\' => some 92
  | '/' => some 47
  | 'b' => some 8
  | 'f' => some 12
  | 'n' => some 10
  | 'r' => some 13
  | 't' => some 9
  | _ => none

/-- A character, an escaped one, or `\u` with four digits. -/
inductive Piece where
  | plain (c : Char) (h : isPlain c = true)
  | escape (c : Char) (h : (escapeUnit c).isSome = true)
  | unit (a b c d : Char) (h : [a, b, c, d].all isHex = true)

def Piece.text : Piece → List Char
  | .plain c _ => [c]
  | .escape c _ => ['\\', c]
  | .unit a b c d _ => ['\\', 'u', a, b, c, d]

def Piece.units : Piece → List Nat
  | .plain c _ => charUnits c
  | .escape c _ => (escapeUnit c).toList
  | .unit a b c d _ =>
    [((hexDigit a * 16 + hexDigit b) * 16 + hexDigit c) * 16 + hexDigit d]

def Piece.isPlain : Piece → Bool
  | .plain _ _ => true
  | _ => false

/-- What stands between the quotes. -/
def piecesText (s : List Piece) : List Char := s.flatMap Piece.text

def stringText (s : List Piece) : List Char := '"' :: (piecesText s ++ ['"'])

def stringUnits (s : List Piece) : List Nat := s.flatMap Piece.units

/-! ## Numbers -/

structure Digits where
  text : List Char
  digits : text.all Char.isDigit = true
  ne_nil : text ≠ []

def signText (negative : Bool) : List Char := if negative then ['-'] else []

structure ExponentLit where
  upper : Bool
  sign : Option Bool
  digits : Digits

def ExponentLit.text (e : ExponentLit) : List Char :=
  (if e.upper then 'E' else 'e') ::
    ((match e.sign with
      | none => []
      | some negative => [if negative then '-' else '+']) ++ e.digits.text)

structure NumberLit where
  negative : Bool
  whole : Digits
  /-- No zeros before a whole part. -/
  leading : whole.text.head? = some '0' → whole.text.length = 1
  fraction : Option Digits
  exponent : Option ExponentLit

def fractionText : Option Digits → List Char
  | none => []
  | some d => '.' :: d.text

def exponentText : Option ExponentLit → List Char
  | none => []
  | some e => e.text

def NumberLit.text (n : NumberLit) : List Char :=
  signText n.negative ++ (n.whole.text ++ (fractionText n.fraction ++ exponentText n.exponent))

/-! ## Values -/

inductive Keyword where
  | null | yes | no

def Keyword.text : Keyword → List Char
  | .null => ['n', 'u', 'l', 'l']
  | .yes => ['t', 'r', 'u', 'e']
  | .no => ['f', 'a', 'l', 's', 'e']

mutual

inductive JsonTree where
  | keyword (w : Keyword)
  | number (n : NumberLit)
  | string (s : List Piece)
  | emptyArray (inside : Gap)
  | array (items : Items)
  | emptyObject (inside : Gap)
  | object (members : Members)

inductive Items where
  | one (before : Gap) (value : JsonTree) (after : Gap)
  | more (before : Gap) (value : JsonTree) (after : Gap) (rest : Items)

inductive Members where
  | one (before : Gap) (name : List Piece) (left right : Gap) (value : JsonTree) (after : Gap)
  | more (before : Gap) (name : List Piece) (left right : Gap) (value : JsonTree) (after : Gap)
      (rest : Members)

end

mutual

def JsonTree.text : JsonTree → List Char
  | .keyword w => w.text
  | .number n => n.text
  | .string s => stringText s
  | .emptyArray inside => '[' :: (inside.text ++ [']'])
  | .array items => '[' :: (items.text ++ [']'])
  | .emptyObject inside => '{' :: (inside.text ++ ['}'])
  | .object members => '{' :: (members.text ++ ['}'])

def Items.text : Items → List Char
  | .one before value after => before.text ++ (value.text ++ after.text)
  | .more before value after rest =>
    before.text ++ (value.text ++ (after.text ++ ',' :: rest.text))

def Members.text : Members → List Char
  | .one before name left right value after =>
    before.text ++ (stringText name ++ (left.text ++ ':' :: (right.text ++
      (value.text ++ after.text))))
  | .more before name left right value after rest =>
    before.text ++ (stringText name ++ (left.text ++ ':' :: (right.text ++
      (value.text ++ (after.text ++ ',' :: rest.text)))))

end

/-- What values are made of. -/
structure JsonValues (V : Type) where
  keyword : Keyword → V
  number : List Char → V
  string : List Nat → V
  array : List V → V
  object : List (List Nat × V) → V

section Value
variable {V : Type} (alg : JsonValues V)

mutual

def JsonTree.value : JsonTree → V
  | .keyword w => alg.keyword w
  | .number n => alg.number n.text
  | .string s => alg.string (stringUnits s)
  | .emptyArray _ => alg.array []
  | .array items => alg.array items.values
  | .emptyObject _ => alg.object []
  | .object members => alg.object members.values

def Items.values : Items → List V
  | .one _ value _ => [value.value]
  | .more _ value _ rest => value.value :: rest.values

def Members.values : Members → List (List Nat × V)
  | .one _ name _ _ value _ => [(stringUnits name, value.value)]
  | .more _ name _ _ value _ rest => (stringUnits name, value.value) :: rest.values

end

end Value

/-- A value with blanks around it: a whole text. -/
structure Document where
  before : Gap
  tree : JsonTree
  after : Gap

def Document.text (d : Document) : List Char := d.before.text ++ (d.tree.text ++ d.after.text)

def Document.value {V : Type} (alg : JsonValues V) (d : Document) : V := d.tree.value alg

end JsonSyntax

end Pwos
