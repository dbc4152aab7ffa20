/-
The JSON texts, by their grammar: which bytes spell which value. This is what
the parser is for, and says nothing of how it reads.

Of members with one key the last counts. A number is an integer if it has
neither a fraction nor an exponent and fits; any other is a `double`.
-/
import AudioToolApi.Utilities.JsonLexer

namespace AudioToolApi.Grammar

open Lexer (hexValue digitsValue)

/-! ## Numbers -/

def Spaces (t : Bytes) : Prop := ∀ c ∈ t, c ∈ [(32 : UInt8), 9, 10, 13]

/-- `0` to `9`. -/
def Digit (c : UInt8) : Prop := 48 ≤ c ∧ c ≤ 57

def Digits (t : Bytes) : Prop := t ≠ [] ∧ ∀ c ∈ t, Digit c

inductive IntPart : Bytes → Prop
  | zero : IntPart [48]
  | digits {c : UInt8} {t : Bytes} : Digit c → c ≠ 48 → (∀ d ∈ t, Digit d) → IntPart (c :: t)

inductive Fraction : Bytes → Prop
  | none : Fraction []
  | digits {t : Bytes} : Digits t → Fraction (46 :: t)

inductive Exponent : Bytes → Prop
  | none : Exponent []
  | digits {e : UInt8} {sign t : Bytes} : e ∈ [(101 : UInt8), 69] → sign ∈ [[], [(43 : UInt8)], [45]] → Digits t →
    Exponent (e :: (sign ++ t))

/-- Whether an integer fits its type. -/
def Fits (sign int : Bytes) : Prop := if sign = [] then digitsValue int < 2 ^ 64 else digitsValue int ≤ 2 ^ 63

inductive Number (strtod : Bytes → Option Double) : Bytes → Json → Prop
  | unsigned {int : Bytes} : IntPart int → Fits [] int → Number strtod int (.int (digitsValue int))
  | negative {int : Bytes} : IntPart int → Fits [45] int → Number strtod (45 :: int) (.int (-digitsValue int))
  | float {sign int fraction exponent : Bytes} {x : Double} : sign ∈ [[], [(45 : UInt8)]] → IntPart int →
    Fraction fraction → Exponent exponent → (fraction = [] → exponent = [] → ¬ Fits sign int) →
    strtod (sign ++ int ++ fraction ++ exponent) = some x →
    Number strtod (sign ++ int ++ fraction ++ exponent) (.float x)

/-! ## Strings -/

/-- Four hexadecimal digits. -/
inductive FourHex : Bytes → Nat → Prop
  | digits {c₁ c₂ c₃ c₄ : UInt8} {d₁ d₂ d₃ d₄ : Nat} : hexValue c₁ = some d₁ → hexValue c₂ = some d₂ →
    hexValue c₃ = some d₃ → hexValue c₄ = some d₄ →
    FourHex [c₁, c₂, c₃, c₄] (d₁ * 16 ^ 3 + d₂ * 16 ^ 2 + d₃ * 16 + d₄)

/-- What can follow a backslash, and the bytes it is for. -/
inductive Escape : Bytes → Bytes → Prop
  | short {c b : UInt8} :
    (c, b) ∈ [((34 : UInt8), (34 : UInt8)), (92, 92), (47, 47), (98, 8), (102, 12), (110, 10), (114, 13), (116, 9)] →
    Escape [c] [b]
  | unicode {t : Bytes} {v : Nat} : FourHex t v → IsScalar v → Escape (117 :: t) (codepointBytes v)
  | surrogates {t t' : Bytes} {high low : Nat} : FourHex t high → 0xD800 ≤ high ∧ high ≤ 0xDBFF →
    FourHex t' low → 0xDC00 ≤ low ∧ low ≤ 0xDFFF →
    Escape (117 :: (t ++ 92 :: 117 :: t')) (codepointBytes (0x10000 + (high - 0xD800) * 0x400 + (low - 0xDC00)))

/-- The text between the quotes, and the string. -/
inductive Chars : Bytes → Bytes → Prop
  | nil : Chars [] []
  | char {v : Nat} {t s : Bytes} : IsScalar v → 0x20 ≤ v → v ≠ 34 → v ≠ 92 → Chars t s →
    Chars (codepointBytes v ++ t) (codepointBytes v ++ s)
  | escape {e b t s : Bytes} : Escape e b → Chars t s → Chars (92 :: (e ++ t)) (b ++ s)

/-! ## Values -/

/-- A text of a value, with the whitespace around it. -/
structure Item where
  before : Bytes
  text : Bytes
  after : Bytes
  value : Json

def Item.bytes (i : Item) : Bytes := i.before ++ i.text ++ i.after

def Item.Spaced (i : Item) : Prop := Spaces i.before ∧ Spaces i.after

structure Member where
  before : Bytes
  keyText : Bytes
  key : Bytes
  after : Bytes
  item : Item

def Member.bytes (m : Member) : Bytes := m.before ++ 34 :: m.keyText ++ 34 :: m.after ++ 58 :: m.item.bytes

/-- The key, and the whitespace. -/
def Member.Formed (m : Member) : Prop := Spaces m.before ∧ Chars m.keyText m.key ∧ Spaces m.after ∧ m.item.Spaced

/-- The parts, with commas between them. -/
def commas (parts : List Bytes) : Bytes := [(44 : UInt8)].intercalate parts

inductive Value (strtod : Bytes → Option Double) : Bytes → Json → Prop
  | null : Value strtod (text "null") .null
  | true : Value strtod (text "true") (.bool true)
  | false : Value strtod (text "false") (.bool false)
  | number {t : Bytes} {j : Json} : Number strtod t j → Value strtod t j
  | string {t s : Bytes} : Chars t s → Value strtod (34 :: t ++ [34]) (.string s)
  | emptyArray {w : Bytes} : Spaces w → Value strtod (91 :: w ++ [93]) (.array [])
  | array {items : List Item} : items ≠ [] → (∀ i ∈ items, i.Spaced) → (∀ i ∈ items, Value strtod i.text i.value) →
    Value strtod (91 :: commas (items.map Item.bytes) ++ [93]) (.array (items.map Item.value))
  | emptyObject {w : Bytes} : Spaces w → Value strtod (123 :: w ++ [125]) (.object [])
  | object {members : List Member} : members ≠ [] → (∀ m ∈ members, m.Formed) →
    (∀ m ∈ members, Value strtod m.item.text m.item.value) →
    Value strtod (123 :: commas (members.map Member.bytes) ++ [125])
      (jsonify (members.map fun m => (m.key, m.item.value)))

/-- A text: a value, with whitespace around it. A byte order mark before it
and all from a NUL on after it are passed over. -/
def Document (strtod : Bytes → Option Double) (input : Bytes) (j : Json) : Prop :=
  ∃ mark before t after rest, input = mark ++ before ++ t ++ after ++ rest ∧ mark ∈ [[], [(0xEF : UInt8), 0xBB, 0xBF]] ∧
    Spaces before ∧ Value strtod t j ∧ Spaces after ∧ (rest = [] ∨ rest.head? = some 0)

end AudioToolApi.Grammar
