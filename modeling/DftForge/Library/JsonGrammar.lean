import Mathlib.Data.List.Basic

/-! # The texts of JSON values

The grammar of JSON as a relation on texts, with the three names of numbers that
`json.dumps` writes besides. `Derives` is one family, so a proof about all derivations is
one induction over it.
-/
namespace DftForge.Library.JsonGrammar

def Blank (t : List Char) : Prop := ∀ c ∈ t, c ∈ [' ','\t','\n','\r']

def Digits (t : List Char) : Prop := t ≠ [] ∧ ∀ c ∈ t, c.isDigit = true

def IsHex (c : Char) : Prop :=
  c.isDigit = true ∨ c ∈ ['a','b','c','d','e','f','A','B','C','D','E','F']

/-- What stands between the quotes of a string. -/
inductive StringBody : List Char → Prop
  | nil : StringBody []
  | plain {c : Char} {t : List Char} : c ≠ '"' → c ≠ '\\' → 32 ≤ c.toNat → StringBody t → StringBody (c :: t)
  | escaped {c : Char} {t : List Char} : c ∈ ['"','\\','/','b','f','n','r','t'] → StringBody t →
    StringBody ('\\' :: c :: t)
  | unicode {p q r s : Char} {t : List Char} : IsHex p → IsHex q → IsHex r → IsHex s → StringBody t →
    StringBody ('\\' :: 'u' :: p :: q :: r :: s :: t)

def quoted (body : List Char) : List Char := '"' :: (body ++ ['"'])

def Fraction (t : List Char) : Prop := t = [] ∨ ∃ ds, Digits ds ∧ t = '.' :: ds

def Exponent (t : List Char) : Prop :=
  t = [] ∨ ∃ e sign ds, (e = 'e' ∨ e = 'E') ∧ sign ∈ [[],['+'],['-']] ∧ Digits ds ∧ t = e :: (sign ++ ds)

def Number (t : List Char) : Prop :=
  ∃ sign whole fraction exponent, sign ∈ [[],['-']] ∧ Digits whole ∧
    (whole.head? = some '0' → whole = ['0']) ∧ Fraction fraction ∧ Exponent exponent ∧
    t = sign ++ (whole ++ (fraction ++ exponent))

def literals : List (List Char) :=
  ["true".toList,"false".toList,"null".toList,"NaN".toList,"Infinity".toList,"-Infinity".toList]

/-- What a text may be a derivation of: a value, the values of an array with the commas
between them, or the members of an object. -/
inductive Part where
  | value
  | elements
  | members

inductive Derives : Part → List Char → Prop
  | literal {t : List Char} : t ∈ literals → Derives .value t
  | number {t : List Char} : Number t → Derives .value t
  | string {body : List Char} : StringBody body → Derives .value (quoted body)
  | emptyArray {w : List Char} : Blank w → Derives .value ('[' :: (w ++ [']']))
  | array {t : List Char} : Derives .elements t → Derives .value ('[' :: (t ++ [']']))
  | emptyObject {w : List Char} : Blank w → Derives .value ('\x7b' :: (w ++ ['\x7d']))
  | object {t : List Char} : Derives .members t → Derives .value ('\x7b' :: (t ++ ['\x7d']))
  | element {a t b : List Char} : Blank a → Derives .value t → Blank b → Derives .elements (a ++ (t ++ b))
  | elements {t t' : List Char} : Derives .elements t → Derives .elements t' →
    Derives .elements (t ++ ',' :: t')
  | member {a key b c t d : List Char} : Blank a → StringBody key → Blank b → Blank c → Derives .value t →
    Blank d → Derives .members (a ++ (quoted key ++ (b ++ ':' :: (c ++ (t ++ d)))))
  | members {t t' : List Char} : Derives .members t → Derives .members t' → Derives .members (t ++ ',' :: t')

/-- The text of an object. -/
def Object (t : List Char) : Prop :=
  (∃ w, Blank w ∧ t = '\x7b' :: (w ++ ['\x7d'])) ∨ ∃ ms, Derives .members ms ∧ t = '\x7b' :: (ms ++ ['\x7d'])

end DftForge.Library.JsonGrammar
