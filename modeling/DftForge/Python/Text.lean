import DftForge.Library.Regex
import DftForge.Runtime.Json

/-! # Python texts

Texts are lists of characters. The string methods and the regular expression
classes used by the parsers, the executors and the repair handler. Which
characters outside ASCII are digits or letters is a table of the Unicode database,
which is left open.
-/
namespace DftForge.Python
open DftForge.Library DftForge.Runtime

abbrev Text := List Char

/-- The part of the Unicode database about characters outside ASCII. -/
structure Unicode where
  digit : Char → Option ℕ := fun _ => none
  /-- The digits that are no decimal digits, such as superscripts. -/
  otherDigit : Char → Bool := fun _ => false
  isAlnum : Char → Bool := fun _ => false

/-- `sub in text`. -/
def contains (text : Text) (sub : String) : Bool := decide (sub.toList <:+: text)

/-- `str.lower` of one character; the Kelvin sign and the dotted capital I are the
only characters outside ASCII that it maps into ASCII. -/
def lowerChar (c : Char) : Text :=
  if c.toNat = 0x212A then ['k'] else if c.toNat = 0x130 then ['i',Char.ofNat 0x307] else [c.toLower]

def lower (text : Text) : Text := text.flatMap lowerChar

/-- Equality under `re.IGNORECASE`. -/
def foldEq (letter c : Char) : Bool :=
  letter.toLower = c.toLower || (letter.toLower = 'k' && c.toNat = 0x212A) ||
    (letter.toLower = 's' && c.toNat = 0x17F) ||
    (letter.toLower = 'i' && (c.toNat = 0x130 || c.toNat = 0x131))

def digitValue (u : Unicode) (c : Char) : Option ℕ :=
  if c.isDigit then some (c.toNat - '0'.toNat) else if c.toNat < 128 then none else u.digit c

/-- `str.isdigit` of one character. -/
def isdigit (u : Unicode) (c : Char) : Bool := (digitValue u c).isSome || (128 ≤ c.toNat && u.otherDigit c)

/-- `\w`. -/
def isWordChar (u : Unicode) (c : Char) : Bool :=
  isWord c || (128 ≤ c.toNat && (u.isAlnum c || (u.digit c).isSome))

/-- `int(text)` of a text of digits. -/
def natOf (u : Unicode) (text : Text) : ℕ :=
  text.foldl (fun n c => 10 * n + (digitValue u c).getD 0) 0

/-- `int(text)` of a text that matches `-?\d+`. -/
def intOf (u : Unicode) : Text → ℤ
  | '-' :: digits => -(natOf u digits : ℤ)
  | digits => natOf u digits

/-- The characters at which `str.splitlines` ends a line. -/
def isLineBreak (c : Char) : Bool :=
  let n := c.toNat
  (10 ≤ n && n ≤ 13) || (28 ≤ n && n ≤ 30) || n = 133 || n = 8232 || n = 8233

def splitLinesFrom (line : Text) : Text → List Text
  | [] => if line = [] then [] else [line.reverse]
  | '\r' :: '\n' :: rest => line.reverse :: splitLinesFrom [] rest
  | c :: rest => if isLineBreak c then line.reverse :: splitLinesFrom [] rest
    else splitLinesFrom (c :: line) rest

/-- `str.splitlines()`. -/
def splitLines (text : Text) : List Text := splitLinesFrom [] text

/-- `text.split(c)`. -/
def splitChar (c : Char) (text : Text) : List Text := text.splitOn c

theorem splitChar_of_not_mem {c : Char} {text : Text} (h : c ∉ text) : splitChar c text = [text] :=
  List.splitOn_eq_singleton h

theorem splitChar_append {c : Char} {text rest : Text} (h : c ∉ text) :
    splitChar c (text ++ c :: rest) = text :: splitChar c rest :=
  List.splitOn_append_cons_self_of_not_mem h rest

/-- `text.split()`: the runs of characters that are not white space. -/
def words (text : Text) : List Text := (text.splitOnP isSpace).filter (· ≠ [])

/-- `text.rstrip(chars)`. -/
def rstripOf (p : Char → Bool) (text : Text) : Text := (text.reverse.dropWhile p).reverse

namespace Re

abbrev Pattern := Regex Char

def lit (s : String) : Pattern := Regex.chain (s.toList.map fun c => .one (· = c))

/-- A literal under `re.IGNORECASE`. -/
def litFold (s : String) : Pattern := Regex.chain (s.toList.map fun c => .one (foldEq c))

/-- `\s`. -/
def space : Pattern := .one isSpace

/-- `\S`. -/
def notSpace : Pattern := .one fun c => !isSpace c

/-- `\d`. -/
def digit (u : Unicode) : Pattern := .one fun c => (digitValue u c).isSome

/-- `.`. -/
def dot : Pattern := .one (· ≠ '\n')

/-- A class given by its characters. -/
def oneOf (s : String) : Pattern := .one (· ∈ s.toList)

/-- `^` under `re.MULTILINE`. -/
def lineStart : Pattern := .anchor fun before _ => before = none || before = some '\n'

/-- `$` under `re.MULTILINE`. -/
def lineEnd : Pattern := .anchor fun _ after => after = none || after = some '\n'

/-- `\b`. -/
def boundary (u : Unicode) : Pattern :=
  .anchor fun before after => before.any (isWordChar u) != after.any (isWordChar u)

end Re

example : lower "QE Timed OUT".toList = "qe timed out".toList := by decide

section Spans
variable {α : Type*} {w w' t t' : List α}

/-- A list has one division into a run of a class and what does not go on with it. -/
theorem span_injective {p : α → Bool} (hw : ∀ x ∈ w, p x = true) (hw' : ∀ x ∈ w', p x = true)
    (ht : ∀ x ∈ t.head?, p x = false) (ht' : ∀ x ∈ t'.head?, p x = false) (h : w ++ t = w' ++ t') :
    w = w' ∧ t = t' := by
  have hstop {t : List α} (ht : ∀ x ∈ t.head?, p x = false) : t.takeWhile p = [] := by
    cases t with
    | nil => rfl
    | cons x t => exact List.takeWhile_cons_of_neg (by rw [ht x rfl]; exact Bool.false_ne_true)
  have htake := congrArg (List.takeWhile p) h
  rw [List.takeWhile_append_of_pos hw,List.takeWhile_append_of_pos hw',hstop ht,hstop ht',List.append_nil,
    List.append_nil] at htake
  subst htake
  exact ⟨rfl,List.append_cancel_left h⟩

/-- A list has one division at the first place of a character. -/
theorem append_cons_cancel [DecidableEq α] {c : α} (hw : c ∉ w) (hw' : c ∉ w')
    (h : w ++ c :: t = w' ++ c :: t') : w = w' ∧ t = t' := by
  have hother {w : List α} (hw : c ∉ w) : ∀ x ∈ w, decide (x ≠ c) = true := fun x hx =>
    decide_eq_true fun heq => hw (heq ▸ hx)
  have hmark (t : List α) : ∀ x ∈ (c :: t).head?, decide (x ≠ c) = false := by simp
  obtain ⟨hwords,hrest⟩ := span_injective (hother hw) (hother hw') (hmark t) (hmark t') h
  exact ⟨hwords,(List.cons.inj hrest).2⟩

end Spans
end DftForge.Python
