import DftForge.Python.Words
import Mathlib.Algebra.Order.Field.Rat
import Mathlib.Tactic.Ring
import Mathlib.Tactic.FieldSimp

/-! # Numbers in texts

`float(text)` in exact arithmetic, and the numbers that programs print in fixed and in
exponent format: each is read as the number it denotes.
-/
namespace DftForge.Python
open DftForge.Runtime

section Reader
variable (u : Unicode)

def isDigitChar (c : Char) : Bool := (digitValue u c).isSome

/-- Digits with single underscores between them. -/
def digitRun (text : Text) : Option Text :=
  let pieces := splitChar '_' text
  if pieces.all fun piece => piece ≠ [] && piece.all (isDigitChar u) then some pieces.flatten else none

/-- The digits on one side of the point; there may be none. -/
def digitSide (text : Text) : Option Text := if text = [] then some [] else digitRun u text

def readMantissa (text : Text) : Option ℚ :=
  match splitChar '.' text with
  | [whole] => (digitRun u whole).map fun ds => (natOf u ds : ℚ)
  | [whole,fraction] =>
    if whole = [] ∧ fraction = [] then none
    else do
      let w ← digitSide u whole
      let f ← digitSide u fraction
      return (natOf u (w ++ f) : ℚ) / 10 ^ f.length
  | _ => none

def readInteger : Text → Option ℤ
  | '-' :: text => (digitRun u text).map fun ds => -(natOf u ds : ℤ)
  | '+' :: text => (digitRun u text).map fun ds => (natOf u ds : ℤ)
  | text => (digitRun u text).map fun ds => (natOf u ds : ℤ)

def isExponentMark (c : Char) : Bool := c = 'e' || c = 'E'

def readUnsigned (text : Text) : Option ℚ :=
  match text.dropWhile fun c => !isExponentMark c with
  | [] => readMantissa u text
  | _ :: exponent => do
    let x ← readMantissa u (text.takeWhile fun c => !isExponentMark c)
    let n ← readInteger u exponent
    return x * 10 ^ n

/-- `float(text)` of a text without white space, for finite numbers. -/
def readFloat : Text → Option ℚ
  | '-' :: text => (readUnsigned u text).map fun x => -x
  | '+' :: text => readUnsigned u text
  | text => readUnsigned u text

end Reader

/-- A digit from zero to nine. -/
abbrev Digit := Fin 10

def Digit.char (d : Digit) : Char := Nat.digitChar d

def digitText (ds : List Digit) : Text := ds.map Digit.char

/-- The number that the digits denote. -/
def digitNumber (ds : List Digit) : ℕ := ds.foldl (fun n d => 10 * n + d.val) 0

theorem digitNumber_append (ds es : List Digit) :
    digitNumber (ds ++ es) = digitNumber ds * 10 ^ es.length + digitNumber es := by
  induction es using List.reverseRecOn with
  | nil => simp [digitNumber]
  | append_singleton es e ih =>
    rw [← List.append_assoc]
    simp only [digitNumber, List.foldl_append, List.foldl_cons, List.foldl_nil, List.length_append,
      List.length_singleton] at ih ⊢
    rw [ih]
    ring

theorem Digit.isDigit_char (d : Digit) : d.char.isDigit = true := by
  revert d
  decide

theorem Digit.digitValue_char (u : Unicode) (d : Digit) : digitValue u d.char = some (d : ℕ) := by
  rw [digitValue, if_pos d.isDigit_char]
  revert d
  decide

theorem Digit.not_mark (d : Digit) : isExponentMark d.char = false := by
  revert d
  decide

theorem digitText_isDigit {ds : List Digit} : ∀ c ∈ digitText ds, c.isDigit = true := by
  intro c hc
  obtain ⟨d,-,rfl⟩ := List.mem_map.mp hc
  exact d.isDigit_char

theorem natOf_digitText (u : Unicode) (ds : List Digit) : natOf u (digitText ds) = digitNumber ds := by
  rw [natOf, digitText, List.foldl_map, digitNumber]
  simp only [Digit.digitValue_char, Option.getD_some]

theorem digitText_eq_nil {ds : List Digit} : digitText ds = [] ↔ ds = [] := List.map_eq_nil_iff

theorem digitText_append (ds es : List Digit) : digitText (ds ++ es) = digitText ds ++ digitText es :=
  List.map_append

/-- A character that no digit run contains. -/
theorem not_mem_digitText {ds : List Digit} {c : Char} (hc : c.isDigit = false) : c ∉ digitText ds := by
  intro h
  rw [digitText_isDigit c h] at hc
  cases hc

theorem digitRun_digitText (u : Unicode) {ds : List Digit} (h : ds ≠ []) :
    digitRun u (digitText ds) = some (digitText ds) := by
  have hsplit : splitChar '_' (digitText ds) = [digitText ds] :=
    splitChar_of_not_mem (not_mem_digitText (by decide))
  have hall : (digitText ds).all (isDigitChar u) = true := by
    simp [digitText, isDigitChar, Digit.digitValue_char]
  rw [digitRun, hsplit]
  simp [hall, digitText_eq_nil, h]

theorem digitSide_digitText (u : Unicode) (ds : List Digit) :
    digitSide u (digitText ds) = some (digitText ds) := by
  unfold digitSide
  split_ifs with h
  · rw [h]
  · exact digitRun_digitText u (fun hds => h (digitText_eq_nil.mpr hds))

/-- Digits before the point, and perhaps a point with digits after it. -/
structure Fixed where
  whole : List Digit
  fraction : Option (List Digit)
  whole_ne : whole ≠ []

/-- The power of ten. -/
structure Exponent where
  mark : Char
  sign : Option Char
  digits : List Digit
  mark_eq : mark = 'e' ∨ mark = 'E'
  sign_eq : ∀ c ∈ sign, c = '+' ∨ c = '-'
  digits_ne : digits ≠ []

/-- A number in fixed or exponent format. -/
structure Numeral where
  negative : Bool
  mantissa : Fixed
  exponent : Option Exponent

namespace Fixed

def pointText : Option (List Digit) → Text
  | none => []
  | some ds => '.' :: digitText ds

def text (n : Fixed) : Text := digitText n.whole ++ pointText n.fraction

def value (n : Fixed) : ℚ :=
  digitNumber n.whole + digitNumber (n.fraction.getD []) / 10 ^ (n.fraction.getD []).length

end Fixed

namespace Exponent

def text (e : Exponent) : Text := e.mark :: (e.sign.toList ++ digitText e.digits)

def value (e : Exponent) : ℤ := if e.sign = some '-' then -digitNumber e.digits else digitNumber e.digits

end Exponent

namespace Numeral

def text (n : Numeral) : Text :=
  (if n.negative then ['-'] else []) ++ (n.mantissa.text ++ (n.exponent.map Exponent.text).getD [])

def value (n : Numeral) : ℚ :=
  (if n.negative then -1 else 1) * n.mantissa.value * 10 ^ ((n.exponent.map Exponent.value).getD 0)

end Numeral

/-- The characters of numbers. -/
def isNumberChar (c : Char) : Bool := c.isDigit || c = '.' || c = '-' || c = '+' || isExponentMark c

theorem digitText_chars (ds : List Digit) : ∀ c ∈ digitText ds, isNumberChar c = true := by
  intro c hc
  rw [isNumberChar, digitText_isDigit c hc]
  rfl

theorem Fixed.chars (n : Fixed) : ∀ c ∈ n.text, isNumberChar c = true := by
  rw [Fixed.text, List.forall_mem_append]
  refine ⟨digitText_chars _,?_⟩
  cases n.fraction with
  | none => exact nofun
  | some ds => exact List.forall_mem_cons.mpr ⟨by decide,digitText_chars ds⟩

theorem Exponent.chars (e : Exponent) : ∀ c ∈ e.text, isNumberChar c = true := by
  simp only [Exponent.text, List.forall_mem_cons, List.forall_mem_append]
  refine ⟨?_,?_,digitText_chars _⟩
  · obtain h | h := e.mark_eq <;> rw [h] <;> decide
  · intro c hc
    obtain rfl | rfl := e.sign_eq c (Option.mem_toList.mp hc) <;> decide

theorem Numeral.chars (n : Numeral) : ∀ c ∈ n.text, isNumberChar c = true := by
  rw [Numeral.text, List.forall_mem_append, List.forall_mem_append]
  refine ⟨?_,n.mantissa.chars,?_⟩
  · cases n.negative with
    | false => exact nofun
    | true => exact List.forall_mem_singleton.mpr (by decide)
  · cases n.exponent with
    | none => exact nofun
    | some e => exact e.chars

theorem isSpace_of_isNumberChar {c : Char} (h : isNumberChar c = true) : isSpace c = false := by
  simp only [isNumberChar, isExponentMark, Bool.or_eq_true, decide_eq_true_eq] at h
  obtain (((h | rfl) | rfl) | rfl) | rfl | rfl := h
  · exact isSpace_digit h
  all_goals rfl

theorem Fixed.text_ne_nil (n : Fixed) : n.text ≠ [] :=
  List.append_ne_nil_of_left_ne_nil (fun h => n.whole_ne (digitText_eq_nil.mp h)) _

theorem Numeral.word (n : Numeral) : IsWordText n.text :=
  ⟨List.append_ne_nil_of_right_ne_nil _ (List.append_ne_nil_of_left_ne_nil n.mantissa.text_ne_nil _),
    fun c hc => isSpace_of_isNumberChar (n.chars c hc)⟩

variable (u : Unicode)

theorem readMantissa_fixed (n : Fixed) : readMantissa u n.text = some n.value := by
  have hpoint (ds : List Digit) : '.' ∉ digitText ds := not_mem_digitText (by decide)
  obtain ⟨whole,fraction,hwhole⟩ := n
  cases fraction with
  | none =>
    rw [Fixed.text, Fixed.pointText, List.append_nil, readMantissa, splitChar_of_not_mem (hpoint _)]
    simp [digitRun_digitText u hwhole, natOf_digitText, Fixed.value, digitNumber]
  | some ds =>
    have hne : ¬ (digitText whole = [] ∧ digitText ds = []) := fun h => hwhole (digitText_eq_nil.mp h.1)
    rw [Fixed.text, Fixed.pointText, readMantissa, splitChar_append (hpoint _),
      splitChar_of_not_mem (hpoint _)]
    simp only [if_neg hne, digitSide_digitText, Option.bind_eq_bind, Option.bind_some, Option.pure_def,
      ← digitText_append, natOf_digitText, digitNumber_append, Fixed.value, Option.getD_some]
    simp only [digitText, List.length_map, Nat.cast_add, Nat.cast_mul, Nat.cast_pow, Nat.cast_ofNat]
    congr 1
    field_simp

theorem readInteger_digitText {ds : List Digit} (h : ds ≠ []) :
    readInteger u (digitText ds) = some (digitNumber ds : ℤ) := by
  have hrun := digitRun_digitText u h
  have hread : readInteger u (digitText ds) = (digitRun u (digitText ds)).map fun es => (natOf u es : ℤ) := by
    cases ds with
    | nil => exact absurd rfl h
    | cons d ds =>
      fin_cases d <;> rfl
  rw [hread, hrun, Option.map_some, natOf_digitText]

theorem readInteger_exponent (e : Exponent) :
    readInteger u (e.sign.toList ++ digitText e.digits) = some e.value := by
  obtain ⟨mark,sign,digits,hmark,hsign,hdigits⟩ := e
  have hrun := digitRun_digitText u hdigits
  cases sign with
  | none => exact readInteger_digitText u hdigits
  | some c =>
    obtain rfl | rfl := hsign c rfl
    · simp [readInteger, hrun, natOf_digitText, Exponent.value]
    · simp [readInteger, hrun, natOf_digitText, Exponent.value]

theorem Fixed.not_mark (n : Fixed) : ∀ c ∈ n.text, isExponentMark c = false := by
  have hdigits (ds : List Digit) : ∀ c ∈ digitText ds, isExponentMark c = false := by
    intro c hc
    obtain ⟨d,-,rfl⟩ := List.mem_map.mp hc
    exact d.not_mark
  rw [Fixed.text, List.forall_mem_append]
  refine ⟨hdigits _,?_⟩
  cases n.fraction with
  | none => exact nofun
  | some ds => exact List.forall_mem_cons.mpr ⟨by decide,hdigits ds⟩

/-- The text of a number without its sign. -/
theorem readUnsigned_text (n : Fixed) (e : Option Exponent) :
    readUnsigned u (n.text ++ (e.map Exponent.text).getD []) =
      some (n.value * 10 ^ ((e.map Exponent.value).getD 0)) := by
  have hskip : ∀ c ∈ n.text, (!isExponentMark c) = true := by
    intro c hc
    rw [n.not_mark c hc]
    rfl
  unfold readUnsigned
  rw [List.dropWhile_append_of_pos hskip, List.takeWhile_append_of_pos hskip]
  cases e with
  | none => simp [readMantissa_fixed]
  | some e =>
    have hmark : isExponentMark e.mark = true := by
      obtain h | h := e.mark_eq <;> rw [h] <;> rfl
    have hdrop : e.text.dropWhile (fun c => !isExponentMark c) = e.text := by
      simp [Exponent.text, hmark]
    have htake : e.text.takeWhile (fun c => !isExponentMark c) = [] := by
      simp [Exponent.text, hmark]
    rw [Option.map_some, Option.getD_some, hdrop, htake, List.append_nil, Exponent.text]
    simp only [readMantissa_fixed, readInteger_exponent, Option.bind_eq_bind, Option.bind_some,
      Option.pure_def, Option.map_some, Option.getD_some]

theorem readFloat_numeral (n : Numeral) : readFloat u n.text = some n.value := by
  obtain ⟨negative,⟨whole,fraction,hwhole⟩,exponent⟩ := n
  have hread := readUnsigned_text u ⟨whole,fraction,hwhole⟩ exponent
  cases negative with
  | true =>
    simp only [Numeral.text, Numeral.value, if_true, List.cons_append, List.nil_append, readFloat, hread,
      Option.map_some]
    congr 1
    ring
  | false =>
    simp only [Numeral.text, Numeral.value, Bool.false_eq_true, if_false, List.nil_append, one_mul]
    rw [← hread]
    cases whole with
    | nil => exact absurd rfl hwhole
    | cons d ds => fin_cases d <;> rfl

end DftForge.Python
