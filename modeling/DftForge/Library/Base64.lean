import Mathlib.Data.List.Basic
import Mathlib.Data.Nat.Notation

/-! # Base64

The standard alphabet with padding: three bytes are four digits of six bits. A text is
read group by group, up to the first group that is none.
-/
namespace DftForge.Library.Base64

def alphabet : String := "ABCDEFGHIJKLMNOPQRSTUVWXYZabcdefghijklmnopqrstuvwxyz0123456789+/"

def symbol (n : ℕ) : Char := alphabet.toList.getD n '='

def digit (c : Char) : Option ℕ := alphabet.toList.findIdx? (· = c)

/-- The digits of a group of one, two or three bytes. -/
def digits₁ (a : UInt8) : List ℕ := [a.toNat / 4,a.toNat % 4 * 16]

def digits₂ (a b : UInt8) : List ℕ :=
  [a.toNat / 4,a.toNat % 4 * 16 + b.toNat / 16,b.toNat % 16 * 4]

def digits₃ (a b c : UInt8) : List ℕ :=
  [a.toNat / 4,a.toNat % 4 * 16 + b.toNat / 16,b.toNat % 16 * 4 + c.toNat / 64,c.toNat % 64]

def encode : List UInt8 → List Char
  | [] => []
  | [a] => (digits₁ a).map symbol ++ ['=','=']
  | [a,b] => (digits₂ a b).map symbol ++ ['=']
  | a :: b :: c :: rest => (digits₃ a b c).map symbol ++ encode rest

/-- The bytes of a group of four characters. -/
def group (p q r s : Char) : Option (List UInt8) :=
  match digit p, digit q, digit r, digit s with
  | some i, some j, some k, some l =>
    some [.ofNat (i * 4 + j / 16),.ofNat (j % 16 * 16 + k / 4),.ofNat (k % 4 * 64 + l)]
  | some i, some j, some k, none =>
    if s = '=' then some [.ofNat (i * 4 + j / 16),.ofNat (j % 16 * 16 + k / 4)] else none
  | some i, some j, none, none => if r = '=' ∧ s = '=' then some [.ofNat (i * 4 + j / 16)] else none
  | _, _, _, _ => none

def decode : List Char → List UInt8
  | p :: q :: r :: s :: rest =>
    match group p q r s with
    | some bytes => bytes ++ decode rest
    | none => []
  | _ => []

theorem digit_symbol {n : ℕ} (hn : n < 64) : digit (symbol n) = some n := by
  have hall : ∀ n : Fin 64, digit (symbol n) = some n.val := by decide +kernel
  exact hall ⟨n,hn⟩

theorem digit_pad : digit '=' = none := by decide +kernel

theorem ofNat_eq {a : UInt8} {n : ℕ} (h : n = a.toNat) : UInt8.ofNat n = a := by
  rw [h,UInt8.ofNat_toNat]

variable (a b c : UInt8)

theorem group_digits₁ : group (symbol (a.toNat / 4)) (symbol (a.toNat % 4 * 16)) '=' '=' = some [a] := by
  have ha := a.toNat_lt
  rw [group,digit_symbol (by omega),digit_symbol (by omega),digit_pad]
  simp only [and_self,if_true]
  rw [ofNat_eq (a := a) (by omega)]

theorem group_digits₂ :
    group (symbol (a.toNat / 4)) (symbol (a.toNat % 4 * 16 + b.toNat / 16)) (symbol (b.toNat % 16 * 4)) '=' =
      some [a,b] := by
  have ha := a.toNat_lt
  have hb := b.toNat_lt
  rw [group,digit_symbol (by omega),digit_symbol (by omega),digit_symbol (by omega),digit_pad]
  simp only [if_true]
  rw [ofNat_eq (a := a) (by omega),ofNat_eq (a := b) (by omega)]

theorem group_digits₃ :
    group (symbol (a.toNat / 4)) (symbol (a.toNat % 4 * 16 + b.toNat / 16))
      (symbol (b.toNat % 16 * 4 + c.toNat / 64)) (symbol (c.toNat % 64)) = some [a,b,c] := by
  have ha := a.toNat_lt
  have hb := b.toNat_lt
  have hc := c.toNat_lt
  rw [group,digit_symbol (by omega),digit_symbol (by omega),digit_symbol (by omega),digit_symbol (by omega)]
  simp only
  rw [ofNat_eq (a := a) (by omega),ofNat_eq (a := b) (by omega),ofNat_eq (a := c) (by omega)]

theorem decode_group {p q r s : Char} {bytes : List UInt8} (h : group p q r s = some bytes)
    (rest : List Char) : decode (p :: q :: r :: s :: rest) = bytes ++ decode rest := by
  rw [decode,h]

theorem decode_encode (bytes : List UInt8) : decode (encode bytes) = bytes := by
  induction bytes using encode.induct with
  | case1 => rfl
  | case2 a => exact decode_group (group_digits₁ a) []
  | case3 a b => exact decode_group (group_digits₂ a b) []
  | case4 a b c rest ih =>
    rw [encode]
    refine (decode_group (group_digits₃ a b c) (encode rest)).trans ?_
    rw [ih]
    rfl

end DftForge.Library.Base64
