import DftForge.Library.JsonGrammar
import Mathlib.Data.List.Basic

/-! # Strings and numbers in JSON texts

What `json.dumps` writes for the characters of a string, with `ensure_ascii` and without, and
how `json.loads` reads a string and finds the end of a number.
-/
namespace DftForge.Library.JsonText
open JsonGrammar

def hexDigit (n : ℕ) : Char := "0123456789abcdef".toList.getD n '0'

def hexValue (c : Char) : Option ℕ :=
  if c.isDigit then some (c.toNat - 48)
  else if c ∈ "abcdef".toList then some (c.toNat - 87)
  else if c ∈ "ABCDEF".toList then some (c.toNat - 55)
  else none

/-- `'{0:04x}'.format(n)`. -/
def hex4 (n : ℕ) : List Char :=
  [hexDigit (n / 4096),hexDigit (n / 256 % 16),hexDigit (n / 16 % 16),hexDigit (n % 16)]

def readHex4 : List Char → Option (ℕ × List Char)
  | p :: q :: r :: s :: t => do
    let p ← hexValue p
    let q ← hexValue q
    let r ← hexValue r
    let s ← hexValue s
    some (4096 * p + 256 * q + 16 * r + s,t)
  | _ => none

def unicodeEscape (n : ℕ) : List Char := '\\' :: 'u' :: hex4 n

/-- The letters of the short escapes. -/
def shortEscapes : List (Char × Char) :=
  [('"','"'),('\\','\\'),('\x08','b'),('\x0c','f'),('\n','n'),('\r','r'),('\t','t')]

/-- A character between the quotes of a string. -/
def writeChar (ascii : Bool) (c : Char) : List Char :=
  match shortEscapes.lookup c with
  | some e => ['\\',e]
  | none =>
    if c.toNat < 32 ∨ ascii = true ∧ 126 < c.toNat then
      if c.toNat < 65536 then unicodeEscape c.toNat
      else unicodeEscape (55296 + (c.toNat - 65536) / 1024) ++
        unicodeEscape (56320 + (c.toNat - 65536) % 1024)
    else [c]

/-- The letters that `json.loads` knows after a backslash. -/
def escapes : List (Char × Char) :=
  [('"','"'),('\\','\\'),('/','/'),('b','\x08'),('f','\x0c'),('n','\n'),('r','\r'),('t','\t')]

/-- The second half of a surrogate pair. -/
def readLow (high : ℕ) : List Char → Option (Char × List Char)
  | '\\' :: 'u' :: t => do
    let (low,t) ← readHex4 t
    if 56320 ≤ low ∧ low < 57344 then
      some (Char.ofNat (65536 + (high - 55296) * 1024 + (low - 56320)),t)
    else none
  | _ => none

/-- One character of a string, as it stands or escaped. An escape of half a surrogate pair is
no character. -/
def readChar : List Char → Option (Char × List Char)
  | [] => none
  | c :: t =>
    if c = '\\' then
      match t with
      | [] => none
      | e :: t =>
        if e = 'u' then
          (readHex4 t).bind fun r =>
            if 55296 ≤ r.1 ∧ r.1 < 56320 then readLow r.1 r.2
            else if 56320 ≤ r.1 ∧ r.1 < 57344 then none
            else some (Char.ofNat r.1,r.2)
        else (escapes.lookup e).map fun c => (c,t)
    else if c.toNat < 32 then none
    else some (c,t)

/-- The string before the next quote, and what follows the quote. -/
def readString : ℕ → List Char → Option (List Char × List Char)
  | _, [] => none
  | 0, _ => none
  | fuel + 1, c :: t =>
    if c = '"' then some ([],t)
    else (readChar (c :: t)).bind fun r => (readString fuel r.2).map fun q => (r.1 :: q.1,q.2)

def writeString (ascii : Bool) (s : List Char) : List Char := quoted (s.flatMap (writeChar ascii))

section Strings
variable (ascii : Bool) (c : Char) (t : List Char)

theorem hexValue_hexDigit {n : ℕ} (hn : n < 16) : hexValue (hexDigit n) = some n := by
  have hall : ∀ n < 16, hexValue (hexDigit n) = some n := by decide
  exact hall n hn

theorem readHex4_hex4 {n : ℕ} (hn : n < 65536) : readHex4 (hex4 n ++ t) = some (n,t) := by
  have h (m : ℕ) : hexValue (hexDigit (m % 16)) = some (m % 16) := hexValue_hexDigit (Nat.mod_lt m (by omega))
  simp only [hex4,List.cons_append,List.nil_append,readHex4,hexValue_hexDigit (show n / 4096 < 16 by omega),h,
    Option.bind_eq_bind,Option.bind_some,Option.some.injEq,Prod.mk.injEq,and_true]
  omega

theorem readChar_unicode {n : ℕ} (hn : n < 55296 ∨ 57343 < n ∧ n < 65536) :
    readChar (unicodeEscape n ++ t) = some (Char.ofNat n,t) := by
  change (readHex4 (hex4 n ++ t)).bind _ = _
  rw [readHex4_hex4 t (by omega),Option.bind_some]
  simp only
  rw [if_neg (by omega),if_neg (by omega)]

theorem readChar_pair (hlow : 65536 ≤ c.toNat) :
    readChar (unicodeEscape (55296 + (c.toNat - 65536) / 1024) ++
      unicodeEscape (56320 + (c.toNat - 65536) % 1024) ++ t) = some (c,t) := by
  have hvalid := c.valid
  have hhigh : c.toNat < 1114112 := by
    rcases hvalid with h | h
    · exact Nat.lt_trans h (by omega)
    · exact h.2
  rw [List.append_assoc]
  change (readHex4 (hex4 _ ++ (unicodeEscape _ ++ t))).bind _ = _
  rw [readHex4_hex4 _ (by omega),Option.bind_some]
  simp only
  rw [if_pos (by omega)]
  change (readHex4 (hex4 _ ++ t)).bind _ = _
  rw [readHex4_hex4 _ (by omega),Option.bind_some]
  simp only
  rw [if_pos (by omega)]
  have hsame : 65536 + (55296 + (c.toNat - 65536) / 1024 - 55296) * 1024 +
      (56320 + (c.toNat - 65536) % 1024 - 56320) = c.toNat := by omega
  rw [hsame,Char.ofNat_toNat]

theorem lookup_mem {e : Char} {pairs : List (Char × Char)} (h : pairs.lookup c = some e) : (c,e) ∈ pairs := by
  obtain ⟨before,after,rfl,-⟩ := List.lookup_eq_some_iff.mp h
  exact List.mem_append_right before List.mem_cons_self

/-- Every character is read as the one that was written, and does not begin with a quote. -/
theorem readChar_writeChar : ∃ x rest, writeChar ascii c ++ t = x :: rest ∧ x ≠ '"' ∧
    readChar (x :: rest) = some (c,t) := by
  unfold writeChar
  cases hshort : shortEscapes.lookup c with
  | some e =>
    refine ⟨'\\',e :: t,rfl,by decide,?_⟩
    have hmem := lookup_mem c hshort
    simp only [shortEscapes,List.mem_cons,Prod.mk.injEq,List.not_mem_nil,or_false] at hmem
    obtain ⟨rfl,rfl⟩ | ⟨rfl,rfl⟩ | ⟨rfl,rfl⟩ | ⟨rfl,rfl⟩ | ⟨rfl,rfl⟩ | ⟨rfl,rfl⟩ | ⟨rfl,rfl⟩ := hmem <;> rfl
  | none =>
    have hquote : c ≠ '"' := by
      rintro rfl
      cases hshort
    have hslash : c ≠ '\\' := by
      rintro rfl
      cases hshort
    have hvalid := c.valid
    by_cases hescape : c.toNat < 32 ∨ ascii = true ∧ 126 < c.toNat
    · by_cases hsmall : c.toNat < 65536
      · refine ⟨'\\','u' :: (hex4 c.toNat ++ t),?_,by decide,?_⟩
        · simp only [if_pos hescape,if_pos hsmall,unicodeEscape,List.cons_append]
        · have hread : readChar (unicodeEscape c.toNat ++ t) = some (Char.ofNat c.toNat,t) := by
            refine readChar_unicode t ?_
            rcases hvalid with h | h
            · exact .inl h
            · exact .inr ⟨h.1,hsmall⟩
          rw [Char.ofNat_toNat] at hread
          exact hread
      · refine ⟨'\\',_,?_,by decide,readChar_pair c t (by omega)⟩
        simp only [if_pos hescape,if_neg hsmall]
        rfl
    · refine ⟨c,t,?_,hquote,?_⟩
      · simp only [if_neg hescape,List.cons_append,List.nil_append]
      · exact (if_neg hslash).trans (if_neg fun h => hescape (.inl h))

theorem readString_writeString (s : List Char) {fuel : ℕ} (hfuel : s.length < fuel) :
    readString fuel (s.flatMap (writeChar ascii) ++ '"' :: t) = some (s,t) := by
  induction s generalizing fuel with
  | nil =>
    obtain ⟨fuel,rfl⟩ := Nat.exists_eq_succ_of_ne_zero (Nat.ne_zero_of_lt hfuel)
    rfl
  | cons c s ih =>
    obtain ⟨fuel,rfl⟩ := Nat.exists_eq_succ_of_ne_zero (Nat.ne_zero_of_lt hfuel)
    rw [List.length_cons] at hfuel
    obtain ⟨x,rest,hwrite,hx,hread⟩ :=
      readChar_writeChar ascii c (s.flatMap (writeChar ascii) ++ '"' :: t)
    rw [List.flatMap_cons,List.append_assoc,hwrite,readString,if_neg hx,hread,Option.bind_some,
      ih (by omega)]
    rfl

end Strings

/-- `[0-9]+` at the start of a text, in the groups that may be missing. -/
def takeDigits (t : List Char) : List Char := t.takeWhile Char.isDigit

def dropDigits (t : List Char) : List Char := t.dropWhile Char.isDigit

def readSign (t : List Char) : List Char × List Char :=
  match t with
  | '-' :: t => (['-'],t)
  | t => ([],t)

/-- `0|[1-9][0-9]*`. -/
def readWhole (t : List Char) : Option (List Char × List Char) :=
  match t with
  | '0' :: t => some (['0'],t)
  | t => if takeDigits t = [] then none else some (takeDigits t,dropDigits t)

/-- `(\.[0-9]+)?`. -/
def readFraction (t : List Char) : List Char × List Char :=
  match t with
  | '.' :: t => if takeDigits t = [] then ([],'.' :: t) else ('.' :: takeDigits t,dropDigits t)
  | t => ([],t)

def readExponentSign (t : List Char) : List Char × List Char :=
  match t with
  | '+' :: t => (['+'],t)
  | '-' :: t => (['-'],t)
  | t => ([],t)

/-- `([eE][-+]?[0-9]+)?`. -/
def readExponent (t : List Char) : List Char × List Char :=
  match t with
  | e :: t' =>
    if e = 'e' ∨ e = 'E' then
      let signed := readExponentSign t'
      if takeDigits signed.2 = [] then ([],t)
      else (e :: (signed.1 ++ takeDigits signed.2),dropDigits signed.2)
    else ([],t)
  | [] => ([],[])

/-- The text of the number at the start of a text, and what follows it. -/
def readNumber (t : List Char) : Option (List Char × List Char) :=
  let sign := readSign t
  (readWhole sign.2).map fun whole =>
    let fraction := readFraction whole.2
    let exponent := readExponent fraction.2
    (sign.1 ++ (whole.1 ++ (fraction.1 ++ exponent.1)),exponent.2)

/-- What may follow a number without being taken for a part of it. -/
def Stops (t : List Char) : Prop := ∀ c ∈ t.head?, c.isDigit = false ∧ c ≠ '.' ∧ c ≠ 'e' ∧ c ≠ 'E'

section Numbers
variable {ds t : List Char}

theorem takeDigits_append (hds : Digits ds) (ht : ∀ c ∈ t.head?, c.isDigit = false) :
    takeDigits (ds ++ t) = ds ∧ dropDigits (ds ++ t) = t := by
  rw [takeDigits,dropDigits,List.takeWhile_append_of_pos hds.2,List.dropWhile_append_of_pos hds.2]
  cases t with
  | nil => simp
  | cons c t =>
    have hc := ht c rfl
    simp [hc]

theorem digits_cons (hds : Digits ds) : ∃ d rest, ds = d :: rest ∧ d.isDigit = true := by
  obtain ⟨d,rest,rfl⟩ := List.exists_cons_of_ne_nil hds.1
  exact ⟨d,rest,rfl,hds.2 d List.mem_cons_self⟩

theorem readExponentSign_append {sign : List Char} (hsign : sign ∈ [[],['+'],['-']]) (hds : Digits ds) :
    readExponentSign (sign ++ (ds ++ t)) = (sign,ds ++ t) := by
  simp only [List.mem_cons,List.not_mem_nil,or_false] at hsign
  obtain rfl | rfl | rfl := hsign
  · obtain ⟨d,rest,rfl,hd⟩ := digits_cons hds
    have hplus : d ≠ '+' := by
      rintro rfl
      cases hd
    have hminus : d ≠ '-' := by
      rintro rfl
      cases hd
    simp [readExponentSign,hplus,hminus]
  · rfl
  · rfl

theorem readExponent_append {e : List Char} (he : Exponent e) (ht : Stops t) :
    readExponent (e ++ t) = (e,t) := by
  rcases he with rfl | ⟨x,sign,ds,hx,hsign,hds,rfl⟩
  · cases t with
    | nil => rfl
    | cons c t =>
      obtain ⟨-,-,he,hE⟩ := ht c rfl
      exact if_neg (not_or.mpr ⟨he,hE⟩)
  · have hdigits := takeDigits_append hds fun c hc => (ht c hc).1
    rw [List.cons_append,readExponent,if_pos hx,List.append_assoc,readExponentSign_append hsign hds]
    simp only
    rw [hdigits.1,hdigits.2,if_neg hds.1]

/-- What follows the digits before an exponent is neither a digit nor a point. -/
theorem head_exponent {e : List Char} (he : Exponent e) (ht : Stops t) :
    ∀ c ∈ (e ++ t).head?, c.isDigit = false ∧ c ≠ '.' := by
  intro c hc
  rcases he with rfl | ⟨x,sign,ds,hx,-,-,rfl⟩
  · exact ⟨(ht c hc).1,(ht c hc).2.1⟩
  · obtain rfl : x = c := Option.some.inj hc
    obtain rfl | rfl := hx <;> decide

theorem readFraction_append {f : List Char} (hf : Fraction f) (ht : ∀ c ∈ t.head?, c.isDigit = false ∧ c ≠ '.') :
    readFraction (f ++ t) = (f,t) := by
  rcases hf with rfl | ⟨ds,hds,rfl⟩
  · cases t with
    | nil => rfl
    | cons c t =>
      have hc := (ht c rfl).2
      simp [readFraction,hc]
  · have hdigits := takeDigits_append hds fun c hc => (ht c hc).1
    rw [List.cons_append,readFraction,hdigits.1,hdigits.2,if_neg hds.1]

theorem head_fraction {f : List Char} (hf : Fraction f) (ht : ∀ c ∈ t.head?, c.isDigit = false ∧ c ≠ '.') :
    ∀ c ∈ (f ++ t).head?, c.isDigit = false := by
  intro c hc
  rcases hf with rfl | ⟨ds,-,rfl⟩
  · exact (ht c hc).1
  · obtain rfl : '.' = c := Option.some.inj hc
    rfl

theorem readWhole_append {w : List Char} (hw : Digits w) (hzero : w.head? = some '0' → w = ['0'])
    (ht : ∀ c ∈ t.head?, c.isDigit = false) : readWhole (w ++ t) = some (w,t) := by
  have hdigits := takeDigits_append hw ht
  obtain ⟨d,rest,rfl,hd⟩ := digits_cons hw
  by_cases h : d = '0'
  · subst h
    rw [hzero rfl]
    rfl
  · rw [List.cons_append] at hdigits ⊢
    unfold readWhole
    split
    · exact absurd (List.cons.inj ‹_›).1 h
    · rw [hdigits.1,hdigits.2,if_neg (List.cons_ne_nil _ _)]

/-- The reader finds the end of every number. -/
theorem readNumber_append {n : List Char} (hn : Number n) (ht : Stops t) :
    readNumber (n ++ t) = some (n,t) := by
  obtain ⟨sign,whole,fraction,exponent,hsign,hwhole,hzero,hfraction,hexponent,rfl⟩ := hn
  have hend := head_exponent hexponent ht
  have hsigned : readSign (sign ++ (whole ++ (fraction ++ (exponent ++ t)))) =
      (sign,whole ++ (fraction ++ (exponent ++ t))) := by
    simp only [List.mem_cons,List.not_mem_nil,or_false] at hsign
    obtain rfl | rfl := hsign
    · obtain ⟨d,rest,rfl,hd⟩ := digits_cons hwhole
      have hminus : d ≠ '-' := by
        rintro rfl
        cases hd
      simp [readSign,hminus]
    · rfl
  simp only [readNumber,List.append_assoc,hsigned,readWhole_append hwhole hzero (head_fraction hfraction hend),
    Option.map_some,readFraction_append hfraction hend,readExponent_append hexponent ht]

end Numbers
end DftForge.Library.JsonText
