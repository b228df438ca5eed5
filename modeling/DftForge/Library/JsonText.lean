import DftForge.Library.JsonScalars
import Mathlib.Data.List.Induction

/-! # The texts that JSON values are written as

`json.dumps`, compact or indented, and `json.loads`. The texts of numbers are a parameter. What
is written is read back, whatever the layout.
-/
namespace DftForge.Library.JsonText
open JsonGrammar

inductive Value (N : Type*) where
  | null
  | bool (b : Bool)
  | num (n : N)
  | str (s : List Char)
  | arr (items : List (Value N))
  | obj (fields : List (List Char × Value N))

/-- How numbers are written, and that the texts are numbers of JSON which are read back. -/
structure Numerals (N : Type*) where
  text : N → List Char
  read : List Char → Option N
  Writable : N → Prop
  number_text : ∀ n, Writable n → Number (text n)
  read_text : ∀ n, Writable n → read (text n) = some n

/-- The arguments `ensure_ascii` and `indent`. -/
structure Layout where
  ascii : Bool := true
  indent : Option ℕ := none

namespace Layout
variable (l : Layout)

/-- The break before an entry. -/
def newLine (depth : ℕ) : List Char :=
  match l.indent with
  | none => []
  | some n => '\n' :: List.replicate (n * depth) ' '

/-- What stands between two entries after the comma. -/
def gap (depth : ℕ) : List Char := if l.indent = none then [' '] else l.newLine depth

end Layout

section Writer
variable {N : Type*} (nums : Numerals N) (l : Layout)

mutual
/-- `json.dumps`, from a depth on. -/
def write (depth : ℕ) : Value N → List Char
  | .null => "null".toList
  | .bool true => "true".toList
  | .bool false => "false".toList
  | .num n => nums.text n
  | .str s => writeString l.ascii s
  | .arr [] => "[]".toList
  | .arr (v :: vs) => '[' :: (l.newLine (depth + 1) ++ (write (depth + 1) v ++
      (writeItems (depth + 1) vs ++ (l.newLine depth ++ [']']))))
  | .obj [] => "\x7b\x7d".toList
  | .obj ((k, v) :: fs) => '\x7b' :: (l.newLine (depth + 1) ++ (writeString l.ascii k ++ (':' :: ' ' ::
      (write (depth + 1) v ++ (writeFields (depth + 1) fs ++ (l.newLine depth ++ ['\x7d']))))))

/-- The items after the first. -/
def writeItems (depth : ℕ) : List (Value N) → List Char
  | [] => []
  | v :: vs => ',' :: (l.gap depth ++ (write depth v ++ writeItems depth vs))

def writeFields (depth : ℕ) : List (List Char × Value N) → List Char
  | [] => []
  | (k, v) :: fs => ',' :: (l.gap depth ++ (writeString l.ascii k ++ (':' :: ' ' ::
      (write depth v ++ writeFields depth fs))))
end

end Writer

def isBlank (c : Char) : Bool := c ∈ [' ','\t','\n','\r']

def skip (t : List Char) : List Char := t.dropWhile isBlank

section Reader
variable {N : Type*} (nums : Numerals N)

/-- `d[key] = value` of the dictionary that the pairs of an object make. -/
def setField (k : List Char) (v : Value N) : List (List Char × Value N) → List (List Char × Value N)
  | [] => [(k,v)]
  | f :: fs => if f.1 = k then (k,v) :: fs else f :: setField k v fs

def ofPairs (fs : List (List Char × Value N)) : List (List Char × Value N) :=
  fs.foldl (fun d f => setField f.1 f.2 d) []

/-- A literal name or a number. `NaN` and the infinities are no numbers here. -/
def readAtom (t : List Char) : Option (Value N × List Char) :=
  match t.dropPrefix? "null".toList, t.dropPrefix? "true".toList, t.dropPrefix? "false".toList with
  | some t, _, _ => some (.null,t)
  | _, some t, _ => some (.bool true,t)
  | _, _, some t => some (.bool false,t)
  | none, none, none => (readNumber t).bind fun r => (nums.read r.1).map fun n => (.num n,r.2)

/-- A key with the colon after it. -/
def readKey : List Char → Option (List Char × List Char)
  | '"' :: t => (readString (t.length + 1) t).bind fun r =>
    match skip r.2 with
    | ':' :: t => some (r.1,skip t)
    | _ => none
  | _ => none

mutual
def readValue : ℕ → List Char → Option (Value N × List Char)
  | fuel + 1, c :: t =>
    if c = '"' then (readString (t.length + 1) t).map fun r => (.str r.1,r.2)
    else if c = '[' then
      if (skip t).head? = some ']' then some (.arr [],(skip t).tail)
      else (readItems fuel (skip t)).map fun r => (.arr r.1,r.2)
    else if c = '\x7b' then
      if (skip t).head? = some '\x7d' then some (.obj [],(skip t).tail)
      else (readFields fuel (skip t)).map fun r => (.obj (ofPairs r.1),r.2)
    else readAtom nums (c :: t)
  | _, _ => none

def readItems : ℕ → List Char → Option (List (Value N) × List Char)
  | 0, _ => none
  | fuel + 1, t => (readValue fuel t).bind fun r =>
    match skip r.2 with
    | ']' :: t => some ([r.1],t)
    | ',' :: t => (readItems fuel (skip t)).map fun q => (r.1 :: q.1,q.2)
    | _ => none

def readFields : ℕ → List Char → Option (List (List Char × Value N) × List Char)
  | 0, _ => none
  | fuel + 1, t => (readKey t).bind fun k => (readValue fuel k.2).bind fun r =>
    match skip r.2 with
    | '\x7d' :: t => some ([(k.1,r.1)],t)
    | ',' :: t => (readFields fuel (skip t)).map fun q => ((k.1,r.1) :: q.1,q.2)
    | _ => none
end

/-- `json.loads`. Every step reads a character, so the length of the text is fuel enough. -/
def loads (t : List Char) : Option (Value N) :=
  (readValue nums (t.length + 1) (skip t)).bind fun r => if skip r.2 = [] then some r.1 else none

end Reader

section RoundTrip
variable {N : Type*} (nums : Numerals N) (l : Layout)

mutual
/-- A value as Python has it: no object has a key twice. -/
def WellFormed : Value N → Prop
  | .num n => nums.Writable n
  | .arr vs => AllWellFormed vs
  | .obj fs => (fs.map Prod.fst).Nodup ∧ FieldsWellFormed fs
  | _ => True

def AllWellFormed : List (Value N) → Prop
  | [] => True
  | v :: vs => WellFormed v ∧ AllWellFormed vs

def FieldsWellFormed : List (List Char × Value N) → Prop
  | [] => True
  | (_, v) :: fs => WellFormed v ∧ FieldsWellFormed fs
end

section Blanks
variable {c : Char} {w t : List Char}

theorem skip_append (hw : ∀ c ∈ w, isBlank c = true) : skip (w ++ t) = skip t :=
  List.dropWhile_append_of_pos hw

theorem skip_cons (hc : isBlank c = false) : skip (c :: t) = c :: t :=
  List.dropWhile_cons_of_neg (by rw [hc]; exact Bool.false_ne_true)

theorem stops_nil : Stops [] := by
  intro c hc
  cases hc

theorem blank_newLine (depth : ℕ) : ∀ c ∈ l.newLine depth, isBlank c = true := by
  intro c hc
  unfold Layout.newLine at hc
  cases hindent : l.indent with
  | none =>
    rw [hindent] at hc
    exact absurd hc List.not_mem_nil
  | some n =>
    rw [hindent] at hc
    rcases List.mem_cons.mp hc with rfl | hspace
    · rfl
    · rw [List.eq_of_mem_replicate hspace]
      rfl

theorem blank_gap (depth : ℕ) : ∀ c ∈ l.gap depth, isBlank c = true := by
  intro c hc
  unfold Layout.gap at hc
  split_ifs at hc
  · rw [List.mem_singleton.mp hc]
    rfl
  · exact blank_newLine l depth c hc

/-- What may follow a value: blanks, and then no part of a number. -/
theorem stops_newLine (depth : ℕ) (hc : c.isDigit = false ∧ c ≠ '.' ∧ c ≠ 'e' ∧ c ≠ 'E') :
    Stops (l.newLine depth ++ c :: t) := by
  unfold Layout.newLine
  cases l.indent with
  | none =>
    intro x hx
    obtain rfl : c = x := Option.some.inj hx
    exact hc
  | some n =>
    intro x hx
    obtain rfl : '\n' = x := Option.some.inj hx
    decide

end Blanks

section Heads
variable {nums l}

theorem number_head {n : List Char} (hn : Number n) :
    ∃ c rest, n = c :: rest ∧ (c = '-' ∨ c.isDigit = true) := by
  obtain ⟨sign,whole,fraction,exponent,hsign,hwhole,-,-,-,rfl⟩ := hn
  simp only [List.mem_cons,List.not_mem_nil,or_false] at hsign
  obtain rfl | rfl := hsign
  · obtain ⟨d,rest,rfl,hd⟩ := digits_cons hwhole
    exact ⟨d,_,rfl,.inr hd⟩
  · exact ⟨'-',_,rfl,.inl rfl⟩

theorem not_blank_of_digit {c : Char} (hc : c.isDigit = true) : isBlank c = false := by
  refine Bool.eq_false_iff.mpr fun hblank => ?_
  simp only [isBlank,decide_eq_true_eq,List.mem_cons,List.not_mem_nil,or_false] at hblank
  obtain rfl | rfl | rfl | rfl := hblank <;> cases hc

theorem write_head {v : Value N} (hv : WellFormed nums v) (depth : ℕ) :
    ∃ c rest, write nums l depth v = c :: rest ∧ isBlank c = false ∧ c ≠ ']' := by
  cases v with
  | null => exact ⟨'n',_,rfl,by decide,by decide⟩
  | bool b => cases b <;> exact ⟨_,_,rfl,by decide,by decide⟩
  | num n =>
    obtain ⟨c,rest,htext,hc⟩ := number_head (nums.number_text n hv)
    refine ⟨c,rest,htext,?_,?_⟩
    · rcases hc with rfl | hc
      · rfl
      · exact not_blank_of_digit hc
    · rcases hc with rfl | hc
      · decide
      · rintro rfl
        cases hc
  | str s => exact ⟨'"',_,rfl,by decide,by decide⟩
  | arr vs => cases vs <;> exact ⟨'[',_,rfl,by decide,by decide⟩
  | obj fs =>
    cases fs with
    | nil => exact ⟨'\x7b',_,rfl,by decide,by decide⟩
    | cons f fs => exact ⟨'\x7b',_,rfl,by decide,by decide⟩

theorem skip_write {v : Value N} (hv : WellFormed nums v) (depth : ℕ) (t : List Char) :
    skip (write nums l depth v ++ t) = write nums l depth v ++ t := by
  obtain ⟨c,rest,hwrite,hblank,-⟩ := write_head hv depth
  rw [hwrite]
  exact skip_cons hblank

theorem length_escaped (s : List Char) : s.length ≤ (s.flatMap (writeChar l.ascii)).length := by
  induction s with
  | nil => exact Nat.le_refl 0
  | cons c s ih =>
    obtain ⟨x,rest,hwrite,-⟩ := readChar_writeChar l.ascii c []
    rw [List.append_nil] at hwrite
    rw [List.flatMap_cons,hwrite,List.length_append,List.length_cons,List.length_cons]
    omega

/-- After the quote of a written string the reader finds the string. -/
theorem readString_escaped (s t : List Char) :
    readString ((s.flatMap (writeChar l.ascii) ++ '"' :: t).length + 1)
      (s.flatMap (writeChar l.ascii) ++ '"' :: t) = some (s,t) := by
  refine readString_writeString l.ascii t s ?_
  rw [List.length_append]
  have := length_escaped (l := l) s
  omega

theorem writeString_append (s t : List Char) :
    writeString l.ascii s ++ t = '"' :: (s.flatMap (writeChar l.ascii) ++ '"' :: t) := by
  rw [writeString,quoted,List.cons_append,List.append_assoc]
  rfl

theorem skip_writeString (s t : List Char) : skip (writeString l.ascii s ++ t) = writeString l.ascii s ++ t := by
  rw [writeString_append]
  exact skip_cons rfl

theorem readKey_writeString (k : List Char) {t : List Char} (ht : skip t = t) :
    readKey (writeString l.ascii k ++ (':' :: ' ' :: t)) = some (k,t) := by
  rw [writeString_append,readKey,readString_escaped,Option.bind_some]
  exact congrArg (fun t => some (k,t)) ht

theorem dropPrefix?_of_head_ne {x y : Char} {t w : List Char} (h : x ≠ y) :
    (x :: t).dropPrefix? (y :: w) = none :=
  if_neg fun heq => h (beq_iff_eq.mp heq)

/-- A number begins with a sign or a digit. -/
theorem ne_of_number_head {c x : Char} (hc : c = '-' ∨ c.isDigit = true) (hx : x.isDigit = false ∧ x ≠ '-') :
    c ≠ x := by
  rintro rfl
  rcases hc with hc | hc
  · exact hx.2 hc
  · rw [hx.1] at hc
    cases hc

theorem readAtom_number {n : N} (hn : nums.Writable n) {t : List Char} (ht : Stops t) :
    readAtom nums (nums.text n ++ t) = some (.num n,t) := by
  obtain ⟨c,rest,htext,hc⟩ := number_head (nums.number_text n hn)
  have hread := readNumber_append (nums.number_text n hn) ht
  rw [readAtom]
  have hnull : (nums.text n ++ t).dropPrefix? "null".toList = none := by
    rw [htext]
    exact dropPrefix?_of_head_ne (ne_of_number_head hc (by decide))
  have htrue : (nums.text n ++ t).dropPrefix? "true".toList = none := by
    rw [htext]
    exact dropPrefix?_of_head_ne (ne_of_number_head hc (by decide))
  have hfalse : (nums.text n ++ t).dropPrefix? "false".toList = none := by
    rw [htext]
    exact dropPrefix?_of_head_ne (ne_of_number_head hc (by decide))
  rw [hnull,htrue,hfalse]
  simp only [hread,Option.bind_some,nums.read_text n hn,Option.map_some]

theorem readValue_number {n : N} (hn : nums.Writable n) {t : List Char} (ht : Stops t) (fuel : ℕ) :
    readValue nums (fuel + 1) (nums.text n ++ t) = some (.num n,t) := by
  have hatom := readAtom_number hn ht
  obtain ⟨c,rest,htext,hc⟩ := number_head (nums.number_text n hn)
  rw [htext] at hatom ⊢
  have hquote := ne_of_number_head hc (x := '"') (by decide)
  have hopen := ne_of_number_head hc (x := '[') (by decide)
  have hbrace := ne_of_number_head hc (x := '\x7b') (by decide)
  rw [List.cons_append,readValue,if_neg hquote,if_neg hopen,if_neg hbrace]
  exact hatom

/-- After the values of an array nothing follows that a number could take for its own. -/
theorem stops_items (depth outer : ℕ) (vs : List (Value N)) (t : List Char) :
    Stops (writeItems nums l depth vs ++ (l.newLine outer ++ ']' :: t)) := by
  cases vs with
  | nil => exact stops_newLine l outer (by decide)
  | cons v vs =>
    intro c hc
    obtain rfl : ',' = c := Option.some.inj hc
    decide

theorem stops_fields (depth outer : ℕ) (fs : List (List Char × Value N)) (t : List Char) :
    Stops (writeFields nums l depth fs ++ (l.newLine outer ++ '\x7d' :: t)) := by
  cases fs with
  | nil => exact stops_newLine l outer (by decide)
  | cons f fs =>
    intro c hc
    obtain rfl : ',' = c := Option.some.inj hc
    decide

theorem readAtom_literal {v : Value N} {w : List Char} (t : List Char)
    (h : (w,v) ∈ [("null".toList,.null),("true".toList,.bool true),("false".toList,.bool false)]) :
    readAtom nums (w ++ t) = some (v,t) := by
  simp only [List.mem_cons,List.not_mem_nil,or_false,Prod.mk.injEq] at h
  obtain ⟨rfl,rfl⟩ | ⟨rfl,rfl⟩ | ⟨rfl,rfl⟩ := h <;>
    simp [readAtom,List.dropPrefix?]

end Heads

section Fields
variable {k : List Char} {v : Value N} {fs : List (List Char × Value N)}

theorem setField_of_not_mem (hk : k ∉ fs.map Prod.fst) : setField k v fs = fs ++ [(k,v)] := by
  induction fs with
  | nil => rfl
  | cons f fs ih =>
    rw [List.map_cons,List.mem_cons,not_or] at hk
    rw [setField,if_neg (Ne.symm hk.1),ih hk.2,List.cons_append]

theorem ofPairs_of_nodup (h : (fs.map Prod.fst).Nodup) : ofPairs fs = fs := by
  induction fs using List.reverseRecOn with
  | nil => rfl
  | append_singleton fs f ih =>
    rw [List.map_append,List.map_singleton,List.nodup_append] at h
    rw [ofPairs] at ih ⊢
    rw [List.foldl_append,ih h.1]
    refine setField_of_not_mem fun hmem => ?_
    exact h.2.2 _ hmem _ List.mem_cons_self rfl

end Fields

mutual
theorem readValue_write : (v : Value N) → WellFormed nums v → ∀ (depth fuel : ℕ) (t : List Char), Stops t →
    (write nums l depth v).length < fuel → readValue nums fuel (write nums l depth v ++ t) = some (v,t)
  | _, _, _, 0, _, _, hfuel => absurd hfuel (Nat.not_lt_zero _)
  | .null, _, _, _ + 1, t, _, _ => readAtom_literal t (.head _)
  | .bool true, _, _, _ + 1, t, _, _ => readAtom_literal t (.tail _ (.head _))
  | .bool false, _, _, _ + 1, t, _, _ => readAtom_literal t (.tail _ (.tail _ (.head _)))
  | .num n, hv, _, fuel + 1, t, ht, _ => readValue_number hv ht fuel
  | .str s, _, _, fuel + 1, t, _, _ => by
    rw [write,writeString_append,readValue,if_pos rfl,readString_escaped]
    rfl
  | .arr [], _, _, fuel + 1, t, _, _ => rfl
  | .arr (v :: vs), hv, depth, fuel + 1, t, _, hfuel => by
    simp only [write,List.length_cons,List.length_append,List.length_nil] at hfuel
    have hitems := readItems_write (v :: vs) hv v vs rfl (depth + 1) depth fuel t (by omega)
    obtain ⟨c,rest,hwrite,hblank,hclose⟩ := write_head (l := l) hv.1 (depth + 1)
    have hskip := skip_append (t := write nums l (depth + 1) v ++ (writeItems nums l (depth + 1) vs ++
      (l.newLine depth ++ ']' :: t))) (blank_newLine l (depth + 1))
    rw [skip_write hv.1] at hskip
    have hhead : (write nums l (depth + 1) v ++ (writeItems nums l (depth + 1) vs ++
        (l.newLine depth ++ ']' :: t))).head? ≠ some ']' := by
      rw [hwrite]
      exact fun h => hclose (Option.some.inj h)
    simp only [write,List.cons_append,List.append_assoc,List.nil_append]
    rw [readValue,if_neg (by decide),if_pos rfl,hskip,if_neg hhead,hitems]
    rfl
  | .obj [], _, _, fuel + 1, t, _, _ => rfl
  | .obj ((k, v) :: fs), hv, depth, fuel + 1, t, _, hfuel => by
    simp only [write,List.length_cons,List.length_append,List.length_nil] at hfuel
    have hfields := readFields_write ((k,v) :: fs) hv.2 k v fs rfl (depth + 1) depth fuel t (by omega)
    have hskip := skip_append (t := writeString l.ascii k ++ (':' :: ' ' :: (write nums l (depth + 1) v ++
      (writeFields nums l (depth + 1) fs ++ (l.newLine depth ++ '\x7d' :: t))))) (blank_newLine l (depth + 1))
    rw [skip_writeString] at hskip
    have hhead : (writeString l.ascii k ++ (':' :: ' ' :: (write nums l (depth + 1) v ++
        (writeFields nums l (depth + 1) fs ++ (l.newLine depth ++ '\x7d' :: t))))).head? ≠ some '\x7d' := by
      rw [writeString_append]
      exact fun h => absurd (Option.some.inj h) (by decide)
    simp only [write,List.cons_append,List.append_assoc,List.nil_append]
    rw [readValue,if_neg (by decide),if_neg (by decide),if_pos rfl,hskip,if_neg hhead,hfields,Option.map_some,
      ofPairs_of_nodup hv.1]

theorem readItems_write : (items : List (Value N)) → AllWellFormed nums items → ∀ (v : Value N) (vs : List (Value N)),
    items = v :: vs → ∀ (depth outer fuel : ℕ) (t : List Char),
    (write nums l depth v).length + (writeItems nums l depth vs).length + 1 < fuel →
    readItems nums fuel (write nums l depth v ++ (writeItems nums l depth vs ++ (l.newLine outer ++ ']' :: t))) =
      some (items,t)
  | [], _, _, _, h, _, _, _, _, _ => by cases h
  | _, _, _, _, _, _, _, 0, _, hfuel => absurd hfuel (Nat.not_lt_zero _)
  | [v], hitems, _, _, rfl, depth, outer, fuel + 1, t, hfuel => by
    have hv := readValue_write v hitems.1 depth fuel (l.newLine outer ++ ']' :: t)
      (stops_newLine l outer (by decide)) (by omega)
    rw [writeItems,List.nil_append,readItems,hv,Option.bind_some]
    simp only [skip_append (blank_newLine l outer),skip_cons (show isBlank ']' = false from rfl)]
  | v :: v' :: vs, hitems, _, _, rfl, depth, outer, fuel + 1, t, hfuel => by
    have hv := readValue_write v hitems.1 depth fuel
      (writeItems nums l depth (v' :: vs) ++ (l.newLine outer ++ ']' :: t))
      (stops_items depth outer (v' :: vs) t) (by omega)
    rw [writeItems,List.length_cons,List.length_append,List.length_append] at hfuel
    have hrest := readItems_write (v' :: vs) hitems.2 v' vs rfl depth outer fuel t (by omega)
    rw [readItems,hv,Option.bind_some]
    simp only [writeItems,List.cons_append,List.append_assoc,skip_cons (show isBlank ',' = false from rfl),
      skip_append (blank_gap l depth),skip_write hitems.2.1,hrest,Option.map_some]

theorem readFields_write : (fields : List (List Char × Value N)) → FieldsWellFormed nums fields →
    ∀ (k : List Char) (v : Value N) (fs : List (List Char × Value N)), fields = (k,v) :: fs →
    ∀ (depth outer fuel : ℕ) (t : List Char),
    (write nums l depth v).length + (writeFields nums l depth fs).length + 1 < fuel →
    readFields nums fuel (writeString l.ascii k ++ (':' :: ' ' :: (write nums l depth v ++
      (writeFields nums l depth fs ++ (l.newLine outer ++ '\x7d' :: t))))) = some (fields,t)
  | [], _, _, _, _, h, _, _, _, _, _ => by cases h
  | _, _, _, _, _, _, _, _, 0, _, hfuel => absurd hfuel (Nat.not_lt_zero _)
  | [(k, v)], hfields, _, _, _, rfl, depth, outer, fuel + 1, t, hfuel => by
    have hv := readValue_write v hfields.1 depth fuel (l.newLine outer ++ '\x7d' :: t)
      (stops_newLine l outer (by decide)) (by omega)
    rw [writeFields,List.nil_append,readFields,readKey_writeString k (skip_write hfields.1 depth _),
      Option.bind_some,hv,Option.bind_some]
    simp only [skip_append (blank_newLine l outer),skip_cons (show isBlank '\x7d' = false from rfl)]
  | (k, v) :: (k', v') :: fs, hfields, _, _, _, rfl, depth, outer, fuel + 1, t, hfuel => by
    have hv := readValue_write v hfields.1 depth fuel
      (writeFields nums l depth ((k',v') :: fs) ++ (l.newLine outer ++ '\x7d' :: t))
      (stops_fields depth outer ((k',v') :: fs) t) (by omega)
    rw [writeFields,List.length_cons,List.length_append,List.length_append,List.length_cons,List.length_cons,
      List.length_append] at hfuel
    have hrest := readFields_write ((k',v') :: fs) hfields.2 k' v' fs rfl depth outer fuel t (by omega)
    rw [readFields,readKey_writeString k (skip_write hfields.1 depth _),Option.bind_some,hv,Option.bind_some]
    simp only [writeFields,List.cons_append,List.append_assoc,skip_cons (show isBlank ',' = false from rfl),
      skip_append (blank_gap l depth),skip_writeString,hrest,Option.map_some]
end

/-- What `json.dumps` writes, `json.loads` reads back, in every layout. -/
theorem loads_write {v : Value N} (hv : WellFormed nums v) : loads nums (write nums l 0 v) = some v := by
  have hread := readValue_write nums l v hv 0 ((write nums l 0 v).length + 1) [] stops_nil
    (Nat.lt_succ_self _)
  have hskip := skip_write (l := l) hv 0 []
  rw [List.append_nil] at hread hskip
  rw [loads,hskip,hread]
  rfl

end RoundTrip
section OneLine
variable {N : Type*} (nums : Numerals N) (l : Layout)

/-- No control characters. -/
def Printable (t : List Char) : Prop := ∀ c ∈ t, 32 ≤ c.toNat

theorem printable_nil : Printable [] := fun _ h => absurd h List.not_mem_nil

theorem Printable.append {t t' : List Char} (h : Printable t) (h' : Printable t') : Printable (t ++ t') := by
  intro c hc
  rcases List.mem_append.mp hc with hc | hc
  · exact h c hc
  · exact h' c hc

theorem Printable.cons {c : Char} {t : List Char} (hc : 32 ≤ c.toNat) (h : Printable t) : Printable (c :: t) :=
  List.forall_mem_cons.mpr ⟨hc,h⟩

theorem Printable.flatMap {s : List Char} {f : Char → List Char} (h : ∀ c, Printable (f c)) :
    Printable (s.flatMap f) := by
  intro c hc
  obtain ⟨x,-,hx⟩ := List.mem_flatMap.mp hc
  exact h x c hx

theorem printable_digits {ds : List Char} (h : ∀ c ∈ ds, c.isDigit = true) : Printable ds := by
  intro c hc
  have hdigit := h c hc
  simp only [Char.isDigit,Bool.and_eq_true,decide_eq_true_eq] at hdigit
  have hle := UInt32.le_iff_toNat_le.mp hdigit.1
  exact Nat.le_trans (by decide) hle

theorem printable_hexDigit (n : ℕ) (hn : n < 16) : 32 ≤ (hexDigit n).toNat := by
  have hall : ∀ n < 16, 32 ≤ (hexDigit n).toNat := by decide
  exact hall n hn

theorem printable_unicodeEscape {n : ℕ} (hn : n < 65536) : Printable (unicodeEscape n) := by
  have hlast (m : ℕ) : 32 ≤ (hexDigit (m % 16)).toNat := printable_hexDigit _ (Nat.mod_lt m (by omega))
  have hfirst := printable_hexDigit (n / 4096) (by omega)
  exact .cons (by decide) (.cons (by decide) (.cons hfirst (.cons (hlast _) (.cons (hlast _) (.cons (hlast _) printable_nil)))))

theorem printable_writeChar (ascii : Bool) (c : Char) : Printable (writeChar ascii c) := by
  unfold writeChar
  cases hshort : shortEscapes.lookup c with
  | some e =>
    have hmem := lookup_mem c hshort
    have hall : ∀ p ∈ shortEscapes, 32 ≤ p.2.toNat := by decide
    exact .cons (by decide) (.cons (hall (c,e) hmem) printable_nil)
  | none =>
    simp only
    split_ifs with hescape hsmall
    · exact printable_unicodeEscape hsmall
    · have hvalid := c.valid
      have hhigh : c.toNat < 1114112 := by
        rcases hvalid with h | h
        · exact Nat.lt_trans h (by omega)
        · exact h.2
      exact (printable_unicodeEscape (by omega)).append (printable_unicodeEscape (by omega))
    · rw [not_or,Nat.not_lt] at hescape
      exact .cons hescape.1 printable_nil

theorem printable_writeString (ascii : Bool) (s : List Char) : Printable (writeString ascii s) :=
  .cons (by decide) ((Printable.flatMap (printable_writeChar ascii)).append (.cons (by decide) printable_nil))

theorem printable_number {n : List Char} (hn : Number n) : Printable n := by
  obtain ⟨sign,whole,fraction,exponent,hsign,hwhole,-,hfraction,hexponent,rfl⟩ := hn
  have hsign : Printable sign := by
    simp only [List.mem_cons,List.not_mem_nil,or_false] at hsign
    obtain rfl | rfl := hsign
    · exact printable_nil
    · exact .cons (by decide) printable_nil
  have hfraction : Printable fraction := by
    rcases hfraction with rfl | ⟨ds,hds,rfl⟩
    · exact printable_nil
    · exact .cons (by decide) (printable_digits hds.2)
  have hexponent : Printable exponent := by
    rcases hexponent with rfl | ⟨e,sign,ds,he,hsign,hds,rfl⟩
    · exact printable_nil
    · have hsign : Printable sign := by
        simp only [List.mem_cons,List.not_mem_nil,or_false] at hsign
        obtain rfl | rfl | rfl := hsign
        · exact printable_nil
        · exact .cons (by decide) printable_nil
        · exact .cons (by decide) printable_nil
      obtain rfl | rfl := he
      · exact .cons (by decide) (hsign.append (printable_digits hds.2))
      · exact .cons (by decide) (hsign.append (printable_digits hds.2))
  exact hsign.append ((printable_digits hwhole.2).append (hfraction.append hexponent))

variable {l}

theorem newLine_of_compact (h : l.indent = none) (depth : ℕ) : l.newLine depth = [] := by
  rw [Layout.newLine,h]

theorem printable_gap (h : l.indent = none) (depth : ℕ) : Printable (l.gap depth) := by
  rw [Layout.gap,if_pos h]
  exact .cons (by decide) printable_nil

mutual
/-- A compact text has no control characters, so it is one line. -/
theorem printable_write (h : l.indent = none) : (v : Value N) → WellFormed nums v → ∀ depth : ℕ,
    Printable (write nums l depth v)
  | .null, _, _ => show ∀ c ∈ "null".toList, 32 ≤ c.toNat by simp
  | .bool true, _, _ => show ∀ c ∈ "true".toList, 32 ≤ c.toNat by simp
  | .bool false, _, _ => show ∀ c ∈ "false".toList, 32 ≤ c.toNat by simp
  | .num n, hv, _ => printable_number (nums.number_text n hv)
  | .str s, _, _ => printable_writeString l.ascii s
  | .arr [], _, _ => show ∀ c ∈ "[]".toList, 32 ≤ c.toNat by simp
  | .arr (v :: vs), hv, depth => by
    rw [write,newLine_of_compact h,newLine_of_compact h]
    exact .cons (by decide) ((printable_write h v hv.1 (depth + 1)).append
      ((printable_writeItems h vs hv.2 (depth + 1)).append (.cons (by decide) printable_nil)))
  | .obj [], _, _ => show ∀ c ∈ "\x7b\x7d".toList, 32 ≤ c.toNat by simp
  | .obj ((k, v) :: fs), hv, depth => by
    rw [write,newLine_of_compact h,newLine_of_compact h]
    exact .cons (by decide) ((printable_writeString l.ascii k).append (.cons (by decide) (.cons (by decide)
      ((printable_write h v hv.2.1 (depth + 1)).append
        ((printable_writeFields h fs hv.2.2 (depth + 1)).append (.cons (by decide) printable_nil))))))

theorem printable_writeItems (h : l.indent = none) : (vs : List (Value N)) → AllWellFormed nums vs →
    ∀ depth : ℕ, Printable (writeItems nums l depth vs)
  | [], _, _ => printable_nil
  | v :: vs, hvs, depth => by
    rw [writeItems]
    exact .cons (by decide) ((printable_gap h depth).append ((printable_write h v hvs.1 depth).append
      (printable_writeItems h vs hvs.2 depth)))

theorem printable_writeFields (h : l.indent = none) : (fs : List (List Char × Value N)) → FieldsWellFormed nums fs →
    ∀ depth : ℕ, Printable (writeFields nums l depth fs)
  | [], _, _ => printable_nil
  | (k, v) :: fs, hfs, depth => by
    rw [writeFields]
    exact .cons (by decide) ((printable_gap h depth).append ((printable_writeString l.ascii k).append
      (.cons (by decide) (.cons (by decide) ((printable_write h v hfs.1 depth).append
        (printable_writeFields h fs hfs.2 depth))))))
end

end OneLine
end DftForge.Library.JsonText
