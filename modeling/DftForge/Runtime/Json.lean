import Mathlib

/-! # JSON values, dictionaries and references

The values that parameters, inputs and outputs are made of, the dictionary
operations the runtime uses, and the two reference forms `${inputs.x}` and
`${nodes.y.outputs.z}` that a parameter string may have.
-/
namespace DftForge.Runtime

/-- JSON data as Python decodes it; numbers are exact rationals. -/
inductive Json where
  | null
  | bool (b : Bool)
  | num (q : ℚ)
  | str (s : String)
  | arr (items : List Json)
  | obj (fields : List (String × Json))
  deriving Inhabited

/-- A dictionary in insertion order. -/
abbrev Dict := List (String × Json)

namespace Dict

/-- `d.get(key)`. -/
def get? (d : Dict) (key : String) : Option Json := d.lookup key

/-- `key in d`. -/
def contains (d : Dict) (key : String) : Bool := (d.get? key).isSome

/-- `d[key] = value`: overwrite in place, or append a new key. -/
def set (d : Dict) (key : String) (value : Json) : Dict :=
  match d with
  | [] => [(key,value)]
  | (k, v) :: rest => if k = key then (key,value) :: rest else (k,v) :: set rest key value

/-- `d.update(other)`. -/
def update (d other : Dict) : Dict := other.foldl (fun d kv => d.set kv.1 kv.2) d

theorem mem_of_get? {d : Dict} {key : String} {v : Json} (h : d.get? key = some v) : (key,v) ∈ d := by
  obtain ⟨before,after,hd,_⟩ := List.lookup_eq_some_iff.mp h
  rw [hd]
  exact List.mem_append_right before List.mem_cons_self

@[simp] theorem get?_set_self (d : Dict) (key : String) (value : Json) :
    (d.set key value).get? key = some value := by
  induction d with
  | nil => simp [set,get?]
  | cons kv rest ih =>
    obtain ⟨k,v⟩ := kv
    by_cases h : k = key
    · simp [set,get?,h]
    · have hk : (key == k) = false := by simpa using Ne.symm h
      simpa [set,get?,h,List.lookup_cons,hk] using ih

@[simp] theorem get?_set_of_ne {key key' : String} (h : key' ≠ key) (d : Dict) (value : Json) :
    (d.set key value).get? key' = d.get? key' := by
  have hne : (key' == key) = false := by simpa using h
  induction d with
  | nil => simp [set,get?,List.lookup_cons,hne]
  | cons kv rest ih =>
    obtain ⟨k,v⟩ := kv
    by_cases hk : k = key
    · subst hk
      simp [set,get?,List.lookup_cons,hne]
    · simp only [set,if_neg hk,get?,List.lookup_cons]
      split
      · rfl
      · simpa [get?] using ih

theorem contains_set {d : Dict} {key : String} (h : d.contains key = true) (key' : String)
    (value : Json) : (d.set key' value).contains key = true := by
  by_cases heq : key = key'
  · subst heq
    simp [contains]
  · rw [contains,get?_set_of_ne heq]
    exact h

theorem contains_update {d : Dict} {key : String} {other : Dict} (h : d.contains key = true) :
    (d.update other).contains key = true := by
  unfold update
  induction other generalizing d with
  | nil => exact h
  | cons kv rest ih => exact ih (contains_set h kv.1 kv.2)

end Dict

/-- The characters `str.strip` removes. -/
def isSpace (c : Char) : Bool :=
  let n := c.toNat
  (9 ≤ n && n ≤ 13) || (28 ≤ n && n ≤ 32) || n = 133 || n = 160 || n = 5760 ||
    (8192 ≤ n && n ≤ 8202) || n = 8232 || n = 8233 || n = 8239 || n = 8287 || n = 12288

/-- `str.strip` on the characters of a string. -/
def strip (cs : List Char) : List Char :=
  ((cs.dropWhile isSpace).reverse.dropWhile isSpace).reverse

/-- The class `[A-Za-z0-9_]`. -/
def isWord (c : Char) : Bool := c.isAlphanum || c = '_'

inductive Scope where
  | inputs
  | nodes
  deriving DecidableEq, Repr

/-- The three groups a parameter reference matches. -/
structure Ref where
  scope : Scope
  key : String
  outputKey : Option String
  deriving DecidableEq, Repr

/-- `[A-Za-z0-9_]+` at the start of the text. -/
def matchWord (cs : List Char) : Option (String × List Char) :=
  match cs.takeWhile isWord with
  | [] => none
  | word => some (String.ofList word,cs.dropWhile isWord)

/-- A literal at the start of the text. -/
def matchLiteral (literal : String) (cs : List Char) : Option (List Char) :=
  cs.dropPrefix? literal.toList

def matchScope (cs : List Char) : Option (Scope × List Char) :=
  match matchLiteral "inputs" cs with
  | some rest => some (.inputs,rest)
  | none => (matchLiteral "nodes" cs).map fun rest => (.nodes,rest)

/-- The optional group `(?:\.outputs\.([A-Za-z0-9_]+))?`. -/
def matchOutputKey (cs : List Char) : Option (String × List Char) :=
  (matchLiteral ".outputs." cs).bind matchWord

/-- `\$\{(inputs|nodes)\.([A-Za-z0-9_]+)(?:\.outputs\.([A-Za-z0-9_]+))?\}` at the
start of the text, with what follows it. -/
def matchRef (cs : List Char) : Option (Ref × List Char) := do
  let cs ← matchLiteral "$\x7b" cs
  let (scope,cs) ← matchScope cs
  let cs ← matchLiteral "." cs
  let (key,cs) ← matchWord cs
  match matchOutputKey cs with
  | some (outputKey, rest) =>
    let rest ← matchLiteral "\x7d" rest
    some (⟨scope,key,some outputKey⟩,rest)
  | none =>
    let rest ← matchLiteral "\x7d" cs
    some (⟨scope,key,none⟩,rest)

/-- `PARAM_REF_RE.fullmatch` on an already stripped string. -/
def parseParamRef (cs : List Char) : Option Ref :=
  match matchRef cs with
  | some (ref, []) => some ref
  | _ => none

/-- `OUTPUT_REF_RE.match`, whose `$` also matches before a final newline. -/
def parseOutputRef (cs : List Char) : Option (String × String) :=
  match matchRef cs with
  | some (⟨.nodes, key, some outputKey⟩, []) => some (key,outputKey)
  | some (⟨.nodes, key, some outputKey⟩, ['\n']) => some (key,outputKey)
  | _ => none

mutual
/-- The stripped strings inside a parameter value, at any depth. -/
def iterParamStrings : Json → List (List Char)
  | .str s => [strip s.toList]
  | .obj fields => iterFieldStrings fields
  | .arr items => iterItemStrings items
  | _ => []
def iterFieldStrings : Dict → List (List Char)
  | [] => []
  | (_, v) :: rest => iterParamStrings v ++ iterFieldStrings rest
def iterItemStrings : List Json → List (List Char)
  | [] => []
  | v :: rest => iterParamStrings v ++ iterItemStrings rest
end

example : parseParamRef (strip " $\x7bnodes.scf.outputs.energy_ry\x7d ".toList) =
    some ⟨.nodes,"scf",some "energy_ry"⟩ := by decide

end DftForge.Runtime
