import DftForge.Library.Doubles
import DftForge.Python.Text
import DftForge.Runtime.Scheduler

/-! # The repair handler of the QE engine

`QEParamRepairer.repair`: which of its branches an error takes, and what each does to
the parameters of the node. How Python reads numbers from texts and prints them is a
parameter.
-/
namespace DftForge.Engines
open DftForge.Runtime DftForge.Python DftForge.Library.Doubles

/-- Python's numbers and texts. -/
structure Numerals where
  /-- `int(text)`. -/
  int : String → Option ℤ
  /-- `float(text)`. -/
  float : String → Option ℚ
  /-- `str` of a float. -/
  shown : ℚ → String
  /-- The text of the exception that a conversion of the value raises. -/
  crash : Json → String

/-- `bool(value)`. -/
def truthy : Json → Bool
  | .null => false
  | .bool b => b
  | .num q => q ≠ 0
  | .str s => s ≠ ""
  | .arr items => !items.isEmpty
  | .obj fields => !fields.isEmpty

def truncate (q : ℚ) : ℤ := if q < 0 then ⌈q⌉ else ⌊q⌋

theorem truncate_intCast (n : ℤ) : truncate (n : ℚ) = n := by
  unfold truncate
  split_ifs <;> simp

variable (nums : Numerals)

/-- `int(value)`. -/
def toInt : Json → Except String ℤ
  | .bool b => .ok (if b then 1 else 0)
  | .num q => .ok (truncate q)
  | .str s => match nums.int s with
    | some n => .ok n
    | none => .error (nums.crash (.str s))
  | v => .error (nums.crash v)

/-- `float(value)`. -/
def toFloat : Json → Except String ℚ
  | .bool b => .ok (if b then 1 else 0)
  | .num q => .ok q
  | .str s => match nums.float s with
    | some q => .ok q
    | none => .error (nums.crash (.str s))
  | v => .error (nums.crash v)

/-- `params.get(key) or default`. -/
def getOr (params : Dict) (key : String) (default : ℚ) : Json :=
  match params.get? key with
  | some v => if truthy v then v else .num default
  | none => .num default

/-- `value > 2` on a list entry. -/
def aboveTwo : Json → Except String Bool
  | .bool _ => .ok false
  | .num q => .ok (2 < q)
  | v => .error (nums.crash v)

namespace QEParamRepairer

def cutoffBumpStep : ℚ := 10
def maxEcut : ℚ := 120
def repairableCategories : List String := ["scf_not_converged","verification","execution"]
def minBandPathPoints : ℤ := 24

/-- The ways through `repair`. -/
inductive Branch where
  | declined
  | bands
  | timeout
  | cutoff
  deriving DecidableEq, Repr

/-- Which way an error takes. -/
def branch (error : ToolError) : Branch :=
  let text := error.message.toList
  if error.category ∉ repairableCategories then .declined
  else if contains text "too few bands" then .bands
  else if contains (lower text) "timed out" then .timeout
  else .cutoff

/-- The node's error text with a note behind it. -/
def note (node : NodeRun) (text : String) : String := node.error.getD "" ++ " | repair: " ++ text

/-- An answer that leaves the node as it is. -/
def unchanged (node : NodeRun) (verdict : Except String Bool) : Repair :=
  { params := node.params, error := node.error.getD "", verdict }

def repairBands (node : NodeRun) : Repair :=
  match toInt nums (getOr node.params "nbnd" 0) with
  | .error crash => unchanged node (.error crash)
  | .ok current =>
    let bumped := max (current * 2) 24
    { params := node.params.set "nbnd" (.num bumped)
      error := note node ("nbnd -> " ++ toString bumped)
      verdict := .ok true }

/-- `any(n > 2 for n in kpts)`, up to the first entry that answers. -/
def anyAboveTwo : List Json → Except String Bool
  | [] => .ok false
  | v :: rest => do if ← aboveTwo nums v then .ok true else anyAboveTwo rest

/-- `max(2, int(n) // 2) if n > 2 else int(n)`. -/
def halved (v : Json) : Except String ℤ := do
  if ← aboveTwo nums v then return max 2 ((← toInt nums v).fdiv 2) else toInt nums v

def reducedMesh (kpts : List Json) : Except String (List ℤ) := do
  let front ← (kpts.take 3).mapM (halved nums)
  let back ← (kpts.drop 3).mapM (toInt nums)
  return front ++ back

/-- `int(current * 0.6)`, in double precision; `current` is converted first. -/
def sixTenths (current : ℤ) : Except String ℤ :=
  match toDouble current with
  | none => .error (nums.crash (.num current))
  | some x => .ok (truncate (nearest (x * nearest (3 / 5))))

/-- `_repair_timeout`. -/
def repairTimeout (node : NodeRun) : Repair :=
  let path := (node.params.get? "nkpoints_bands").getD .null
  if truthy path then
    match toInt nums path with
    | .error crash => unchanged node (.error crash)
    | .ok current =>
      if current ≤ minBandPathPoints then unchanged node (.ok false)
      else match sixTenths nums current with
        | .error crash => unchanged node (.error crash)
        | .ok shorter =>
          let reduced := max minBandPathPoints shorter
          { params := node.params.set "nkpoints_bands" (.num reduced)
            error := note node ("nkpoints_bands -> " ++ toString reduced)
            verdict := .ok true }
  else match node.params.get? "kpoints" with
    | some (.arr kpts) =>
      if kpts.length < 3 then unchanged node (.ok false)
      else match anyAboveTwo nums (kpts.take 3) with
        | .error crash => unchanged node (.error crash)
        | .ok false => unchanged node (.ok false)
        | .ok true =>
          match reducedMesh nums kpts with
          | .error crash => unchanged node (.error crash)
          | .ok mesh =>
            { params := node.params.set "kpoints" (.arr (mesh.map fun n : ℤ => .num n))
              error := note node ("kpoints -> " ++ toString mesh)
              verdict := .ok true }
    | _ => unchanged node (.ok false)

/-- The sum and the product are exact here; the program rounds them to doubles. -/
def repairCutoff (node : NodeRun) : Repair :=
  match toFloat nums (getOr node.params "ecutwfc" 45) with
  | .error crash => unchanged node (.error crash)
  | .ok current =>
    if maxEcut ≤ current then unchanged node (.ok false)
    else
      let bumped := min (current + cutoffBumpStep) maxEcut
      { params := (node.params.set "ecutwfc" (.num bumped)).set "ecutrho" (.num (bumped * 8))
        error := note node ("ecutwfc -> " ++ nums.shown bumped)
        verdict := .ok true }

/-- `repair`. -/
def repair : RepairHandler := fun node error =>
  match branch error with
  | .declined => unchanged node (.ok false)
  | .bands => repairBands nums node
  | .timeout => repairTimeout nums node
  | .cutoff => repairCutoff nums node

variable {nums}

@[simp] theorem unchanged_params (node : NodeRun) (verdict : Except String Bool) :
    (unchanged node verdict).params = node.params := rfl

theorem repairBands_get? (node : NodeRun) {key : String} (h : key ≠ "nbnd") :
    (repairBands nums node).params.get? key = node.params.get? key := by
  unfold repairBands
  cases toInt nums (getOr node.params "nbnd" 0) with
  | error crash => rfl
  | ok current => exact Dict.get?_set_of_ne h _ _

/-- The two roundings do not make up for the factor. -/
theorem sixTenths_lt {n m : ℤ} (hn : 0 < n) (h : sixTenths nums n = .ok m) : m < n := by
  have hpos : (0 : ℚ) < n := by exact_mod_cast hn
  unfold sixTenths at h
  cases hx : toDouble n with
  | none => rw [hx] at h; cases h
  | some x =>
    rw [hx] at h
    obtain rfl := Except.ok.inj h
    obtain rfl := toDouble_eq_some hx
    have hfactorPos : 0 < nearest (3 / 5) := nearest_pos (by norm_num)
    have hfactor : nearest (3 / 5) ≤ 3 / 5 * (1 + 1 / 2 ^ 53) := nearest_le (by norm_num)
    have hdouble := nearest_le hpos
    have hproduct : nearest n * nearest (3 / 5) ≤
        n * (1 + 1 / 2 ^ 53) * (3 / 5 * (1 + 1 / 2 ^ 53)) :=
      mul_le_mul hdouble hfactor hfactorPos.le (by positivity)
    have hproductPos := mul_pos (nearest_pos hpos) hfactorPos
    have hnearest := nearest_le hproductPos
    have hlt : nearest (nearest n * nearest (3 / 5)) < n := by linarith
    rw [truncate,if_neg (not_lt.mpr (nearest_pos hproductPos).le)]
    exact Int.floor_lt.mpr hlt

theorem repairTimeout_get? (node : NodeRun) {key : String} (hpath : key ≠ "nkpoints_bands")
    (hmesh : key ≠ "kpoints") : (repairTimeout nums node).params.get? key = node.params.get? key := by
  unfold repairTimeout
  dsimp only
  repeat' split
  all_goals first
    | rfl
    | exact Dict.get?_set_of_ne hpath _ _
    | exact Dict.get?_set_of_ne hmesh _ _

theorem repair_keeps_cutoffs {node : NodeRun} {error : ToolError} (h : branch error ≠ .cutoff)
    {key : String} (hkey : key = "ecutwfc" ∨ key = "ecutrho") :
    (repair nums node error).params.get? key = node.params.get? key := by
  have hb : key ≠ "nbnd" := by rcases hkey with rfl | rfl <;> decide
  have hp : key ≠ "nkpoints_bands" := by rcases hkey with rfl | rfl <;> decide
  have hk : key ≠ "kpoints" := by rcases hkey with rfl | rfl <;> decide
  unfold repair
  cases hbranch : branch error with
  | declined => rfl
  | bands => exact repairBands_get? node hb
  | timeout => exact repairTimeout_get? node hp hk
  | cutoff => exact absurd hbranch h

end QEParamRepairer
end DftForge.Engines
