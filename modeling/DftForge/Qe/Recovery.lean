import DftForge.Catalog.Tasks
import DftForge.Engines.Repair
import DftForge.Qe.Verifier

/-! # The recovery controller

`RecoveryController`: a failed report is sorted by the words of its reasons, and each
kind of failure has its actions, which change the parameters within bounds. Planning
raises where a parameter to be increased is no number. Products and rounded values are
doubles; those too large to be one are left out.
-/
namespace DftForge.Qe
open DftForge.Runtime DftForge.Python DftForge.Engines DftForge.Catalog
open Library.Doubles (roundEven double times)

inductive FailureKind where
  | scfNotConverged
  | nscfNotConverged
  | forcesTooHigh
  | pressureTooHigh
  | badCell
  | bandsXmlMissing
  | dosFileMissing
  | toolFailure
  | jobTimeout
  | parserMismatch
  | unknown
  deriving DecidableEq, Repr

/-- `any(sub in r for r in reasons)`, for one of the texts. -/
def anyContains (reasons : List Text) (subs : List String) : Bool :=
  reasons.any fun r => subs.any fun sub => contains r sub

/-- The texts that `classify` looks for, in the order in which it does. -/
def signatures : List (List String × FailureKind) := [
  (["scf stage failed","scf did not converge"],.scfNotConverged),
  (["nscf stage did not converge","nscf stage did not pass"],.nscfNotConverged),
  (["bands xml parsed but empty","bands.xml not found"],.bandsXmlMissing),
  (["dos file parsed but empty","dos file not found"],.dosFileMissing),
  (["force"],.forcesTooHigh),
  (["pressure"],.pressureTooHigh),
  (["cell"],.badCell),
  (["timed out","timeout"],.jobTimeout),
  (["dos.x","bands.x"],.toolFailure),
  (["parser failed","format mismatch"],.parserMismatch)]

/-- The first signature that some reason has. -/
def firstSignature (reasons : List Text) : List (List String × FailureKind) → FailureKind
  | [] => .unknown
  | (subs, kind) :: rest => if anyContains reasons subs then kind else firstSignature reasons rest

/-- `classify`; without a reason no signature is found. -/
def classify {F : Type} (report : ConvergenceReport F) : FailureKind :=
  let reasons := report.failureReasons.map fun r => lower r.toList
  if !report.passed && reasons.isEmpty then .unknown else firstSignature reasons signatures

structure RecoveryAction where
  actionType : String
  target : String
  params : Dict := []
  reason : String := ""
  applied : Bool := false

/-- The value of a number or of a truth value. -/
def numberOf : Json → Option ℚ
  | .bool b => some (if b then 1 else 0)
  | .num q => some q
  | _ => none

/-- The nearest integer, and the even one of two. -/
def roundHalfEven (q : ℚ) : ℤ :=
  if q - ⌊q⌋ < 1 / 2 then ⌊q⌋
  else if 1 / 2 < q - ⌊q⌋ then ⌊q⌋ + 1
  else if ⌊q⌋ % 2 = 0 then ⌊q⌋ else ⌊q⌋ + 1

/-- The double nearest to a number of hundredths. -/
def hundredth (j : ℤ) : ℚ := double (j / 100)

/-- `round(value, 2)`: the nearest number of hundredths, of two the even one, as a double. -/
def round2 (q : ℚ) : ℚ := hundredth (roundEven (q * 100))

structure RecoveryController where
  maxEcutScale : ℚ := 3
  maxNbndScale : ℚ := 2
  maxKpointsScale : ℚ := 2
  maxAttempts : ℕ := 3

namespace RecoveryController
variable (c : RecoveryController) (shown : Json → String) (baseline : Dict)

/-- `baseline.get(key, default)`. -/
def baselineOf (key : String) (default : Json) : Json := (baseline.get? key).getD default

def ecutDefault : Json := .num 25

def nbndDefault : Json := .num 16

def kpointsDefault : Json := ints [4,4,4,1,1,1]

def kpointsNscfDefault : Json := ints [8,8,8,1,1,1]

/-- `min(ecut * 1.5, ecut * max_ecut_scale)`. -/
def newEcut (ecut : ℚ) : ℚ := min (times ecut (3 / 2)) (times ecut c.maxEcutScale)

/-- `min(int(kp * 2), int(kp * max_kpoints_scale))`. -/
def newKp (kp : ℚ) : ℤ := min (truncate (kp * 2)) (truncate (times kp c.maxKpointsScale))

/-- `min(int(nbnd * 1.5), int(nbnd * max_nbnd_scale))`. -/
def newNbnd (nbnd : ℚ) : ℤ := min (truncate (times nbnd (3 / 2))) (truncate (times nbnd c.maxNbndScale))

/-- The larger cutoff, as far as it is larger; nothing where its computation raises. -/
def increaseEcut : Option (List RecoveryAction) :=
  (numberOf (baselineOf baseline "ecutwfc" ecutDefault)).map fun ecut =>
    if ecut < c.newEcut ecut then [{
      actionType := "increase_ecut"
      target := "ecutwfc"
      params := [("ecutwfc",.num (round2 (c.newEcut ecut)))]
      reason := "Increase ecutwfc from " ++ shown (baselineOf baseline "ecutwfc" ecutDefault) ++ " to " ++
        shown (.num (round2 (c.newEcut ecut))) ++ " Ry (max " ++ shown (.num (round2 (times ecut c.maxEcutScale))) ++ ")" }]
    else []

/-- The denser mesh: the first division is doubled, for all three directions. -/
def increaseKpoints (key : String) (default : Json) : Option (List RecoveryAction) :=
  match baselineOf baseline key default with
  | .arr (k :: l :: m :: rest) =>
    (numberOf k).map fun first =>
      let newKp := c.newKp first
      if first < newKp then [{
        actionType := "increase_kpoints"
        target := key
        params := [(key,ints [newKp,newKp,newKp,1,1,1])]
        reason := "Increase kpoints from " ++ shown (.arr ((k :: l :: m :: rest).take 3)) ++ " to " ++
          shown (ints [newKp,newKp,newKp]) ++ " (max " ++
          toString (truncate (times first c.maxKpointsScale)) ++ ")" }]
      else []
  | _ => some []

def increaseNbnd : Option (List RecoveryAction) :=
  (numberOf (baselineOf baseline "nbnd" nbndDefault)).map fun nbnd =>
    if nbnd < c.newNbnd nbnd then [{
      actionType := "increase_nbnd"
      target := "nbnd"
      params := [("nbnd",.num (c.newNbnd nbnd))]
      reason := "Increase nbnd from " ++ shown (baselineOf baseline "nbnd" nbndDefault) ++ " to " ++
        toString (c.newNbnd nbnd) ++ " (max " ++ toString (truncate (times nbnd c.maxNbndScale)) ++ ")" }]
    else []

def planScfFailure : Option (List RecoveryAction) := do
  let ecut ← c.increaseEcut shown baseline
  let mesh ← c.increaseKpoints shown baseline "kpoints" kpointsDefault
  return ecut ++ mesh ++ [{ actionType := "check_pseudos", target := "pseudos"
                            reason := "Verify pseudopotentials are correct for the material" }]

def planNscfFailure : Option (List RecoveryAction) := do
  let bands ← c.increaseNbnd shown baseline
  let mesh ← c.increaseKpoints shown baseline "kpoints_nscf" kpointsNscfDefault
  return bands ++ mesh

def planForcesFailure : Option (List RecoveryAction) :=
  (c.increaseEcut shown baseline).map fun ecut => ecut ++ [{
    actionType := "tighten_conv_thr"
    target := "conv_thr"
    params := [("conv_thr",.num (1 / 10 ^ 9))]
    reason := "Tighten SCF convergence threshold to 1e-9" }]

/-- The actions that do not look at the parameters. -/
def planFixed : FailureKind → RecoveryAction
  | .pressureTooHigh => { actionType := "check_structure", target := "structure"
                          reason := "High pressure: verify initial structure and cell constraints" }
  | .badCell => { actionType := "check_structure", target := "structure"
                  reason := "Unreasonable cell parameters: check initial lattice constant" }
  | .bandsXmlMissing => { actionType := "check_nscf_output", target := "nscf"
                          reason := "bands.xml missing: verify NSCF completed and prefix matches" }
  | .dosFileMissing => { actionType := "check_nscf_output", target := "nscf"
                         reason := "DOS file missing: verify NSCF output completeness and prefix matches" }
  | .toolFailure => { actionType := "retry_tool", target := "tool"
                      reason := "Post-processing tool failed; retry execution" }
  | .jobTimeout => { actionType := "reduce_kpoints", target := "kpoints"
                     params := [("kpoints",ints [4,4,4,1,1,1])]
                     reason := "Job timed out: reduce k-point density to lower cost" }
  | .parserMismatch => { actionType := "retry", target := "all"
                         reason := "Parser mismatch; retry to capture fresh output" }
  | _ => { actionType := "retry", target := "all", reason := "Unknown failure; retry with same parameters" }

/-- `plan_actions`. -/
def planActions (kind : FailureKind) (attempt : ℕ) : Option (List RecoveryAction) :=
  if c.maxAttempts ≤ attempt then
    some [{ actionType := "give_up", target := "all"
            reason := "Max recovery attempts (" ++ toString c.maxAttempts ++ ") reached" }]
  else match kind with
    | .scfNotConverged => c.planScfFailure shown baseline
    | .nscfNotConverged => c.planNscfFailure shown baseline
    | .forcesTooHigh => c.planForcesFailure shown baseline
    | kind => some [planFixed kind]

end RecoveryController

/-- `apply_to_params`. -/
def applyToParams (actions : List RecoveryAction) (baseline : Dict) : Dict :=
  (actions.filter (!·.applied)).foldl (fun params a => params.update a.params) baseline

end DftForge.Qe
