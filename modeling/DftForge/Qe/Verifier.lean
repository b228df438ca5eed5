import DftForge.Qe.Parser

/-! # The checks of a vc-relax calculation

The verifier walks through its checks with one report in hand. Each check may fail
the report and leaves an entry in it, so that a report passes when every check does.
-/
namespace DftForge.Qe
open DftForge.Library DftForge.Runtime DftForge.Python

inductive Datum (F : Type) where
  | bool (b : Bool)
  | nat (n : ℕ)
  | int (n : ℤ)
  | float (x : F)
  | text (s : String)

/-- One entry of `report.checks`. -/
structure Check (F : Type) where
  pass : Bool
  details : List (String × Datum F) := []

structure ConvergenceReport (F : Type) where
  passed : Bool
  checks : List (String × Check F) := []
  failureReasons : List String := []
  warnings : List String := []
  summary : String := ""

namespace ConvergenceReport
variable {F : Type}

def fail (r : ConvergenceReport F) (reason : String) : ConvergenceReport F :=
  { r with passed := false, failureReasons := r.failureReasons ++ [reason] }

def failUnless (r : ConvergenceReport F) (ok : Bool) (reason : String) : ConvergenceReport F :=
  if ok then r else r.fail reason

def note (r : ConvergenceReport F) (name : String) (check : Check F) : ConvergenceReport F :=
  { r with checks := r.checks ++ [(name,check)] }

variable (r : ConvergenceReport F)

@[simp] theorem fail_passed (reason : String) : (r.fail reason).passed = false := rfl

@[simp] theorem failUnless_passed (ok : Bool) (reason : String) :
    (r.failUnless ok reason).passed = (r.passed && ok) := by
  unfold failUnless
  cases ok <;> simp

@[simp] theorem note_passed (name : String) (check : Check F) : (r.note name check).passed = r.passed := rfl

end ConvergenceReport

structure VerificationInput (F : Type) where
  stdout : Text
  xml : Option (XmlData F) := none
  jobSuccess : Bool := true

structure ScientificVerifier (F : Type) where
  forceThresholdRy : F
  pressureThresholdKbar : F
  energyThresholdRy : F

section Patterns
open Re Regex
variable (u : Unicode)

/-- `\batom\s+\d+.*?\bforce\s*=`, in any case. -/
def forceWord : Pattern := chain [boundary u,litFold "atom",spaces,digits u,.manyLazy dot,boundary u,
  litFold "force",spaces?,lit "="]

/-- `\bP\s*=\s*[-+\d.]`. -/
def pressureWord : Pattern := chain [boundary u,lit "P",spaces?,lit "=",spaces?,
  .alt (oneOf "-+.") (digit u)]

end Patterns

section Checks
open ConvergenceReport Regex
variable {F : Type} (f : Floats F) (u : Unicode) (v : ScientificVerifier F)

def checkJobSuccess (ok : Bool) (r : ConvergenceReport F) : ConvergenceReport F :=
  if ok then r
  else (r.fail "Job execution failed (non-zero exit / backend error)").note "job_success" ⟨false,[]⟩

/-- All of energy, pressure and number of atoms still have the parser's default. -/
def allZero (parsed : ParsedVCResult F) : Bool :=
  f.eq parsed.finalEnergyRy f.zero && f.eq parsed.pressureKbar f.zero && parsed.natoms == 0

def checkDataQuality (parsed : ParsedVCResult F) (r : ConvergenceReport F) : ConvergenceReport F :=
  if allZero f parsed then
    (r.fail "Parser failed to extract values - possible format mismatch").note "data_quality"
      ⟨false,[("detail",.text "All parsed values zero")]⟩
  else r.note "data_quality" ⟨true,[("detail",.text "Parser extracted non-zero values")]⟩

def checkJobDone (text : Text) (r : ConvergenceReport F) : ConvergenceReport F :=
  (r.failUnless (contains text "JOB DONE") "JOB DONE not found in output").note "job_done"
    ⟨contains text "JOB DONE",[]⟩

def checkGeometry (parsed : ParsedVCResult F) (r : ConvergenceReport F) : ConvergenceReport F :=
  (r.failUnless parsed.converged "Geometry optimization did not converge").note
    "geometry_convergence" ⟨parsed.converged,[]⟩

def checkScf (scf : ParsedSCF F) (r : ConvergenceReport F) : ConvergenceReport F :=
  (r.failUnless scf.converged "SCF did not converge").note "scf_convergence"
    ⟨scf.converged,[("n_iterations",.nat scf.nIterations),("threshold",.float scf.convergenceThr)]⟩

def checkForces (text : Text) (parsed : ParsedVCResult F) (r : ConvergenceReport F) :
    ConvergenceReport F :=
  let present := decide (Found (forceWord u) text)
  let size := parsed.maxForceRyBohr
  (if present then r.failUnless (!f.lt v.forceThresholdRy size)
      ("Max force " ++ f.format ".2e" size ++ " Ry/Bohr exceeds threshold " ++
        f.format ".0e" v.forceThresholdRy)
    else r.fail "No atomic-force block found in vc-relax output").note "forces"
    ⟨present && f.le size v.forceThresholdRy,
      [("present",.bool present),("value",.float size),("threshold",.float v.forceThresholdRy)]⟩

def checkPressure (text : Text) (parsed : ParsedVCResult F) (r : ConvergenceReport F) :
    ConvergenceReport F :=
  let present := decide (Found (pressureWord u) text)
  let size := f.abs parsed.pressureKbar
  (if present then r.failUnless (!f.lt v.pressureThresholdKbar size)
      ("Pressure " ++ f.format ".2f" parsed.pressureKbar ++ " kbar exceeds threshold " ++
        f.format "" v.pressureThresholdKbar)
    else r.fail "No pressure value found in vc-relax output").note "pressure"
    ⟨present && f.le size v.pressureThresholdKbar,[("present",.bool present),
      ("value",.float parsed.pressureKbar),("threshold",.float v.pressureThresholdKbar)]⟩

/-- Whether each energy is at most the one before it, reading only as far as needed. -/
def monotonic : List Text → Option Bool
  | previous :: next :: rest => do
    let y ← f.read next
    let x ← f.read previous
    if f.le y x then monotonic (next :: rest) else return false
  | _ => some true

def checkEnergies (texts : List Text) (falling : Bool) (r : ConvergenceReport F) :
    ConvergenceReport F :=
  if texts.length ≤ 1 then r
  else (if falling then r
    else { r with warnings := r.warnings ++ ["Energy not monotonically decreasing"] }).note
      "energy_monotonicity" ⟨falling,[("n_points",.nat texts.length)]⟩

def checkCell (parsed : ParsedVCResult F) (r : ConvergenceReport F) : ConvergenceReport F :=
  match parsed.cell with
  | some cell =>
    if f.reasonable cell.aBohr then r.note "cell_params" ⟨true,[("a_bohr",.float cell.aBohr)]⟩
    else r.fail ("Unreasonable cell: a=" ++ f.format "" cell.aBohr)
  | none => (r.fail "No final cell parameters found in vc-relax output").note "cell_params"
      ⟨false,[("present",.bool false)]⟩

/-- This check adds a reason and leaves `passed` alone. -/
def checkIons (text : Text) (parsed : ParsedVCResult F) (r : ConvergenceReport F) :
    ConvergenceReport F :=
  if (contains (lower text) "bfgs" || contains (lower text) "vc-relax") &&
      f.lt v.forceThresholdRy parsed.maxForceRyBohr then
    { r with failureReasons :=
        r.failureReasons ++ ["vc-relax did not converge: forces still above threshold"] }
  else r

def summarise (r : ConvergenceReport F) : ConvergenceReport F :=
  let counted := toString (r.checks.filter (·.2.pass)).length ++ "/" ++ toString r.checks.length ++
    " checks passed"
  { r with summary := if r.failureReasons = [] then counted
      else counted ++ "; failures: " ++ ", ".intercalate (r.failureReasons.take 3) }

def verifyT1 (inp : VerificationInput F) (parsed : ParsedVCResult F) : Option (ConvergenceReport F) := do
  let scf ← parseScf f u inp.stdout
  let falling ← monotonic f (energies u inp.stdout)
  let r := checkJobSuccess inp.jobSuccess ⟨true,[],[],[],""⟩
  let r := checkDataQuality f parsed r
  let r := checkJobDone inp.stdout r
  let r := checkGeometry parsed r
  let r := checkScf scf r
  let r := checkForces f u v inp.stdout parsed r
  let r := checkPressure f u v inp.stdout parsed r
  let r := checkEnergies (energies u inp.stdout) falling r
  let r := checkCell f parsed r
  let r := checkIons f v inp.stdout parsed r
  return summarise r

end Checks

section Verdict
variable {F : Type} (f : Floats F) (u : Unicode) (v : ScientificVerifier F)
variable (text : Text) (parsed : ParsedVCResult F) (r : ConvergenceReport F)

@[simp] theorem checkJobSuccess_passed (ok : Bool) : (checkJobSuccess ok r).passed = (r.passed && ok) := by
  unfold checkJobSuccess
  cases ok <;> simp

@[simp] theorem checkDataQuality_passed :
    (checkDataQuality f parsed r).passed = (r.passed && !allZero f parsed) := by
  unfold checkDataQuality
  cases allZero f parsed <;> simp

@[simp] theorem checkJobDone_passed :
    (checkJobDone text r).passed = (r.passed && contains text "JOB DONE") := by
  change (ConvergenceReport.failUnless r _ _).passed = _
  simp only [ConvergenceReport.failUnless_passed]

@[simp] theorem checkGeometry_passed : (checkGeometry parsed r).passed = (r.passed && parsed.converged) := by
  simp [checkGeometry]

@[simp] theorem checkScf_passed (scf : ParsedSCF F) :
    (checkScf scf r).passed = (r.passed && scf.converged) := by
  simp [checkScf]

@[simp] theorem checkForces_passed : (checkForces f u v text parsed r).passed =
    (r.passed && (decide (Regex.Found (forceWord u) text) &&
      !f.lt v.forceThresholdRy parsed.maxForceRyBohr)) := by
  unfold checkForces
  by_cases h : Regex.Found (forceWord u) text <;> simp [h]

@[simp] theorem checkPressure_passed : (checkPressure f u v text parsed r).passed =
    (r.passed && (decide (Regex.Found (pressureWord u) text) &&
      !f.lt v.pressureThresholdKbar (f.abs parsed.pressureKbar))) := by
  unfold checkPressure
  by_cases h : Regex.Found (pressureWord u) text <;> simp [h]

@[simp] theorem checkEnergies_passed (texts : List Text) (falling : Bool) :
    (checkEnergies texts falling r).passed = r.passed := by
  unfold checkEnergies
  split
  · rfl
  · cases falling <;> rfl

@[simp] theorem checkCell_passed : (checkCell f parsed r).passed =
    (r.passed && parsed.cell.any fun cell => f.reasonable cell.aBohr) := by
  unfold checkCell
  cases hc : parsed.cell with
  | none => simp
  | some cell => cases hr : f.reasonable cell.aBohr <;> simp [hr]

@[simp] theorem checkIons_passed : (checkIons f v text parsed r).passed = r.passed := by
  unfold checkIons
  split <;> rfl

@[simp] theorem summarise_passed : (summarise r).passed = r.passed := rfl

omit v parsed r in
theorem parseScf_converged {scf : ParsedSCF F} (h : parseScf f u text = some scf) :
    scf.converged = decide (Regex.Found (converged u) text) := by
  unfold parseScf at h
  simp only [Option.bind_eq_bind, Option.pure_def, Option.bind_eq_some_iff, Option.some.injEq] at h
  obtain ⟨_,_,_,_,_,_,_,_,_,_,_,_,rfl⟩ := h
  exact (Bool.decide_coe _).symm

/-- Every check of the walk, in its order. -/
def gates (inp : VerificationInput F) (parsed : ParsedVCResult F) : Bool :=
  inp.jobSuccess && !allZero f parsed && contains inp.stdout "JOB DONE" && parsed.converged &&
    decide (Regex.Found (converged u) inp.stdout) &&
    (decide (Regex.Found (forceWord u) inp.stdout) &&
      !f.lt v.forceThresholdRy parsed.maxForceRyBohr) &&
    (decide (Regex.Found (pressureWord u) inp.stdout) &&
      !f.lt v.pressureThresholdKbar (f.abs parsed.pressureKbar)) &&
    parsed.cell.any fun cell => f.reasonable cell.aBohr

omit text r in
/-- A report passes when every check of the walk does. -/
theorem verifyT1_passed {inp : VerificationInput F} {report : ConvergenceReport F}
    (h : verifyT1 f u v inp parsed = some report) : report.passed = gates f u v inp parsed := by
  unfold verifyT1 at h
  simp only [Option.bind_eq_bind, Option.pure_def, Option.bind_eq_some_iff, Option.some.injEq] at h
  obtain ⟨scf,hscf,_,_,rfl⟩ := h
  simp only [summarise_passed, checkIons_passed, checkCell_passed, checkEnergies_passed,
    checkPressure_passed, checkForces_passed, checkScf_passed, checkGeometry_passed,
    checkJobDone_passed, checkDataQuality_passed, checkJobSuccess_passed, Bool.true_and,
    parseScf_converged f u inp.stdout hscf, gates]

end Verdict
end DftForge.Qe
