import DftForge.Hpc.RemoteTool
import DftForge.Qe.Recovery

/-! # The reports of the run methods

`verify_scf`, `verify_nscf` and the checks of the band structure and of the density of
states, and what a run method makes of the results of its executor: the report that the
recovery controller sorts. The files of bands.x and dos.x come in as they were read.
-/
namespace DftForge.Qe
open DftForge.Library DftForge.Runtime DftForge.Python DftForge.Hpc

structure ParsedBands (F : Type) where
  nBands : ℤ
  nKpoints : ℤ
  fermiEnergyEv : F

structure ParsedDOS (F : Type) where
  nEnergyPoints : ℕ
  fermiEnergyEv : Option F

section Stages
open ConvergenceReport
variable {F : Type} (f : Floats F) (u : Unicode)

/-- `not stdout or len(stdout) < 50`. -/
def tooShort (stdout : Text) : Bool := stdout.length < 50

/-- `verify_scf`. -/
def verifyScf (stdout : Text) : Option (ConvergenceReport F) :=
  if tooShort stdout then
    some { (fail ⟨true,[],[],[],""⟩ "No stdout provided").note "scf" ⟨false,[]⟩ with
      summary := "SCF NOT converged: no output" }
  else (parseScf f u stdout).map fun scf =>
    { (failUnless ⟨true,[],[],[],""⟩ scf.converged "SCF did not converge").note "scf"
        ⟨scf.converged,[("n_iterations",.nat scf.nIterations),("energy_ry",.float scf.totalEnergyRy)]⟩ with
      summary := "SCF " ++ (if scf.converged then "converged" else "NOT converged") ++ " in " ++
        toString scf.nIterations ++ " iterations" }

def bandsDone (stdout : Text) : Bool := contains stdout "End of band structure calculation"

def hasFermi (stdout : Text) : Bool :=
  contains stdout "the Fermi energy is" ||
    contains stdout "highest occupied, lowest unoccupied level" || contains stdout "highest occupied level"

/-- `verify_nscf`. -/
def verifyNscf (stdout : Text) : Option (ConvergenceReport F) :=
  if tooShort stdout then
    some { (fail ⟨true,[],[],[],""⟩ "No stdout provided").note "nscf" ⟨false,[]⟩ with
      summary := "NSCF NOT ok: no output" }
  else (parseScf f u stdout).map fun scf =>
    let r := failUnless ⟨true,[],[],[],""⟩ (bandsDone stdout) "NSCF diagonalization did not complete"
    let r := r.failUnless (contains stdout "JOB DONE") "JOB DONE not found in NSCF output"
    let r := r.failUnless (hasFermi stdout) "No Fermi/highest-occupied energy in NSCF output"
    { r.note "nscf" ⟨r.passed,[("band_calc_done",.bool (bandsDone stdout)),
        ("job_done",.bool (contains stdout "JOB DONE")),("fermi_ev",.float scf.fermiEnergyEv)]⟩ with
      summary := if r.passed then "NSCF diagonalization completed"
        else "NSCF failed: " ++ "; ".intercalate r.failureReasons }

/-- The two pw.x stages of a band structure or of a density of states. -/
def checkStages (scf nscf : ConvergenceReport F) : ConvergenceReport F :=
  let r := (failUnless ⟨true,[],[],[],""⟩ scf.passed "SCF stage failed").note "scf"
    ((scf.checks.lookup "scf").getD ⟨false,[]⟩)
  (r.failUnless nscf.passed "NSCF stage did not pass").note "nscf"
    ((nscf.checks.lookup "nscf").getD ⟨false,[]⟩)

def counted (title : String) (r : ConvergenceReport F) : ConvergenceReport F :=
  { r with summary := title ++ ": " ++ toString (r.checks.filter (·.2.pass)).length ++ "/" ++
      toString r.checks.length ++ " checks passed" }

def checkBandsFile (path : String) (r : ConvergenceReport F) : Option (ParsedBands F) → ConvergenceReport F
  | none => (r.fail ("bands.xml not found: " ++ path)).note "bands_xml" ⟨false,[]⟩
  | some bands => ((r.note "bands_xml" ⟨true,[]⟩).failUnless (bands.nBands ≠ 0)
      "bands XML parsed but empty (no eigenvalues)").note "bands_data" ⟨0 < bands.nBands,
        [("n_bands",.int bands.nBands),("n_kpoints",.int bands.nKpoints),
          ("fermi_ev",.float bands.fermiEnergyEv)]⟩

/-- `verify_t2_bands`. -/
def verifyT2Bands (scfStdout nscfStdout : Text) (path : String) (bands : Option (ParsedBands F)) :
    Option (ConvergenceReport F) := do
  let scf ← verifyScf f u scfStdout
  let nscf ← verifyNscf f u nscfStdout
  return counted "T2 bands" (checkBandsFile path (checkStages scf nscf) bands)

def checkDosFile (path : String) (r : ConvergenceReport F) : Option (ParsedDOS F) → ConvergenceReport F
  | none => (r.fail ("DOS file not found: " ++ path)).note "dos_file" ⟨false,[]⟩
  | some dos => (r.failUnless (dos.nEnergyPoints ≠ 0) "DOS file parsed but empty (no energy points)").note
      "dos_file" ⟨0 < dos.nEnergyPoints,("n_points",.nat dos.nEnergyPoints) ::
        (dos.fermiEnergyEv.map fun e => ("fermi_ev",Datum.float e)).toList⟩

/-- `verify_t2_dos`. -/
def verifyT2Dos (scfStdout nscfStdout : Text) (path : String) (dos : Option (ParsedDOS F)) :
    Option (ConvergenceReport F) := do
  let scf ← verifyScf f u scfStdout
  let nscf ← verifyNscf f u nscfStdout
  return counted "T2 DOS" (checkDosFile path (checkStages scf nscf) dos)

/-- What a run method got from its executor, and the file it then read. -/
inductive Execution (F : Type) where
  | t1 (job : JobResult) (xml : Option (XmlData F))
  | t2Bands (scf nscf post : JobResult) (path : String) (bands : Option (ParsedBands F))
  | t2Dos (scf nscf post : JobResult) (path : String) (dos : Option (ParsedDOS F))

variable (v : ScientificVerifier F)

/-- The report of `run_t1`, `run_t2_bands` and `run_t2_dos`; nothing where a reader raises. -/
def Execution.report : Execution F → Option (ConvergenceReport F)
  | .t1 job xml => do
    let parsed ← parseVcRelax f u job.stdout xml
    verifyT1 f u v { stdout := job.stdout, xml, jobSuccess := job.success } parsed
  | .t2Bands scf nscf _ path bands => do
    let _ ← parseScf f u scf.stdout
    let _ ← parseScf f u nscf.stdout
    verifyT2Bands f u scf.stdout nscf.stdout path bands
  | .t2Dos scf nscf _ path dos => do
    let _ ← parseScf f u scf.stdout
    let _ ← parseScf f u nscf.stdout
    verifyT2Dos f u scf.stdout nscf.stdout path dos

/-- What `classify` makes of the report. -/
def Execution.kind (e : Execution F) : Option FailureKind := (e.report f u v).map classify

/-- The executor says that the job ran out of time. -/
def reportsTimeout (job : JobResult) : Bool :=
  contains (lower job.errorMessage) "timed out" || contains (lower job.errorMessage) "timeout"

def Execution.jobs : Execution F → List JobResult
  | .t1 job _ => [job]
  | .t2Bands scf nscf post _ _ => [scf,nscf,post]
  | .t2Dos scf nscf post _ _ => [scf,nscf,post]

end Stages

section Verdict
variable {F : Type} {f : Floats F} {u : Unicode} {stdout : Text} {r : ConvergenceReport F}

/-- What the SCF stage must print. -/
def scfOk (u : Unicode) (stdout : Text) : Bool :=
  !tooShort stdout && decide (Regex.Found (converged u) stdout)

/-- What the NSCF stage must print. -/
def nscfOk (stdout : Text) : Bool :=
  !tooShort stdout && (bandsDone stdout && contains stdout "JOB DONE" && hasFermi stdout)

theorem verifyScf_passed (h : verifyScf f u stdout = some r) : r.passed = scfOk u stdout := by
  unfold verifyScf at h
  by_cases hshort : tooShort stdout = true
  · rw [if_pos hshort] at h
    obtain rfl := Option.some.inj h
    simp [scfOk, hshort, ConvergenceReport.note]
  · rw [if_neg hshort] at h
    obtain ⟨scf,hscf,rfl⟩ := Option.map_eq_some_iff.mp h
    have hconv := parseScf_converged f u stdout hscf
    rw [Bool.not_eq_true] at hshort
    simp [scfOk, hshort, ConvergenceReport.note, hconv]

theorem verifyNscf_passed (h : verifyNscf f u stdout = some r) : r.passed = nscfOk stdout := by
  unfold verifyNscf at h
  by_cases hshort : tooShort stdout = true
  · rw [if_pos hshort] at h
    obtain rfl := Option.some.inj h
    simp [nscfOk, hshort, ConvergenceReport.note]
  · rw [if_neg hshort] at h
    obtain ⟨scf,_,rfl⟩ := Option.map_eq_some_iff.mp h
    rw [Bool.not_eq_true] at hshort
    simp [nscfOk, hshort, ConvergenceReport.note]

theorem checkStages_reasons {scf nscf : ConvergenceReport F} : (checkStages scf nscf).failureReasons =
    (if scf.passed then [] else ["SCF stage failed"]) ++
      if nscf.passed then [] else ["NSCF stage did not pass"] := by
  unfold checkStages ConvergenceReport.failUnless ConvergenceReport.note ConvergenceReport.fail
  cases scf.passed <;> cases nscf.passed <;> rfl

theorem checkStages_passed {scf nscf : ConvergenceReport F} :
    (checkStages scf nscf).passed = (scf.passed && nscf.passed) := by
  simp [checkStages]

end Verdict
end DftForge.Qe
