import DftForge.Catalog.Tasks
import DftForge.Qe.Evidence
import DftForge.Qe.Stages
import DftForge.Tools.CallCmd

/-! # Replaying the result of a relaxation

`run_t1` verifies what it parsed and leaves a result file. `cmd_result_verify` verifies
again from that file, with an object that has as attributes what the file holds under
`physical_results`. The file lacks what the checks read first.
-/
namespace DftForge.Qe
open DftForge.Library DftForge.Runtime DftForge.Python DftForge.Hpc DftForge.Catalog DftForge.Engines
open DftForge.Tools (JsonText)

/-- A run of a task by `run_t1`, with what it got from the outside. -/
structure T1Run (F : Type) where
  spec : TaskSpec
  inputHash : String
  workdir : String
  job : JobResult
  /-- In seconds, rounded to three digits. -/
  walltime : F
  xml : Option (XmlData F) := none

section Result
variable {F : Type} (number : F → Json)

def Datum.json : Datum F → Json
  | .bool b => .bool b
  | .nat n => .num n
  | .int n => .num n
  | .float x => number x
  | .text s => .str s

def Check.json (c : Check F) : Json :=
  .obj (("pass",.bool c.pass) :: c.details.map fun d => (d.1,d.2.json number))

def texts (xs : List String) : Json := .arr (xs.map Json.str)

def cellResults (cell : ParsedCell F) : Json := .obj [("a_bohr",number cell.aBohr),("b_bohr",number cell.bBohr),
  ("c_bohr",number cell.cBohr),("volume_bohr3",number cell.volumeBohr3)]

def physicalResults (parsed : ParsedVCResult F) : Dict :=
  [("final_energy_ry",number parsed.finalEnergyRy),
    ("final_energy_ev_per_atom",number parsed.finalEnergyEvPerAtom),
    ("max_force_ry_bohr",number parsed.maxForceRyBohr),("pressure_kbar",number parsed.pressureKbar),
    ("natoms",.num parsed.natoms),("n_iterations",.num parsed.nIterations)] ++
  (parsed.cell.map fun cell => ("cell",cellResults number cell)).toList

/-- `_build_t1_result`. -/
def buildT1Result (run : T1Run F) (parsed : ParsedVCResult F) (report : ConvergenceReport F) : Dict :=
  let stem := run.workdir ++ "/" ++ run.spec.material ++ "_vcrelax"
  [("task_id",.str run.spec.taskId),("task_type",.str run.spec.taskType),
    ("status",.str (if report.passed then "pass" else "fail")),("input_hash",.str run.inputHash),
    ("verifier_summary",.str report.summary),("verifier_passed",.bool report.passed),
    ("checks",.obj (report.checks.map fun c => (c.1,c.2.json number))),
    ("failure_reasons",texts report.failureReasons),("warnings",texts report.warnings),
    ("physical_results",.obj (physicalResults number parsed)),
    ("evidence_path",.str (run.workdir ++ "/evidence.json")),("output_files",texts run.job.outputFiles),
    ("walltime_sec",number run.walltime),("qe_calls",.num 1),("input_file",.str (stem ++ ".in")),
    ("stdout_file",.str (stem ++ ".out"))]

variable (f : Floats F) (u : Unicode) (v : ScientificVerifier F)

/-- The report of `run_t1` and the dictionary that it writes; nothing where it raises before. -/
def runT1 (run : T1Run F) : Option (ConvergenceReport F × Dict) := do
  let parsed ← parseVcRelax f u run.job.stdout run.xml
  let report ← verifyT1 f u v ⟨run.job.stdout,run.xml,run.job.success⟩ parsed
  return (report,buildT1Result number run parsed report)

end Result

section Verify
variable {F : Type} (f : Floats F) (u : Unicode) (v : ScientificVerifier F)

/-- A number as Python calculates with it; other values raise. -/
def asNumber : Json → Option F
  | .num q => some (f.lit q)
  | .bool b => some (f.lit (if b then 1 else 0))
  | _ => none

/-- `value == 0.0`. -/
def isZero (value : Json) : Bool := (asNumber f value).any fun x => f.eq x f.zero

/-- The three comparisons with zero, as far as they are made. -/
def zeroData (parsed : Dict) : Option Bool := do
  let energy ← parsed.get? "final_energy_ry"
  if isZero f energy then
    let pressure ← parsed.get? "pressure_kbar"
    if isZero f pressure then
      let natoms ← parsed.get? "natoms"
      return isZero f natoms
    else return false
  else return false

/-- A size that is compared with its limit where the text has it, and reported anyway. -/
def withinLimit (parsed : Dict) (key : String) (present : Bool) (size : F → F) (limit : F) : Option Bool := do
  let value ← parsed.get? key
  if present then
    let x ← asNumber f value
    return !f.lt limit (size x)
  else return false

/-- `parsed.cell.a_bohr`: no value of a file has this attribute. -/
def cellPassed (parsed : Dict) : Option Bool := do
  let cell ← parsed.get? "cell"
  if truthy cell then none else return false

/-- The last check compares the force again, in a relaxation. -/
def ionsChecked (stdout : Text) (parsed : Dict) : Option Unit := do
  let value ← parsed.get? "max_force_ry_bohr"
  if contains (lower stdout) "bfgs" || contains (lower stdout) "vc-relax" then
    let _ ← asNumber f value
    return ()
  else return ()

/-- `report.passed` of `verify_t1` on an object with these attributes, check by check; nothing
where one raises. -/
def verifyAttributes (stdout : Text) (jobSuccess : Bool) (parsed : Dict) : Option Bool := do
  let zero ← zeroData f parsed
  let converged ← parsed.get? "converged"
  let scf ← parseScf f u stdout
  let force ← withinLimit f parsed "max_force_ry_bohr" (decide (Regex.Found (forceWord u) stdout)) id
    v.forceThresholdRy
  let pressure ← withinLimit f parsed "pressure_kbar" (decide (Regex.Found (pressureWord u) stdout)) f.abs
    v.pressureThresholdKbar
  let _ ← monotonic f (energies u stdout)
  let cell ← cellPassed parsed
  let _ ← ionsChecked f stdout parsed
  return jobSuccess && !zero && contains stdout "JOB DONE" && truthy converged && scf.converged && force &&
    pressure && cell

/-- `result.get("parsed") or result.get("physical_results") or {}`. -/
def parsedData (result : Dict) : Json :=
  (((result.get? "parsed").filter truthy).or ((result.get? "physical_results").filter truthy)).getD (.obj [])

/-- `isinstance(value, (int, float, str, list, dict))`. -/
def isPlain : Json → Bool
  | .null => false
  | _ => true

/-- The attributes of the `SimpleNamespace`. -/
def attributes : Json → Option Dict
  | .obj fields => some (fields.filter fun kv => isPlain kv.2)
  | _ => none

/-- `result.get("stdout", "")`, which is a text where it is there. -/
def storedStdout (result : Dict) : Option Text :=
  match result.get? "stdout" with
  | none => some []
  | some (.str s) => some s.toList
  | some _ => none

def isText (value : Option Json) (text : String) : Bool :=
  match value with
  | some (.str s) => s = text
  | _ => false

/-- `result.get("status") == "pass" or bool(result.get("success", True))`. -/
def jobSuccess (result : Dict) : Bool :=
  isText (result.get? "status") "pass" || ((result.get? "success").map truthy).getD true

/-- `getattr(args, "task_type", None) or result.get("task_type", "T1")` is `T2`. -/
def asksT2 (taskType : Option String) (result : Dict) : Bool :=
  match taskType with
  | none => isText (result.get? "task_type") "T2"
  | some s => if s = "" then isText (result.get? "task_type") "T2" else s = "T2"

variable (shown : Json → String)

/-- The first output file that is an XML file. -/
def bandsPath (result : Dict) : String :=
  let files := match result.get? "output_files" with
    | some (.arr items) => items.map shown
    | _ => []
  ((files.find? (·.endsWith ".xml")).or ((result.get? "bands_xml").map shown)).getD "missing_bands.xml"

/-- `passed` of `cmd_result_verify` on a file with this text; nothing where it raises. `readBands` is
what `parse_bands` finds in the files that are there. -/
def resultVerify (json : JsonText) (readBands : String → Option (ParsedBands F)) (taskType : Option String)
    (content : Text) : Option Bool :=
  match json.loads content with
  | some (.obj result) => do
    let stdout ← storedStdout result
    let parsed ← attributes (parsedData result)
    if asksT2 taskType result then
      let path := bandsPath shown result
      let report ← verifyT2Bands f u stdout stdout path (readBands path)
      return report.passed
    else verifyAttributes f u v stdout (jobSuccess result) parsed
  | _ => none

end Verify

section Verdict
variable {F : Type} {number : F → Json} {f : Floats F} {u : Unicode} {v : ScientificVerifier F}
variable {run : T1Run F} {parsed : ParsedVCResult F} {report : ConvergenceReport F} {result : Dict}
variable {json : JsonText}

theorem filter_get?_none {d : Dict} {key : String} (h : d.get? key = none) (p : String × Json → Bool) :
    Dict.get? (d.filter p) key = none := by
  unfold Dict.get? at h ⊢
  rw [List.lookup_eq_none_iff] at h ⊢
  exact fun kv hkv => h kv (List.mem_of_mem_filter hkv)

theorem verifyAttributes_missing {stdout : Text} {ok : Bool} {attrs : Dict} (h : attrs.get? "converged" = none) :
    verifyAttributes f u v stdout ok attrs = none := by
  unfold verifyAttributes
  rw [h]
  cases zeroData f attrs <;> rfl

theorem physicalResults_converged (parsed : ParsedVCResult F) :
    (physicalResults number parsed).get? "converged" = none := by
  unfold physicalResults
  cases parsed.cell <;> rfl

theorem parsedData_result : parsedData (buildT1Result number run parsed report) =
    .obj (physicalResults number parsed) := by
  have hparsed : (buildT1Result number run parsed report).get? "parsed" = none := rfl
  have hresults : (buildT1Result number run parsed report).get? "physical_results" =
      some (.obj (physicalResults number parsed)) := rfl
  have htrue : truthy (.obj (physicalResults number parsed)) = true := rfl
  rw [parsedData,hparsed,hresults,Option.filter_none,Option.none_or,Option.filter_some,if_pos htrue]
  rfl

/-- The replay of the file that `run_t1` wrote raises. -/
theorem replay_raises {ok : Bool} {stdout : Text} :
    ((attributes (parsedData (buildT1Result number run parsed report))).bind fun attrs =>
      verifyAttributes f u v stdout ok attrs) = none := by
  rw [parsedData_result]
  exact verifyAttributes_missing (filter_get?_none (physicalResults_converged parsed) _)

/-- Without any output a band structure does not pass. -/
theorem verifyT2Bands_empty (path : String) (bands : Option (ParsedBands F)) :
    ∃ r, verifyT2Bands f u [] [] path bands = some r ∧ r.passed = false := by
  refine ⟨_,rfl,?_⟩
  cases bands with
  | none => rfl
  | some bands =>
    simp only [counted,checkBandsFile,ConvergenceReport.note_passed,ConvergenceReport.failUnless_passed,
      checkStages_passed,ConvergenceReport.fail_passed,Bool.false_and]

/-- The recorded verdict and what the replay answers are the same. -/
def Replays (f : Floats F) (u : Unicode) (v : ScientificVerifier F) (shown : Json → String) (json : JsonText)
    (readBands : String → Option (ParsedBands F)) (taskType : Option String) (result : Dict) : Prop :=
  ∃ passed, result.get? "verifier_passed" = some (.bool passed) ∧
    resultVerify f u v shown json readBands taskType (json.dumps (.obj result)) = some passed

/-- What the replay of the file answers: it raises, unless it is told to check a band structure. -/
theorem resultVerify_result (ht : run.spec.taskType = "T1")
    (hrun : runT1 number f u v run = some (report,result))
    (hfile : json.loads (json.dumps (.obj result)) = some (.obj result)) (v' : ScientificVerifier F)
    (shown : Json → String) (readBands : String → Option (ParsedBands F)) (taskType : Option String) :
    result.get? "verifier_passed" = some (.bool report.passed) ∧
      resultVerify f u v' shown json readBands taskType (json.dumps (.obj result)) =
        if taskType = some "T2" then some false else none := by
  simp only [runT1,Option.bind_eq_bind,Option.bind_eq_some_iff,Option.pure_def,Option.some.injEq,
    Prod.mk.injEq] at hrun
  obtain ⟨parsed,_,report',_,rfl,rfl⟩ := hrun
  refine ⟨rfl,?_⟩
  have hstdout : storedStdout (buildT1Result number run parsed report') = some [] := rfl
  have htype : (buildT1Result number run parsed report').get? "task_type" = some (.str run.spec.taskType) := rfl
  have hasks : asksT2 taskType (buildT1Result number run parsed report') = true ↔ taskType = some "T2" := by
    unfold asksT2
    rw [htype,isText,ht]
    cases taskType with
    | none => simp
    | some s => by_cases hs : s = "" <;> simp [hs]
  unfold resultVerify
  rw [hfile]
  simp only [hstdout,Option.bind_eq_bind,Option.bind_some]
  by_cases hT2 : taskType = some "T2"
  · obtain ⟨r,hr,hpassed⟩ := verifyT2Bands_empty (f := f) (u := u)
      (bandsPath shown (buildT1Result number run parsed report'))
      (readBands (bandsPath shown (buildT1Result number run parsed report')))
    rw [parsedData_result]
    simp only [attributes,Option.bind_some,hasks.mpr hT2,if_true,hr,hpassed,if_pos hT2,Option.pure_def]
  · have hno : asksT2 taskType (buildT1Result number run parsed report') = false := by
      rw [Bool.eq_false_iff]
      exact mt hasks.mp hT2
    simp only [hno,Bool.false_eq_true,if_false,if_neg hT2]
    exact replay_raises

/-- A relaxation is replayed with its own verdict only by the checks of a band structure, when it
had failed. -/
theorem replays_iff (ht : run.spec.taskType = "T1") (hrun : runT1 number f u v run = some (report,result))
    (hfile : json.loads (json.dumps (.obj result)) = some (.obj result)) (v' : ScientificVerifier F)
    (shown : Json → String) (readBands : String → Option (ParsedBands F)) (taskType : Option String) :
    Replays f u v' shown json readBands taskType result ↔ taskType = some "T2" ∧ report.passed = false := by
  obtain ⟨hrecorded,hanswer⟩ := resultVerify_result ht hrun hfile v' shown readBands taskType
  unfold Replays
  rw [hrecorded,hanswer]
  constructor
  · rintro ⟨passed,hpassed,hverdict⟩
    split_ifs at hverdict with hT2
    obtain rfl := Option.some.inj hverdict
    exact ⟨hT2,Json.bool.inj (Option.some.inj hpassed)⟩
  · rintro ⟨hT2,hfailed⟩
    exact ⟨false,by rw [hfailed],if_pos hT2⟩

end Verdict

section Samples

def siliconSpec : TaskSpec where
  taskId := "T1_Si_vcrelax"
  taskType := "T1"
  material := "Si"
  description := "Si diamond structure vc-relax optimization"
  materialProfile := (builtinMaterials.head (List.cons_ne_nil _ _)).2.profile
  parameters := relaxParameters 25 200 [4,4,4,1,1,1]

/-- A relaxation whose process could not be started. -/
def lostRun : T1Run ℚ where
  spec := siliconSpec
  inputHash := "0"
  workdir := "runs/si"
  job := { success := false, exitCode := -1, errorMessage := "failed to launch pw.x".toList }
  walltime := 0

/-- A file that holds this result. -/
def fileOf (result : Dict) : JsonText := ⟨fun _ => some (.obj result),fun _ => [],fun _ => []⟩

theorem lostRun_result : ∃ report result,
    runT1 Json.num decimals {} strictVerifier lostRun = some (report,result) ∧
    report.passed = false := by
  have hfailed : (runT1 Json.num decimals {} strictVerifier lostRun).map (·.1.passed) = some false := by
    decide +kernel
  obtain ⟨⟨report,result⟩,hrun,hpassed⟩ := Option.map_eq_some_iff.mp hfailed
  exact ⟨report,result,hrun,hpassed⟩

theorem replays_lost : ∃ report result,
    runT1 Json.num decimals {} strictVerifier lostRun = some (report,result) ∧
    Replays decimals {} strictVerifier (fun _ => "") (fileOf result) (fun _ => none) (some "T2") result := by
  obtain ⟨report,result,hrun,hfailed⟩ := lostRun_result
  have hfile : (fileOf result).loads ((fileOf result).dumps (.obj result)) = some (.obj result) := rfl
  have hiff := replays_iff rfl hrun hfile strictVerifier (fun _ => "") (fun _ => none) (some "T2")
  exact ⟨report,result,hrun,hiff.mpr ⟨rfl,hfailed⟩⟩

/-- The replay raises with the task type of the file. -/
theorem lost_not_replayed : ∃ report result,
    runT1 Json.num decimals {} strictVerifier lostRun = some (report,result) ∧
    ¬ Replays decimals {} strictVerifier (fun _ => "") (fileOf result) (fun _ => none) none result := by
  obtain ⟨report,result,hrun,_⟩ := lostRun_result
  refine ⟨report,result,hrun,?_⟩
  rintro ⟨passed,_,hverdict⟩
  have hfile : (fileOf result).loads ((fileOf result).dumps (.obj result)) = some (.obj result) := rfl
  have hanswer := (resultVerify_result rfl hrun hfile strictVerifier (fun _ => "") (fun _ => none) none).2
  rw [hanswer] at hverdict
  cases hverdict

end Samples
end DftForge.Qe
