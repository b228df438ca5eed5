import DftForge.Catalog.Tasks
import DftForge.Python.Text

/-! # From a planned workflow to a task

`Agent._run_workflow`: the task id of the plan is looked up in the task catalogue, and
a plan with an unknown id is registered there as a task for its material. The plan is
carried out, and nothing else changes, exactly when neither id collides.
-/
namespace DftForge.Agent
open DftForge.Runtime DftForge.Python DftForge.Catalog

structure StepIR where
  stepType : String
  prefixName : String
  stepId : String := ""
  dependsOn : List Json := []
  overrides : Dict := []

structure WorkflowIR where
  taskId : String
  taskType : String
  material : String
  steps : List StepIR
  reasoning : String := ""

/-- `str.isalnum`. -/
def isAlnum (u : Unicode) (text : Text) : Bool :=
  text ≠ [] && text.all fun c => c.isAlphanum || (128 ≤ c.toNat && (u.isAlnum c || (u.digit c).isSome))

def stepTypes : List String := ["scf","vc-relax","relax","bands_nscf","dos_nscf"]

/-- The errors `validate` finds in one step. -/
def StepIR.errors (u : Unicode) (step : StepIR) : List String :=
  (if step.stepType ∈ stepTypes then [] else ["Invalid step_type: " ++ step.stepType]) ++
    if isAlnum u (step.prefixName.toList.filter fun c => c ≠ '_' && c ≠ '-') then []
    else ["Invalid prefix: " ++ step.prefixName]

/-- `validate`. -/
def WorkflowIR.validate (u : Unicode) (w : WorkflowIR) : List String :=
  (if w.taskType ∈ ["T1","T2"] then [] else ["Invalid task_type: " ++ w.taskType]) ++
    (if w.steps = [] then ["WorkflowIR has no steps"] else []) ++ w.steps.flatMap (StepIR.errors u)

/-- The runner method a task goes to. -/
inductive Runner where
  | t1
  | t2Bands
  | t2Dos
  deriving DecidableEq, Repr

/-- The choice of `run_task_deterministic`. -/
def runnerOf (spec : TaskSpec) : Except String Runner :=
  if spec.taskType = "T1" then .ok .t1
  else if spec.taskType = "T2" then
    match spec.parameters.get? "subtype" with
    | some (.str "dos") => .ok .t2Dos
    | none | some .null => .ok (if contains (lower spec.taskId.toList) "dos" then .t2Dos else .t2Bands)
    | _ => .ok .t2Bands
  else .error ("Unsupported task_type: " ++ spec.taskType)

/-- `run_task_deterministic` up to the run itself: the task that is run, and how. -/
def runTask (c : Tables) (taskId : String) : Except String (TaskSpec × Runner) := do
  let spec ← c.getTaskSpec taskId
  return (spec,← runnerOf spec)

/-- The first band or DOS step decides the subtype. -/
def subtypeOf : List StepIR → Option String
  | [] => none
  | step :: rest =>
    if step.stepType = "bands_nscf" then some "bands"
    else if step.stepType = "dos_nscf" then some "dos"
    else subtypeOf rest

/-- `_register_library_task`: the catalogue after it and the id, or nothing for an
unknown material. -/
def registerLibraryTask (c : Tables) (w : WorkflowIR) : Except String (Option (Tables × String)) :=
  match c.material? w.material with
  | none => .ok none
  | some _ => do
    let task ← c.buildLibraryTaskSpec w.material w.taskType (subtypeOf w.steps)
    return some ({ c with tasks := assign task.taskId task c.tasks },task.taskId)

/-- What `_run_workflow` does. -/
inductive Outcome where
  /-- The material is reported as unsupported. -/
  | unsupported (taskId error : String)
  /-- `_run_known_task`. -/
  | ran (taskId : String) (run : Except String (TaskSpec × Runner))
  | raised (error : String)

def plannedId (w : WorkflowIR) : String := if w.taskId = "" then "unknown" else w.taskId

/-- `_run_workflow`. -/
def runWorkflow (c : Tables) (w : WorkflowIR) : Tables × Outcome :=
  match c.getTaskSpec (plannedId w) with
  | .ok _ => (c,.ran (plannedId w) (runTask c (plannedId w)))
  | .error _ =>
    match registerLibraryTask c w with
    | .error e => (c,.raised e)
    | .ok none =>
      (c,.unsupported (plannedId w) ("Material '" ++ w.material ++ "' is not in the material library"))
    | .ok (some (c', taskId)) => (c',.ran taskId (runTask c' taskId))

/-- The planned material and type are run, or the material is unknown and reported so. -/
def CarriesOut (c : Tables) (w : WorkflowIR) : Outcome → Prop
  | .unsupported _ _ => c.material? w.material = none
  | .ran _ (.ok (spec, _)) => spec.material = w.material ∧ spec.taskType = w.taskType
  | .ran _ (.error _) => False
  | .raised _ => False

/-- Every catalogued task is what it was. -/
def Keeps (c c' : Tables) : Prop := ∀ id task, c.tasks.lookup id = some task → c'.tasks.lookup id = some task

/-- The task that a plan with an unknown id stands for. -/
def standsFor (c : Tables) (w : WorkflowIR) : Except String Task :=
  c.buildLibraryTaskSpec w.material w.taskType (subtypeOf w.steps)

/-- Neither id collides: a planned id that is catalogued names a task for the planned
material and type, and otherwise the generated id is free or already stands for the
same task. -/
def NoCollision (c : Tables) (w : WorkflowIR) : Prop :=
  match c.getTaskSpec (plannedId w) with
  | .ok spec => spec.material = w.material ∧ spec.taskType = w.taskType
  | .error _ => ∀ old, c.tasks.lookup (libraryTaskId w.material w.taskType (subtypeOf w.steps)) = some old →
      ∀ new, standsFor c w = .ok new → old = new

variable {c : Tables} {w : WorkflowIR} {u : Unicode}

theorem taskType_of_validate (h : w.validate u = []) : w.taskType = "T1" ∨ w.taskType = "T2" := by
  simp only [WorkflowIR.validate,List.append_eq_nil_iff] at h
  by_contra hno
  have : w.taskType ∉ ["T1","T2"] := by simpa using hno
  simp [this] at h

theorem runnerOf_ok {spec : TaskSpec} (h : spec.taskType = "T1" ∨ spec.taskType = "T2") :
    ∃ runner, runnerOf spec = .ok runner := by
  unfold runnerOf
  rcases h with h | h
  · exact ⟨.t1,by rw [if_pos h]⟩
  · rw [if_neg (by rw [h]; decide),if_pos h]
    split
    · exact ⟨_,rfl⟩
    · exact ⟨_,rfl⟩
    · exact ⟨_,rfl⟩
    · exact ⟨_,rfl⟩

theorem runTask_ok {taskId : String} {spec : TaskSpec} (h : c.getTaskSpec taskId = .ok spec)
    (htype : spec.taskType = "T1" ∨ spec.taskType = "T2") : ∃ runner, runTask c taskId = .ok (spec,runner) := by
  obtain ⟨runner,hrunner⟩ := runnerOf_ok htype
  exact ⟨runner,by simp only [runTask,h,hrunner,bind,Except.bind,pure,Except.pure]⟩

/-- Registering a task changes nothing exactly when its id was free or its own. -/
theorem keeps_assign {task : Task} {id : String} :
    Keeps c { c with tasks := assign id task c.tasks } ↔ ∀ old, c.tasks.lookup id = some old → old = task := by
  constructor
  · intro h old hold
    have hnew := h id old hold
    rw [lookup_assign_self,Option.some.injEq] at hnew
    exact hnew.symm
  · intro h id' old hold
    by_cases hid : id' = id
    · subst hid
      rw [lookup_assign_self,h old hold]
    · rw [lookup_assign_of_ne hid]
      exact hold

theorem keeps_self : Keeps c c := fun _ _ h => h

/-- A plan whose id is catalogued runs the task of that name and registers nothing. -/
theorem known_iff {spec : TaskSpec} (h : c.getTaskSpec (plannedId w) = .ok spec)
    (htype : w.taskType = "T1" ∨ w.taskType = "T2") :
    (CarriesOut c w (runWorkflow c w).2 ∧ Keeps c (runWorkflow c w).1) ↔
      spec.material = w.material ∧ spec.taskType = w.taskType := by
  simp only [runWorkflow,h]
  constructor
  · rintro ⟨hout,_⟩
    cases hrun : runTask c (plannedId w) with
    | error e => simp [CarriesOut,hrun] at hout
    | ok run =>
      have hspec : run.1 = spec := by
        simp only [runTask,h,bind,Except.bind] at hrun
        split at hrun
        · cases hrun
        · cases hrun
          rfl
      rw [hrun] at hout
      rw [← hspec]
      exact hout
  · rintro ⟨hmaterial,hspecType⟩
    obtain ⟨runner,hrun⟩ := runTask_ok h (by rwa [hspecType])
    rw [hrun]
    exact ⟨⟨hmaterial,hspecType⟩,keeps_self⟩

/-- A plan with an unknown id is registered and run under the generated id. -/
theorem registered_iff {e : String} {m : Material} {task : Task} (h : c.getTaskSpec (plannedId w) = .error e)
    (htype : w.taskType = "T1" ∨ w.taskType = "T2") (hm : c.material? w.material = some m)
    (htask : standsFor c w = .ok task) :
    (CarriesOut c w (runWorkflow c w).2 ∧ Keeps c (runWorkflow c w).1) ↔
      ∀ old, c.tasks.lookup task.taskId = some old → old = task := by
  have hbuilt : libraryTask w.material m w.taskType (subtypeOf w.steps) = .ok task := by
    simpa [standsFor,Tables.buildLibraryTaskSpec,hm] using htask
  obtain ⟨_,htaskType,hmaterial⟩ := libraryTask_spec hbuilt
  have hregister : registerLibraryTask c w =
      .ok (some ({ c with tasks := assign task.taskId task c.tasks },task.taskId)) := by
    have hb : c.buildLibraryTaskSpec w.material w.taskType (subtypeOf w.steps) = .ok task := htask
    simp only [registerLibraryTask,hm,hb,bind,Except.bind,pure,Except.pure]
  have hrun : runWorkflow c w = ({ c with tasks := assign task.taskId task c.tasks },
      .ran task.taskId (runTask { c with tasks := assign task.taskId task c.tasks } task.taskId)) := by
    simp only [runWorkflow,h,hregister]
  obtain ⟨spec,hspec,hspecMaterial,hspecType⟩ :=
    Tables.getTaskSpec_of_lookup (c := { c with tasks := assign task.taskId task c.tasks })
      (lookup_assign_self _ _ _) (by rw [hmaterial]; exact hm)
  obtain ⟨runner,hran⟩ := runTask_ok hspec (by rwa [hspecType,htaskType])
  rw [hrun,hran]
  refine ⟨fun hout => keeps_assign.mp hout.2,fun hfree => ⟨⟨?_,?_⟩,keeps_assign.mpr hfree⟩⟩
  · rw [hspecMaterial,hmaterial]
  · rw [hspecType,htaskType]

/-- A valid plan is carried out, and the catalogue keeps its tasks, exactly when
neither the planned nor the generated id collides. -/
theorem workflow_iff (u : Unicode) (c : Tables) (w : WorkflowIR) (h : w.validate u = []) :
    (CarriesOut c w (runWorkflow c w).2 ∧ Keeps c (runWorkflow c w).1) ↔ NoCollision c w := by
  have htype := taskType_of_validate h
  cases hspec : c.getTaskSpec (plannedId w) with
  | ok spec =>
    rw [known_iff hspec htype,NoCollision,hspec]
  | error e =>
    rw [NoCollision,hspec]
    cases hm : c.material? w.material with
    | none =>
      have hregister : registerLibraryTask c w = .ok none := by simp only [registerLibraryTask,hm]
      have hstands : ∀ new, standsFor c w ≠ .ok new := by
        simp [standsFor,Tables.buildLibraryTaskSpec,hm]
      simp only [runWorkflow,hspec,hregister]
      exact iff_of_true ⟨hm,keeps_self⟩ fun _ _ new hnew => absurd hnew (hstands new)
    | some m =>
      obtain ⟨task,hbuilt⟩ := libraryTask_ok w.material m (subtypeOf w.steps) htype
      have hstands : standsFor c w = .ok task := by
        simpa [standsFor,Tables.buildLibraryTaskSpec,hm] using hbuilt
      rw [registered_iff hspec htype hm hstands,(libraryTask_spec hbuilt).1]
      refine ⟨fun hfree old hold new hnew => ?_,fun hfree old hold => hfree old hold task hstands⟩
      rw [hstands,Except.ok.injEq] at hnew
      rw [← hnew]
      exact hfree old hold

/-- Bands of silicon under an id of its own. -/
def siliconBands : WorkflowIR :=
  { taskId := "si_bands", taskType := "T2", material := "Si", steps :=
    [{ stepType := "scf", prefixName := "si" }] }

theorem workflow_iff_si :
    siliconBands.validate {} = [] ∧
      ((CarriesOut (Tables.initial []) siliconBands (runWorkflow (Tables.initial []) siliconBands).2 ∧
        Keeps (Tables.initial []) (runWorkflow (Tables.initial []) siliconBands).1) ↔
        NoCollision (Tables.initial []) siliconBands) :=
  ⟨by decide +kernel,workflow_iff {} (Tables.initial []) siliconBands (by decide +kernel)⟩

/-- A relaxation of silicon under an id of its own. -/
def relaxSilicon : WorkflowIR :=
  { taskId := "si_vc_relax", taskType := "T1", material := "Si", steps :=
    [{ stepType := "vc-relax", prefixName := "si" }] }

/-- Bands of aluminium under the id of a built-in task. -/
def misnamed : WorkflowIR :=
  { taskId := "T1_Si_vcrelax", taskType := "T2", material := "Al", steps :=
    [{ stepType := "bands_nscf", prefixName := "al" }] }

/-- The planned relaxation replaces the catalogued one, and the misnamed plan relaxes silicon. -/
theorem plans_collide :
    (relaxSilicon.validate {} = [] ∧
      ¬Keeps (Tables.initial []) (runWorkflow (Tables.initial []) relaxSilicon).1) ∧
    (misnamed.validate {} = [] ∧
      ¬CarriesOut (Tables.initial []) misnamed (runWorkflow (Tables.initial []) misnamed).2) := by
  refine ⟨⟨by decide +kernel,fun h => ?_⟩,⟨by decide +kernel,fun h => ?_⟩⟩
  · have hkept := h "T1_Si_vcrelax" _ rfl
    have hcutoff : some (some (Json.num 45)) = some (some (Json.num 25)) :=
      congrArg (Option.map fun t : Task => t.parameters.get? "ecutwfc") hkept
    rw [Option.some.injEq,Option.some.injEq,Json.num.injEq] at hcutoff
    norm_num at hcutoff
  · have hmaterial : "Si" = "Al" := h.1
    exact absurd hmaterial (by decide)

end DftForge.Agent
