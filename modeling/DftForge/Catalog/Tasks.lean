import DftForge.Catalog.Materials

/-! # The task catalogue

The built-in tasks, `get_task_spec`, and `build_library_task_spec`, which makes up a
task for any material by heuristics. Both tables can grow while the program runs.
-/
namespace DftForge.Catalog
open DftForge.Runtime

structure Task where
  taskId : String
  taskType : String
  material : String
  description : String
  parameters : Dict

structure TaskSpec where
  taskId : String
  taskType : String
  material : String
  description : String
  materialProfile : MaterialProfile
  parameters : Dict

/-- `MATERIALS`, `LIBRARY_MATERIALS` and `TASKS`. -/
structure Tables where
  materials : List (String × Material)
  library : List (String × Material)
  tasks : List (String × Task)

def ints (ns : List ℤ) : Json := .arr (ns.map fun n => .num n)

/-- The parameters all built-in relaxations have in this order. -/
def relaxParameters (ecutwfc ecutrho : ℚ) (kpoints : List ℤ) : Dict :=
  [("ecutwfc",.num ecutwfc),("ecutrho",.num ecutrho),("kpoints",ints kpoints),
    ("conv_thr",.num (1 / 10 ^ 8)),("cell_optimization",.bool true),("nstep",.num 200)]

/-- The parameters all band and DOS tasks have in this order. -/
def bandParameters (subtype : String) (ecutwfc ecutrho : ℚ) (kpoints : List ℤ) (nbnd : ℤ) : Dict :=
  [("subtype",.str subtype),("ecutwfc",.num ecutwfc),("ecutrho",.num ecutrho),
    ("kpoints_scf",ints kpoints),("kpoints_nscf",ints kpoints),("conv_thr",.num (1 / 10 ^ 8)),
    ("nbnd",.num nbnd)] ++
  if subtype = "bands" then [("nkpoints_bands",.num 100)]
  else [("dos_deltae",.num (1 / 100)),("dos_fwhm",.num (5 / 100))]

def relaxTask (material structureText : String) (ecutwfc ecutrho : ℚ) (kpoints : List ℤ) : String × Task :=
  ("T1_" ++ material ++ "_vcrelax",{
    taskId := "T1_" ++ material ++ "_vcrelax", taskType := "T1", material
    description := material ++ " " ++ structureText ++ " structure vc-relax optimization"
    parameters := relaxParameters ecutwfc ecutrho kpoints })

def bandsTask (material structureText : String) (ecutwfc ecutrho : ℚ) (kpoints : List ℤ) (nbnd : ℤ) :
    String × Task :=
  ("T2_" ++ material ++ "_bands",{
    taskId := "T2_" ++ material ++ "_bands", taskType := "T2", material
    description := material ++ " " ++ structureText ++ " structure band structure (SCF + NSCF + bands.x)"
    parameters := bandParameters "bands" ecutwfc ecutrho kpoints nbnd })

def dosTask (material structureText : String) (ecutwfc ecutrho : ℚ) (kpoints : List ℤ) (nbnd : ℤ) :
    String × Task :=
  ("T2_" ++ material ++ "_dos",{
    taskId := "T2_" ++ material ++ "_dos", taskType := "T2", material
    description := material ++ " " ++ structureText ++ " structure DOS (SCF + NSCF + dos.x)"
    parameters := bandParameters "dos" ecutwfc ecutrho kpoints nbnd })

/-- `TASKS` as the module is loaded. -/
def builtinTasks : List (String × Task) := [
  relaxTask "Si" "diamond" 25 200 [4,4,4,1,1,1],
  relaxTask "Al" "FCC" 20 160 [8,8,8,1,1,1],
  relaxTask "MgO" "NaCl" 40 320 [4,4,4,1,1,1],
  bandsTask "Si" "diamond" 25 200 [8,8,8,1,1,1] 16,
  bandsTask "Al" "FCC" 20 160 [12,12,12,1,1,1] 12,
  bandsTask "MgO" "NaCl" 40 320 [8,8,8,1,1,1] 24,
  dosTask "Si" "diamond" 25 200 [8,8,8,1,1,1] 16,
  dosTask "Al" "FCC" 20 160 [12,12,12,1,1,1] 12,
  dosTask "MgO" "NaCl" 40 320 [8,8,8,1,1,1] 24]

/-- The catalogue before anything is registered. -/
def Tables.initial (library : List (String × Material)) : Tables :=
  { materials := builtinMaterials, library, tasks := builtinTasks }

/-- How Python prints a list of strings. -/
def pyList (names : List String) : String :=
  "[" ++ ", ".intercalate (names.map fun n => "'" ++ n ++ "'") ++ "]"

/-- `d[key] = value` on an insertion-ordered dictionary. -/
def assign {α : Type*} (key : String) (value : α) : List (String × α) → List (String × α)
  | [] => [(key,value)]
  | (k, v) :: rest => if k = key then (key,value) :: rest else (k,v) :: assign key value rest

@[simp] theorem lookup_assign_self {α : Type*} (key : String) (value : α) (d : List (String × α)) :
    (assign key value d).lookup key = some value := by
  induction d with
  | nil => simp [assign]
  | cons kv rest ih =>
    obtain ⟨k,v⟩ := kv
    by_cases hk : k = key
    · simp [assign,hk]
    · have hne : (key == k) = false := by simpa using Ne.symm hk
      simp [assign,hk,List.lookup_cons,hne,ih]

theorem lookup_assign_of_ne {α : Type*} {key key' : String} (h : key' ≠ key) (value : α)
    (d : List (String × α)) : (assign key value d).lookup key' = d.lookup key' := by
  have hne : (key' == key) = false := by simpa using h
  induction d with
  | nil => simp [assign,List.lookup_cons,hne]
  | cons kv rest ih =>
    obtain ⟨k,v⟩ := kv
    by_cases hk : k = key
    · subst hk
      simp [assign,List.lookup_cons,hne]
    · simp [assign,hk,List.lookup_cons,ih]

namespace Tables
variable (c : Tables)

/-- `MATERIALS` first, then `LIBRARY_MATERIALS`. -/
def material? (name : String) : Option Material := (c.materials.lookup name).or (c.library.lookup name)

/-- `get_material_profile`. -/
def getMaterialProfile (name : String) : Except String MaterialProfile :=
  match c.material? name with
  | some m => .ok m.profile
  | none =>
    let known := ((c.materials ++ c.library).map (·.1)).dedup.mergeSort
    .error ("Unknown material: " ++ name ++ ". Known: " ++ pyList (known.take 20) ++ " ...")

/-- `get_task_spec`. -/
def getTaskSpec (taskId : String) : Except String TaskSpec :=
  match c.tasks.lookup taskId with
  | none => .error ("Unknown task: " ++ taskId ++ ". Known: " ++ pyList (c.tasks.map (·.1)))
  | some task => do
    let materialProfile ← c.getMaterialProfile task.material
    return {
      taskId := task.taskId, taskType := task.taskType, material := task.material
      description := task.description, materialProfile, parameters := task.parameters }

end Tables

/-- `nbnd` of a made-up task: a number of bands for each atom. -/
def heuristicNbnd (m : Material) : ℤ := if m.isMetal then m.natoms * 8 else m.natoms * 4

/-- The id `build_library_task_spec` gives. -/
def libraryTaskId (material taskType : String) (subtype : Option String) : String :=
  if taskType = "T1" then "T1_" ++ material ++ "_vcrelax"
  else "T2_" ++ material ++ "_" ++ subtype.getD "bands"

/-- What `build_library_task_spec` builds from an entry. -/
def libraryTask (material : String) (m : Material) (taskType : String) (subtype : Option String) :
    Except String Task :=
  let ecutwfc := m.ecutwfcDefault.getD 45
  let ecutrho := m.ecutrhoDefault.getD (ecutwfc * 8)
  let kpoints := m.kpointsDefault.getD [6,6,6,1,1,1]
  if taskType = "T1" then .ok {
    taskId := libraryTaskId material taskType subtype, taskType := "T1", material
    description := material ++ " (" ++ m.structureType ++ ") vc-relax optimization"
    parameters := relaxParameters ecutwfc ecutrho kpoints }
  else if taskType = "T2" then .ok {
    taskId := libraryTaskId material taskType subtype, taskType := "T2", material
    description := material ++ " " ++ subtype.getD "bands" ++ " (SCF + NSCF)"
    parameters := bandParameters (subtype.getD "bands") ecutwfc ecutrho kpoints (heuristicNbnd m) }
  else .error ("Unsupported task_type: " ++ taskType)

/-- `build_library_task_spec`. -/
def Tables.buildLibraryTaskSpec (c : Tables) (material taskType : String) (subtype : Option String) :
    Except String Task :=
  match c.material? material with
  | none => .error ("Unknown material: " ++ material)
  | some m => libraryTask material m taskType subtype

theorem libraryTask_spec {material taskType : String} {m : Material} {subtype : Option String} {task : Task}
    (h : libraryTask material m taskType subtype = .ok task) :
    task.taskId = libraryTaskId material taskType subtype ∧ task.taskType = taskType ∧
      task.material = material := by
  unfold libraryTask at h
  dsimp only at h
  split_ifs at h with h1 h2
  · cases h
    exact ⟨rfl,h1.symm,rfl⟩
  · cases h
    exact ⟨rfl,h2.symm,rfl⟩

theorem libraryTask_ok (material : String) (m : Material) (subtype : Option String) {taskType : String}
    (h : taskType = "T1" ∨ taskType = "T2") : ∃ task, libraryTask material m taskType subtype = .ok task := by
  rcases h with rfl | rfl
  · exact ⟨_,rfl⟩
  · exact ⟨_,rfl⟩

/-- A task whose material has an entry has a specification. -/
theorem Tables.getTaskSpec_of_lookup {c : Tables} {taskId : String} {task : Task} {m : Material}
    (htask : c.tasks.lookup taskId = some task) (hm : c.material? task.material = some m) :
    ∃ spec, c.getTaskSpec taskId = .ok spec ∧ spec.material = task.material ∧ spec.taskType = task.taskType := by
  have hprofile : c.getMaterialProfile task.material = .ok m.profile := by
    simp [Tables.getMaterialProfile,hm]
  have hspec : c.getTaskSpec taskId = .ok ⟨task.taskId,task.taskType,task.material,task.description,m.profile,
      task.parameters⟩ := by
    simp only [Tables.getTaskSpec,htask,hprofile]
    rfl
  exact ⟨_,hspec,rfl,rfl⟩

end DftForge.Catalog
