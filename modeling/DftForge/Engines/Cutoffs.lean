import DftForge.Catalog.Materials
import DftForge.Engines.Repair

/-! # Cutoffs of chained pw.x nodes

The scf and nscf nodes of the T2 templates, the cutoffs their inputs are compiled
with, and how far repairs can move these from what the inputs of the run say.
-/
namespace DftForge.Engines
open DftForge.Runtime DftForge.Catalog

section Templates

def scfSpec : NodeSpec where
  id := "scf"
  tool := "qe"
  params := [("calc",.str "scf"),("material",.str "$\x7binputs.material\x7d"),
    ("ecutwfc",.str "$\x7binputs.ecutwfc\x7d"),("kpoints",.str "$\x7binputs.kpoints\x7d"),
    ("structure",.str "$\x7binputs.structure\x7d")]

/-- `nscf` of `t2_bands`. -/
def nscfPathSpec : NodeSpec where
  id := "nscf"
  tool := "qe"
  params := [("calc",.str "nscf"),("material",.str "$\x7binputs.material\x7d"),
    ("ecutwfc",.str "$\x7binputs.ecutwfc\x7d"),("nbnd",.str "$\x7binputs.nbnd\x7d"),
    ("nkpoints_bands",.str "$\x7binputs.nkpoints_bands\x7d"),("structure",.str "$\x7binputs.structure\x7d")]
  dependsOn := ["scf"]

/-- `nscf` of `t2_dos`. -/
def nscfMeshSpec : NodeSpec where
  id := "nscf"
  tool := "qe"
  params := [("calc",.str "nscf"),("material",.str "$\x7binputs.material\x7d"),
    ("ecutwfc",.str "$\x7binputs.ecutwfc\x7d"),("nbnd",.str "$\x7binputs.nbnd\x7d"),
    ("structure",.str "$\x7binputs.structure\x7d"),("kmode",.str "uniform")]
  dependsOn := ["scf"]

def bandsSpec : NodeSpec where
  id := "bands"
  tool := "qe"
  params := [("calc",.str "bands"),("material",.str "$\x7binputs.material\x7d"),
    ("nkpoints_bands",.str "$\x7binputs.nkpoints_bands\x7d"),
    ("scf_stdout",.str "$\x7bnodes.scf.outputs.stdout_file\x7d"),
    ("nscf_stdout",.str "$\x7bnodes.nscf.outputs.stdout_file\x7d"),
    ("structure",.str "$\x7binputs.structure\x7d")]
  dependsOn := ["scf","nscf"]
  maxRepairAttempts := 1

def dosSpec : NodeSpec where
  id := "dos"
  tool := "qe"
  params := [("calc",.str "dos"),("material",.str "$\x7binputs.material\x7d"),
    ("scf_stdout",.str "$\x7bnodes.scf.outputs.stdout_file\x7d"),
    ("nscf_stdout",.str "$\x7bnodes.nscf.outputs.stdout_file\x7d"),
    ("structure",.str "$\x7binputs.structure\x7d")]
  dependsOn := ["scf","nscf"]
  maxRepairAttempts := 1

def pdosSpec : NodeSpec where
  id := "pdos"
  tool := "qe"
  params := [("calc",.str "pdos"),("material",.str "$\x7binputs.material\x7d"),
    ("structure",.str "$\x7binputs.structure\x7d")]
  dependsOn := ["nscf"]
  maxRepairAttempts := 1

def t2Bands : GraphTemplate where
  templateId := "t2_bands"
  description := "Band structure: scf -> nscf -> bands.x with cross-node verification"
  inputs := [("material",.str "Si"),("ecutwfc",.null),("kpoints",.null),("nbnd",.null),
    ("nkpoints_bands",.num 100),("structure",.null)]
  outputs := [("scf_energy_ry",.str "$\x7bnodes.scf.outputs.energy_ry\x7d"),
    ("n_bands",.str "$\x7bnodes.bands.outputs.n_bands\x7d"),
    ("band_gap_ev",.str "$\x7bnodes.bands.outputs.band_gap_ev\x7d")]
  nodes := [scfSpec,nscfPathSpec,bandsSpec]

def t2Dos : GraphTemplate where
  templateId := "t2_dos"
  description := "Density of states: scf -> nscf -> dos.x"
  inputs := [("material",.str "Si"),("ecutwfc",.null),("kpoints",.null),("nbnd",.null),("structure",.null)]
  outputs := [("scf_energy_ry",.str "$\x7bnodes.scf.outputs.energy_ry\x7d"),
    ("dos_at_fermi",.str "$\x7bnodes.dos.outputs.dos_at_fermi\x7d")]
  nodes := [scfSpec,nscfMeshSpec,dosSpec,pdosSpec]

/-- The nodes that run pw.x. -/
def pwIds : List NodeId := ["scf","nscf"]

end Templates

section Compile

/-- What `execute` and `_resolve` make of the material and structure parameters, with
the structure files as they are; nothing where they raise. -/
abbrev Resolve := Json → Json → Option Material

/-- `params.get(key)`, or the default of the entry where it is `None`. -/
def cutoffOr (params : Dict) (key : String) (default : Option ℚ) : Option Json :=
  match params.get? key with
  | none => default.map .num
  | some .null => default.map .num
  | some v => some v

/-- The `ecutwfc` and `ecutrho` that `compile_scf` writes for these parameters. -/
def compiledCutoffs (resolve : Resolve) (params : Dict) : Option (Json × Json) := do
  let m ← resolve ((params.get? "material").getD (.str "")) ((params.get? "structure").getD .null)
  let wfc ← cutoffOr params "ecutwfc" m.ecutwfcDefault
  let rho ← cutoffOr params "ecutrho" m.ecutrhoDefault
  return (wfc,rho)

variable {resolve : Resolve} {params params' : Dict}

theorem cutoffOr_congr {key : String} (h : params.get? key = params'.get? key) (default : Option ℚ) :
    cutoffOr params key default = cutoffOr params' key default := by
  unfold cutoffOr
  rw [h]

theorem cutoffOr_num {key : String} {x : ℚ} (h : params.get? key = some (.num x)) (default : Option ℚ) :
    cutoffOr params key default = some (.num x) := by
  unfold cutoffOr
  rw [h]

end Compile

section Repairs
open QEParamRepairer
variable (nums : Numerals)

/-- The cutoff that the repairer starts from when a node carries this one. -/
def startingCutoff (x : ℚ) : ℚ := if x = 0 then 45 else x

/-- The cutoffs that repairs can set in a run with these inputs. -/
inductive BumpedCutoff (inputs : Dict) : ℚ → Prop
  | first {b : ℚ} : toFloat nums (getOr inputs "ecutwfc" 45) = .ok b → ¬ maxEcut ≤ b →
      BumpedCutoff inputs (min (b + cutoffBumpStep) maxEcut)
  | next {x : ℚ} : BumpedCutoff inputs x → ¬ maxEcut ≤ startingCutoff x →
      BumpedCutoff inputs (min (startingCutoff x + cutoffBumpStep) maxEcut)

/-- The parameters carry the mark of a cutoff repair. -/
def CutoffRepaired (params : Dict) : Prop := params.get? "ecutrho" ≠ none

/-- No repair has touched the cutoffs that the inputs gave. -/
structure FromInputs (inputs params : Dict) : Prop where
  wfc : params.get? "ecutwfc" = inputs.get? "ecutwfc"
  rho : params.get? "ecutrho" = none

/-- The parameters of a pw.x node in a run with these inputs, whatever repairs it had. -/
structure PwParams (inputs params : Dict) : Prop where
  source : ∀ key ∈ ["material","structure"], params.get? key = inputs.get? key
  cutoffs : FromInputs inputs params ∨ ∃ x, BumpedCutoff nums inputs x ∧
    params.get? "ecutwfc" = some (.num x) ∧ params.get? "ecutrho" = some (.num (x * 8))

variable {nums} {inputs params : Dict}

theorem PwParams.fromInputs (h : PwParams nums inputs params) (hr : ¬ CutoffRepaired params) :
    FromInputs inputs params := by
  rcases h.cutoffs with hf | ⟨x,_,_,hrho⟩
  · exact hf
  · exact absurd (by rw [CutoffRepaired, hrho]; exact Option.some_ne_none _) hr

theorem PwParams.bumped (h : PwParams nums inputs params) (hr : CutoffRepaired params) :
    ∃ x, BumpedCutoff nums inputs x ∧ params.get? "ecutwfc" = some (.num x) ∧
      params.get? "ecutrho" = some (.num (x * 8)) := by
  rcases h.cutoffs with hf | hx
  · exact absurd hf.rho hr
  · exact hx

theorem getOr_congr {params params' : Dict} {key : String} (h : params.get? key = params'.get? key)
    (default : ℚ) : getOr params key default = getOr params' key default := by
  unfold getOr
  rw [h]

theorem getOr_num {key : String} {x : ℚ} (h : params.get? key = some (.num x)) :
    getOr params key 45 = .num (startingCutoff x) := by
  unfold getOr startingCutoff
  rw [h]
  by_cases hx : x = 0 <;> simp [truthy, hx]

/-- A repair leaves every parameter alone that is none of the five it may set. -/
theorem repair_get? (node : NodeRun) (error : ToolError) {key : String}
    (h : key ∉ ["nbnd","nkpoints_bands","kpoints","ecutwfc","ecutrho"]) :
    (repair nums node error).params.get? key = node.params.get? key := by
  simp only [List.mem_cons, List.not_mem_nil, or_false, not_or] at h
  obtain ⟨hbands,hpath,hmesh,hwfc,hrho⟩ := h
  unfold repair
  cases branch error with
  | declined => rfl
  | bands => exact repairBands_get? node hbands
  | timeout => exact repairTimeout_get? node hpath hmesh
  | cutoff =>
    unfold repairCutoff
    cases toFloat nums (getOr node.params "ecutwfc" 45) with
    | error crash => rfl
    | ok current =>
      dsimp only
      split
      · rfl
      · change Dict.get? ((node.params.set "ecutwfc" _).set "ecutrho" _) key = _
        rw [Dict.get?_set_of_ne hrho, Dict.get?_set_of_ne hwfc]

/-- The cutoff branch stops, or sets both cutoffs. -/
theorem repairCutoff_params (node : NodeRun) :
    (repairCutoff nums node).params = node.params ∨
    ∃ current, toFloat nums (getOr node.params "ecutwfc" 45) = .ok current ∧ ¬ maxEcut ≤ current ∧
      (repairCutoff nums node).params =
        (node.params.set "ecutwfc" (.num (min (current + cutoffBumpStep) maxEcut))).set "ecutrho"
          (.num (min (current + cutoffBumpStep) maxEcut * 8)) := by
  unfold repairCutoff
  cases htext : toFloat nums (getOr node.params "ecutwfc" 45) with
  | error crash => exact Or.inl rfl
  | ok current =>
    dsimp only
    split
    · exact Or.inl rfl
    · next hbelow => exact Or.inr ⟨current,rfl,hbelow,rfl⟩

/-- Every repair keeps the parameters of a pw.x node within the reach of its inputs. -/
theorem PwParams.repair {node : NodeRun} (h : PwParams nums inputs node.params) (error : ToolError) :
    PwParams nums inputs (repair nums node error).params := by
  refine ⟨fun key hkey => ?_,?_⟩
  · have hother : key ∉ ["nbnd","nkpoints_bands","kpoints","ecutwfc","ecutrho"] := by
      revert key
      decide
    rw [repair_get? node error hother]
    exact h.source key hkey
  · by_cases hbranch : branch error = .cutoff
    · have hcut : QEParamRepairer.repair nums node error = repairCutoff nums node := by
        unfold QEParamRepairer.repair
        rw [hbranch]
      rw [hcut]
      rcases @repairCutoff_params nums node with hkeep | ⟨current,hcurrent,hbelow,hset⟩
      · rw [hkeep]
        exact h.cutoffs
      · right
        rw [hset]
        refine ⟨_,?_,by rw [Dict.get?_set_of_ne (by decide), Dict.get?_set_self],Dict.get?_set_self _ _ _⟩
        rcases h.cutoffs with hf | ⟨x,hx,hwfc,_⟩
        · rw [getOr_congr hf.wfc] at hcurrent
          exact .first hcurrent hbelow
        · rw [getOr_num hwfc] at hcurrent
          obtain rfl := Except.ok.inj hcurrent
          exact .next hx hbelow
    · have hkeep : ∀ key, key = "ecutwfc" ∨ key = "ecutrho" →
          (QEParamRepairer.repair nums node error).params.get? key = node.params.get? key :=
        fun _ hkey => repair_keeps_cutoffs hbranch hkey
      rcases h.cutoffs with hf | ⟨x,hx,hwfc,hrho⟩
      · exact Or.inl ⟨(hkeep _ (Or.inl rfl)).trans hf.wfc,(hkeep _ (Or.inr rfl)).trans hf.rho⟩
      · exact Or.inr ⟨x,hx,(hkeep _ (Or.inl rfl)).trans hwfc,(hkeep _ (Or.inr rfl)).trans hrho⟩

end Repairs
end DftForge.Engines
