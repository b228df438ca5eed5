import DftForge.Agent.ToolStep

/-! # The step loop of a session

The part of `run_session` that hands structures from step to step: `prepare_step_args`
gives the builders their output paths and `graph.run` its structure, and
`handle_tool_result` notes what was built. The tools, the file system and the guard
against self-doping are open.
-/
namespace DftForge.Agent
open DftForge.Runtime DftForge.Python DftForge.Engines DftForge.Tools

inductive Builder where
  | generate
  | build2d
  | dope
  | molecule
  | reference
  deriving DecidableEq, Repr

inductive Tool where
  | importStructure
  | build (b : Builder)
  | graphRun
  | other (id : String)
  deriving DecidableEq, Repr

def Builder.id : Builder → String
  | .generate => "structure.generate"
  | .build2d => "structure.build2d"
  | .dope => "structure.dope"
  | .molecule => "structure.molecule"
  | .reference => "structure.reference"

def Tool.id : Tool → String
  | .importStructure => "structure.import"
  | .build b => b.id
  | .graphRun => "graph.run"
  | .other id => id

/-- A planned step; `none` for a missing tool. -/
structure Step where
  tool : Option Tool
  args : Dict

/-- What stays the same during a run of the loop. -/
structure Shell where
  sessionDir : String
  /-- `str(value)` of a value that is not a text. -/
  str : Json → String
  /-- `dict(value)` of a value that is not a dictionary, `none` if that raises. -/
  dict : Json → Option Dict
  /-- `ctx["run_config"]`. -/
  runConfig : Dict

inductive Guard where
  | passes
  | rejects
  | raises
  deriving DecidableEq, Repr

/-- The world at a step: what `check_self_doping` says, the files, and the tool call. -/
structure StepEnv where
  guard : Guard
  isFile : Json → Bool
  /-- `len(ase.io.read(path))`. -/
  atomCount : Json → Option ℕ
  call : Dict → StepResult

/-- `ctx["last_structure_source"]` and `RunState.built_structure`; `null` is `None`. -/
structure RunState where
  lastStructureSource : Json
  builtStructure : Json

/-- `d.get(key)` is true. -/
def truthyAt (d : Dict) (key : String) : Bool := ((d.get? key).map truthy).getD false

theorem truthyAt_congr {d d' : Dict} {key : String} (h : d'.get? key = d.get? key) :
    truthyAt d' key = truthyAt d key := by
  rw [truthyAt, truthyAt, h]

/-- `d.pop(key, None)`. -/
def pop (d : Dict) (key : String) : Dict := d.filter (·.1 ≠ key)

theorem pop_get?_of_ne {key key' : String} (h : key' ≠ key) (d : Dict) :
    (pop d key).get? key' = d.get? key' := by
  induction d with
  | nil => rfl
  | cons kv rest ih =>
    obtain ⟨k,v⟩ := kv
    have hpop : pop ((k,v) :: rest) key = if k ≠ key then (k,v) :: pop rest key else pop rest key := by
      simp [pop,List.filter_cons]
    rw [hpop]
    split_ifs with hk
    · simp only [Dict.get?,List.lookup_cons]
      split
      · rfl
      · exact ih
    · have hne : (key' == k) = false := by
        simp only [ne_eq,not_not] at hk
        simpa [hk] using h
      rw [ih]
      simp [Dict.get?,List.lookup_cons,hne]

theorem pop_get?_self (d : Dict) (key : String) : (pop d key).get? key = none := by
  rw [Dict.get?, List.lookup_eq_none_iff]
  intro kv hkv
  have hne := of_decide_eq_true (List.mem_filter.mp hkv).2
  exact bne_iff_ne.mpr (Ne.symm hne)

theorem pop_pop_self (d : Dict) (key : String) : pop (pop d key) key = pop d key := by
  rw [pop, pop, List.filter_filter]
  simp

theorem foldl_pop (keys : List String) (d : Dict) : keys.foldl pop d = d.filter fun kv => kv.1 ∉ keys := by
  induction keys generalizing d with
  | nil => simp
  | cons key keys ih =>
    rw [List.foldl_cons, ih, pop, List.filter_filter]
    refine List.filter_congr fun kv _ => ?_
    simp [Bool.and_comm]

namespace Shell
variable (sh : Shell)

/-- `str(value)`. -/
def text : Json → String
  | .str s => s
  | v => sh.str v

/-- `str(d.get(key, default))`. -/
def textAt (d : Dict) (key default : String) : String := ((d.get? key).map sh.text).getD default

/-- `str(session_dir / name)`. -/
def path (name : Text) : Json := .str (sh.sessionDir ++ "/" ++ String.ofList name)

/-- `value or {}` as a dictionary. -/
def dictAt (d : Dict) (key : String) : Option Dict :=
  match d.get? key with
  | some (.obj fields) => some fields
  | some v => if truthy v then sh.dict v else some []
  | none => some []

end Shell

section Names
variable (sh : Shell) (args : Dict)

/-- `text.replace(c, "_")`. -/
def underscored (c : Char) (text : String) : Text := text.toList.map fun d => if d = c then '_' else d

/-- `(args.get("adsorb") or {}).get("site", "")`, which raises unless it is a dictionary. -/
def adsorbSite : Option String :=
  match args.get? "adsorb" with
  | some (.obj fields) => some (sh.textAt fields "site" "")
  | some v => if truthy v then none else some ""
  | none => some ""

def build2dName (site : String) : Text :=
  let site := underscored '/' site
  underscored '/' (sh.textAt args "kind" "2d") ++ ['_'] ++
    underscored 'x' (sh.textAt args "supercell" "1x1") ++
    (if site = [] then [] else '_' :: site) ++ ".cif".toList

def dopeName : Text :=
  let src := ((sh.textAt args "source" "mat").toList.map fun c => if c.isAlphanum then c else '_').take 20
  let el := ((sh.textAt args "element" "X").toList.filter Char.isAlphanum).take 3
  "doped_".toList ++ src ++ ['_'] ++ el ++ ".cif".toList

def moleculeName : Text :=
  "molecule_".toList ++ ((sh.textAt args "kind" "mol").toList.filter fun c => c.isLower || c.isDigit) ++
    ".cif".toList

def referenceName : Text :=
  "ref_".toList ++ (sh.textAt args "element" "X").toList.filter Char.isAlpha ++ ".cif".toList

/-- `args["output"]` of a builder; `none` if the preparation raises. -/
def outputPath : Builder → Option Json
  | .generate => some (sh.path "generated.cif".toList)
  | .build2d => (adsorbSite sh args).map fun site => sh.path (build2dName sh args site)
  | .dope => some (sh.path (dopeName sh args))
  | .molecule => match args.get? "output" with
    | some v => if truthy v then some v else some (sh.path (moleculeName sh args))
    | none => some (sh.path (moleculeName sh args))
  | .reference => match args.get? "output" with
    | some v => if truthy v then some v else some (sh.path (referenceName sh args))
    | none => some (sh.path (referenceName sh args))

end Names

inductive Prepared where
  | ready (args : Dict)
  | aborted
  | raised

section Prepare
variable (sh : Shell) (env : StepEnv) (s : RunState)

/-- `effective_structure`. -/
def effectiveStructure : Json :=
  if truthy s.builtStructure then s.builtStructure
  else if truthy s.lastStructureSource && env.isFile s.lastStructureSource then s.lastStructureSource
  else .null

/-- The density of the band path for a structure of many atoms. -/
def scaledPath (args inputs : Dict) (structure_ : Json) : Dict :=
  if !truthyAt inputs "nkpoints_bands" && sh.textAt args "template_id" "None" = "t2_bands" then
    match env.atomCount structure_ with
    | some n => if 4 < n then inputs.set "nkpoints_bands" (.num (if n ≤ 12 then 60 else 40)) else inputs
    | none => inputs
  else inputs

def approvedKeys (templateId : String) : List String :=
  if templateId = "t0_scf" then ["ecutwfc","kpoints"]
  else if templateId = "t1_vc_relax" then ["ecutwfc","kpoints"]
  else if templateId = "t2_bands" then ["ecutwfc","kpoints","nbnd","nkpoints_bands"]
  else if templateId = "t2_dos" then ["ecutwfc","kpoints","nbnd"]
  else []

/-- The values of the method card that the template declares. -/
def approved (args inputs : Dict) : Dict :=
  let templateId := if truthyAt args "template_id" then sh.textAt args "template_id" "" else ""
  (approvedKeys templateId).foldl (fun inputs key =>
    match sh.runConfig.get? key with
    | some .null => inputs
    | some (.str "") => inputs
    | some v => inputs.set key v
    | none => inputs) inputs

/-- The branch of `graph.run`. -/
def prepareGraphRun (args : Dict) : Prepared :=
  match sh.dictAt args "inputs" with
  | none => .raised
  | some inputs =>
    let effective := effectiveStructure env s
    if truthy effective && !truthyAt inputs "structure" then
      let inputs := scaledPath sh env args (pop (inputs.set "structure" effective) "material") effective
      .ready (args.set "inputs" (.obj (approved sh args inputs)))
    else if !truthy effective && !truthyAt inputs "material" && !truthyAt inputs "structure" then .aborted
    else .ready (args.set "inputs" (.obj (approved sh args inputs)))

/-- `prepare_step_args`, without the branches that prepare no structure. -/
def prepareStepArgs (tool : Tool) (args : Dict) : Prepared :=
  match tool with
  | .importStructure => .ready (args.set "output" (sh.path "structure.json".toList))
  | .build b => match outputPath sh args b with
    | some output => .ready (args.set "output" output)
    | none => .raised
  | .graphRun => prepareGraphRun sh env s (args.set "workdir" (sh.path "graphs".toList))
  | .other _ => .ready args

end Prepare

/-- `handle_tool_result` on the two structure variables. -/
def RunState.handleToolResult (s : RunState) (tool : Tool) (data args : Dict) : RunState :=
  match tool with
  | .importStructure =>
    if truthyAt data "ok" && truthyAt data "success" then
      { s with lastStructureSource := if truthyAt data "source" then (data.get? "source").getD .null
          else (args.get? "source").getD .null }
    else s
  | .build _ =>
    if truthyAt data "output" then
      { lastStructureSource := (data.get? "output").getD .null
        builtStructure := (data.get? "output").getD .null }
    else s
  | .graphRun => s
  | .other _ => s

/-- How a step ended. -/
inductive StepOutcome where
  | noTool
  | help
  | rejected
  | aborted
  | called (args : Dict) (result : StepResult)

/-- What `handle_tool_result` leaves behind. -/
def RunState.record (s : RunState) (tool : Option Tool) : StepOutcome → RunState
  | .called args result =>
    match tool, result.handled with
    | some tool, some (_, .obj data) => s.handleToolResult tool data args
    | _, _ => s
  | _ => s

section Loop
variable (sh : Shell)

/-- `check_self_doping` looks at two of the builders. -/
def guardOf (env : StepEnv) : Tool → Guard
  | .build .build2d => env.guard
  | .build .dope => env.guard
  | _ => .passes

/-- One round of the loop; `none` if an exception leaves it. -/
def runStep (s : RunState) (step : Step) (env : StepEnv) : Option StepOutcome :=
  match step.tool with
  | none => some .noTool
  | some tool =>
    if tool = .other "help" then some .help
    else match guardOf env tool with
      | .raises => none
      | .rejects => some .rejected
      | .passes =>
        match prepareStepArgs sh env s tool step.args with
        | .raised => none
        | .aborted => some .aborted
        | .ready args => some (.called args (env.call args))

/-- A step of a plan as it was met. -/
structure Visit where
  step : Step
  env : StepEnv
  state : RunState
  outcome : StepOutcome

/-- The state after a visit. -/
def Visit.next (s : RunState) (v : Visit) : RunState := s.record v.step.tool v.outcome

/-- The visits of a plan from a state, as far as no exception ends it. -/
def visits (s : RunState) : List (Step × StepEnv) → List Visit
  | [] => []
  | (step, env) :: rest =>
    match runStep sh s step env with
    | none => []
    | some outcome => ⟨step,env,s,outcome⟩ :: visits (s.record step.tool outcome) rest

end Loop
end DftForge.Agent
