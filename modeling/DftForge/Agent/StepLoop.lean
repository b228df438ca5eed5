import DftForge.Agent.StepPrep

/-! # The step loop

The loop of `run_session` with its five exits: each of them appends to `commands`,
`results` and `chain`. The energies and the ledger that a finished graph run leaves
behind are part of the state.
-/
namespace DftForge.Agent
open DftForge.Runtime DftForge.Python DftForge.Engines DftForge.Tools DftForge.Qe

/-- A planned step as it comes from a planner. -/
structure PlanStep where
  toolId : Option String
  args : Dict
  description : String := ""

/-- The tool id, where an empty text is none. -/
def PlanStep.tool (step : PlanStep) : Option String := step.toolId.filter (· ≠ "")

structure Command where
  command : String
  description : String
  args : Option Dict := none

structure ResultEntry where
  toolId : Option String
  returncode : ℤ
  json : Option Json
  error : Option String

structure ChainEntry where
  tool : Option String
  description : String
  status : StepStatus

structure Log where
  commands : List Command := []
  results : List ResultEntry := []
  chain : List ChainEntry := []

/-- How a step left the loop body. -/
inductive Exit where
  | noTool
  | help
  | rejected
  | aborted
  | called (args : Dict) (result : StepResult)

section GraphRun
variable (factsRaise : Dict → Bool)

def equalsText (v : Option Json) (text : String) : Bool :=
  match v with
  | some (.str s) => s = text
  | _ => false

/-- `value or {}` where only a dictionary can be used. -/
def fieldsOf (v : Option Json) : Option Dict :=
  match v with
  | some (.obj fields) => some fields
  | some v => if truthy v then none else some []
  | none => some []

/-- The outputs of a node that succeeded; an odd shape raises. -/
def succeededOutputs : Json → Option (Option Dict)
  | .obj info =>
    if equalsText (Dict.get? info "state") "succeeded" then
      (fieldsOf (Dict.get? info "outputs")).map some else some none
  | _ => none

/-- `_bands_out`. -/
def bandsOut (nodes : Dict) : Option Dict :=
  match nodes.get? "bands" with
  | none => some []
  | some v => (succeededOutputs v).map (·.getD [])

/-- `_scf_out`: the outputs of the first SCF or relaxation node that has an energy. -/
def scfOut : Dict → Option Dict
  | [] => some []
  | (nid, v) :: rest =>
    if nid = "scf" || nid = "vc_relax" then
      match succeededOutputs v with
      | none => none
      | some none => scfOut rest
      | some (some outs) => if isNone outs "energy_ry" then scfOut rest else some outs
    else scfOut rest

/-- The ledger entry of a run that succeeded. -/
def ledgerEntry (args data nodes : Dict) (description : String) : Option Json := do
  let bands ← bandsOut nodes
  let scf ← scfOut nodes
  let inputs ← fieldsOf (args.get? "inputs")
  return .obj [
    ("label",pyOr (pyOr (.str description) (field args "template_id")) (.str "计算")),
    ("template",field args "template_id"),("material",field inputs "material"),
    ("run_id",field data "run_id"),("band_gap_ev",field bands "band_gap_ev"),
    ("is_metal",field bands "is_metal"),("fermi_ev",field bands "fermi_ev"),
    ("energy_ry",field scf "energy_ry"),
    ("natoms",pyOr (field scf "natoms") (field bands "natoms"))]

/-- The energy of one node. -/
def nodeEnergy (step : ℕ) (description nid : String) (info outs : Dict) : List Energy :=
  if equalsText (Dict.get? info "state") "succeeded" && !isNone outs "energy_ry" then
    [{ energyRy := field outs "energy_ry", natoms := field outs "natoms"
       label := description ++ ":" ++ nid, step }]
  else []

/-- The energies of the nodes, as far as none of them raises. -/
def nodeEnergies (step : ℕ) (description : String) : Dict → List Energy
  | [] => []
  | (nid, .obj info) :: rest =>
    match fieldsOf (Dict.get? info "outputs") with
    | none => []
    | some outs =>
      if factsRaise outs then nodeEnergy step description nid info outs
      else nodeEnergy step description nid info outs ++ nodeEnergies step description rest
  | _ :: _ => []

/-- The ledger entry and the energies that `_handle_graph_run` adds. -/
def graphRunAdds (step : ℕ) (description : String) (args data : Dict) : Option Json × List Energy :=
  if truthyAt data "run_id" then
    match fieldsOf (data.get? "nodes") with
    | none => (none,[])
    | some nodes =>
      if equalsText (data.get? "state") "succeeded" then
        match ledgerEntry args data nodes description with
        | none => (none,[])
        | some entry => (some entry,nodeEnergies factsRaise step description nodes)
      else (none,nodeEnergies factsRaise step description nodes)
  else (none,[])

end GraphRun

section Loop
variable (h : Host)

/-- `handle_tool_result` on the state. -/
def SessionState.handle (s : SessionState) (index : ℕ) (toolId description : String) (args data : Dict) :
    SessionState :=
  let s := { s with toRunState := s.toRunState.handleToolResult (toolOf toolId) data args }
  if toolId = "graph.run" then
    let adds := graphRunAdds h.factsRaise index description args data
    { s with scfEnergies := s.scfEnergies ++ adds.2
             ledger := match adds.1 with
               | some entry => (s.ledger ++ [entry]).drop (s.ledger.length + 1 - 20)
               | none => s.ledger }
  else if toolId = "result.parse" then { s with lastResultType := field args "type" }
  else s

/-- The exception of `handle_tool_result`, where a comparison is written by `compare_block`. -/
def handlerOf (w : World) (toolId : String) (args : Dict) (data : Json) : Option String :=
  match data with
  | .obj fields =>
    if toolId = "analysis.compare" && truthyAt fields "ok" then
      match h.compareBlock fields with
      | .ok _ => none
      | .error message => some message
    else w.handle args data
  | data => w.handle args data

/-- The `try` block of a step. -/
def World.result (w : World) (toolId : String) (args : Dict) : StepResult :=
  stepResult h.json toolId (w.call args) (endsInJson (h.textAt args "output" "")) (w.file args)
    (handlerOf h w toolId args)

/-- One round of the loop; `none` if an exception leaves it. -/
def execStep (w : World) (s : SessionState) (step : PlanStep) : Option Exit :=
  match step.tool with
  | none => some .noTool
  | some toolId =>
    if toolId = "help" then some .help
    else match checkSelfDoping h step.args toolId with
      | .raises => none
      | .rejects => some .rejected
      | .passes =>
        match prepareStep h w s step.args toolId with
        | .raised => none
        | .aborted => some .aborted
        | .ready args => some (.called args (w.result h toolId args))

/-- What an exit appends. -/
def Log.record (log : Log) (step : PlanStep) : Exit → Log
  | .noTool => {
      commands := log.commands ++ [⟨"noop",step.description,none⟩]
      results := log.results ++ [⟨none,-1,none,some "No matching tool"⟩]
      chain := log.chain ++ [⟨none,step.description,.error⟩] }
  | .help => {
      commands := log.commands ++ [⟨"help",step.description,some step.args⟩]
      results := log.results ++ [⟨some "help",0,none,none⟩]
      chain := log.chain ++ [⟨some "help",step.description,.done⟩] }
  | .rejected => {
      commands := log.commands ++ [⟨"noop",step.description,none⟩]
      results := log.results ++ [⟨step.tool,-1,none,some "self-doping rejected (dopant == host element)"⟩]
      chain := log.chain ++ [⟨step.tool,step.description,.error⟩] }
  | .aborted => {
      commands := log.commands ++ [⟨"noop",step.description,none⟩]
      results := log.results ++ [⟨step.tool,-1,none,
        some "no structure to chain (previous build step failed) and no material given"⟩]
      chain := log.chain ++ [⟨step.tool,step.description,.error⟩] }
  | .called args result => {
      commands := log.commands ++ [⟨step.tool.getD "",step.description,some args⟩]
      results := log.results ++ [⟨step.tool,result.returncode,result.json.map (·.2),result.error⟩]
      chain := log.chain ++ [⟨step.tool,step.description,result.status (step.tool.getD "")⟩] }

/-- The state after an exit. -/
def SessionState.after (s : SessionState) (index : ℕ) (step : PlanStep) : Exit → SessionState
  | .called args result =>
    match result.handled with
    | some (_, .obj data) => s.handle h index (step.tool.getD "") step.description args data
    | _ => s
  | _ => s

/-- The loop. -/
def runLoop (index : ℕ) (s : SessionState) (log : Log) : List (PlanStep × World) → Option Log
  | [] => some log
  | (step, w) :: rest =>
    match execStep h w s step with
    | none => none
    | some exit => runLoop (index + 1) (s.after h index step exit) (log.record step exit) rest

/-- `compare_block` raises on the json of a comparison. -/
def compareFails (command : String) (json : Option Json) : Bool :=
  match json with
  | some (.obj fields) => command = "analysis.compare" && truthyAt fields "ok" &&
      match h.compareBlock fields with
      | .ok _ => false
      | .error _ => true
  | _ => false

/-- `run_session` from its first step on; `none` if an exception leaves it. After the loop
`compare_block` is called once more for each comparison that has a result. -/
def runSession (s : SessionState) (steps : List (PlanStep × World)) : Option Log :=
  (runLoop h 0 s {} steps).bind fun log =>
    if (log.commands.zip log.results).any fun (c, r) => compareFails h c.command r.json then none else some log

/-- A step as the loop meets it. -/
structure Met where
  index : ℕ
  state : SessionState
  step : PlanStep
  world : World

/-- The steps that the loop meets, the one that ends it included. -/
def met (index : ℕ) (s : SessionState) : List (PlanStep × World) → List Met
  | [] => []
  | (step, w) :: rest => ⟨index,s,step,w⟩ ::
    match execStep h w s step with
    | none => []
    | some exit => met (index + 1) (s.after h index step exit) rest

variable {h}

theorem execStep_spec {w : World} {s : SessionState} {step : PlanStep} {exit : Exit}
    (hexit : execStep h w s step = some exit) :
    (step.tool = none ∧ exit = .noTool) ∨ (step.tool = some "help" ∧ exit = .help) ∨
      ∃ toolId, step.tool = some toolId ∧ toolId ≠ "help" ∧
        ((checkSelfDoping h step.args toolId = .rejects ∧ exit = .rejected) ∨
          (checkSelfDoping h step.args toolId = .passes ∧
            ((prepareStep h w s step.args toolId = .aborted ∧ exit = .aborted) ∨
              ∃ args, prepareStep h w s step.args toolId = .ready args ∧
                exit = .called args (w.result h toolId args)))) := by
  unfold execStep at hexit
  cases htool : step.tool with
  | none =>
    rw [htool] at hexit
    exact Or.inl ⟨rfl,(Option.some.inj hexit).symm⟩
  | some toolId =>
    rw [htool] at hexit
    by_cases hhelp : toolId = "help"
    · refine Or.inr (Or.inl ⟨by rw [hhelp],?_⟩)
      dsimp only at hexit
      rw [if_pos hhelp] at hexit
      exact (Option.some.inj hexit).symm
    · refine Or.inr (Or.inr ⟨toolId,rfl,hhelp,?_⟩)
      dsimp only at hexit
      rw [if_neg hhelp] at hexit
      split at hexit
      · cases hexit
      · next hguard => exact Or.inl ⟨hguard,(Option.some.inj hexit).symm⟩
      · next hguard =>
        refine Or.inr ⟨hguard,?_⟩
        split at hexit
        · cases hexit
        · next hprepared => exact Or.inl ⟨hprepared,(Option.some.inj hexit).symm⟩
        · next args hprepared => exact Or.inr ⟨args,hprepared,(Option.some.inj hexit).symm⟩

theorem met_index {steps : List (PlanStep × World)} {index : ℕ} {s : SessionState} {i : ℕ} {m : Met}
    (hm : (met h index s steps)[i]? = some m) : m.index = index + i := by
  induction steps generalizing index s i with
  | nil => simp [met] at hm
  | cons first rest ih =>
    obtain ⟨step,w⟩ := first
    unfold met at hm
    cases i with
    | zero =>
      obtain rfl := Option.some.inj hm
      rfl
    | succ i =>
      rw [List.getElem?_cons_succ] at hm
      cases hexit : execStep h w s step with
      | none => simp [hexit] at hm
      | some exit =>
        rw [hexit] at hm
        rw [ih hm]
        omega

end Loop

/-- A session whose tools and files answer nothing. -/
def quietHost : Host where
  sessionDir := "session"
  str _ := "None"
  dict _ := none
  runConfig := []
  json := ⟨fun _ => none,fun _ => [],fun _ => []⟩
  nums := ⟨fun _ => none,fun _ => none,fun _ => "",fun _ => ""⟩
  hostSymbols _ := none
  referenceElements _ := none
  greater _ _ := none
  factsRaise _ := false
  ledgerPath := "ledger.db"
  compareBlock _ := .error "KeyError"

def quietWorld : World where
  isFile _ := some false
  atomCount _ := none
  call _ := ⟨.raw [],some "Tool not found"⟩
  file _ := none
  handle _ _ := none

end DftForge.Agent
