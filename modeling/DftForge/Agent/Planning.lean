import DftForge.Engines.Repair

/-! # From a planned payload to steps

`PlanIR.from_payload`, `compile_plan` and the retry loop of `LLMPlanner.plan`. A plan
keeps what the planner gave as success criteria and the errors of its compilation in
one list.
-/
namespace DftForge.Agent
open DftForge.Runtime DftForge.Python DftForge.Engines

/-- `str` and `dict` of values that are no text and no dictionary. -/
structure Casts where
  str : Json → String
  dict : Json → Option Dict

namespace Casts
variable (c : Casts)

/-- `str(value)`. -/
def text : Json → String
  | .str s => s
  | v => c.str v

/-- `dict(value)`. -/
def toDict : Json → Option Dict
  | .obj fields => some fields
  | v => c.dict v

end Casts

/-- `d.get(key)`. -/
def field (d : Dict) (key : String) : Json := (d.get? key).getD .null

/-- `a or b`. -/
def pyOr (a b : Json) : Json := if truthy a then a else b

/-- `for x in value`. -/
def iterItems : Json → Option (List Json)
  | .arr items => some items
  | .obj fields => some (fields.map fun kv => .str kv.1)
  | .str s => some (s.toList.map fun ch => .str (String.singleton ch))
  | _ => none

/-- `value[:n]`. -/
def sliceItems (n : ℕ) : Json → Option (List Json)
  | .arr items => some (items.take n)
  | .str s => some ((s.toList.take n).map fun ch => .str (String.singleton ch))
  | _ => none

/-- `text[:n]`. -/
def clip (n : ℕ) (s : String) : String := String.ofList (s.toList.take n)

/-- `text.strip()`. -/
def stripped (s : String) : String := String.ofList (strip s.toList)

/-- `d.setdefault(key, value)`. -/
def setDefault (d : Dict) (key : String) (value : Json) : Dict :=
  if d.contains key then d else d ++ [(key,value)]

/-- An action of a plan; a key it does not have is null. -/
structure Action where
  capability : Json := .null
  tool : Json := .null
  args : Json := .null
  description : Json := .null

structure PlanIR where
  goal : String
  constraints : Dict := []
  assumptions : List String := []
  expectedOutputs : List String := []
  actions : List Action := []
  validation : List String := []
  source : String := "rules"

/-- A step in the shape of the executor. -/
structure PlannedStep where
  tool : String
  args : Dict
  description : String

namespace PlanIR
variable (c : Casts)

/-- One entry of the actions; what is no dictionary is skipped. -/
def normalize : Json → Option Action
  | .obj action => some {
      capability := pyOr (field action "capability") (field action "tool")
      tool := field action "tool"
      args := pyOr (field action "args") (.obj [])
      description := .str (clip 180 (c.text (pyOr (pyOr (field action "description")
        (field action "reason")) (.str "")))) }
  | _ => none

def payloadActions (payload : Dict) : Json :=
  pyOr (pyOr (field payload "actions") (field payload "steps")) (.arr [])

/-- What a planner gives as its criteria of success. -/
def payloadCriteria (payload : Dict) : Json :=
  pyOr (pyOr (field payload "validation") (field payload "success_criteria")) (.arr [])

/-- `[str(x)[:width] for x in value[:n]]`. -/
def texts (n width : ℕ) (value : Json) : Option (List String) :=
  (sliceItems n value).map fun items => items.map fun x => clip width (c.text x)

/-- `from_payload`; nothing where it raises. -/
def fromPayload (payload : Dict) (source : String) : Option PlanIR := do
  let actions ← iterItems (payloadActions payload)
  let constraints ← c.toDict (pyOr (field payload "constraints") (.obj []))
  let assumptions ← texts c 8 180 (pyOr (field payload "assumptions") (.arr []))
  let outputs ← texts c 12 120 (pyOr (pyOr (field payload "expected_outputs") (field payload "outputs"))
    (.arr []))
  let validation ← texts c 8 160 (payloadCriteria payload)
  return {
    goal := clip 240 (stripped (c.text (pyOr (pyOr (field payload "goal") (field payload "objective"))
      (.str ""))))
    constraints := constraints
    assumptions := assumptions
    expectedOutputs := outputs
    actions := actions.filterMap (normalize c)
    validation := validation
    source := source }

def templateOutputLabels : List (String × List String) :=
  [("t0_scf",["总能量","原子数"]),("t1_vc_relax",["总能量","平衡晶格参数","压力","体积"]),
    ("t2_bands",["总能量","带隙","费米能级","金属性"]),("t2_dos",["总能量","费米能级态密度"])]

/-- The expected outputs that `from_steps` reads off the templates. -/
def expectedOf (steps : List PlannedStep) : List String :=
  (steps.flatMap fun step =>
    let template := field step.args "template_id"
    if truthy template then (templateOutputLabels.lookup (c.text template)).getD [] else []).eraseDups

end PlanIR

structure RegisteredTool where
  id : String
  enabled : Bool := true

/-- A file of the template directory; no payload where it cannot be read or parsed. -/
structure TemplateFile where
  stem : String
  payload : Option Json

structure Capability where
  id : String
  toolId : String

def capabilityAliases : List (String × String) :=
  [("understand.structure","structure.analyze"),("inspect.structure","structure.analyze"),
    ("build.structure","structure.generate"),("build.2d","structure.build2d"),
    ("dope.structure","structure.dope"),("run.template","graph.run"),("inspect.run","graph.status"),
    ("verify.result","result.verify"),("parse.result","result.parse"),
    ("compare.results","analysis.compare")]

section Compile
variable (c : Casts) (tools : List RegisteredTool) (files : List TemplateFile)

/-- `(payload.get(key) or {}).keys()` does not raise. -/
def hasKeys (payload : Dict) (key : String) : Bool :=
  match pyOr (field payload key) (.obj []) with
  | .obj _ => true
  | _ => false

/-- The capability of one file: none where it is skipped, nothing where it raises. -/
def TemplateFile.capability (f : TemplateFile) : Option (Option Capability) :=
  match f.payload with
  | none => some none
  | some (.obj payload) =>
    if hasKeys payload "outputs" && hasKeys payload "inputs" then
      some (some ⟨"run." ++ c.text (pyOr (field payload "template_id") (.str f.stem)),"graph.run"⟩)
    else none
  | some _ => none

def toolIds : List String := (tools.filter (·.enabled)).map (·.id)

/-- `build_capability_graph`. -/
def buildCapabilityGraph : Option (List Capability) :=
  (files.mapM (TemplateFile.capability c)).map fun runs =>
    (toolIds tools).map (fun id => ⟨id,id⟩) ++ runs.reduceOption

namespace Action
variable (a : Action)

def name : String := stripped (c.text (pyOr (pyOr a.capability a.tool) (.str "")))

/-- The capability is a template of the graph. -/
def runs (capabilities : List Capability) : Bool :=
  "run.".toList.isPrefixOf (a.name c).toList && (a.name c) ∈ capabilities.map (·.id)

def resolved (capabilities : List Capability) : String :=
  if a.runs c capabilities then "graph.run" else (capabilityAliases.lookup (a.name c)).getD (a.name c)

/-- `dict(action.get("args") or {})`. -/
def argsDict : Option Dict := c.toDict (pyOr a.args (.obj []))

/-- The arguments of the step: a template capability fills in its template. -/
def passed (capabilities : List Capability) (args : Dict) : Dict :=
  if a.runs c capabilities then
    setDefault args "template_id" (.str (String.ofList ((a.name c).toList.drop 4)))
  else args

/-- The step of an action, or its error; nothing where the conversion raises. -/
def compile (capabilities : List Capability) : Option (Except String PlannedStep) :=
  (a.argsDict c).map fun args =>
    if a.resolved c capabilities ∈ toolIds tools then
      .ok { tool := a.resolved c capabilities
            args := a.passed c capabilities args
            description := clip 180 (c.text (pyOr a.description (.str (a.name c)))) }
    else .error ("unknown capability: " ++ a.name c)

end Action

def stepsOf (results : List (Except String PlannedStep)) : List PlannedStep :=
  results.filterMap fun | .ok step => some step | .error _ => none

def errorsOf (results : List (Except String PlannedStep)) : List String :=
  results.filterMap fun | .ok _ => none | .error e => some e

/-- `compile_plan`: the steps, and the plan with the errors among its validation. -/
def compilePlan (plan : PlanIR) : Option (List PlannedStep × PlanIR) := do
  let capabilities ← buildCapabilityGraph c tools files
  let results ← (plan.actions.take 8).mapM fun a => a.compile c tools capabilities
  return (stepsOf results,{ plan with validation := plan.validation ++ errorsOf results })

end Compile

/-- What the provider answers; `failed` where the call or the parsing raises. -/
inductive Reply where
  | failed (message : String)
  | other (value : Json)
  | object (payload : Dict)

/-- Why an attempt is repeated. -/
inductive Refusal where
  | invalidResponse (message : String)
  | noObject
  | unknownCapabilities (err : String)
  | invalidArgs (err : String)
  deriving DecidableEq

/-- What an attempt, and the planner, comes to: `again` is `continue` for an attempt, and
the return to the rules for the planner. -/
inductive Attempt where
  | raised
  | again (refusal : Refusal)
  | accepted (steps : List PlannedStep) (reply : Option String) (plan : PlanIR)

/-- `LLMPlanner`: its registry and templates, and the errors `validate_steps` finds. -/
structure LLMPlanner where
  casts : Casts
  tools : List RegisteredTool
  files : List TemplateFile
  validateSteps : List PlannedStep → List String

namespace LLMPlanner
variable (p : LLMPlanner) (message : String)

def firstErrors (errors : List String) : String := String.intercalate "; " (errors.take 4)

/-- The goal of a plan without one is the message. -/
def withGoal (plan : PlanIR) : PlanIR :=
  if plan.goal = "" then { plan with goal := clip 240 message } else plan

def withOutputs (steps : List PlannedStep) (plan : PlanIR) : PlanIR :=
  if plan.expectedOutputs = [] then { plan with expectedOutputs := PlanIR.expectedOf p.casts steps }
  else plan

/-- The reply, which is given only without steps. -/
def directReply (payload : Dict) (steps : List PlannedStep) : Option String :=
  let reply := stripped (p.casts.text (pyOr (field payload "reply") (.str "")))
  if reply ≠ "" ∧ steps = [] then some reply else none

/-- The compiled plan of a payload; nothing where its reading or its compilation raises. -/
def compiled (payload : Dict) : Option (List PlannedStep × PlanIR) :=
  (PlanIR.fromPayload p.casts payload "llm").bind fun plan =>
    compilePlan p.casts p.tools p.files (withGoal message plan)

/-- The body of the retry loop. -/
def attempt (first : Bool) : Reply → Attempt
  | .failed error => .again (.invalidResponse error)
  | .other _ => .again .noObject
  | .object payload =>
    match p.compiled message payload with
    | none => .raised
    | some (steps,plan) =>
      if plan.validation ≠ [] then .again (.unknownCapabilities (firstErrors plan.validation))
      else if p.validateSteps steps ≠ [] ∧ first = true then
        .again (.invalidArgs (firstErrors (p.validateSteps steps)))
      else .accepted steps (p.directReply payload steps) (p.withOutputs steps plan)

/-- `plan`, from the answers to its two attempts. -/
def plan (answers : Reply × Reply) : Attempt :=
  match p.attempt message true answers.1 with
  | .again _ => p.attempt message false answers.2
  | result => result

end LLMPlanner
end DftForge.Agent
