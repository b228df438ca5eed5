import DftForge.Runtime.Graph
import DftForge.Runtime.States

/-! # Mutable graph runs, parameter binding and the execution context

A run maps the node ids of its template to node records. The clock fields of the
source (`created_at`, `updated_at`) are left out: nothing here reads them.
-/
namespace DftForge.Runtime

abbrev RunId := String

structure ToolError where
  message : String
  category : String := "unknown"
  repairable : Bool := false
  deriving DecidableEq, Repr

structure NodeRun where
  nodeId : NodeId
  state : NodeState := .pending
  attempt : ℕ := 0
  repairAttempts : ℕ := 0
  params : Dict := []
  /-- Not persisted: a loaded node resolves its parameters again. -/
  paramsResolved : Bool := false
  outputs : Dict := []
  error : Option String := none
  jobId : Option String := none
  workdir : Option String := none

/-- `run.nodes` has exactly the template's ids as keys, so it is a function here;
its values at other ids are never read. -/
structure GraphRun where
  runId : RunId
  templateId : String
  state : RunState := .created
  nodes : NodeId → NodeRun
  inputs : Dict := []

structure ExecutionContext where
  baseDir : String
  runId : RunId
  /-- node id -> outputs -/
  upstream : List (NodeId × Dict) := []
  timeoutSeconds : Option ℚ := none

/-- The `ValueError` of `NodeRun.transition`. -/
structure IllegalTransition where
  nodeId : NodeId
  source : NodeState
  target : NodeState
  deriving DecidableEq, Repr

def IllegalTransition.message (e : IllegalTransition) : String :=
  "illegal transition " ++ e.source.value ++ " -> " ++ e.target.value ++ " for node '" ++ e.nodeId ++ "'"

/-- The `ValueError`s of `resolve_value`, with the values they print. -/
inductive ResolveError where
  | undeclaredInput (value : String)
  | missingOutputsKey (value : String)
  | notSucceeded (key : NodeId)
  | notProduced (outKey : String) (key : NodeId) (available : List String)
  deriving DecidableEq, Repr

/-- The exceptions that can leave the runtime. -/
inductive PyError where
  | transition (e : IllegalTransition)
  | resolve (e : ResolveError)
  | unknownNode (id : NodeId)
  | unknownRun (id : RunId)
  | unknownTemplate (id : String)
  | unknownInputs (names : List String)
  deriving DecidableEq, Repr

namespace GraphRun

/-- Replace one node record. -/
def setNode (run : GraphRun) (id : NodeId) (node : NodeRun) : GraphRun :=
  { run with nodes := Function.update run.nodes id node }

@[simp] theorem setNode_nodes_self (run : GraphRun) (id : NodeId) (node : NodeRun) :
    (run.setNode id node).nodes id = node := by simp [setNode]

@[simp] theorem setNode_nodes_of_ne (run : GraphRun) {id id' : NodeId} (h : id' ≠ id) (node : NodeRun) :
    (run.setNode id node).nodes id' = run.nodes id' := by simp [setNode,h]

@[simp] theorem setNode_inputs (run : GraphRun) (id : NodeId) (node : NodeRun) :
    (run.setNode id node).inputs = run.inputs := rfl
@[simp] theorem setNode_runId (run : GraphRun) (id : NodeId) (node : NodeRun) :
    (run.setNode id node).runId = run.runId := rfl
@[simp] theorem setNode_templateId (run : GraphRun) (id : NodeId) (node : NodeRun) :
    (run.setNode id node).templateId = run.templateId := rfl
@[simp] theorem setNode_state (run : GraphRun) (id : NodeId) (node : NodeRun) :
    (run.setNode id node).state = run.state := rfl

/-- `node.transition(target)`. -/
def transition (run : GraphRun) (id : NodeId) (target : NodeState) : Except IllegalTransition GraphRun :=
  let node := run.nodes id
  if canTransition node.state target then .ok (run.setNode id { node with state := target })
  else .error ⟨node.nodeId,node.state,target⟩

theorem transition_ok {run : GraphRun} {id : NodeId} {target : NodeState}
    (h : canTransition (run.nodes id).state target = true) :
    run.transition id target = .ok (run.setNode id { run.nodes id with state := target }) := by
  simp [transition,h]

/-- `node_states`, in template order. -/
def nodeStates (run : GraphRun) (t : GraphTemplate) : List NodeState :=
  t.nodes.map fun spec => (run.nodes spec.id).state

end GraphRun

/-- What one reference string resolves to. -/
def resolveRef (run : GraphRun) (known : NodeId → Bool) (value : String) (ref : Ref) :
    Except ResolveError Json :=
  match ref.scope with
  | .inputs =>
    match run.inputs.get? ref.key with
    | some v => .ok v
    | none => .error (.undeclaredInput value)
  | .nodes =>
    match ref.outputKey with
    | none => .error (.missingOutputsKey value)
    | some outKey =>
      let upstream := run.nodes ref.key
      if !known ref.key || upstream.state ≠ .succeeded then .error (.notSucceeded ref.key)
      else match upstream.outputs.get? outKey with
        | some v => .ok v
        | none => .error (.notProduced outKey ref.key ((upstream.outputs.map (·.1)).mergeSort))

mutual
/-- `resolve_value`: replace references at any depth of dictionaries and lists. -/
def resolveValue (run : GraphRun) (known : NodeId → Bool) : Json → Except ResolveError Json
  | .str s =>
    match parseParamRef (strip s.toList) with
    | some ref => resolveRef run known s ref
    | none => .ok (.str s)
  | .obj fields => (resolveFields run known fields).map .obj
  | .arr items => (resolveItems run known items).map .arr
  | v => .ok v
def resolveFields (run : GraphRun) (known : NodeId → Bool) : Dict → Except ResolveError Dict
  | [] => .ok []
  | (k, v) :: rest => do
    let v ← resolveValue run known v
    let rest ← resolveFields run known rest
    return (k,v) :: rest
def resolveItems (run : GraphRun) (known : NodeId → Bool) : List Json → Except ResolveError (List Json)
  | [] => .ok []
  | v :: rest => do
    let v ← resolveValue run known v
    let rest ← resolveItems run known rest
    return v :: rest
end

/-- `resolve_params`; `run.nodes.get` finds exactly the template's nodes. -/
def resolveParams (t : GraphTemplate) (run : GraphRun) (params : Dict) : Except ResolveError Dict :=
  resolveFields run (· ∈ t.ids) params

/-- `create_run`: the declared inputs with the given ones over them, every node fresh. -/
def createRun (t : GraphTemplate) (runId : RunId) (inputs : Dict) : Except PyError GraphRun :=
  let unknown := (inputs.map (·.1)).filter (!t.inputs.contains ·)
  if unknown ≠ [] then .error (.unknownInputs unknown.mergeSort)
  else .ok {
    runId
    templateId := t.templateId
    nodes := fun id => { nodeId := id }
    inputs := t.inputs.update inputs }

theorem createRun_ok {t : GraphTemplate} {runId : RunId} {inputs : Dict} {run : GraphRun}
    (h : createRun t runId inputs = .ok run) :
    run = {
      runId
      templateId := t.templateId
      nodes := fun id => { nodeId := id }
      inputs := t.inputs.update inputs } := by
  simp only [createRun] at h
  split_ifs at h
  cases h
  rfl

end DftForge.Runtime
