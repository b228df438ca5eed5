import DftForge.Runtime.Engine

/-! # What one iteration of the scheduler can do

Each function of the scheduler is reduced to an explicit effect on the state. The
effects are block, dispatch and finish steps; an iteration is a chain of them.
-/
namespace DftForge.Runtime
open Loop

@[simp] theorem ok_bind {ε α β : Type} (a : α) (f : α → Except ε β) :
    ((Except.ok a : Except ε α) >>= f) = f a := rfl
@[simp] theorem error_bind {ε α β : Type} (e : ε) (f : α → Except ε β) :
    ((Except.error e : Except ε α) >>= f) = .error e := rfl
@[simp] theorem pure_ok {ε α : Type} (a : α) : (pure a : Except ε α) = .ok a := rfl

@[simp] theorem GraphRun.setNode_setNode (run : GraphRun) (id : NodeId) (a b : NodeRun) :
    (run.setNode id a).setNode id b = run.setNode id b := by simp [GraphRun.setNode]

/-- The node's dependencies have all succeeded and it waits to be dispatched. -/
def Ready (run : GraphRun) (spec : NodeSpec) : Prop :=
  (run.nodes spec.id).state ∈ [NodeState.pending,.ready] ∧
    ∀ d ∈ spec.dependsOn, (run.nodes d).state = .succeeded

/-- A pending node with a dead dependency. -/
def Blockable (run : GraphRun) (spec : NodeSpec) : Prop :=
  (run.nodes spec.id).state = .pending ∧ ∃ d ∈ spec.dependsOn, (run.nodes d).state ∈ deadStates

theorem mem_findReadyNodes {run : GraphRun} {t : GraphTemplate} {id : NodeId} :
    id ∈ findReadyNodes run t ↔ ∃ spec ∈ t.nodes, spec.id = id ∧ Ready run spec := by
  simp only [findReadyNodes,List.mem_map,List.mem_filter,decide_eq_true_eq]
  constructor
  · rintro ⟨spec,⟨hspec,hready⟩,rfl⟩
    exact ⟨spec,hspec,rfl,hready⟩
  · rintro ⟨spec,hspec,rfl,hready⟩
    exact ⟨spec,⟨hspec,hready⟩,rfl⟩

theorem findReadyNodes_eq_nil {run : GraphRun} {t : GraphTemplate} :
    findReadyNodes run t = [] ↔ ∀ spec ∈ t.nodes, ¬ Ready run spec := by
  rw [List.eq_nil_iff_forall_not_mem]
  constructor
  · intro h spec hspec hready
    exact h spec.id (mem_findReadyNodes.mpr ⟨spec,hspec,rfl,hready⟩)
  · intro h id hid
    obtain ⟨spec,hspec,_,hready⟩ := mem_findReadyNodes.mp hid
    exact h spec hspec hready

/-- The parameters a dispatch uses: resolved once, then kept. -/
def nodeParams (t : GraphTemplate) (run : GraphRun) (spec : NodeSpec) : Except ResolveError Dict :=
  if (run.nodes spec.id).paramsResolved then .ok (run.nodes spec.id).params
  else resolveParams t run spec.params

namespace GraphScheduler
variable (g : GraphScheduler)

/-- The node record after `_prepare_dispatch`. -/
def dispatched (run : GraphRun) (id : NodeId) (params : Dict) : NodeRun :=
  { run.nodes id with
    params
    paramsResolved := true
    attempt := (run.nodes id).attempt + 1
    state := .running
    workdir := some (g.ctxBase run ++ "/" ++ id) }

def context (run : GraphRun) (spec : NodeSpec) : ExecutionContext where
  baseDir := g.ctxBase run
  runId := run.runId
  upstream := spec.dependsOn.map fun d => (d,(run.nodes d).outputs)
  timeoutSeconds := spec.timeoutSeconds

/-- The state after one node was prepared and submitted. -/
def launched (env : Env) (s : Sched) (spec : NodeSpec) (params : Dict) : Sched :=
  let node := g.dispatched s.run spec.id params
  let ctx := g.context s.run spec
  let s := (s.setNode spec.id node).saveNodeRun spec.id
  { s with
    futures := s.futures ++ [⟨spec.id,executeTool env spec node ctx⟩]
    calls := s.calls ++ [⟨spec.id,node,ctx⟩] }

theorem upstream_setNode (run : GraphRun) (spec : NodeSpec) (id : NodeId) (node : NodeRun)
    (h : node.outputs = (run.nodes id).outputs) :
    (spec.dependsOn.map fun d => (d,((run.setNode id node).nodes d).outputs)) =
      spec.dependsOn.map fun d => (d,(run.nodes d).outputs) := by
  apply List.map_congr_left
  intro d _
  by_cases hd : d = id
  · subst hd; simp [h]
  · simp [hd]

/-- A ready node whose parameters resolve is dispatched. -/
theorem dispatch_cons_ok {t : GraphTemplate} (ht : t.WellFormed) {env : Env} {s : Sched}
    {spec : NodeSpec} (hspec : spec ∈ t.nodes) (hready : Ready s.run spec) {params : Dict}
    (hparams : nodeParams t s.run spec = .ok params) (rest : List NodeId) :
    g.dispatch t env (spec.id :: rest) s = g.dispatch t env rest (g.launched env s spec params) := by
  have hstate : (s.run.nodes spec.id).state = .pending ∨ (s.run.nodes spec.id).state = .ready := by
    simpa using hready.1
  rw [dispatch,prepareDispatch]
  simp only [ht.node_eq hspec]
  unfold nodeParams at hparams
  cases hres : (s.run.nodes spec.id).paramsResolved with
  | true =>
    simp only [hres,if_true,Except.ok.injEq] at hparams
    rcases hstate with h | h <;>
      simp [h,Sched.setNode,Sched.transition,Sched.saveNodeRun,submit,launched,dispatched,context,
        GraphRun.transition,canTransition,allowedNodeTransitions,hparams,hres,upstream_setNode,ctxBase]
  | false =>
    simp only [hres,Bool.false_eq_true,if_false] at hparams
    rcases hstate with h | h <;>
      simp [h,Sched.setNode,Sched.transition,Sched.saveNodeRun,submit,launched,dispatched,context,
        GraphRun.transition,canTransition,allowedNodeTransitions,hparams,upstream_setNode,ctxBase]

/-- A ready node whose parameters do not resolve lets the exception out. -/
theorem dispatch_cons_error {t : GraphTemplate} (ht : t.WellFormed) {env : Env} {s : Sched}
    {spec : NodeSpec} (hspec : spec ∈ t.nodes) {e : ResolveError}
    (hparams : nodeParams t s.run spec = .error e) (rest : List NodeId) :
    g.dispatch t env (spec.id :: rest) s = .error ⟨.resolve e,s⟩ := by
  rw [dispatch,prepareDispatch]
  simp only [ht.node_eq hspec]
  unfold nodeParams at hparams
  cases hres : (s.run.nodes spec.id).paramsResolved with
  | true => simp [hres] at hparams
  | false =>
    simp only [hres,Bool.false_eq_true,if_false] at hparams
    simp [hparams]

end GraphScheduler

def Failure.toError : Failure → ToolError
  | .toolError e => e
  | .crash message => { message }

/-- The repair handler that `_handle_failure` calls for this error, if it calls one. -/
def usedRepairer (env : Env) (spec : NodeSpec) (node : NodeRun) (e : ToolError) : Option RepairHandler :=
  if e.repairable ∧ (node.repairAttempts : ℤ) < spec.maxRepairAttempts then repairerFor env spec
  else none

def withError (node : NodeRun) (e : ToolError) : NodeRun :=
  { node with error := some ("[" ++ e.category ++ "] " ++ e.message) }

/-- The record a repair handler leaves behind. -/
def repairedNode (repairer : RepairHandler) (node : NodeRun) (e : ToolError) : NodeRun :=
  let node := { withError node e with
    state := .repairing
    repairAttempts := node.repairAttempts + 1 }
  let repair := repairer node e
  match repair.verdict with
  | .ok answer => { node with
      params := repair.params
      error := some repair.error
      state := if answer then .ready else .failed }
  | .error crash => { node with
      params := repair.params
      error := some (repair.error ++ " | repair crashed: " ++ crash)
      state := .failed }

/-- The record after `_handle_failure`. -/
def failedNode (env : Env) (spec : NodeSpec) (node : NodeRun) (e : ToolError) : NodeRun :=
  match usedRepairer env spec node e with
  | some repairer => repairedNode repairer node e
  | none => { withError node e with
      state := if (node.attempt : ℤ) < spec.maxAttempts then .ready else .failed }

/-- The record after `_finish`. -/
def finishedNode (env : Env) (spec : NodeSpec) (node : NodeRun) : ToolResult → NodeRun
  | .ok outputs => { node with outputs, error := none, state := .succeeded }
  | .error f => failedNode env spec node f.toError

/-- The record saved before the repair handler is called. -/
def repairingNode (env : Env) (spec : NodeSpec) (node : NodeRun) : ToolResult → Option NodeRun
  | .ok _ => none
  | .error f => (usedRepairer env spec node f.toError).map fun _ =>
      { withError node f.toError with state := .repairing }

namespace Sched

/-- Change a node and save it. -/
def put (s : Sched) (id : NodeId) (node : NodeRun) : Sched := (s.setNode id node).saveNodeRun id

/-- The state after a call with this result was finished. -/
def settled (env : Env) (spec : NodeSpec) (s : Sched) (result : ToolResult) : Sched :=
  let node := s.run.nodes spec.id
  match repairingNode env spec node result with
  | some repairing => (s.put spec.id repairing).put spec.id (finishedNode env spec node result)
  | none => s.put spec.id (finishedNode env spec node result)

end Sched

theorem handleFailure_running {env : Env} {spec : NodeSpec} {s : Sched} {e : ToolError}
    (hrun : (s.run.nodes spec.id).state = .running) :
    handleFailure env spec s spec.id e = .ok (
      match usedRepairer env spec (s.run.nodes spec.id) e with
      | some repairer => (s.put spec.id { withError (s.run.nodes spec.id) e with
          state := .repairing }).setNode spec.id (repairedNode repairer (s.run.nodes spec.id) e)
      | none => s.setNode spec.id (failedNode env spec (s.run.nodes spec.id) e)) := by
  unfold handleFailure failedNode usedRepairer
  cases hrep : repairerFor env spec with
  | none =>
    by_cases hatt : ((s.run.nodes spec.id).attempt : ℤ) < spec.maxAttempts <;>
      simp [Sched.setNode,Sched.transition,GraphRun.transition,canTransition,
        allowedNodeTransitions,hrun,hatt,withError]
  | some repairer =>
    by_cases hbudget : e.repairable = true ∧
        ((s.run.nodes spec.id).repairAttempts : ℤ) < spec.maxRepairAttempts
    · simp only [Sched.setNode,GraphRun.setNode_nodes_self,if_pos hbudget,Sched.transition,
        GraphRun.transition,hrun,Sched.saveNodeRun,GraphRun.setNode_setNode,Sched.put,repairedNode,
        withError,canTransition,allowedNodeTransitions]
      simp only [List.contains_cons,beq_self_eq_true,Bool.true_or,Bool.or_true,if_true,ok_bind,
        GraphRun.setNode_nodes_self,GraphRun.setNode_setNode]
      generalize repairer _ e = repair
      obtain ⟨params,error,crash | answer⟩ := repair
      · simp
      · cases answer <;> simp
    · simp only [Sched.setNode,GraphRun.setNode_nodes_self,if_neg hbudget]
      by_cases hatt : ((s.run.nodes spec.id).attempt : ℤ) < spec.maxAttempts <;>
        simp [Sched.transition,GraphRun.transition,canTransition,
          allowedNodeTransitions,hrun,hatt,withError]

theorem finish_running {t : GraphTemplate} (ht : t.WellFormed) (env : Env) {spec : NodeSpec}
    (hspec : spec ∈ t.nodes) {s : Sched} (hrun : (s.run.nodes spec.id).state = .running)
    (result : ToolResult) :
    finish t env s spec.id result = .ok (s.settled env spec result) := by
  have hterm : ¬ (s.run.nodes spec.id).state.Terminal := by rw [hrun]; decide
  unfold finish
  simp only [if_neg hterm,ht.node_eq hspec]
  rcases result with (e | message) | outputs
  · simp only [handleFailure_running hrun,Sched.settled,repairingNode,finishedNode,failedNode,
      Failure.toError]
    cases usedRepairer env spec (s.run.nodes spec.id) e <;>
      simp [Sched.put,Sched.setNode,Sched.saveNodeRun]
  · simp only [handleFailure_running hrun,Sched.settled,repairingNode,finishedNode,failedNode,
      Failure.toError]
    cases usedRepairer env spec (s.run.nodes spec.id) { message } <;>
      simp [Sched.put,Sched.setNode,Sched.saveNodeRun]
  · simp [Sched.setNode,GraphRun.transition,canTransition,allowedNodeTransitions,hrun,
      Sched.settled,repairingNode,finishedNode,Sched.put]

end DftForge.Runtime
