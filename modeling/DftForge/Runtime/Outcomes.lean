import DftForge.Runtime.Refinement

/-! # What a node comes to, apart from how often it was tried

With tools and repair handlers that depend on parameters and upstream outputs only,
plain retries repeat the same failure. So what a node comes to depends on its
parameters, on the repairs it has spent and on nothing else of its history.
-/
namespace DftForge.Runtime
open Loop Relation

variable {g : GraphScheduler} {t : GraphTemplate} {env : Env} {spec : NodeSpec} {run : GraphRun}

/-- Tools and repair handlers depend on parameters and upstream outputs only. -/
structure Env.Functional (t : GraphTemplate) (env : Env) : Prop where
  tools : ∀ spec ∈ t.nodes, ∀ node node' ctx ctx', node.params = node'.params →
    ctx.upstream = ctx'.upstream → executeTool env spec node ctx = executeTool env spec node' ctx'
  repairers : ∀ spec ∈ t.nodes, ∀ repairer, repairerFor env spec = some repairer →
    ∀ node node' e, node.params = node'.params → (repairer node e).params = (repairer node' e).params ∧
      (repairer node e).verdict = (repairer node' e).verdict

/-- What two runs are compared by. -/
@[ext] structure Result where
  state : NodeState
  outputs : Dict
  params : Dict

def NodeRun.result (node : NodeRun) : Result := ⟨node.state,node.outputs,node.params⟩

def GraphRun.upstream (run : GraphRun) (spec : NodeSpec) : List (NodeId × Dict) :=
  spec.dependsOn.map fun d => (d,(run.nodes d).outputs)

/-- The call with these parameters. -/
def callTool (env : Env) (spec : NodeSpec) (upstream : List (NodeId × Dict)) (params : Dict) : ToolResult :=
  executeTool env spec { nodeId := spec.id, params } { baseDir := "", runId := "", upstream }

/-- What a node comes to that is called with these parameters after this many repairs. -/
def outcome (env : Env) (spec : NodeSpec) (upstream : List (NodeId × Dict)) (outputs : Dict) (params : Dict)
    (repairAttempts : ℕ) : Result :=
  match callTool env spec upstream params with
  | .ok outputs => ⟨.succeeded,outputs,params⟩
  | .error f =>
    match _hused : usedRepairer env spec { nodeId := spec.id, repairAttempts } f.toError with
    | none => ⟨.failed,outputs,params⟩
    | some repairer =>
      let repair := repairer { nodeId := spec.id, params } f.toError
      match repair.verdict with
      | .ok true => outcome env spec upstream outputs repair.params (repairAttempts + 1)
      | _ => ⟨.failed,outputs,repair.params⟩
termination_by (spec.maxRepairAttempts - repairAttempts).toNat
decreasing_by
  unfold usedRepairer at _hused
  split_ifs at _hused with hbudget
  have hlt := hbudget.2
  simp only at hlt
  omega

section Unfold
variable {upstream : List (NodeId × Dict)} {outputs params : Dict} {repairs : ℕ}

theorem outcome_ok {outputs' : Dict} (h : callTool env spec upstream params = .ok outputs') :
    outcome env spec upstream outputs params repairs = ⟨.succeeded,outputs',params⟩ := by
  rw [outcome,h]

theorem outcome_error {f : Failure} (h : callTool env spec upstream params = .error f) :
    outcome env spec upstream outputs params repairs =
      match usedRepairer env spec { nodeId := spec.id, repairAttempts := repairs } f.toError with
      | none => ⟨.failed,outputs,params⟩
      | some repairer =>
        let repair := repairer { nodeId := spec.id, params } f.toError
        match repair.verdict with
        | .ok true => outcome env spec upstream outputs repair.params (repairs + 1)
        | _ => ⟨.failed,outputs,repair.params⟩ := by
  rw [outcome]
  split
  · next hok => rw [h] at hok; cases hok
  · next f' herr =>
    rw [h] at herr
    cases herr
    split <;> next hused => rw [hused]

end Unfold

/-- The budget of repairs is all a record contributes to the choice of the handler. -/
theorem usedRepairer_congr {node node' : NodeRun} (h : node.repairAttempts = node'.repairAttempts)
    (e : ToolError) : usedRepairer env spec node e = usedRepairer env spec node' e := by
  unfold usedRepairer
  rw [h]

theorem repairerFor_of_used {node : NodeRun} {e : ToolError} {repairer : RepairHandler}
    (h : usedRepairer env spec node e = some repairer) : repairerFor env spec = some repairer := by
  unfold usedRepairer at h
  split_ifs at h
  exact h

/-- The record after a finished call is on its way to what the call comes to. -/
inductive Finished (env : Env) (spec : NodeSpec) (upstream : List (NodeId × Dict)) (target : Result)
    (node : NodeRun) : Prop
  | done (ne : node.state ≠ .ready) (eq : node.result = target)
  | queued (ready : node.state = .ready)
      (eq : outcome env spec upstream node.outputs node.params node.repairAttempts = target)

theorem finished_of_call (hpure : env.Functional t) (hspec : spec ∈ t.nodes) {node : NodeRun}
    {upstream : List (NodeId × Dict)} {result : ToolResult}
    (hresult : result = callTool env spec upstream node.params) :
    Finished env spec upstream (outcome env spec upstream node.outputs node.params node.repairAttempts)
      (finishedNode env spec node result) := by
  cases result with
  | ok outputs =>
    rw [outcome_ok hresult.symm]
    exact .done (by simp [finishedNode]) rfl
  | error f =>
    rw [outcome_error hresult.symm]
    have hused : usedRepairer env spec node f.toError =
        usedRepairer env spec { nodeId := spec.id, repairAttempts := node.repairAttempts } f.toError :=
      usedRepairer_congr rfl f.toError
    rw [← hused]
    simp only [finishedNode,failedNode]
    cases hrep : usedRepairer env spec node f.toError with
    | none =>
      simp only []
      split_ifs with hatt
      · -- a plain retry has the same call before it
        refine .queued rfl ?_
        have hsame : (withError node f.toError).params = node.params := rfl
        simp only [withError]
        rw [outcome_error hresult.symm,← hused,hrep]
      · exact .done (by simp) rfl
    | some repairer =>
      obtain ⟨hparams,hverdict⟩ := hpure.repairers spec hspec repairer (repairerFor_of_used hrep)
        { withError node f.toError with state := .repairing, repairAttempts := node.repairAttempts + 1 }
        { nodeId := spec.id, params := node.params } f.toError rfl
      simp only [repairedNode]
      rw [← hparams,← hverdict]
      generalize repairer _ f.toError = repair
      obtain ⟨params,error,crash | answer⟩ := repair
      · exact .done (by simp) rfl
      · cases answer with
        | false => exact .done (by simp) rfl
        | true => exact .queued rfl rfl

/-- Settling a node gives what its parameters and spent repairs come to. -/
theorem settle_result (hpure : env.Functional t) (hspec : spec ∈ t.nodes) {node : NodeRun} {params : Dict}
    (h : nodeParams t (run.setNode spec.id node) spec = .ok params) :
    (g.settle t env run spec node).result =
      outcome env spec (run.upstream spec) node.outputs params node.repairAttempts := by
  induction hn : remaining spec node node.attempt using Nat.strong_induction_on
    generalizing node params with
  | _ k ih =>
    subst hn
    set running := g.dispatched (run.setNode spec.id node) spec.id params with hrunning
    set result := executeTool env spec running (g.context run spec) with hresult
    have hcall : result = callTool env spec (run.upstream spec) running.params :=
      hpure.tools spec hspec _ _ _ _ rfl rfl
    have hattempt : g.attempt t env run spec node = some (finishedNode env spec running result) := by
      rw [GraphScheduler.attempt,h]
    have hsame : outcome env spec (run.upstream spec) running.outputs running.params
        running.repairAttempts =
        outcome env spec (run.upstream spec) node.outputs params node.repairAttempts := by
      simp [hrunning,GraphScheduler.dispatched]
    rw [g.settle_eq,hattempt,← hsame]
    simp only [Option.elim,GraphScheduler.proceed]
    cases finished_of_call hpure hspec hcall with
    | done hne heq => rw [if_neg hne,heq]
    | queued hready heq =>
      have hresolved : (finishedNode env spec running result).paramsResolved = true :=
        (finishedNode_paramsResolved env spec running result).trans rfl
      rw [if_pos hready,← heq]
      refine ih _ (g.remaining_lt_of_attempt t env hattempt hready) ?_ rfl
      simp [nodeParams,hresolved]

theorem finishedNode_params {node : NodeRun} {result : ToolResult}
    (h : (finishedNode env spec node result).repairAttempts = 0) :
    (finishedNode env spec node result).params = node.params ∧ node.repairAttempts = 0 := by
  cases result with
  | ok outputs => exact ⟨rfl,h⟩
  | error f =>
    simp only [finishedNode,failedNode] at h ⊢
    cases hrep : usedRepairer env spec node f.toError with
    | none =>
      rw [hrep] at h
      exact ⟨rfl,h⟩
    | some repairer =>
      rw [hrep] at h
      simp only [repairedNode] at h
      split at h <;> simp at h

end DftForge.Runtime
