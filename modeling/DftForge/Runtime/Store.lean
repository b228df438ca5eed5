import DftForge.Runtime.Run

/-! # Durable state: the two tables of the SQLite store

Rows are keyed by run id and by (run id, node id). Every write replaces one row,
and the JSON columns hold the stored values themselves.
-/
namespace DftForge.Runtime

structure RunRow where
  templateId : String
  status : RunState
  inputs : Dict

structure NodeRow where
  status : NodeState
  attempt : ℕ
  repairAttempts : ℕ
  params : Dict
  outputs : Dict
  error : Option String
  jobId : Option String
  workdir : Option String

structure Store where
  graphRuns : RunId → Option RunRow := fun _ => none
  nodeRuns : RunId × NodeId → Option NodeRow := fun _ => none

/-- The columns `save_node_run` writes. -/
def NodeRun.row (node : NodeRun) : NodeRow where
  status := node.state
  attempt := node.attempt
  repairAttempts := node.repairAttempts
  params := node.params
  outputs := node.outputs
  error := node.error
  jobId := node.jobId
  workdir := node.workdir

/-- The record `load_run` builds from a row. -/
def NodeRow.load (row : NodeRow) (id : NodeId) : NodeRun where
  nodeId := id
  state := row.status
  attempt := row.attempt
  repairAttempts := row.repairAttempts
  params := row.params
  outputs := row.outputs
  error := row.error
  jobId := row.jobId
  workdir := row.workdir

@[simp] theorem NodeRow.row_load (row : NodeRow) (id : NodeId) : (row.load id).row = row := rfl

namespace Store

def saveRun (st : Store) (run : GraphRun) : Store :=
  let row : RunRow := ⟨run.templateId,run.state,run.inputs⟩
  { st with graphRuns := Function.update st.graphRuns run.runId (some row) }

/-- `save_node_run(run, run.nodes[id])`. -/
def saveNodeRun (st : Store) (run : GraphRun) (id : NodeId) : Store :=
  { st with nodeRuns := Function.update st.nodeRuns (run.runId,id) (some (run.nodes id).row) }

def templateIdFor (st : Store) (runId : RunId) : Option String :=
  (st.graphRuns runId).map (·.templateId)

/-- The record of one node after a load: its row, or a fresh record without one. -/
def loadNode (st : Store) (runId : RunId) (t : GraphTemplate) (id : NodeId) : NodeRun :=
  if id ∈ t.ids then
    match st.nodeRuns (runId,id) with
    | some row => row.load id
    | none => { nodeId := id }
  else { nodeId := id }

def loadRun (st : Store) (runId : RunId) (t : GraphTemplate) : Option GraphRun :=
  (st.graphRuns runId).map fun row => {
    runId
    templateId := row.templateId
    state := row.status
    nodes := st.loadNode runId t
    inputs := row.inputs }

/-- The states of a node that was on its way when the process died. -/
def inFlightStates : List NodeState := [.running,.ready,.repairing]

def resetInFlight (node : NodeRun) : NodeRun :=
  if node.state ∈ inFlightStates then { node with state := .pending } else node

/-- `resume_run`: the run to continue with and the store after it; a terminal run is
returned as it is. The warning about dead symbolic links only logs. -/
def resumeRun (st : Store) (runId : RunId) (t : GraphTemplate) : Option (GraphRun × Store) :=
  (st.loadRun runId t).map fun run =>
    if run.state.Terminal then (run,st)
    else
      let run := { run with
        nodes := fun id => resetInFlight (run.nodes id)
        state := RunState.validated }
      (run,st.saveRun run)

section Lemmas
variable (st : Store) (run : GraphRun) (id : NodeId)

@[simp] theorem saveRun_nodeRuns : (st.saveRun run).nodeRuns = st.nodeRuns := rfl

@[simp] theorem saveNodeRun_graphRuns : (st.saveNodeRun run id).graphRuns = st.graphRuns := rfl

@[simp] theorem saveRun_graphRuns_self :
    (st.saveRun run).graphRuns run.runId = some ⟨run.templateId,run.state,run.inputs⟩ := by
  simp [saveRun]

@[simp] theorem saveNodeRun_self :
    (st.saveNodeRun run id).nodeRuns (run.runId,id) = some (run.nodes id).row := by
  simp [saveNodeRun]

theorem saveNodeRun_of_ne {id' : NodeId} (h : id' ≠ id) (runId : RunId) :
    (st.saveNodeRun run id).nodeRuns (runId,id') = st.nodeRuns (runId,id') := by
  simp [saveNodeRun,h]

end Lemmas

end Store

end DftForge.Runtime
