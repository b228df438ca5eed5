import DftForge.Runtime.Scheduler

/-! # The engine facade

`create`, `start`, `resume` and `retry` up to the point where they raise, return a
finished run, or enter the scheduler. The store contents they write on the way are
kept, since the process can die after any of them.
-/
namespace DftForge.Runtime

/-- Only templates without validation errors are ever registered. -/
structure ValidTemplate where
  template : GraphTemplate
  knownTools : Option (List String)
  valid : template.validate knownTools = []

theorem ValidTemplate.wellFormed (v : ValidTemplate) : v.template.WellFormed :=
  GraphTemplate.validate_nil v.valid

structure GraphEngine where
  baseDir : String
  maxConcurrency : ℤ
  useAsyncio : Bool
  templates : List (String × ValidTemplate)
  /-- `register_template` keeps a template under its own id. -/
  registered : ∀ id v, templates.lookup id = some v →
    templates.lookup v.template.templateId = some v

/-- How far a call of the engine gets without the scheduler. -/
inductive Opened where
  | raised (e : PyError) (store : Store) (saves : List Store)
  | returned (run : GraphRun) (store : Store) (saves : List Store)
  | enters (t : ValidTemplate) (s : Sched)

/-- Every store content the call has written so far, latest first. -/
def Opened.saves : Opened → List Store
  | .raised _ _ saves => saves
  | .returned _ _ saves => saves
  | .enters _ s => s.saves

namespace GraphEngine
variable (e : GraphEngine)

def scheduler : GraphScheduler := .new e.maxConcurrency e.baseDir e.useAsyncio

def getTemplate (id : String) : Except PyError ValidTemplate :=
  match e.templates.lookup id with
  | some v => .ok v
  | none => .error (.unknownTemplate id)

/-- `create`: a fresh run, saved once. The run id is drawn by the caller. -/
def create (st : Store) (templateId : String) (runId : RunId) (inputs : Dict) :
    Except PyError (GraphRun × Store) := do
  let v ← e.getTemplate templateId
  let run ← createRun v.template runId inputs
  return (run,st.saveRun run)

/-- `_load`, with the template it looks up. -/
def load (st : Store) (runId : RunId) : Except PyError (ValidTemplate × GraphRun) :=
  match st.templateIdFor runId with
  | none => .error (.unknownRun runId)
  | some templateId => do
    let v ← e.getTemplate templateId
    match st.loadRun runId v.template with
    | none => .error (.unknownRun runId)
    | some run => return (v,run)

/-- `start`, continuing after the writes in `saves`. -/
def start (st : Store) (runId : RunId) (saves : List Store) : Opened :=
  match e.load st runId with
  | .error err => .raised err st saves
  | .ok (v, run) =>
    if run.state.Terminal then .returned run st saves
    else .enters v { run, store := st, saves }

/-- `resume`. -/
def resume (st : Store) (runId : RunId) : Opened :=
  match st.templateIdFor runId with
  | none => .raised (.unknownRun runId) st []
  | some templateId =>
    match e.getTemplate templateId with
    | .error err => .raised err st []
    | .ok v =>
      match st.resumeRun runId v.template with
      | none => .raised (.unknownRun runId) st []
      | some (run, st') =>
        if run.state.Terminal then .returned run st' []
        else .enters v { run, store := st', saves := [st'] }

/-- The node record `retry` saves. -/
def resetNode (node : NodeRun) : NodeRun :=
  { node with
    state := .pending
    attempt := 0
    repairAttempts := 0
    error := none
    params := []
    paramsResolved := false }

/-- The loop of `retry` over its targets; on an error the earlier targets are saved. -/
def resetTargets (t : GraphTemplate) : List NodeId → Sched → Except Raised Sched
  | [], s => .ok s
  | id :: rest, s =>
    if id ∉ t.ids then .error ⟨.unknownNode id,s⟩
    else do
      let s ← s.transition id .pending
      let s := (s.setNode id (resetNode (s.run.nodes id))).saveNodeRun id
      resetTargets t rest s

/-- The targets without explicit node ids, or with an empty list of them. -/
def retryTargets (t : GraphTemplate) (run : GraphRun) (nodeIds : List NodeId) : List NodeId :=
  if nodeIds = [] then
    (t.nodes.filter fun spec => (run.nodes spec.id).state ∈ [NodeState.failed,.blocked]).map (·.id)
  else nodeIds

/-- `retry`. -/
def retry (st : Store) (runId : RunId) (nodeIds : List NodeId) : Opened :=
  match e.load st runId with
  | .error err => .raised err st []
  | .ok (v, run) =>
    match resetTargets v.template (retryTargets v.template run nodeIds) { run, store := st } with
    | .error r => .raised r.error r.sched.store r.sched.saves
    | .ok s =>
      let s := (s.setState .validated).saveRun
      e.start s.store runId s.saves

/-- The calls that can enter the scheduler. -/
inductive EntryPoint where
  | start
  | resume
  | retry (nodeIds : List NodeId)

def call (st : Store) (runId : RunId) : EntryPoint → Opened
  | .start => e.start st runId []
  | .resume => e.resume st runId
  | .retry nodeIds => e.retry st runId nodeIds

end GraphEngine

section Samples

/-- Two nodes in a row; the second may bind outputs of the first. -/
def pairTemplate (bound : Dict) : GraphTemplate where
  templateId := "pair"
  nodes := [{ id := "scf", tool := "qe" },
    { id := "bands", tool := "qe", params := bound, dependsOn := ["scf"] }]

def pair : ValidTemplate := ⟨pairTemplate [],none,rfl⟩

/-- Every call succeeds with these outputs. -/
def constantEnv (outputs : Dict) : Env where
  tools := [("qe",fun _ _ => .ok outputs)]

/-- Every call succeeds and is seen finished at once. -/
def smoothInput : ℕ → Tick := fun _ => { env := constantEnv [], done := ["scf","bands"] }

/-- Every call fails. -/
def failingEnv : Env where
  tools := [("qe",fun _ _ => .error (.crash "no convergence"))]

/-- The run `create` makes without given inputs. -/
def freshRun (t : GraphTemplate) : GraphRun where
  runId := "run_1"
  templateId := t.templateId
  nodes := fun id => { nodeId := id }
  inputs := t.inputs

/-- An engine with one registered template. -/
def soleEngine (v : ValidTemplate) (useAsyncio : Bool) : GraphEngine where
  baseDir := "/work"
  maxConcurrency := 2
  useAsyncio
  templates := [(v.template.templateId,v)]
  registered := by
    intro id v' h
    rw [List.lookup_cons] at h
    split at h
    · cases h
      simp
    · cases h

/-- The store after `create` on an empty one. -/
def createdStore (v : ValidTemplate) : Store := ({} : Store).saveRun (freshRun v.template)

end Samples

end DftForge.Runtime
