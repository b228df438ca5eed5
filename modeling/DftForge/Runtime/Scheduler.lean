import DftForge.Library.FairLoop
import DftForge.Runtime.Store

/-! # The dependency-driven scheduler loop

Both execution modes are step functions on the same state. Everything the
environment decides about one iteration (whether the cancel event is set, what the
tools and repair handlers do, which calls are seen finished) is its input. Event
notifications and polling pauses have no effect on the state and are left out.
-/
namespace DftForge.Runtime
open Loop

/-- What a tool call raised. -/
inductive Failure where
  | toolError (e : ToolError)
  | crash (message : String)
  deriving DecidableEq, Repr

abbrev ToolResult := Except Failure Dict

/-- `Tool.execute`. -/
abbrev Tool := NodeRun → ExecutionContext → ToolResult

/-- What a repair handler did to the node, and its answer or the text it crashed with. -/
structure Repair where
  params : Dict
  error : String
  verdict : Except String Bool

/-- `RepairHandler.repair`. -/
abbrev RepairHandler := NodeRun → ToolError → Repair

/-- The registered tools and repair handlers, in registration order. -/
structure Env where
  tools : List (String × Tool) := []
  repairers : List (String × RepairHandler) := []

structure GraphScheduler where
  maxConcurrency : ℤ
  baseDir : String
  useAsyncio : Bool
  one_le_maxConcurrency : 1 ≤ maxConcurrency

/-- `GraphScheduler.__init__`. -/
def GraphScheduler.new (maxConcurrency : ℤ) (baseDir : String) (useAsyncio : Bool) : GraphScheduler :=
  ⟨max 1 maxConcurrency,baseDir,useAsyncio,le_max_left _ _⟩

/-- A submitted call. Its result is fixed when the tool starts; when it is seen is
up to the environment. -/
structure Future where
  nodeId : NodeId
  result : ToolResult

/-- A call that was handed to the pool: the node as dispatched and its context. -/
structure Call where
  nodeId : NodeId
  node : NodeRun
  ctx : ExecutionContext

/-- The scheduler's memory, the store, every content the store has had since the
call began (latest first), and the tool calls made so far (oldest first). -/
structure Sched where
  run : GraphRun
  futures : List Future := []
  store : Store
  saves : List Store := []
  calls : List Call := []

/-- An exception, and the state in which it left the scheduler. -/
structure Raised where
  error : PyError
  sched : Sched

/-- What the environment decides about one iteration. `done` names the calls seen
finished, for asyncio in the order in which the set of done tasks is walked. -/
structure Tick where
  env : Env := {}
  cancelled : Bool := false
  done : List NodeId := []

namespace Sched

def saveRun (s : Sched) : Sched :=
  let store := s.store.saveRun s.run
  { s with store, saves := store :: s.saves }

def saveNodeRun (s : Sched) (id : NodeId) : Sched :=
  let store := s.store.saveNodeRun s.run id
  { s with store, saves := store :: s.saves }

def setNode (s : Sched) (id : NodeId) (node : NodeRun) : Sched :=
  { s with run := s.run.setNode id node }

def setState (s : Sched) (state : RunState) : Sched := { s with run := { s.run with state } }

def transition (s : Sched) (id : NodeId) (target : NodeState) : Except Raised Sched :=
  match s.run.transition id target with
  | .ok run => .ok { s with run }
  | .error e => .error ⟨.transition e,s⟩

end Sched

/-- Pending or Ready nodes whose dependencies all succeeded. -/
def findReadyNodes (run : GraphRun) (t : GraphTemplate) : List NodeId :=
  (t.nodes.filter fun spec =>
    (run.nodes spec.id).state ∈ [NodeState.pending,.ready] ∧
      ∀ d ∈ spec.dependsOn, (run.nodes d).state = .succeeded).map (·.id)

def deadStates : List NodeState := [.failed,.cancelled,.blocked,.skipped]

/-- One pass over the listed specifications: pending nodes with a dead dependency
become Blocked. Returns the run and the ids blocked. -/
def blockPass : List NodeSpec → GraphRun → Except IllegalTransition (GraphRun × List NodeId)
  | [], run => .ok (run,[])
  | spec :: rest, run =>
    if (run.nodes spec.id).state ≠ .pending then blockPass rest run
    else if ∃ d ∈ spec.dependsOn, (run.nodes d).state ∈ deadStates then do
      let run ← run.transition spec.id .blocked
      let (run,blocked) ← blockPass rest run
      return (run,spec.id :: blocked)
    else blockPass rest run

def processBlocked (run : GraphRun) (t : GraphTemplate) :
    Except IllegalTransition (GraphRun × List NodeId) := blockPass t.nodes run

/-- `xs[:stop]`; a negative stop counts from the end. -/
def sliceTo {α : Type*} (xs : List α) (stop : ℤ) : List α :=
  if 0 ≤ stop then xs.take stop.toNat else xs.take (xs.length - stop.natAbs)

/-- `_execute_tool`. -/
def executeTool (env : Env) (spec : NodeSpec) (node : NodeRun) (ctx : ExecutionContext) : ToolResult :=
  match env.tools.lookup spec.tool with
  | none => .error (.toolError {
      message := "no tool registered for '" ++ spec.tool ++ "'", category := "config" })
  | some tool => tool node ctx

/-- `_repairer_for`. -/
def repairerFor (env : Env) (spec : NodeSpec) : Option RepairHandler :=
  match spec.repair with
  | some "" => none
  | some name => env.repairers.lookup name
  | none => env.repairers.head?.map (·.2)

namespace GraphScheduler
variable (g : GraphScheduler) (t : GraphTemplate)

/-- `ctx_base`. -/
def ctxBase (run : GraphRun) : String := g.baseDir ++ "/" ++ run.runId

/-- `_prepare_dispatch`. -/
def prepareDispatch (s : Sched) (id : NodeId) : Except Raised (Sched × NodeSpec × ExecutionContext) :=
  match t.node id with
  | none => .error ⟨.unknownNode id,s⟩
  | some spec => do
    let node := s.run.nodes id
    let s ←
      if node.paramsResolved then .ok s
      else match resolveParams t s.run spec.params with
        | .ok params => .ok (s.setNode id { node with params, paramsResolved := true })
        | .error e => .error ⟨.resolve e,s⟩
    let node := s.run.nodes id
    let s := s.setNode id { node with attempt := node.attempt + 1 }
    let s ← if node.state = .pending then s.transition id .ready else .ok s
    let s ← s.transition id .running
    let s := s.setNode id { s.run.nodes id with workdir := some (g.ctxBase s.run ++ "/" ++ id) }
    let s := s.saveNodeRun id
    let ctx : ExecutionContext := {
      baseDir := g.ctxBase s.run
      runId := s.run.runId
      upstream := spec.dependsOn.map fun d => (d,(s.run.nodes d).outputs)
      timeoutSeconds := spec.timeoutSeconds }
    return (s,spec,ctx)

/-- `pool.submit(self._execute_tool, ...)`, or a task of the event loop. -/
def submit (env : Env) (s : Sched) (id : NodeId) (spec : NodeSpec) (ctx : ExecutionContext) : Sched :=
  let node := s.run.nodes id
  { s with
    futures := s.futures ++ [⟨id,executeTool env spec node ctx⟩]
    calls := s.calls ++ [⟨id,node,ctx⟩] }

/-- The dispatch loop over `ready[:slots]`. -/
def dispatch (env : Env) : List NodeId → Sched → Except Raised Sched
  | [], s => .ok s
  | id :: rest, s => do
    let (s,spec,ctx) ← prepareDispatch g t s id
    dispatch env rest (submit env s id spec ctx)

end GraphScheduler

/-- `_handle_failure`. -/
def handleFailure (env : Env) (spec : NodeSpec) (s : Sched) (id : NodeId) (e : ToolError) :
    Except Raised Sched :=
  let s := s.setNode id { s.run.nodes id with error := some ("[" ++ e.category ++ "] " ++ e.message) }
  let node := s.run.nodes id
  match repairerFor env spec with
  | some repairer =>
    if e.repairable ∧ (node.repairAttempts : ℤ) < spec.maxRepairAttempts then do
      let s ← s.transition id .repairing
      let s := s.saveNodeRun id
      let node := s.run.nodes id
      let s := s.setNode id { node with repairAttempts := node.repairAttempts + 1 }
      let node := s.run.nodes id
      let repair := repairer node e
      let error := match repair.verdict with
        | .ok _ => repair.error
        | .error crash => repair.error ++ " | repair crashed: " ++ crash
      let repaired := match repair.verdict with
        | .ok answer => answer
        | .error _ => false
      let s := s.setNode id { node with params := repair.params, error := some error }
      s.transition id (if repaired then .ready else .failed)
    else if (node.attempt : ℤ) < spec.maxAttempts then s.transition id .ready
    else s.transition id .failed
  | none =>
    if (node.attempt : ℤ) < spec.maxAttempts then s.transition id .ready
    else s.transition id .failed

/-- `_finish`. -/
def finish (t : GraphTemplate) (env : Env) (s : Sched) (id : NodeId) (result : ToolResult) :
    Except Raised Sched :=
  let node := s.run.nodes id
  if node.state.Terminal then .ok s
  else match t.node id with
    | none => .error ⟨.unknownNode id,s⟩
    | some spec => do
      let s ← match result with
        | .ok outputs =>
          let s := s.setNode id { node with outputs, error := none }
          match s.run.transition id .succeeded with
          | .ok run => .ok { s with run }
          | .error e => handleFailure env spec s id { message := e.message }
        | .error (.toolError e) => handleFailure env spec s id e
        | .error (.crash message) => handleFailure env spec s id { message }
      return s.saveNodeRun id

/-- Pop the named calls one after the other and finish their nodes. -/
def collect (t : GraphTemplate) (env : Env) : List NodeId → Sched → Except Raised Sched
  | [], s => .ok s
  | id :: rest, s =>
    match s.futures.find? (·.nodeId = id) with
    | none => collect t env rest s
    | some fut => do
      let s ← finish t env { s with futures := s.futures.eraseP (·.nodeId = id) } id fut.result
      collect t env rest s

/-- The loop shared by `_cancel` and `_cancel_async`: running in-flight nodes become
Cancelled. -/
def cancelNodes : List NodeId → Sched → Except Raised Sched
  | [], s => .ok s
  | id :: rest, s =>
    if (s.run.nodes id).state = .running then do
      let s ← s.transition id .cancelled
      cancelNodes rest (s.saveNodeRun id)
    else cancelNodes rest s

/-- `_cancel` and `_cancel_async`; the `on_cancel` hook does not touch the run. -/
def cancel (s : Sched) : Except Raised Sched := do
  let s ← cancelNodes (s.futures.map (·.nodeId)) s
  return (s.setState .paused).saveRun

/-- All nodes are terminal: aggregate and persist the run state. -/
def conclude (t : GraphTemplate) (s : Sched) : Sched :=
  (s.setState (determineRunStatus (s.run.nodeStates t))).saveRun

def toOutcome : Except Raised Sched → (Sched → Outcome Sched PyError) → Outcome Sched PyError
  | .ok s, k => k s
  | .error r, _ => .raised r.error r.sched

namespace GraphScheduler
variable (g : GraphScheduler) (t : GraphTemplate)

/-- Block, find the ready nodes and dispatch within the free slots. -/
def launch (env : Env) (s : Sched) : Except Raised Sched :=
  match processBlocked s.run t with
  | .error e => .error ⟨.transition e,s⟩
  | .ok (run, _) =>
    let ready := findReadyNodes run t
    let slots := g.maxConcurrency - s.futures.length
    g.dispatch t env (sliceTo ready slots) { s with run }

/-- The exit test: the loop ends once nothing is ready and every node is terminal. -/
def exitTest (s : Sched) : Outcome Sched PyError :=
  if findReadyNodes s.run t = [] ∧ ∀ state ∈ s.run.nodeStates t, state.Terminal then
    .returned (conclude t s)
  else .loop s

/-- The rest of an iteration of `_run_threaded`: finished futures are collected in the
order in which they were submitted. -/
def harvestThreaded (i : Tick) (s : Sched) : Outcome Sched PyError :=
  toOutcome (collect t i.env ((s.futures.filter (·.nodeId ∈ i.done)).map (·.nodeId)) s) fun s =>
  if s.futures = [] then exitTest t s else .loop s

def tickThreaded (i : Tick) (s : Sched) : Outcome Sched PyError :=
  if i.cancelled then toOutcome (cancel s) .returned
  else toOutcome (g.launch t i.env s) (harvestThreaded t i)

/-- The rest of an iteration of `run_async`: a pending task is waited for, and only an
iteration without pending tasks tests for the end. -/
def harvestAsync (i : Tick) (s : Sched) : Outcome Sched PyError :=
  if s.futures = [] then exitTest t s
  else toOutcome (collect t i.env i.done s) .loop

def tickAsync (i : Tick) (s : Sched) : Outcome Sched PyError :=
  if i.cancelled then toOutcome (cancel s) .returned
  else toOutcome (g.launch t i.env s) (harvestAsync t i)

def tick (i : Tick) (s : Sched) : Outcome Sched PyError :=
  if g.useAsyncio then g.tickAsync t i s else g.tickThreaded t i s

/-- The first statements of both modes: the run is Running, in memory and on disk. -/
def enter (s : Sched) : Sched := (s.setState .running).saveRun

/-- `GraphScheduler.run` after `n` iterations. -/
def run (inputs : ℕ → Tick) (s : Sched) (n : ℕ) : Outcome Sched PyError :=
  exec (g.tick t) inputs (enter s) n

end GraphScheduler

end DftForge.Runtime
