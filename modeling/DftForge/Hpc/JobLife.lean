import DftForge.Hpc.RemoteTool

/-! # The life of remote jobs

The job registry of `SSHExecutor` under its six public methods and under remote
calls that are still running: a method is one step, a running call takes one step
for each answer it gets. A call keeps the record object it created, also when the
job id is staged again, so records live in a heap. Beside each record stands what the
scheduler and the remote shell have said of its job, which no method writes.
-/
namespace DftForge.Hpc
open DftForge.Library DftForge.Runtime DftForge.Python

abbrev JobId := String

/-- The entries of a registry record that the life cycle reads. -/
structure JobRecord where
  state : String := "staged"
  schedId : Option Text := none

/-- What is known of a job from the answers of the scheduler and of the remote shell. -/
inductive Phase where
  /-- Nothing has been started. -/
  | staged
  /-- It was submitted or launched, or last reported as pending or running. -/
  | live
  /-- It was reported to have ended, or it will not be started any more. -/
  | ended
  deriving DecidableEq, Repr

/-- A job given up: what has not been started never will be, and what is live stays so. -/
def Phase.giveUp : Phase → Phase
  | .live => .live
  | _ => .ended

/-- What the scheduler reports. -/
def Phase.reported (status : JobStatus) : Phase := if status.Terminal then .ended else .live

/-- A record with the phase of its job, and whether a cancel of it has succeeded. No operation
reads these two. -/
structure Cell where
  record : JobRecord := {}
  phase : Phase := .staged
  cancelled : Bool := false

/-- A `_run_remote_tool` that has not returned, and the address of its record. -/
structure InFlight where
  address : ℕ
  job : ToolCall
  stage : Stage := .uploading

structure Jobs where
  heap : ℕ → Cell := fun _ => {}
  next : ℕ := 0
  registry : List (JobId × ℕ) := []
  tools : List InFlight := []

/-- `_STATE_TO_STATUS`. -/
def stateToStatus : List (String × JobStatus) := [
  ("staged",.pending), ("submitted",.pending), ("running",.running), ("pending",.pending),
  ("completed",.completed), ("failed",.failed), ("cancelled",.cancelled), ("timeout",.timeout)]

/-- `_STATE_TO_STATUS.get(state, JobStatus.PENDING)`. -/
def statusOf (state : String) : JobStatus := (stateToStatus.lookup state).getD .pending

/-- The states in which a job counts as live. -/
def liveStates : List String := ["staged","submitted","running"]

/-- `record["state"] = state`. -/
def Cell.put (c : Cell) (state : String) : Cell := { c with record := { c.record with state } }

/-- Something is learned of the job. -/
def Cell.hear (c : Cell) (f : Phase → Phase) : Cell := { c with phase := f c.phase }

/-- `record["scheduler_job_id"] = id`. -/
def Cell.setSchedId (c : Cell) (schedId : Option Text) : Cell :=
  { c with record := { c.record with schedId } }

/-- What `cancel` does to the record: `ok` is what it returns, `accepted` whether the job was ended. -/
def Cell.cancel (c : Cell) (ok accepted : Bool) : Cell :=
  { record := { c.record with state := "cancelled" }
    phase := if accepted then .ended else c.phase.giveUp
    cancelled := c.cancelled || ok }

/-- `d[id] = address` on an insertion-ordered dictionary. -/
def setEntry (id : JobId) (address : ℕ) : List (JobId × ℕ) → List (JobId × ℕ)
  | [] => [(id,address)]
  | (k, a) :: rest => if k = id then (id,address) :: rest else (k,a) :: setEntry id address rest

namespace Jobs
variable (s : Jobs)

def record (id : JobId) : Option ℕ := s.registry.lookup id

def update (a : ℕ) (f : Cell → Cell) : Jobs :=
  { s with heap := Function.update s.heap a (f (s.heap a)) }

/-- A new record under the given id. -/
def stage (id : JobId) : Jobs :=
  { s with
    heap := Function.update s.heap s.next {}
    next := s.next + 1
    registry := setEntry id s.next s.registry }

/-- `_job_registry.setdefault`. -/
def setDefault (id : JobId) : Jobs := if (s.record id).isSome then s else s.stage id

end Jobs

/-- How a `submit` goes on the outside; in direct mode the remote command has answered. -/
inductive SubmitOutcome where
  | inputMissing
  | uploadFailed
  | scheduler (ok : Bool) (schedId : Option Text)
  | direct (res : CommandResult)

section Outcomes
variable (tr : Transport)

/-- The last state string `submit` writes; without a marker the exit status is 0. -/
def SubmitOutcome.state : SubmitOutcome → String
  | .inputMissing => "failed"
  | .uploadFailed => "failed"
  | .scheduler ok _ => if ok then "submitted" else "failed"
  | .direct res => if (reportedExit tr.unicode res.stdout).getD 0 = 0 then "completed" else "failed"

/-- What the outcome says of the job. A command that came back without its marker has been launched. -/
def SubmitOutcome.heard (phase : Phase) : SubmitOutcome → Phase
  | .inputMissing => phase.giveUp
  | .uploadFailed => phase.giveUp
  | .scheduler ok _ => if ok then .live else phase.giveUp
  | .direct res => if (reportedExit tr.unicode res.stdout).isSome then .ended else .live

/-- What an answer to a running call says of its job. After the upload the call launches the job itself,
unless a scheduler does. -/
def heardAnswer (scheduled : Bool) (stage : Stage) (answer : Answer) (phase : Phase) : Phase :=
  match stage, answer with
  | .uploading, .upload (.ok _) => if scheduled then phase else .live
  | .uploading, .upload (.error _) => phase.giveUp
  | .submitting, .submit ok _ _ => if ok then .live else phase.giveUp
  | .polling _, .poll (some status) => .reported status
  | .polling _, .deadline => phase.giveUp
  | .running, .run res => if (reportedExit tr.unicode res.stdout).isSome then .ended else phase
  | .downloading _, .download _ => phase.giveUp
  | _, _ => phase

end Outcomes

inductive Op where
  | stage (id : JobId)
  | submit (id : JobId) (outcome : SubmitOutcome)
  | status (id : JobId) (answer : Option JobStatus)
  | fetch (id : JobId) (downloadRaises : Bool)
  | cancel (id : JobId) (accepted : Bool)
  | cancelAll (accepted : JobId → Bool)
  | toolStart (id : JobId) (job : ToolCall)
  | toolAnswer (tool : ℕ) (answer : Answer)

variable (tr : Transport) (scheduled : Bool)

/-- A scheduler is asked about the record, and not the remote shell. -/
def viaScheduler (r : JobRecord) : Bool := scheduled && r.schedId.any (· ≠ [])

namespace Jobs
variable (s : Jobs)

def submit (id : JobId) (outcome : SubmitOutcome) : Jobs :=
  let s := s.setDefault id
  match s.record id with
  | none => s
  | some a =>
    let s := match outcome with
      | .scheduler _ schedId => s.update a (·.setSchedId schedId)
      | _ => s
    s.update a fun c => (c.hear (outcome.heard tr)).put (outcome.state tr)

def status (id : JobId) (answer : Option JobStatus) : Jobs × JobStatus :=
  match s.record id with
  | none => (s,.pending)
  | some a =>
    if viaScheduler scheduled (s.heap a).record then
      match answer with
      | some status => (s.update a fun c => (c.hear fun _ => .reported status).put status.value,status)
      | none => (s,statusOf (s.heap a).record.state)
    else (s,statusOf (s.heap a).record.state)

/-- Whether `fetch` reports success; an unknown job has no state to hold it back. -/
def fetch (id : JobId) (downloadRaises : Bool) : Bool :=
  match s.record id with
  | none => !downloadRaises
  | some a => (s.heap a).record.state ∉ liveStates && !downloadRaises

/-- `accepted` says whether the job was ended, by the scheduler or, in direct mode, by `pkill`; the latter
always counts as done. -/
def cancel (id : JobId) (accepted : Bool) : Jobs × Bool :=
  match s.record id with
  | none => (s,false)
  | some a =>
    let ok := !viaScheduler scheduled (s.heap a).record || accepted
    (s.update a (·.cancel ok accepted),ok)

/-- The loop of `cancel_all` over the registry entries: the ids it tries to cancel. -/
def cancelEach (accepted : JobId → Bool) : List (JobId × ℕ) → Jobs → Jobs × List JobId
  | [], s => (s,[])
  | (id, a) :: rest, s =>
    if (s.heap a).record.state ∈ liveStates then
      let (s,ids) := cancelEach accepted rest (s.cancel scheduled id (accepted id)).1
      (s,id :: ids)
    else cancelEach accepted rest s

def cancelAll (accepted : JobId → Bool) : Jobs × List JobId :=
  cancelEach scheduled accepted s.registry s

def toolStart (id : JobId) (job : ToolCall) : Jobs :=
  let address := s.next
  let s := (s.stage id).update address (·.put "running")
  { s with tools := s.tools ++ [{ address, job }] }

/-- The scheduler id that comes with the answer to a submission. -/
def noteSchedId (stage : Stage) (answer : Answer) (c : Cell) : Cell :=
  match stage, answer with
  | .submitting, .submit _ _ schedId => c.setSchedId schedId
  | _, _ => c

/-- What a call learns of its job on an answer, and what it writes into its record. -/
def writeAnswer (t : InFlight) (answer : Answer) (written : Option String) : Jobs :=
  let s := s.update t.address fun c => (noteSchedId t.stage answer c).hear (heardAnswer tr scheduled t.stage answer)
  match written with
  | some state => s.update t.address (·.put state)
  | none => s

def toolAnswer (tool : ℕ) (answer : Answer) : Jobs :=
  match s.tools[tool]? with
  | none => s
  | some t =>
    let (stage,written) := toolStep tr t.job scheduled t.stage answer
    let s := s.writeAnswer tr scheduled t answer written
    { s with tools := s.tools.set tool { t with stage } }

def step : Op → Jobs
  | .stage id => s.stage id
  | .submit id outcome => s.submit tr id outcome
  | .status id answer => (s.status scheduled id answer).1
  | .fetch _ _ => s
  | .cancel id accepted => (s.cancel scheduled id accepted).1
  | .cancelAll accepted => (s.cancelAll scheduled accepted).1
  | .toolStart id job => s.toolStart id job
  | .toolAnswer tool answer => s.toolAnswer tr scheduled tool answer

end Jobs
end DftForge.Hpc
