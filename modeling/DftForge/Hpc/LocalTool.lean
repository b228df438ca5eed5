import DftForge.Hpc.RemoteTool

/-! # Local runs and their cancellation

`LocalExecutor._run_tool`, `_terminate_group` and `cancel_all`. Calls of `_run_tool` and
of `cancel_all` run in threads of their own: `Host.step` takes any of them one step
further, or lets a child process end, so a list of events is one interleaving. A step is
what happens between two points where another thread can be seen: a launch, one block
under `_proc_lock`, one signal or one return of `communicate` or `wait`.
-/
namespace DftForge.Hpc.Local
open DftForge.Python DftForge.Hpc

/-- The programs `_run_tool` is called with. -/
inductive Tool where
  | pw
  | bands
  | dos
  | projwfc
  deriving DecidableEq, Repr

def Tool.binary : Tool → String
  | .pw => "pw.x"
  | .bands => "bands.x"
  | .dos => "dos.x"
  | .projwfc => "projwfc.x"

inductive Signal where
  | sigterm
  | sigkill
  deriving DecidableEq, Repr

/-- Who runs `_terminate_group`. -/
inductive Killer where
  | cancelAll
  | timeout
  deriving DecidableEq, Repr

/-- Why a child process ended: of its own, by an exit or by a signal from outside of the
executor, or of a signal the executor sent it. -/
inductive Cause where
  | itself
  | killed (killer : Killer)
  deriving DecidableEq, Repr

structure Ending where
  cause : Cause
  /-- `Popen.returncode`: minus the number of the signal for a death by signal. -/
  returncode : ℤ
  stdout : Text
  stderr : Text
  deriving DecidableEq

structure Child where
  pid : ℕ
  received : List (Killer × Signal) := []
  ending : Option Ending := none
  /-- A `wait` or a `poll` has seen the end, and the process id is free again. -/
  reaped : Bool := false

namespace Child
variable (child : Child)

def running : Bool := child.ending.isNone

/-- A child ends of a signal only when it has received one, and of SIGKILL with status -9. -/
def MayEnd (e : Ending) : Prop :=
  match e.cause with
  | .itself => True
  | .killed killer =>
    (killer,Signal.sigterm) ∈ child.received ∨ (killer,Signal.sigkill) ∈ child.received ∧ e.returncode = -9

instance (e : Ending) : Decidable (child.MayEnd e) := by
  unfold MayEnd
  cases e.cause <;> infer_instance

end Child

/-- The arguments of one call of `_run_tool`, as its messages show them. -/
structure Request where
  tool : Tool
  inputFile : Text
  binPath : Text
  workdir : Text
  /-- `f"{timeout or self.max_walltime_sec}"`. -/
  limit : Text

namespace Request
variable (q : Request)

def inputMissing : JobResult :=
  { success := false, exitCode := -1, errorMessage := "Input file not found: ".toList ++ q.inputFile }

def binaryMissing : JobResult :=
  { success := false, exitCode := -1, errorMessage := "Binary not found: ".toList ++ q.binPath }

def launchFailed (e : Text) : JobResult :=
  { success := false, exitCode := -1
    errorMessage := "failed to launch ".toList ++ q.tool.binary.toList ++ ": ".toList ++ e
    remotePath := some q.workdir }

def timedOut (e : Ending) : JobResult :=
  { success := false, exitCode := -1, stdout := e.stdout, stderr := e.stderr
    errorMessage := q.tool.binary.toList ++ " timed out after ".toList ++ q.limit ++ "s".toList
    remotePath := some q.workdir }

def cancelledMessage : Text := q.tool.binary.toList ++ " cancelled by user".toList

/-- What the call returns once its child has ended and it has asked `_was_cancelled`. -/
def report (e : Ending) (cancelled : Bool) (outputFiles : List String) : JobResult :=
  if cancelled then
    { success := false, exitCode := e.returncode, stdout := e.stdout, stderr := e.stderr
      outputFiles, errorMessage := q.cancelledMessage, remotePath := some q.workdir }
  else
    { success := e.returncode = 0, exitCode := e.returncode, stdout := e.stdout, stderr := e.stderr
      outputFiles, errorMessage := if e.returncode ≠ 0 then e.stderr.take 1000 else []
      remotePath := some q.workdir }

end Request

/-- `_was_cancelled` of a child that has ended. -/
def wasCancelled (e : Ending) : Bool := e.returncode < 0

/-- How far `_run_tool` gets up to the launch. -/
inductive Opening where
  | noInput
  | noBinary
  | failed (e : Text)
  | child (pid : ℕ)

/-- Where a thread is in `_terminate_group`. -/
inductive Stage where
  | poll
  | sigterm
  | grace
  | sigkill
  | last
  deriving DecidableEq, Repr

/-- Where a thread is in `_run_tool`. -/
inductive Phase where
  | launched
  | communicating
  /-- In `_terminate_group` after the timeout. -/
  | stopping (stage : Stage)
  /-- In the second `communicate`. -/
  | draining
  | collected (cancelled : Bool)
  | expired
  | returned (r : JobResult)

structure Call where
  request : Request
  child : Option Child
  phase : Phase

namespace Call
variable (c : Call)

def ending : Option Ending := c.child.bind (·.ending)

def setPhase (phase : Phase) : Call := { c with phase }

/-- The end of the child has been seen. -/
def reap : Call := { c with child := c.child.map fun child => { child with reaped := true } }

/-- The process id names this child. -/
def holds (pid : ℕ) : Bool := c.child.any fun child => child.pid = pid ∧ child.reaped = false

/-- A signal to the process group. A child that has ended but not been reaped ignores it. -/
def receive (pid : ℕ) (killer : Killer) (signal : Signal) : Call :=
  if c.holds pid ∧ c.ending = none then
    { c with child := c.child.map fun child => { child with received := (killer,signal) :: child.received } }
  else c

def finishChild (e : Ending) : Call :=
  { c with child := c.child.map fun child =>
      if child.running ∧ child.MayEnd e then { child with ending := some e } else child }

def registered : Call :=
  match c.phase with
  | .launched => c.setPhase .communicating
  | _ => c

/-- `communicate` and the line after it: they wait for the end of the child. -/
def communicated : Call :=
  match c.phase, c.ending with
  | .communicating, some e => c.reap.setPhase (.collected (wasCancelled e))
  | .draining, some _ => c.reap.setPhase .expired
  | _, _ => c

def timeoutExpired : Call :=
  match c.phase with
  | .communicating => c.setPhase (.stopping .poll)
  | _ => c

/-- The result, once the call is done with its child. -/
def finish (outputFiles : List String) : Call :=
  match c.phase, c.ending with
  | .collected cancelled, some e => c.setPhase (.returned (c.request.report e cancelled outputFiles))
  | .expired, some e => c.setPhase (.returned (c.request.timedOut e))
  | _, _ => c

end Call

/-- A `cancel_all` after its snapshot: the processes it still has to terminate, where it is
with the first of them, and the number it returns. -/
structure Sweep where
  procs : List ℕ
  stage : Stage
  count : ℕ

/-- Calls are known by their places, and stand for the `Popen` objects. -/
structure Host where
  calls : List Call
  /-- `_running`: process ids with the calls that launched the processes. -/
  running : List (ℕ × ℕ)
  sweeps : List Sweep

inductive Event where
  /-- `_run_tool` is called and gets up to the launch. -/
  | runTool (q : Request) (opening : Opening)
  | register (k : ℕ)
  | ends (k : ℕ) (e : Ending)
  | communicated (k : ℕ)
  | timeoutExpired (k : ℕ)
  /-- The next step of the `_terminate_group` of the call itself; `late` says that a `wait` gives up. -/
  | stop (k : ℕ) (late : Bool)
  /-- The `finally` block and what follows it. -/
  | finish (k : ℕ) (outputFiles : List String)
  | cancelAll
  | sweep (j : ℕ) (late : Bool)

namespace Host
variable (h : Host)

def idle : Host := ⟨[],[],[]⟩

def modify (k : ℕ) (f : Call → Call) : Host := { h with calls := h.calls.modify k f }

/-- `killpg`, or `terminate` and `kill` where it fails. -/
def signal (pid : ℕ) (killer : Killer) (signal : Signal) : Host :=
  { h with calls := h.calls.map (·.receive pid killer signal) }

/-- The child of a call. -/
def child? (k : ℕ) : Option Child := h.calls[k]?.bind (·.child)

def ended (k : ℕ) : Bool := (h.child? k).any fun child => child.ending.isSome

/-- One step of `_terminate_group` on the child of call `k`, and the stage after it. -/
def terminateGroup (killer : Killer) (k : ℕ) (late : Bool) : Stage → Host × Option Stage
  | .poll => if h.ended k then (h.modify k (·.reap),none) else (h,some .sigterm)
  | .sigterm => (((h.child? k).map fun child => h.signal child.pid killer .sigterm).getD h,some .grace)
  | .grace =>
    if late then (h,some .sigkill)
    else if h.ended k then (h.modify k (·.reap),none) else (h,some .grace)
  | .sigkill => (((h.child? k).map fun child => h.signal child.pid killer .sigkill).getD h,some .last)
  | .last => if late then (h,none) else if h.ended k then (h.modify k (·.reap),none) else (h,some .last)

/-- `_running` once the call has done `self._running[proc.pid] = proc`. -/
def register (k : ℕ) : List (ℕ × ℕ) :=
  match h.calls[k]? with
  | some ⟨_,some child,.launched⟩ =>
    if h.running.any (·.1 = child.pid) then
      h.running.map fun entry => if entry.1 = child.pid then (child.pid,k) else entry
    else h.running ++ [(child.pid,k)]
  | _ => h.running

/-- `_running` once the call has done `self._running.pop(proc.pid, None)`. -/
def unregister (k : ℕ) : List (ℕ × ℕ) :=
  match h.calls[k]? with
  | some ⟨_,some child,.collected _⟩ => h.running.filter (·.1 ≠ child.pid)
  | some ⟨_,some child,.expired⟩ => h.running.filter (·.1 ≠ child.pid)
  | _ => h.running

/-- The registered processes, each polled. -/
def snapshot : List ℕ := (h.running.map (·.2)).filter fun k => !h.ended k

/-- A poll sees the end of a registered process. -/
def polled : List Call :=
  h.calls.mapIdx fun k c => if k ∈ h.running.map (·.2) ∧ h.ended k then c.reap else c

/-- The operating system gives out process ids that are free. -/
def opened (q : Request) : Opening → List Call
  | .noInput => [⟨q,none,.returned q.inputMissing⟩]
  | .noBinary => [⟨q,none,.returned q.binaryMissing⟩]
  | .failed e => [⟨q,none,.returned (q.launchFailed e)⟩]
  | .child pid => if h.calls.any (·.holds pid) then [] else [⟨q,some { pid },.launched⟩]

def step : Event → Host
  | .runTool q opening => { h with calls := h.calls ++ h.opened q opening }
  | .register k => { h.modify k (·.registered) with running := h.register k }
  | .ends k e => h.modify k (·.finishChild e)
  | .communicated k => h.modify k (·.communicated)
  | .timeoutExpired k => h.modify k (·.timeoutExpired)
  | .stop k late =>
    match h.calls[k]? with
    | some ⟨_,_,.stopping stage⟩ =>
      match h.terminateGroup .timeout k late stage with
      | (h',some next) => h'.modify k (·.setPhase (.stopping next))
      | (h',none) => h'.modify k (·.setPhase .draining)
    | _ => h
  | .finish k outputFiles => { h.modify k (·.finish outputFiles) with running := h.unregister k }
  | .cancelAll =>
    { h with calls := h.polled, sweeps := h.sweeps ++ [⟨h.snapshot,.poll,h.snapshot.length⟩] }
  | .sweep j late =>
    match h.sweeps[j]? with
    | some ⟨k :: rest,stage,count⟩ =>
      match h.terminateGroup .cancelAll k late stage with
      | (h',some next) => { h' with sweeps := h'.sweeps.set j ⟨k :: rest,next,count⟩ }
      | (h',none) => { h' with sweeps := h'.sweeps.set j ⟨rest,.poll,count⟩ }
    | _ => h

end Host

end DftForge.Hpc.Local
