import DftForge.Python.Text

/-! # Job states and the scheduler adapters

Answers of the command runner, the two tables from scheduler words to job states,
and `get_job_status` of the SLURM and the PBS adapter as functions of the answers
to their queries.
-/
namespace DftForge.Hpc
open DftForge.Library DftForge.Runtime DftForge.Python

inductive JobStatus where
  | pending
  | running
  | completed
  | failed
  | cancelled
  | timeout
  deriving DecidableEq, Repr

def JobStatus.value : JobStatus → String
  | .pending => "pending"
  | .running => "running"
  | .completed => "completed"
  | .failed => "failed"
  | .cancelled => "cancelled"
  | .timeout => "timeout"

/-- The states `_poll_scheduler` stops at. -/
def terminalStatuses : List JobStatus := [.completed,.failed,.cancelled,.timeout]

def JobStatus.Terminal (s : JobStatus) : Prop := s ∈ terminalStatuses

instance : DecidablePred JobStatus.Terminal := fun s =>
  inferInstanceAs (Decidable (s ∈ terminalStatuses))

structure CommandResult where
  exitCode : ℤ
  stdout : Text := []
  stderr : Text := []
  deriving DecidableEq

def CommandResult.ok (r : CommandResult) : Bool := r.exitCode = 0

/-- What `SSHRunner.run` answers when the ssh process itself runs out of time. -/
def sshTimedOut (timeout : Text) : CommandResult :=
  { exitCode := -1, stderr := "ssh timed out after ".toList ++ timeout ++ "s".toList }

namespace SlurmScheduler

/-- `STATUS_MAP`. -/
def statusMap : List (String × JobStatus) := [
  ("PENDING",.pending), ("RUNNING",.running), ("COMPLETED",.completed), ("FAILED",.failed),
  ("CANCELLED",.cancelled), ("TIMEOUT",.failed), ("NODE_FAIL",.failed), ("OUT_OF_MEMORY",.failed),
  ("PREEMPTED",.cancelled), ("SUSPENDED",.pending), ("CONFIGURING",.pending), ("COMPLETING",.running)]

/-- The first word of a state text, without the plus signs at its end. -/
def stateToken (state : Text) : Text :=
  match words state with
  | [] => []
  | w :: _ => rstripOf (· = '+') w

/-- `_map`. -/
def map (state : Text) : JobStatus :=
  (statusMap.lookup (String.ofList (stateToken state))).getD .failed

/-- The state text on the first `squeue` line about the job. -/
def squeueState (jobId : Text) (result : CommandResult) : Option Text :=
  if result.ok then
    (splitLines (strip result.stdout)).findSome? fun line =>
      match splitChar '|' line with
      | id :: state :: _ => if id = jobId then some state else none
      | _ => none
  else none

/-- The state text on the first `sacct` line about the job itself. -/
def sacctState (jobId : Text) (result : CommandResult) : Option Text :=
  if result.ok then
    (splitLines (strip result.stdout)).findSome? fun line =>
      match splitChar '|' line with
      | id :: state :: _ => if '.' ∉ id ∧ id = jobId then some (strip state) else none
      | _ => none
  else none

/-- The state text that counts. -/
def stateText (jobId : Text) (squeue sacct : CommandResult) : Option Text :=
  (squeueState jobId squeue).or (sacctState jobId sacct)

/-- `get_job_status`: `sacct` is asked when `squeue` has no line about the job. -/
def getJobStatus (jobId : Text) (squeue sacct : CommandResult) : Option JobStatus :=
  match squeueState jobId squeue with
  | some state => some (map state)
  | none => (sacctState jobId sacct).map map

end SlurmScheduler

namespace PbsScheduler

/-- `STATUS_MAP`. -/
def statusMap : List (String × JobStatus) := [
  ("Q",.pending), ("H",.pending), ("W",.pending), ("T",.pending), ("R",.running), ("E",.running),
  ("S",.running), ("C",.completed), ("F",.failed)]

/-- `get_job_status`. -/
def getJobStatus (qstat : CommandResult) : Option JobStatus :=
  if qstat.ok then
    (splitLines qstat.stdout).findSome? fun line =>
      if contains line "job_state" ∧ '=' ∈ line then
        let state := (strip (line.dropWhile (· ≠ '=')).tail).take 1
        some ((statusMap.lookup (String.ofList state)).getD .failed)
      else none
  else none

end PbsScheduler

theorem SlurmScheduler.getJobStatus_eq (jobId : Text) (squeue sacct : CommandResult) :
    SlurmScheduler.getJobStatus jobId squeue sacct =
      (SlurmScheduler.stateText jobId squeue sacct).map SlurmScheduler.map := by
  unfold SlurmScheduler.getJobStatus SlurmScheduler.stateText
  cases SlurmScheduler.squeueState jobId squeue <;> rfl

example : SlurmScheduler.map "CANCELLED by 1234".toList = .cancelled := by decide +kernel

end DftForge.Hpc
