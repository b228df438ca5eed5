import DftForge.Hpc.Scheduler

/-! # Remote runs over a command runner

`SSHExecutor._run_remote_tool`: the upload, the run in direct mode or through a
scheduler, and the download. The answers of the command runner and the local `tar`
are inputs. `toolStep` says what the call does with one answer and what it writes
into its job record; `runDirectMode` and `runScheduled` are whole calls.
-/
namespace DftForge.Hpc
open DftForge.Library DftForge.Runtime DftForge.Python

/-- A local directory: file names with their contents. -/
abbrev Files := List (String × Text)

/-- What the local `tar -x` did with a decoded payload: the files it wrote, and
whether it exited with status 0. -/
structure Extraction where
  files : Files
  ok : Bool

/-- The programs and conversions outside the repository. -/
structure Transport where
  /-- Length of the base64 text of `tar -c` of a directory, or the text of the error. -/
  pack : Files → Except Text ℕ
  /-- `base64.b64decode` of a text, when it decodes, and `tar -x` of the payload. -/
  unpack : Text → Option Extraction
  /-- `str` of a float. -/
  shown : ℚ → Text
  shown_plain : ∀ q, ∀ c ∈ shown q, c ∈ "0123456789.e+-".toList
  unicode : Unicode

structure JobResult where
  success : Bool
  exitCode : ℤ
  stdout : Text := []
  stderr : Text := []
  outputFiles : List String := []
  jobDone : Bool := false
  scfConverged : Bool := false
  errorMessage : Text := []
  schedulerJobId : Option Text := none
  remotePath : Option Text := none

/-- What one call of `_run_remote_tool` is about. -/
structure ToolCall where
  binary : String
  inputFile : String
  /-- Name of the input file without its suffix. -/
  stem : String
  inputExists : Bool := true
  timeout : Option ℚ := none
  maxWalltimeSec : ℤ
  remoteDir : Text

namespace ToolCall
variable (job : ToolCall)

/-- `timeout or self.max_walltime_sec`. -/
def limit : ℚ :=
  match job.timeout with
  | some t => if t = 0 then job.maxWalltimeSec else t
  | none => job.maxWalltimeSec

/-- `f"{timeout or self.max_walltime_sec}"`. -/
def limitText (shown : ℚ → Text) : Text :=
  match job.timeout with
  | some t => if t = 0 then (toString job.maxWalltimeSec).toList else shown t
  | none => (toString job.maxWalltimeSec).toList

/-- `int(timeout or self.max_walltime_sec)`. -/
def walltime : ℤ := if job.limit < 0 then ⌈job.limit⌉ else ⌊job.limit⌋

end ToolCall

/-- `DFTFORGE_EXIT_(-?\d+)`. -/
def exitMarker (u : Unicode) : Re.Pattern :=
  .seq (Re.lit "DFTFORGE_EXIT_") (.group 1 (.seq (Regex.opt (Re.lit "-")) (Regex.plus (Re.digit u))))

/-- The exit status the remote shell printed. -/
def reportedExit (u : Unicode) (stdout : Text) : Option ℤ :=
  (Regex.search (exitMarker u) stdout).map fun m => intOf u (m.group 1)

variable (tr : Transport)

def timedOutMessage (binary : String) (walltime : ℤ) : Text :=
  binary.toList ++ " timed out after ".toList ++ (toString walltime).toList ++ "s".toList

/-- `_run_direct` on the answer to the remote command: without a marker the exit
status is 0. -/
def runDirect (job : ToolCall) (res : CommandResult) : CommandResult :=
  let exitCode := (reportedExit tr.unicode res.stdout).getD 0
  { exitCode
    stdout := res.stdout
    stderr := if exitCode = 124 then timedOutMessage job.binary job.walltime else res.stderr }

/-- `_upload_dir` on the answer to the remote `tar`; the answers to the commands
before it are not looked at. -/
def uploadDir (packed : Except Text ℕ) (untar : CommandResult) : Except Text Unit :=
  match packed with
  | .error message => .error message
  | .ok _ =>
    if untar.ok then .ok ()
    else .error ("remote untar failed: ".toList ++ (strip untar.stderr).take 200)

/-- `tar -x` writes over the files that are there. -/
def Files.extract (dir : Files) (e : Extraction) : Files := e.files ++ dir

/-- `path.read_text()` of a file in the directory, empty when there is none. -/
def Files.read (dir : Files) (name : String) : Text := (dir.lookup name).getD []

/-- What the answer to the remote `tar -c` unpacks to, if anything. -/
def downloaded (res : CommandResult) : Option Extraction :=
  if !res.ok || strip res.stdout = [] then none else tr.unpack (strip res.stdout)

/-- `_download_dir`: the files it names and the directory it leaves behind. -/
def downloadDir (dir : Files) (res : CommandResult) : List String × Files :=
  match downloaded tr res with
  | none => ([],dir)
  | some e => (if e.ok then ((dir.extract e).map (·.1)).dedup.mergeSort else [],dir.extract e)

/-- What a remote call waits for. -/
inductive Stage where
  | uploading
  | submitting
  | polling (schedId : Text)
  | running
  | downloading (schedId : Option Text)
  | returned (result : JobResult)

/-- What it is told. `_download_dir` raises only what the operating system raises. -/
inductive Answer where
  | upload (outcome : Except Text Unit)
  | submit (ok : Bool) (message : Text) (schedId : Option Text)
  | poll (status : Option JobStatus)
  | deadline
  | run (result : CommandResult)
  | download (outcome : Except Text (List String × Files))

def failure (job : ToolCall) (exitCode : ℤ) (message : Text) (schedId : Option Text) : JobResult :=
  { success := false, exitCode, errorMessage := message, schedulerJobId := schedId
    remotePath := some job.remoteDir }

/-- The result of a call whose outputs are back. -/
def success (job : ToolCall) (schedId : Option Text) (files : List String) (dir : Files) : JobResult :=
  let stdout := dir.read (job.stem ++ ".out")
  { success := job.binary ≠ "pw.x" || contains stdout "JOB DONE"
    exitCode := 0
    stdout
    stderr := dir.read (job.stem ++ ".err")
    outputFiles := files
    jobDone := contains stdout "JOB DONE"
    scfConverged := contains (lower stdout) "convergence has been achieved"
    schedulerJobId := schedId
    remotePath := some job.remoteDir }

/-- `f"job ended in state {state_name}"`. -/
def endedMessage (state : String) : Text := "job ended in state ".toList ++ state.toList

/-- `result.stderr.strip()[:500] or f"{binary} exited {result.exit_code}"`. -/
def exitedMessage (job : ToolCall) (result : CommandResult) : Text :=
  match (strip result.stderr).take 500 with
  | [] => job.binary.toList ++ " exited ".toList ++ (toString result.exitCode).toList
  | message => message

section Answers
variable (job : ToolCall)

def afterUpload (scheduled : Bool) : Except Text Unit → Stage × Option String
  | .error message =>
    (.returned (failure job (-1) ("upload failed: ".toList ++ message) none),some "failed")
  | .ok _ => (if scheduled then .submitting else .running,none)

def afterSubmit (ok : Bool) (message : Text) (schedId : Option Text) : Stage × Option String :=
  if ok then (.polling (schedId.getD []),none)
  else (.returned (failure job (-1) ("scheduler submit failed: ".toList ++ message) none),some "failed")

def afterPoll (schedId : Text) : Option JobStatus → Stage × Option String
  | none => (.polling schedId,none)
  | some .completed => (.downloading (some schedId),none)
  | some status =>
    if status.Terminal then
      (.returned (failure job (-1) (endedMessage status.value) (some schedId)),some "failed")
    else (.polling schedId,none)

def afterDeadline (schedId : Text) : Stage × Option String :=
  (.returned (failure job (-1) (endedMessage "timeout") (some schedId)),some "timeout")

def afterRun (res : CommandResult) : Stage × Option String :=
  let result := runDirect tr job res
  if result.ok then (.downloading none,none)
  else (.returned (failure job result.exitCode (exitedMessage job result) none),some "failed")

def afterDownload (schedId : Option Text) : Except Text (List String × Files) → Stage × Option String
  | .error message =>
    (.returned (failure job (-1) ("download failed: ".toList ++ message) none),some "failed")
  | .ok (files, dir) => (.returned (success job schedId files dir),some "completed")

/-- One answer: the next stage, and the state string written into the job record. An
answer to another question than the one asked changes nothing. -/
def toolStep (scheduled : Bool) (stage : Stage) (answer : Answer) : Stage × Option String :=
  match stage, answer with
  | .uploading, .upload outcome => afterUpload job scheduled outcome
  | .submitting, .submit ok message schedId => afterSubmit job ok message schedId
  | .polling schedId, .poll status => afterPoll job schedId status
  | .polling schedId, .deadline => afterDeadline job schedId
  | .running, .run res => afterRun tr job res
  | .downloading schedId, .download outcome => afterDownload job schedId outcome
  | stage, _ => (stage,none)

end Answers

/-- The stage after a list of answers. -/
def runStages (job : ToolCall) (scheduled : Bool) (stage : Stage) (answers : List Answer) : Stage :=
  answers.foldl (fun stage answer => (toolStep tr job scheduled stage answer).1) stage

/-- `_B64_CHUNK`. -/
def b64Chunk : ℕ := 48000

/-- The commands of an upload before its `tar`: one that makes the directory, and
one for each chunk. -/
def uploadCommands : Except Text ℕ → ℕ
  | .error _ => 0
  | .ok length => 1 + (length + b64Chunk - 1) / b64Chunk

/-- `f"Input file not found: {input_file}"`. -/
def missingInput (job : ToolCall) : JobResult :=
  { success := false, exitCode := -1
    errorMessage := "Input file not found: ".toList ++ job.inputFile.toList }

/-- The end of a call whose run is over. -/
def fetchOutputs (job : ToolCall) (schedId : Option Text) (dir : Files) (res : CommandResult) :
    JobResult × Files :=
  let (files,dir') := downloadDir tr dir res
  (success job schedId files dir',dir')

/-- A whole call in direct mode: `script n` is the answer to its `n`-th remote
command. Returns the result and the local directory it leaves behind. -/
def runDirectMode (job : ToolCall) (dir : Files) (script : ℕ → CommandResult) : JobResult × Files :=
  if !job.inputExists then (missingInput job,dir)
  else
    let packed := tr.pack dir
    let sent := uploadCommands packed
    match uploadDir packed (script sent) with
    | .error message => (failure job (-1) ("upload failed: ".toList ++ message) none,dir)
    | .ok _ =>
      let result := runDirect tr job (script (sent + 1))
      if result.ok then fetchOutputs tr job none dir (script (sent + 2))
      else
        (failure job result.exitCode (exitedMessage job result) none,
          (downloadDir tr dir (script (sent + 2))).2)

/-- `_poll_scheduler` on the answers that come before the deadline. -/
def pollScheduler (polls : List (Option JobStatus)) : Option JobStatus :=
  (polls.find? fun status => decide (∃ s ∈ status, s.Terminal)).join

/-- A whole call through a scheduler: the answer to the remote `tar`, the outcome of
`submit_job`, the states polled before the deadline and the answer to the download. -/
def runScheduled (job : ToolCall) (dir : Files) (untar : CommandResult)
    (submitted : Bool × Text × Option Text) (polls : List (Option JobStatus))
    (download : CommandResult) : JobResult × Files :=
  if !job.inputExists then (missingInput job,dir)
  else match uploadDir (tr.pack dir) untar with
    | .error message => (failure job (-1) ("upload failed: ".toList ++ message) none,dir)
    | .ok _ =>
      let (ok,message,schedId) := submitted
      if !ok then (failure job (-1) ("scheduler submit failed: ".toList ++ message) none,dir)
      else match pollScheduler polls with
        | some .completed => fetchOutputs tr job schedId dir download
        | some status => (failure job (-1) (endedMessage status.value) schedId,dir)
        | none => (failure job (-1) (endedMessage "timeout") schedId,dir)

/-- Going through the stages one answer at a time gives the result of the whole call. -/
theorem runStages_direct {job : ToolCall} (hinput : job.inputExists = true) (dir : Files)
    (script : ℕ → CommandResult) :
    let sent := uploadCommands (tr.pack dir)
    runStages tr job false .uploading [.upload (uploadDir (tr.pack dir) (script sent)),
      .run (script (sent + 1)), .download (.ok (downloadDir tr dir (script (sent + 2))))] =
    .returned (runDirectMode tr job dir script).1 := by
  intro sent
  simp only [runStages,List.foldl_cons,List.foldl_nil,runDirectMode,hinput]
  cases hup : uploadDir (tr.pack dir) (script sent) with
  | error message => simp only [toolStep,afterUpload,sent,Bool.not_true,Bool.false_eq_true,if_false]
  | ok _ =>
    cases hrun : (runDirect tr job (script (sent + 1))).ok with
    | false =>
      simp only [toolStep,afterUpload,afterRun,sent,hrun,Bool.not_true,Bool.false_eq_true,if_false]
    | true =>
      simp only [toolStep,afterUpload,afterRun,afterDownload,fetchOutputs,sent,hrun,Bool.not_true,
        Bool.false_eq_true,if_false,if_true]

/-- The local `tar` of a directory with one small file gives one block of 10240 bytes. -/
def oneBlock : Transport :=
  { pack := fun _ => .ok 13656, unpack := fun _ => none, shown := fun _ => ['6','0','.','0']
    shown_plain := fun _ => by simp, unicode := {} }

end DftForge.Hpc
