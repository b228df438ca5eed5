import DftForge.Hpc.RemoteTool

/-! # What a successful remote run stands for

Direct mode has three silent fallbacks: no exit marker counts as status 0, a
download that fails counts as an empty one, and a missing output file is read from
whatever the local directory already holds. A reported success is real exactly when
none of them is taken, or a later check stops the run all the same.
-/
namespace DftForge.Hpc
open DftForge.Library DftForge.Runtime DftForge.Python

variable (tr : Transport)

/-- The three remote answers a call in direct mode looks at. -/
structure DirectAnswers where
  untar : CommandResult
  run : CommandResult
  download : CommandResult

def answersOf (dir : Files) (script : ℕ → CommandResult) : DirectAnswers :=
  let sent := uploadCommands (tr.pack dir)
  ⟨script sent,script (sent + 1),script (sent + 2)⟩

/-- The remote shell reported status 0 for the run, its directory came back, and the
output text is the file that came with it. -/
structure Genuine (job : ToolCall) (answers : DirectAnswers) (stdout : Text) : Prop where
  exit : reportedExit tr.unicode answers.run.stdout = some 0
  fetched : ∃ e, downloaded tr answers.download = some e ∧ e.ok = true ∧
    e.files.lookup (job.stem ++ ".out") = some stdout

/-- No fallback is taken: there is a marker and it reads 0, and the download unpacks
and holds the output file. -/
def Delivered (job : ToolCall) (answers : DirectAnswers) : Prop :=
  reportedExit tr.unicode answers.run.stdout = some 0 ∧
    ∃ e, downloaded tr answers.download = some e ∧ e.ok = true ∧
      (e.files.lookup (job.stem ++ ".out")).isSome = true

/-- A check that does not rest on a fallback ends the call without success. -/
inductive Stopped (job : ToolCall) (dir : Files) (answers : DirectAnswers) : Prop where
  | input (h : job.inputExists = false)
  | upload (message : Text) (h : uploadDir (tr.pack dir) answers.untar = .error message)
  | exit (code : ℤ) (h : reportedExit tr.unicode answers.run.stdout = some code) (hcode : code ≠ 0)
  | notDone (hbinary : job.binary = "pw.x")
      (h : contains ((downloadDir tr dir answers.download).2.read (job.stem ++ ".out")) "JOB DONE" = false)

variable {tr} {job : ToolCall} {dir : Files} {script : ℕ → CommandResult}

theorem runDirect_ok (res : CommandResult) :
    (runDirect tr job res).ok = true ↔ ∀ code, reportedExit tr.unicode res.stdout = some code → code = 0 := by
  unfold runDirect CommandResult.ok
  cases reportedExit tr.unicode res.stdout <;> simp

theorem runDirectMode_finished (hinput : job.inputExists = true)
    (hupload : uploadDir (tr.pack dir) (answersOf tr dir script).untar = .ok ())
    (hrun : (runDirect tr job (answersOf tr dir script).run).ok = true) :
    (runDirectMode tr job dir script).1 =
      (fetchOutputs tr job none dir (answersOf tr dir script).download).1 := by
  simp only [answersOf] at hupload hrun ⊢
  simp only [runDirectMode,hinput,hupload,hrun,Bool.not_true,Bool.false_eq_true,if_false,if_true]

theorem runDirectMode_failed (hinput : job.inputExists = true)
    (hupload : uploadDir (tr.pack dir) (answersOf tr dir script).untar = .ok ())
    (hrun : (runDirect tr job (answersOf tr dir script).run).ok = false) :
    (runDirectMode tr job dir script).1 =
      failure job (runDirect tr job (answersOf tr dir script).run).exitCode
        (exitedMessage job (runDirect tr job (answersOf tr dir script).run)) none := by
  simp only [answersOf] at hupload hrun ⊢
  simp only [runDirectMode,hinput,hupload,hrun,Bool.not_true,Bool.false_eq_true,if_false]

/-- A call that succeeds went through every check, and read its output file from the
directory the download left behind. -/
theorem success_spec (h : (runDirectMode tr job dir script).1.success = true) :
    let answers := answersOf tr dir script
    ¬Stopped tr job dir answers ∧
      (runDirectMode tr job dir script).1.stdout =
        (downloadDir tr dir answers.download).2.read (job.stem ++ ".out") := by
  intro answers
  have hinput : job.inputExists = true := by
    cases hno : job.inputExists with
    | true => rfl
    | false => simp only [runDirectMode,hno,missingInput,Bool.not_false,if_true,Bool.false_eq_true] at h
  simp only [runDirectMode,hinput,Bool.not_true,Bool.false_eq_true,if_false] at h ⊢
  cases hup : uploadDir (tr.pack dir) (script (uploadCommands (tr.pack dir))) with
  | error message => simp [hup,failure] at h
  | ok _ =>
    simp only [hup] at h ⊢
    by_cases hrun : (runDirect tr job (script (uploadCommands (tr.pack dir) + 1))).ok = true
    · rw [if_pos hrun] at h ⊢
      have hdone : job.binary ≠ "pw.x" ∨
          contains ((downloadDir tr dir answers.download).2.read (job.stem ++ ".out")) "JOB DONE" = true := by
        simpa [fetchOutputs,success,answers,answersOf] using h
      refine ⟨fun hstop => ?_,rfl⟩
      cases hstop with
      | input hno => rw [hinput] at hno; cases hno
      | upload message hmsg =>
        have hmsg' : uploadDir (tr.pack dir) (script (uploadCommands (tr.pack dir))) = .error message := hmsg
        rw [hup] at hmsg'
        cases hmsg'
      | exit code hcode hne => exact hne ((runDirect_ok _).mp hrun code hcode)
      | notDone hbinary hnot =>
        rcases hdone with hb | hd
        · exact hb hbinary
        · rw [hnot] at hd; cases hd
    · rw [if_neg hrun] at h
      simp [failure] at h

theorem success_of_not_stopped (h : ¬Stopped tr job dir (answersOf tr dir script)) :
    (runDirectMode tr job dir script).1.success = true := by
  have hinput : job.inputExists = true := by
    by_contra hno
    exact h (.input (by simpa using hno))
  simp only [runDirectMode,hinput,Bool.not_true,Bool.false_eq_true,if_false]
  cases hup : uploadDir (tr.pack dir) (script (uploadCommands (tr.pack dir))) with
  | error message => exact absurd (.upload message hup) h
  | ok _ =>
    have hrun : (runDirect tr job (script (uploadCommands (tr.pack dir) + 1))).ok = true := by
      refine (runDirect_ok _).mpr fun code hcode => ?_
      by_contra hne
      exact h (.exit code hcode hne)
    simp only [if_pos hrun,fetchOutputs,success]
    by_cases hbinary : job.binary = "pw.x"
    · rw [Bool.or_eq_true]
      right
      by_contra hnot
      exact h (.notDone hbinary (by simpa [answersOf] using hnot))
    · simp [hbinary]

theorem read_extract {e : Extraction} {name : String} {text : Text}
    (h : e.files.lookup name = some text) : (dir.extract e).read name = text := by
  simp [Files.read,Files.extract,List.lookup_append,h]

/-- A success is genuine exactly when no fallback is taken or another check stops
the call. -/
theorem remote_success_iff (tr : Transport) (job : ToolCall) (dir : Files) (script : ℕ → CommandResult) :
    ((runDirectMode tr job dir script).1.success = true →
        Genuine tr job (answersOf tr dir script) (runDirectMode tr job dir script).1.stdout) ↔
      Delivered tr job (answersOf tr dir script) ∨ Stopped tr job dir (answersOf tr dir script) := by
  constructor
  · intro h
    by_cases hstop : Stopped tr job dir (answersOf tr dir script)
    · exact .inr hstop
    · obtain ⟨hexit,e,he,hok,hout⟩ := h (success_of_not_stopped hstop)
      exact .inl ⟨hexit,e,he,hok,by rw [hout]; rfl⟩
  · rintro (⟨hexit,e,he,hok,hsome⟩ | hstop) hsuccess
    · obtain ⟨text,htext⟩ := Option.isSome_iff_exists.mp hsome
      have hread := (success_spec hsuccess).2
      have hdir : (downloadDir tr dir (answersOf tr dir script).download).2 = dir.extract e := by
        simp [downloadDir,he]
      rw [hdir,read_extract htext] at hread
      exact ⟨hexit,e,he,hok,by rw [hread]; exact htext⟩
    · exact absurd hstop (success_spec hsuccess).1

def scfCall : ToolCall :=
  { binary := "pw.x", inputFile := "/work/si_scf.in", stem := "si_scf", maxWalltimeSec := 600
    remoteDir := "/remote/ws/pw_0".toList }

/-- The output file of an earlier attempt. -/
def staleDir : Files := [("si_scf.out","JOB DONE.".toList)]

/-- The upload works, then the connection is lost. -/
def lostConnection : ℕ → CommandResult := fun n =>
  if n ≤ 2 then ⟨0,[],[]⟩ else ⟨255,[],"ssh: connection lost".toList⟩

/-- The run was never started, and the old output file is reported as its result. -/
theorem stale_success :
    ¬((runDirectMode oneBlock scfCall staleDir lostConnection).1.success = true →
      Genuine oneBlock scfCall (answersOf oneBlock staleDir lostConnection)
        (runDirectMode oneBlock scfCall staleDir lostConnection).1.stdout) := by
  have hsuccess : (runDirectMode oneBlock scfCall staleDir lostConnection).1.success = true := by
    decide +kernel
  have hexit : reportedExit {} (answersOf oneBlock staleDir lostConnection).run.stdout = none := by
    decide +kernel
  intro h
  have := (h hsuccess).exit
  rw [show oneBlock.unicode = {} from rfl,hexit] at this
  cases this

end DftForge.Hpc
