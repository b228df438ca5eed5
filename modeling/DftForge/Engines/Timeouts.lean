import DftForge.Hpc.RemoteSuccess
import DftForge.Engines.Repair

/-! # Runs of pw.x that run out of time

`QECalcTool._run_pw` over the three kinds of backend, the ways in which a run can
run out of time, and which branch of the repair handler the resulting error takes.
-/
namespace DftForge.Engines
open DftForge.Library DftForge.Runtime DftForge.Python DftForge.Hpc

/-- How a local process ends. -/
inductive LocalOutcome where
  | notLaunched (message : Text)
  | expired (stdout stderr : Text)
  | exited (code : ℤ) (stdout stderr : Text) (outputFiles : List String)

/-- One query of the state of a job. -/
inductive Poll where
  | slurm (squeue sacct : CommandResult)
  | pbs (qstat : CommandResult)

def Poll.status (jobId : Text) : Poll → Option JobStatus
  | .slurm squeue sacct => SlurmScheduler.getJobStatus jobId squeue sacct
  | .pbs qstat => PbsScheduler.getJobStatus qstat

/-- A run of pw.x with everything the outside answers. -/
inductive PwRun where
  | local (job : ToolCall) (outcome : LocalOutcome)
  | direct (job : ToolCall) (dir : Files) (script : ℕ → CommandResult)
  | scheduled (job : ToolCall) (dir : Files) (untar : CommandResult) (jobId : Text)
      (polls : List Poll) (download : CommandResult)

/-- `run_pw` runs the binary `pw.x`. -/
def pw (job : ToolCall) : ToolCall := { job with binary := "pw.x" }

variable (tr : Transport)

/-- `f"{binary} timed out after {timeout or self.max_walltime_sec}s"`. -/
def expiredMessage (job : ToolCall) : Text :=
  job.binary.toList ++ " timed out after ".toList ++ job.limitText tr.shown ++ "s".toList

/-- `LocalExecutor._run_pw` on an existing input file. -/
def runLocal (job : ToolCall) (outcome : LocalOutcome) : JobResult :=
  match outcome with
  | .notLaunched message =>
    { success := false, exitCode := -1
      errorMessage := "failed to launch ".toList ++ job.binary.toList ++ ": ".toList ++ message }
  | .expired stdout stderr =>
    { success := false, exitCode := -1, stdout, stderr, jobDone := contains (lower stdout) "job done"
      scfConverged := contains (lower stdout) "convergence has been achieved" ||
        contains (lower stdout) "scf has been achieved"
      errorMessage := expiredMessage tr job }
  | .exited code stdout stderr outputFiles =>
    { success := code = 0 && contains (lower stdout) "job done"
      exitCode := code, stdout, stderr, outputFiles, jobDone := contains (lower stdout) "job done"
      scfConverged := contains (lower stdout) "convergence has been achieved" ||
        contains (lower stdout) "scf has been achieved"
      errorMessage :=
        if code < 0 then job.binary.toList ++ " cancelled by user".toList
        else if code = 0 then [] else stderr.take 1000 }

/-- `executor.run_pw`. -/
def PwRun.result : PwRun → JobResult
  | .local job outcome => runLocal tr (pw job) outcome
  | .direct job dir script => (runDirectMode tr (pw job) dir script).1
  | .scheduled job dir untar jobId polls download =>
    (runScheduled tr (pw job) dir untar (true,"submitted".toList,some jobId)
      (polls.map (·.status jobId)) download).1

/-- `Error in routine\s+(\S+)\s*\(\d+\):\s*\n(.+?)\n\s*\n`. -/
def errorBlock (u : Unicode) : Re.Pattern := Regex.chain [
  Re.lit "Error in routine", Regex.plus Re.space, .group 1 (Regex.plus Re.notSpace), .many Re.space,
  Re.lit "(", Regex.plus (Re.digit u), Re.lit "):", .many Re.space, Re.lit "\n",
  .group 2 (Regex.plusLazy Re.dot), Re.lit "\n", .many Re.space, Re.lit "\n"]

/-- `_qe_error_snippet`. -/
def qeErrorSnippet (u : Unicode) (stdout : Text) : Option Text :=
  (Regex.search (errorBlock u) stdout).map fun m => m.group 1 ++ ": ".toList ++ strip (m.group 2)

/-- `a or b` on texts. -/
def orText (a b : Text) : Text := if a = [] then b else a

@[simp] theorem orText_nil (b : Text) : orText [] b = b := if_pos rfl

theorem orText_of_ne {a : Text} (h : a ≠ []) (b : Text) : orText a b = a := if_neg h

/-- `snippet or error_message or stderr or 'no JOB DONE in stdout'`. -/
def failureText (u : Unicode) (result : JobResult) : Text :=
  orText ((qeErrorSnippet u result.stdout).getD [])
    (orText result.errorMessage (orText result.stderr "no JOB DONE in stdout".toList))

def executionError (text : Text) : ToolError :=
  { message := "pw.x failed: " ++ String.ofList text, category := "execution", repairable := true }

/-- `_run_pw` on the executor's result. -/
def runPw (u : Unicode) (result : JobResult) : Except ToolError JobResult :=
  if !result.success || !contains result.stdout "JOB DONE" then
    .error (executionError (failureText u result))
  else .ok result

/-- The text says `timed out`, in any case, and not `too few bands`. -/
def ReadsAsTimeout (text : Text) : Prop :=
  contains text "too few bands" = false ∧ contains (lower text) "timed out" = true

instance (text : Text) : Decidable (ReadsAsTimeout text) := inferInstanceAs (Decidable (_ ∧ _))

/-- `repair` takes its timeout branch on the error, whatever the node, and raises no cutoff. -/
def TakenForTimeout (e : ToolError) : Prop :=
  QEParamRepairer.branch e = .timeout ∧ ∀ nums node, ∀ key ∈ ["ecutwfc","ecutrho"],
    (QEParamRepairer.repair nums node e).params.get? key = node.params.get? key

/-- The error raised for the run, if there is one, is repaired as a timeout. -/
def RepairedAsTimeout (run : PwRun) : Prop :=
  ∀ e, runPw tr.unicode (run.result tr) = .error e → TakenForTimeout e

def Poll.live (jobId : Text) (p : Poll) : Prop := ∀ s, p.status jobId = some s → ¬s.Terminal

/-- The ways in which a run can run out of time. -/
inductive OutOfTime : PwRun → Prop where
  /-- `subprocess.TimeoutExpired` of the local process. -/
  | localExpired (job : ToolCall) (stdout stderr : Text) : OutOfTime (.local job (.expired stdout stderr))
  /-- The remote `timeout` kills the binary. -/
  | remoteExit {job : ToolCall} {dir : Files} {script : ℕ → CommandResult}
      (hinput : job.inputExists = true)
      (hupload : uploadDir (tr.pack dir) (answersOf tr dir script).untar = .ok ())
      (hexit : reportedExit tr.unicode (answersOf tr dir script).run.stdout = some 124) :
      OutOfTime (.direct job dir script)
  /-- The ssh call itself runs out of time. -/
  | sshExpired {job : ToolCall} {dir : Files} {script : ℕ → CommandResult}
      (hinput : job.inputExists = true)
      (hupload : uploadDir (tr.pack dir) (answersOf tr dir script).untar = .ok ())
      (hssh : (answersOf tr dir script).run = sshTimedOut (toString (job.walltime + 120)).toList) :
      OutOfTime (.direct job dir script)
  /-- The first poll that ends the wait reads the SLURM state TIMEOUT. -/
  | slurmTimeout {job : ToolCall} {dir : Files} {untar download squeue sacct : CommandResult}
      {jobId state : Text} {before after : List Poll} (hinput : job.inputExists = true)
      (hupload : uploadDir (tr.pack dir) untar = .ok ()) (hbefore : ∀ p ∈ before, p.live jobId)
      (hstate : SlurmScheduler.stateText jobId squeue sacct = some state)
      (htoken : SlurmScheduler.stateToken state = "TIMEOUT".toList) :
      OutOfTime (.scheduled job dir untar jobId (before ++ .slurm squeue sacct :: after) download)
  /-- The deadline passes before a poll ends the wait. -/
  | deadline {job : ToolCall} {dir : Files} {untar download : CommandResult} {jobId : Text}
      {polls : List Poll} (hinput : job.inputExists = true)
      (hupload : uploadDir (tr.pack dir) untar = .ok ()) (hpolls : ∀ p ∈ polls, p.live jobId) :
      OutOfTime (.scheduled job dir untar jobId polls download)

/-- When a timeout can be told from the error: a local one unless the output holds an
error block, a remote one when the exit marker comes back, or when the output files
found afterwards show either a finished run or a timeout. -/
def TimeoutVisible : PwRun → Prop
  | .local _ (.expired stdout _) =>
    ∀ snippet, qeErrorSnippet tr.unicode stdout = some snippet → ReadsAsTimeout snippet
  | .local _ _ => True
  | .direct job dir script =>
    let answers := answersOf tr dir script
    let after := (downloadDir tr dir answers.download).2
    let stdout := after.read (job.stem ++ ".out")
    reportedExit tr.unicode answers.run.stdout = some 124 ∨ contains stdout "JOB DONE" = true ∨
      ReadsAsTimeout (orText ((qeErrorSnippet tr.unicode stdout).getD [])
        (orText (after.read (job.stem ++ ".err")) "no JOB DONE in stdout".toList))
  | .scheduled _ _ _ _ _ _ => False

example : ReadsAsTimeout "pw.x timed out after 600s".toList := by decide +kernel

/-! ## Texts that read as timeouts -/

theorem lower_append (a b : Text) : lower (a ++ b) = lower a ++ lower b := List.flatMap_append

/-- A phrase whose first letter is not in front is found behind. -/
theorem contains_append {front : Text} {c : Char} {phrase : String} (hphrase : phrase.toList.head? = some c)
    (hc : c ∉ front) (text : Text) : contains (front ++ text) phrase = contains text phrase := by
  obtain ⟨rest,hrest⟩ := List.head?_eq_some_iff.mp hphrase
  unfold contains
  rw [hrest]
  refine decide_eq_decide.mpr ?_
  induction front with
  | nil => rfl
  | cons d front ih =>
    obtain ⟨hne,hrest'⟩ := not_or.mp (mt List.mem_cons.mpr hc)
    rw [List.cons_append,List.infix_cons_iff,ih hrest']
    exact or_iff_right fun hprefix => hne (List.cons_prefix_cons.mp hprefix).1

/-- The handler looks for the two phrases. -/
theorem branch_executionError (text : Text) :
    QEParamRepairer.branch (executionError text) = .timeout ↔ ReadsAsTimeout text := by
  have hmessage : (executionError text).message.toList = "pw.x failed: ".toList ++ text := by
    simp only [executionError,String.toList_append,String.toList_ofList]
  have hcategory : (executionError text).category ∈ QEParamRepairer.repairableCategories := by
    simp [executionError,QEParamRepairer.repairableCategories]
  have hbands : contains ("pw.x failed: ".toList ++ text) "too few bands" = contains text "too few bands" :=
    contains_append (c := 't') (by decide) (by decide) text
  have htimed : contains (lower ("pw.x failed: ".toList ++ text)) "timed out" =
      contains (lower text) "timed out" := by
    rw [lower_append]
    exact contains_append (c := 't') (by decide) (by decide) (lower text)
  unfold QEParamRepairer.branch ReadsAsTimeout
  simp only [hmessage,hbands,htimed,not_not.mpr hcategory,if_false]
  cases contains text "too few bands" <;> cases contains (lower text) "timed out" <;> simp

theorem takenForTimeout_iff (text : Text) : TakenForTimeout (executionError text) ↔ ReadsAsTimeout text := by
  rw [← branch_executionError]
  refine ⟨fun h => h.1,fun h => ⟨h,fun nums node key hkey => ?_⟩⟩
  have hne : QEParamRepairer.branch (executionError text) ≠ .cutoff := by
    rw [h]
    decide
  refine QEParamRepairer.repair_keeps_cutoffs hne ?_
  simpa using hkey

theorem ReadsAsTimeout.ne_nil {text : Text} (h : ReadsAsTimeout text) : text ≠ [] := by
  rintro rfl
  revert h
  decide +kernel

/-- A text without the letter b that says `timed out` in its first words. -/
theorem readsAsTimeout {text : Text} (rest : Text) (hb : 'b' ∉ text)
    (htext : text = "pw.x timed out after ".toList ++ rest) : ReadsAsTimeout text := by
  constructor
  · exact decide_eq_false fun hfound => hb (hfound.subset (by decide))
  · refine decide_eq_true ?_
    rw [htext,lower_append]
    have hfront : "timed out".toList <:+: lower "pw.x timed out after ".toList := by decide
    exact hfront.trans (List.prefix_append _ _).isInfix

theorem not_b_of_nat (n : ℕ) : 'b' ∉ (toString n).toList := by
  intro h
  have hrepr : (toString n).toList = Nat.toDigits 10 n := Nat.toList_repr
  rw [hrepr] at h
  have := Nat.isDigit_of_mem_toDigits (by decide) (by decide) h
  exact absurd this (by decide)

theorem not_b_of_int (n : ℤ) : 'b' ∉ (toString n).toList := by
  cases n with
  | ofNat n => exact not_b_of_nat n
  | negSucc n =>
    intro h
    have hrepr : (toString (Int.negSucc n)).toList = '-' :: (toString (n + 1)).toList := by
      simp [toString,Int.repr,Nat.repr]
    rw [hrepr,List.mem_cons] at h
    rcases h with h | h
    · cases h
    · exact not_b_of_nat _ h

theorem not_b_of_limit (job : ToolCall) : 'b' ∉ job.limitText tr.shown := by
  unfold ToolCall.limitText
  cases job.timeout with
  | none => exact not_b_of_int _
  | some t =>
    by_cases ht : t = 0
    · simpa [ht] using not_b_of_int _
    · simp only [ht,if_false]
      intro h
      exact absurd (tr.shown_plain t _ h) (by decide)

theorem timedOut_text {limit : Text} (h : 'b' ∉ limit) :
    ReadsAsTimeout ("pw.x".toList ++ " timed out after ".toList ++ limit ++ "s".toList) := by
  refine readsAsTimeout (limit ++ "s".toList) ?_ ?_
  · intro hb
    simp only [List.mem_append] at hb
    rcases hb with ((hb | hb) | hb) | hb
    · exact absurd hb (by decide)
    · exact absurd hb (by decide)
    · exact h hb
    · exact absurd hb (by decide)
  · rw [← List.append_assoc]
    rfl

/-- The message for status 124 survives its way through the job result. -/
theorem exited_124_text (job : ToolCall) (walltime : ℤ) (stdout : Text) :
    ReadsAsTimeout (exitedMessage job ⟨124,stdout,timedOutMessage "pw.x" walltime⟩) := by
  have hstrip : strip (timedOutMessage "pw.x" walltime) = timedOutMessage "pw.x" walltime := by
    have hfront : (timedOutMessage "pw.x" walltime).dropWhile isSpace = timedOutMessage "pw.x" walltime := by
      rfl
    have hback : (timedOutMessage "pw.x" walltime).reverse.dropWhile isSpace =
        (timedOutMessage "pw.x" walltime).reverse := by
      rw [timedOutMessage,List.reverse_append]
      rfl
    rw [strip,hfront,hback,List.reverse_reverse]
  have htake : (timedOutMessage "pw.x" walltime).take 500 = "pw.x timed out after ".toList ++
      ((toString walltime).toList ++ "s".toList).take 479 := by
    have hsplit : timedOutMessage "pw.x" walltime =
        "pw.x timed out after ".toList ++ ((toString walltime).toList ++ "s".toList) := by
      rw [← List.append_assoc]
      rfl
    rw [hsplit,List.take_append,List.take_of_length_le (by decide)]
    rfl
  have hmessage : exitedMessage job ⟨124,stdout,timedOutMessage "pw.x" walltime⟩ =
      "pw.x timed out after ".toList ++ ((toString walltime).toList ++ "s".toList).take 479 := by
    unfold exitedMessage
    dsimp only
    rw [hstrip,htake]
    rfl
  refine readsAsTimeout _ (fun hb => ?_) hmessage
  rw [hmessage,List.mem_append] at hb
  rcases hb with hb | hb
  · exact absurd hb (by decide)
  · rcases List.mem_append.mp (List.mem_of_mem_take hb) with hb | hb
    · exact not_b_of_int _ hb
    · exact absurd hb (by decide)

theorem snippet_nil (u : Unicode) : qeErrorSnippet u [] = none := rfl

/-! ## The result of a run that ran out of time -/

variable {tr}

theorem repaired_iff_of_failure {run : PwRun} (h : (run.result tr).success = false) :
    RepairedAsTimeout tr run ↔ ReadsAsTimeout (failureText tr.unicode (run.result tr)) := by
  have herror : runPw tr.unicode (run.result tr) =
      .error (executionError (failureText tr.unicode (run.result tr))) := by simp [runPw,h]
  rw [← takenForTimeout_iff]
  refine ⟨fun hrun => hrun _ herror,fun htaken e he => ?_⟩
  rw [herror] at he
  cases he
  exact htaken

/-- A result that carries a message and no output raises the message. -/
theorem failureText_message (u : Unicode) {result : JobResult} (hout : result.stdout = [])
    (hmessage : result.errorMessage ≠ []) : failureText u result = result.errorMessage := by
  rw [failureText,hout,snippet_nil,Option.getD_none,orText_nil,orText_of_ne hmessage]

theorem local_iff (job : ToolCall) (stdout stderr : Text) :
    RepairedAsTimeout tr (.local job (.expired stdout stderr)) ↔
      ∀ snippet, qeErrorSnippet tr.unicode stdout = some snippet → ReadsAsTimeout snippet := by
  rw [repaired_iff_of_failure rfl]
  cases hs : qeErrorSnippet tr.unicode stdout with
  | none =>
    have hreads : ReadsAsTimeout (expiredMessage tr (pw job)) := timedOut_text (not_b_of_limit tr (pw job))
    have htext : failureText tr.unicode ((PwRun.local job (.expired stdout stderr)).result tr) =
        expiredMessage tr (pw job) := by
      simp only [failureText,PwRun.result,runLocal,hs,Option.getD_none,orText_nil]
      exact orText_of_ne hreads.ne_nil _
    rw [htext]
    exact ⟨fun _ _ h => by (cases h),fun _ => hreads⟩
  | some snippet =>
    have hne : snippet ≠ [] := by
      intro hnil
      unfold qeErrorSnippet at hs
      cases hm : Regex.search (errorBlock tr.unicode) stdout with
      | none => simp [hm] at hs
      | some m => simp [hm,hnil] at hs
    have htext : failureText tr.unicode ((PwRun.local job (.expired stdout stderr)).result tr) = snippet := by
      simp only [failureText,PwRun.result,runLocal,hs,Option.getD_some]
      exact orText_of_ne hne _
    rw [htext]
    exact ⟨fun h s hs' => by (cases hs'; exact h),fun h => h snippet rfl⟩

section Direct
variable {job : ToolCall} {dir : Files} {script : ℕ → CommandResult}

theorem remoteExit_repaired (hinput : job.inputExists = true)
    (hupload : uploadDir (tr.pack dir) (answersOf tr dir script).untar = .ok ())
    (hexit : reportedExit tr.unicode (answersOf tr dir script).run.stdout = some 124) :
    RepairedAsTimeout tr (.direct job dir script) := by
  have hresult : (PwRun.direct job dir script).result tr = failure (pw job) 124
      (exitedMessage (pw job) ⟨124,(answersOf tr dir script).run.stdout,
        timedOutMessage "pw.x" (pw job).walltime⟩) none := by
    have hrun : runDirect tr (pw job) (answersOf tr dir script).run =
        ⟨124,(answersOf tr dir script).run.stdout,timedOutMessage "pw.x" (pw job).walltime⟩ := by
      simp only [runDirect,hexit,Option.getD_some,if_true]
      rfl
    have hfailed := runDirectMode_failed (show (pw job).inputExists = true from hinput) hupload
      (by rw [hrun]; rfl)
    rw [hrun] at hfailed
    exact hfailed
  have hreads := exited_124_text (pw job) (pw job).walltime (answersOf tr dir script).run.stdout
  rw [repaired_iff_of_failure (by rw [hresult]; rfl),hresult,failureText_message]
  · exact hreads
  · rfl
  · exact hreads.ne_nil

theorem sshExpired_iff (hinput : job.inputExists = true)
    (hupload : uploadDir (tr.pack dir) (answersOf tr dir script).untar = .ok ())
    (hssh : (answersOf tr dir script).run = sshTimedOut (toString (job.walltime + 120)).toList) :
    RepairedAsTimeout tr (.direct job dir script) ↔ TimeoutVisible tr (.direct job dir script) := by
  have hexit : reportedExit tr.unicode (answersOf tr dir script).run.stdout = none := by
    rw [hssh]
    rfl
  have hresult : (PwRun.direct job dir script).result tr =
      (fetchOutputs tr (pw job) none dir (answersOf tr dir script).download).1 := by
    have hrun : (runDirect tr (pw job) (answersOf tr dir script).run).ok = true := by
      simp [runDirect,hexit,CommandResult.ok]
    exact runDirectMode_finished (show (pw job).inputExists = true from hinput) hupload hrun
  have hvisible : TimeoutVisible tr (.direct job dir script) ↔
      contains ((PwRun.direct job dir script).result tr).stdout "JOB DONE" = true ∨
        ReadsAsTimeout (failureText tr.unicode ((PwRun.direct job dir script).result tr)) := by
    rw [hresult]
    simp only [TimeoutVisible,hexit,fetchOutputs,success,failureText,orText_nil,reduceCtorEq,false_or]
    rfl
  have hsuccess : ((PwRun.direct job dir script).result tr).success =
      contains ((PwRun.direct job dir script).result tr).stdout "JOB DONE" := by
    rw [hresult]
    simp [fetchOutputs,success,pw]
  rw [hvisible]
  cases hdone : contains ((PwRun.direct job dir script).result tr).stdout "JOB DONE" with
  | true =>
    refine ⟨fun _ => .inl rfl,fun _ e he => ?_⟩
    simp [runPw,hsuccess,hdone] at he
  | false =>
    rw [repaired_iff_of_failure (by rw [hsuccess,hdone])]
    simp

end Direct

section Scheduled
variable {job : ToolCall} {dir : Files} {untar download : CommandResult} {jobId : Text}

theorem poll_live {polls : List Poll} (h : ∀ p ∈ polls, p.live jobId) :
    (polls.map (·.status jobId)).find? (fun status => decide (∃ s ∈ status, s.Terminal)) = none := by
  rw [List.find?_eq_none]
  intro status hmem
  obtain ⟨p,hp,rfl⟩ := List.mem_map.mp hmem
  rw [decide_eq_true_eq]
  rintro ⟨s,hs,hterminal⟩
  exact h p hp s hs hterminal

/-- The SLURM state TIMEOUT ends the wait as a failure. -/
theorem poll_timeout {before after : List Poll} (hbefore : ∀ p ∈ before, p.live jobId)
    {squeue sacct : CommandResult} {state : Text}
    (hstate : SlurmScheduler.stateText jobId squeue sacct = some state)
    (htoken : SlurmScheduler.stateToken state = "TIMEOUT".toList) :
    pollScheduler ((before ++ .slurm squeue sacct :: after).map (·.status jobId)) = some .failed := by
  have hfailed : (Poll.slurm squeue sacct).status jobId = some .failed := by
    rw [Poll.status,SlurmScheduler.getJobStatus_eq,hstate,Option.map_some,SlurmScheduler.map,htoken]
    rfl
  have hterminal : ∃ s ∈ (some JobStatus.failed), s.Terminal := ⟨_,rfl,by decide⟩
  rw [pollScheduler,List.map_append,List.find?_append,poll_live hbefore,Option.none_or,List.map_cons,
    hfailed,List.find?_cons_of_pos (by simpa using hterminal)]
  rfl

/-- A job that a scheduler ended is repaired as its state name reads. -/
theorem scheduled_text (state : String) {polls : List Poll} (hinput : job.inputExists = true)
    (hupload : uploadDir (tr.pack dir) untar = .ok ())
    (hend : (pollScheduler (polls.map (·.status jobId))).map (·.value) = some state ∧ state ≠ "completed" ∨
      pollScheduler (polls.map (·.status jobId)) = none ∧ state = "timeout") :
    RepairedAsTimeout tr (.scheduled job dir untar jobId polls download) ↔
      ReadsAsTimeout (endedMessage state) := by
  have hpw : (pw job).inputExists = true := hinput
  have hresult : (PwRun.scheduled job dir untar jobId polls download).result tr =
      failure (pw job) (-1) (endedMessage state) (some jobId) := by
    rcases hend with ⟨hstate,hne⟩ | ⟨hnone,rfl⟩
    · cases hp : pollScheduler (polls.map (·.status jobId)) with
      | none => simp [hp] at hstate
      | some status =>
        rw [hp,Option.map_some,Option.some.injEq] at hstate
        subst hstate
        cases status <;> first
          | exact absurd rfl hne
          | simp only [PwRun.result,runScheduled,hpw,hupload,hp,Bool.not_true,Bool.false_eq_true,if_false]
    · simp only [PwRun.result,runScheduled,hpw,hupload,hnone,Bool.not_true,Bool.false_eq_true,if_false]
  have hne : endedMessage state ≠ [] := fun h => by cases h
  rw [repaired_iff_of_failure (by rw [hresult]; rfl),hresult,failureText_message _ rfl hne]
  rfl

end Scheduled

/-- A run that ran out of time is repaired as a timeout exactly when the timeout can be
told from the error. -/
theorem timeout_repair_iff (tr : Transport) {run : PwRun} (h : OutOfTime tr run) :
    RepairedAsTimeout tr run ↔ TimeoutVisible tr run := by
  cases h with
  | localExpired job stdout stderr => exact local_iff job stdout stderr
  | remoteExit hinput hupload hexit =>
    exact ⟨fun _ => .inl hexit,fun _ => remoteExit_repaired hinput hupload hexit⟩
  | sshExpired hinput hupload hssh => exact sshExpired_iff hinput hupload hssh
  | slurmTimeout hinput hupload hbefore hstate htoken =>
    rw [scheduled_text "failed" hinput hupload (.inl ⟨?_,by decide⟩)]
    · exact iff_of_false (by decide +kernel) id
    · rw [poll_timeout hbefore hstate htoken]
      rfl
  | deadline hinput hupload hpolls =>
    rw [scheduled_text "timeout" hinput hupload (.inr ⟨by rw [pollScheduler,poll_live hpolls]; rfl,rfl⟩)]
    exact iff_of_false (by decide +kernel) id

theorem timeout_repair_local :
    OutOfTime oneBlock (.local scfCall (.expired [] [])) ∧
      (RepairedAsTimeout oneBlock (.local scfCall (.expired [] [])) ↔
        TimeoutVisible oneBlock (.local scfCall (.expired [] []))) :=
  ⟨.localExpired _ _ _,timeout_repair_iff oneBlock (.localExpired _ _ _)⟩

/-- `squeue` lists the job with the state TIMEOUT. -/
def killedBySlurm : PwRun :=
  .scheduled scfCall [] ⟨0,[],[]⟩ "42".toList [.slurm ⟨0,"42|TIMEOUT".toList,[]⟩ ⟨0,[],[]⟩] ⟨0,[],[]⟩

/-- The cutoff is raised although SLURM says that the job ran out of time. -/
theorem slurm_timeout_raises_cutoff :
    OutOfTime oneBlock killedBySlurm ∧ ¬RepairedAsTimeout oneBlock killedBySlurm := by
  have hstate : SlurmScheduler.stateText "42".toList ⟨0,"42|TIMEOUT".toList,[]⟩ ⟨0,[],[]⟩ =
      some "TIMEOUT".toList := by decide +kernel
  have htoken : SlurmScheduler.stateToken "TIMEOUT".toList = "TIMEOUT".toList := by decide +kernel
  have hbefore : ∀ p ∈ ([] : List Poll), p.live "42".toList := by simp
  refine ⟨.slurmTimeout rfl rfl hbefore hstate htoken,?_⟩
  have hfailed : pollScheduler (([Poll.slurm ⟨0,"42|TIMEOUT".toList,[]⟩ ⟨0,[],[]⟩]).map
      (·.status "42".toList)) = some .failed := poll_timeout hbefore hstate htoken
  unfold killedBySlurm
  rw [scheduled_text "failed" rfl rfl (.inl ⟨by rw [hfailed]; rfl,by decide⟩)]
  decide +kernel

end DftForge.Engines
