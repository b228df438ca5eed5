import DftForge.Hpc.Upload
import DftForge.Library.Decimals
import DftForge.Library.ShellWords

/-! # The commands of the remote executor

The texts that `SSHExecutor` and the scheduler adapters send over `SSHRunner`, with every path
and name that goes into them, and what the shells of the remote side make of them: the login
shell reads one `bash -l -c` with the command as its only argument, and `bash` reads the
command.
-/
namespace DftForge.Hpc
open DftForge.Library DftForge.Library.Shell DftForge.Runtime DftForge.Python

/-- A command line that `ssh` sends. -/
inductive RemoteCommand where
  /-- The three commands of `_upload_dir`. -/
  | prepare (remoteDir : Text)
  | append (remoteDir chunk : Text)
  | unpack (remoteDir : Text)
  /-- `_download_dir`. -/
  | pack (remoteDir : Text)
  /-- `_run_direct`. -/
  | direct (remoteDir : Text) (walltime : ℤ) (program input stem : Text)
  /-- `cancel` without a scheduler. -/
  | kill (remotePath : Text)
  /-- The two commands of `submit_job`. -/
  | writeScript (workDir scriptName script : Text)
  | sbatch (workDir scriptName : Text)
  | qsub (workDir scriptName : Text)
  | squeue (jobId : Text)
  | sacct (jobId : Text)
  | scancel (jobId : Text)
  | qstat (jobId : Text)
  | qdel (jobId : Text)

namespace RemoteCommand

/-- `f"{remote_dir}.b64"`. -/
def archive (remoteDir : Text) : Text := remoteDir ++ ".b64".toList

def delimiter : Text := "DFTFORGE_EOF".toList

def text : RemoteCommand → Text
  | .prepare d => "mkdir -p ".toList ++ quote d ++ " && rm -f ".toList ++ quote (archive d)
  | .append d chunk => "printf '%s' ".toList ++ quote chunk ++ " >> ".toList ++ quote (archive d)
  | .unpack d => "base64 -d ".toList ++ quote (archive d) ++ " | tar -C ".toList ++ quote d ++
    " -xf - && rm -f ".toList ++ quote (archive d)
  | .pack d => "tar -C ".toList ++ quote d ++ " -cf - . 2>/dev/null | base64".toList
  | .direct d walltime program input stem => "cd ".toList ++ quote d ++ " && timeout ".toList ++
    (toString walltime).toList ++ " ".toList ++ quote program ++ " -in ".toList ++ quote input ++
    " > ".toList ++ quote stem ++ ".out 2> ".toList ++ quote stem ++ ".err; echo DFTFORGE_EXIT_$?".toList
  | .kill path => "pkill -f ".toList ++ quote path ++ "; true".toList
  | .writeScript d name script => "mkdir -p ".toList ++ quote d ++ " && cat > ".toList ++
    quote (d ++ '/' :: name) ++ " << 'DFTFORGE_EOF'\n".toList ++ (script ++ '\n' :: delimiter)
  | .sbatch d name => "cd ".toList ++ quote d ++ " && sbatch ".toList ++ quote name
  | .qsub d name => "cd ".toList ++ quote d ++ " && qsub ".toList ++ quote name
  | .squeue id => "squeue -j ".toList ++ quote id ++ " -h -o '%i|%T'".toList
  | .sacct id => "sacct -j ".toList ++ quote id ++ " -n -o 'JobID,State' --parsable2".toList
  | .scancel id => "scancel ".toList ++ quote id
  | .qstat id => "qstat -f ".toList ++ quote id
  | .qdel id => "qdel ".toList ++ quote id

def word (s : String) : Word := literal s.toList

/-- The marker that `_run_direct` looks for in the output. -/
def exitWord : Word := word "DFTFORGE_EXIT_" ++ [.exitStatus]

/-- The commands that are meant. -/
def meaning : RemoteCommand → Line
  | .prepare d => (⟨[word "mkdir",word "-p",literal d],[]⟩,
      [(.and,⟨[word "rm",word "-f",literal (archive d)],[]⟩)])
  | .append d chunk => (⟨[word "printf",word "%s",literal chunk],[(.append 1,literal (archive d))]⟩,[])
  | .unpack d => (⟨[word "base64",word "-d",literal (archive d)],[]⟩,
      [(.pipe,⟨[word "tar",word "-C",literal d,word "-xf",word "-"],[]⟩),
        (.and,⟨[word "rm",word "-f",literal (archive d)],[]⟩)])
  | .pack d => (⟨[word "tar",word "-C",literal d,word "-cf",word "-",word "."],[(.out 2,word "/dev/null")]⟩,
      [(.pipe,⟨[word "base64"],[]⟩)])
  | .direct d walltime program input stem => (⟨[word "cd",literal d],[]⟩,
      [(.and,⟨[word "timeout",word (toString walltime),literal program,word "-in",literal input],
          [(.out 1,literal stem ++ word ".out"),(.out 2,literal stem ++ word ".err")]⟩),
        (.semi,⟨[word "echo",exitWord],[]⟩)])
  | .kill path => (⟨[word "pkill",word "-f",literal path],[]⟩,[(.semi,⟨[word "true"],[]⟩)])
  | .writeScript d name _ => (⟨[word "mkdir",word "-p",literal d],[]⟩,
      [(.and,⟨[word "cat"],[(.out 1,literal (d ++ '/' :: name)),(.hereDoc,literal delimiter)]⟩)])
  | .sbatch d name => (⟨[word "cd",literal d],[]⟩,[(.and,⟨[word "sbatch",literal name],[]⟩)])
  | .qsub d name => (⟨[word "cd",literal d],[]⟩,[(.and,⟨[word "qsub",literal name],[]⟩)])
  | .squeue id => (⟨[word "squeue",word "-j",literal id,word "-h",word "-o",word "%i|%T"],[]⟩,[])
  | .sacct id => (⟨[word "sacct",word "-j",literal id,word "-n",word "-o",word "JobID,State",
      word "--parsable2"],[]⟩,[])
  | .scancel id => (⟨[word "scancel",literal id],[]⟩,[])
  | .qstat id => (⟨[word "qstat",word "-f",literal id],[]⟩,[])
  | .qdel id => (⟨[word "qdel",literal id],[]⟩,[])

/-- The lines after the first: only a job script has some. -/
def rest : RemoteCommand → Option Text
  | .writeScript _ _ script => some (script ++ '\n' :: delimiter)
  | _ => none

theorem readLine_of_tokens {t : Text} {tokens : List Token} {rest : Option Text} {line : Line}
    (h : tokenize t = some (tokens,rest)) (hparse : parse tokens = some line) (hwords : line.1.words ≠ []) :
    readLine t = some (line,rest) := by
  rw [readLine,h,Option.bind_some,hparse,Option.bind_some,if_neg hwords]

section Read
variable (d : Text)

theorem read_prepare : readLine (prepare d).text = some ((prepare d).meaning,none) := by
  have h : Reads ⟨.blank,[]⟩ ("mkdir -p ".toList ++ quote d ++ " && rm -f ".toList)
      ⟨.blank,[.word (word "-f"),.word (word "rm"),.join .and,.word (literal d),.word (word "-p"),
        .word (word "mkdir")]⟩ :=
    .arg rfl fun _ => .close (by decide) rfl
  exact readLine_of_tokens h.tokenize_last rfl (List.cons_ne_nil _ _)

theorem read_append (chunk : Text) :
    readLine (append d chunk).text = some ((append d chunk).meaning,none) := by
  have h : Reads ⟨.blank,[]⟩ ("printf '%s' ".toList ++ quote chunk ++ " >> ".toList)
      ⟨.blank,[.redirect (.append 1),.word (literal chunk),.word (word "%s"),.word (word "printf")]⟩ :=
    .arg rfl fun _ => .close (by decide) rfl
  exact readLine_of_tokens h.tokenize_last rfl (List.cons_ne_nil _ _)

theorem read_unpack : readLine (unpack d).text = some ((unpack d).meaning,none) := by
  have hpipe : Reads ⟨.blank,[]⟩ ("base64 -d ".toList ++ quote (archive d) ++ " | tar -C ".toList)
      ⟨.blank,[.word (word "-C"),.word (word "tar"),.join .pipe,.word (literal (archive d)),
        .word (word "-d"),.word (word "base64")]⟩ :=
    .arg rfl fun _ => .close (by decide) rfl
  have h : Reads ⟨.blank,[]⟩ ("base64 -d ".toList ++ quote (archive d) ++ " | tar -C ".toList ++ quote d ++
      " -xf - && rm -f ".toList)
      ⟨.blank,[.word (word "-f"),.word (word "rm"),.join .and,.word (word "-"),.word (word "-xf"),
        .word (literal d),.word (word "-C"),.word (word "tar"),.join .pipe,.word (literal (archive d)),
        .word (word "-d"),.word (word "base64")]⟩ :=
    .arg hpipe fun _ => .close (by decide) rfl
  exact readLine_of_tokens h.tokenize_last rfl (List.cons_ne_nil _ _)

theorem read_pack : readLine (pack d).text = some ((pack d).meaning,none) := by
  have h : Reads ⟨.blank,[]⟩ ("tar -C ".toList ++ quote d ++ " -cf - . 2>/dev/null | base64".toList)
      ⟨.word ⟨word "base64",true⟩,[.join .pipe,.word (word "/dev/null"),.redirect (.out 2),.word (word "."),
        .word (word "-"),.word (word "-cf"),.word (literal d),.word (word "-C"),.word (word "tar")]⟩ :=
    .arg rfl fun _ => .close (by decide) rfl
  exact readLine_of_tokens h.tokenize rfl (List.cons_ne_nil _ _)

theorem read_kill : readLine (kill d).text = some ((kill d).meaning,none) := by
  have h : Reads ⟨.blank,[]⟩ ("pkill -f ".toList ++ quote d ++ "; true".toList)
      ⟨.word ⟨word "true",true⟩,[.join .semi,.word (literal d),.word (word "-f"),.word (word "pkill")]⟩ :=
    .arg rfl fun _ => .close (by decide) rfl
  exact readLine_of_tokens h.tokenize rfl (List.cons_ne_nil _ _)

theorem plain_int (n : ℤ) : ∀ c ∈ (toString n).toList, isPlain c = true := by
  intro c hc
  rcases mem_int_text hc with hdigit | rfl
  · rw [isPlain,Char.isAlphanum,hdigit,Bool.or_true,Bool.true_or]
  · rfl

theorem quote_int (n : ℤ) : quote (toString n).toList = (toString n).toList := by
  refine quote_of_plain (fun h => int_text_ne n ?_) (plain_int n)
  exact String.toList_eq_nil_iff.mp h

theorem read_direct (walltime : ℤ) (program input stem : Text) :
    readLine (direct d walltime program input stem).text =
      some ((direct d walltime program input stem).meaning,none) := by
  have hcd : Reads ⟨.blank,[]⟩ ("cd ".toList ++ quote d ++ " && timeout ".toList)
      ⟨.blank,[.word (word "timeout"),.join .and,.word (literal d),.word (word "cd")]⟩ :=
    .arg rfl fun _ => .close (by decide) rfl
  have hrun : Reads ⟨.blank,[]⟩ ("cd ".toList ++ quote d ++ " && timeout ".toList ++
      quote (toString walltime).toList ++ " ".toList ++ quote program ++ " -in ".toList ++ quote input ++
      " > ".toList)
      ⟨.blank,[.redirect (.out 1),.word (literal input),.word (word "-in"),.word (literal program),
        .word (word (toString walltime)),.word (word "timeout"),.join .and,.word (literal d),
        .word (word "cd")]⟩ :=
    .arg (.arg (.arg hcd fun _ => .close (by decide) rfl) fun _ => .close (by decide) rfl)
      fun _ => .close (by decide) rfl
  have hout : ∀ bare tokens, Reads ⟨.word ⟨literal stem,bare⟩,tokens⟩ ".out 2> ".toList
      ⟨.blank,.redirect (.out 2) :: .word (literal stem ++ word ".out") :: tokens⟩ := by
    intro bare tokens
    have hplain : Reads ⟨.word ⟨literal stem,bare⟩,tokens⟩ ".out".toList
        ⟨.word ⟨literal stem ++ word ".out",bare⟩,tokens⟩ := .plain (List.all_eq_true.mp rfl)
    have hclose : Reads ⟨.word ⟨literal stem ++ word ".out",bare⟩,tokens⟩ " 2> ".toList
        ⟨.blank,.redirect (.out 2) :: .word (literal stem ++ word ".out") :: tokens⟩ :=
      .close (by decide) rfl
    exact hplain.append hclose
  have herr : ∀ bare tokens, Reads ⟨.word ⟨literal stem,bare⟩,tokens⟩ ".err; echo DFTFORGE_EXIT_$?".toList
      ⟨.word ⟨exitWord,false⟩,.word (word "echo") :: .join .semi ::
        .word (literal stem ++ word ".err") :: tokens⟩ := by
    intro bare tokens
    have hplain : Reads ⟨.word ⟨literal stem,bare⟩,tokens⟩ ".err".toList
        ⟨.word ⟨literal stem ++ word ".err",bare⟩,tokens⟩ := .plain (List.all_eq_true.mp rfl)
    have hclose : Reads ⟨.word ⟨literal stem ++ word ".err",bare⟩,tokens⟩ "; echo DFTFORGE_EXIT_$?".toList
        ⟨.word ⟨exitWord,false⟩,.word (word "echo") :: .join .semi ::
          .word (literal stem ++ word ".err") :: tokens⟩ := .close (by decide) rfl
    exact hplain.append hclose
  have h := (hrun.arg (hout · _)).arg (herr · _)
  rw [quote_int] at h
  exact readLine_of_tokens h.tokenize rfl (List.cons_ne_nil _ _)

theorem read_writeScript (name script : Text) :
    readLine (writeScript d name script).text =
      some ((writeScript d name script).meaning,some (script ++ '\n' :: delimiter)) := by
  have hdir : Reads ⟨.blank,[]⟩ ("mkdir -p ".toList ++ quote d ++ " && cat > ".toList)
      ⟨.blank,[.redirect (.out 1),.word (word "cat"),.join .and,.word (literal d),.word (word "-p"),
        .word (word "mkdir")]⟩ :=
    .arg rfl fun _ => .close (by decide) rfl
  have hline : Reads ⟨.blank,[]⟩ ("mkdir -p ".toList ++ quote d ++ " && cat > ".toList ++
      quote (d ++ '/' :: name) ++ " << 'DFTFORGE_EOF'\n".toList)
      ⟨.after [],[.word (literal delimiter),.redirect .hereDoc,.word (literal (d ++ '/' :: name)),
        .redirect (.out 1),.word (word "cat"),.join .and,.word (literal d),.word (word "-p"),
        .word (word "mkdir")]⟩ :=
    .arg hdir fun _ => .close (by decide) rfl
  exact readLine_of_tokens hline.tokenize_rest rfl (List.cons_ne_nil _ _)

/-- Commands of an adapter that end in their argument. -/
theorem read_argument {front : Text} {tokens : List Token} {line : Line} (a : Text)
    (hfront : Reads ⟨.blank,[]⟩ front ⟨.blank,tokens⟩)
    (hparse : parse (.word (literal a) :: tokens).reverse = some line) (hwords : line.1.words ≠ []) :
    readLine (front ++ quote a) = some (line,none) :=
  readLine_of_tokens hfront.tokenize_last hparse hwords

theorem read_sbatch (name : Text) : readLine (sbatch d name).text = some ((sbatch d name).meaning,none) := by
  have h : Reads ⟨.blank,[]⟩ ("cd ".toList ++ quote d ++ " && sbatch ".toList)
      ⟨.blank,[.word (word "sbatch"),.join .and,.word (literal d),.word (word "cd")]⟩ :=
    .arg rfl fun _ => .close (by decide) rfl
  exact read_argument name h rfl (List.cons_ne_nil _ _)

theorem read_qsub (name : Text) : readLine (qsub d name).text = some ((qsub d name).meaning,none) := by
  have h : Reads ⟨.blank,[]⟩ ("cd ".toList ++ quote d ++ " && qsub ".toList)
      ⟨.blank,[.word (word "qsub"),.join .and,.word (literal d),.word (word "cd")]⟩ :=
    .arg rfl fun _ => .close (by decide) rfl
  exact read_argument name h rfl (List.cons_ne_nil _ _)

theorem read_squeue (id : Text) : readLine (squeue id).text = some ((squeue id).meaning,none) := by
  have h : Reads ⟨.blank,[]⟩ ("squeue -j ".toList ++ quote id ++ " -h -o '%i|%T'".toList)
      ⟨.word ⟨word "%i|%T",false⟩,[.word (word "-o"),.word (word "-h"),.word (literal id),
        .word (word "-j"),.word (word "squeue")]⟩ :=
    .arg rfl fun _ => .close (by decide) rfl
  exact readLine_of_tokens h.tokenize rfl (List.cons_ne_nil _ _)

theorem read_sacct (id : Text) : readLine (sacct id).text = some ((sacct id).meaning,none) := by
  have h : Reads ⟨.blank,[]⟩ ("sacct -j ".toList ++ quote id ++ " -n -o 'JobID,State' --parsable2".toList)
      ⟨.word ⟨word "--parsable2",true⟩,[.word (word "JobID,State"),.word (word "-o"),.word (word "-n"),
        .word (literal id),.word (word "-j"),.word (word "sacct")]⟩ :=
    .arg rfl fun _ => .close (by decide) rfl
  exact readLine_of_tokens h.tokenize rfl (List.cons_ne_nil _ _)

theorem read_scancel (id : Text) : readLine (scancel id).text = some ((scancel id).meaning,none) := by
  have h : Reads ⟨.blank,[]⟩ "scancel ".toList ⟨.blank,[.word (word "scancel")]⟩ := rfl
  exact read_argument id h rfl (List.cons_ne_nil _ _)

theorem read_qstat (id : Text) : readLine (qstat id).text = some ((qstat id).meaning,none) := by
  have h : Reads ⟨.blank,[]⟩ "qstat -f ".toList ⟨.blank,[.word (word "-f"),.word (word "qstat")]⟩ := rfl
  exact read_argument id h rfl (List.cons_ne_nil _ _)

theorem read_qdel (id : Text) : readLine (qdel id).text = some ((qdel id).meaning,none) := by
  have h : Reads ⟨.blank,[]⟩ "qdel ".toList ⟨.blank,[.word (word "qdel")]⟩ := rfl
  exact read_argument id h rfl (List.cons_ne_nil _ _)

/-- A shell reads every command as what is meant, whatever the paths and names in it. -/
theorem read (r : RemoteCommand) : readLine r.text = some (r.meaning,r.rest) := by
  cases r with
  | prepare d => exact read_prepare d
  | append d chunk => exact read_append d chunk
  | unpack d => exact read_unpack d
  | pack d => exact read_pack d
  | direct d walltime program input stem => exact read_direct d walltime program input stem
  | kill path => exact read_kill path
  | writeScript d name script => exact read_writeScript d name script
  | sbatch d name => exact read_sbatch d name
  | qsub d name => exact read_qsub d name
  | squeue id => exact read_squeue id
  | sacct id => exact read_sacct id
  | scancel id => exact read_scancel id
  | qstat id => exact read_qstat id
  | qdel id => exact read_qdel id

end Read

/-- The remote command of the `ssh` command line. -/
def sshText (cmd : Text) : Text := "bash -l -c ".toList ++ quote cmd

/-- The login shell reads one command with the whole text as its last argument. -/
theorem read_sshText (cmd : Text) :
    readLine (sshText cmd) = some ((⟨[word "bash",word "-l",word "-c",literal cmd],[]⟩,[]),none) := by
  have h : Reads ⟨.blank,[]⟩ "bash -l -c ".toList
      ⟨.blank,[.word (word "-c"),.word (word "-l"),.word (word "bash")]⟩ := rfl
  exact read_argument cmd h rfl (List.cons_ne_nil _ _)

section HereDocument
variable (script : Text)

theorem flatMap_splitOn (t : Text) : (t.splitOn '\n').flatMap (· ++ ['\n']) = t ++ ['\n'] := by
  have hjoin : ∀ lines : List Text, lines ≠ [] →
      lines.flatMap (· ++ ['\n']) = ['\n'].intercalate lines ++ ['\n'] := by
    intro lines hne
    induction lines with
    | nil => exact absurd rfl hne
    | cons l lines ih =>
      cases lines with
      | nil => simp
      | cons l' lines =>
        rw [List.flatMap_cons,ih (List.cons_ne_nil _ _),List.intercalate_cons_cons,List.append_assoc,
          List.append_assoc]
        simp
  rw [hjoin _ (List.splitOn_ne_nil _ _),List.intercalate_splitOn]

theorem splitOn_script : (script ++ '\n' :: delimiter).splitOn '\n' = script.splitOn '\n' ++ [delimiter] := by
  have hdelimiter : '\n' ∉ delimiter := by decide
  rw [List.splitOn_append_cons_self,List.splitOn_eq_singleton hdelimiter]

/-- The shell takes all of the script for the here-document exactly when no line of it is the
delimiter. -/
theorem hereDoc_eq_iff : hereDoc delimiter (script ++ '\n' :: delimiter) = (script ++ ['\n'],[]) ↔
    delimiter ∉ script.splitOn '\n' := by
  rw [hereDoc,splitOn_script,Prod.mk.injEq]
  constructor
  · rintro ⟨-,hrest⟩ hmem
    obtain ⟨before,after,hlines,hbefore⟩ := List.eq_append_cons_of_mem hmem
    have hother : ∀ l ∈ before, decide (l ≠ delimiter) = true := by
      intro l hl
      exact decide_eq_true fun heq => hbefore (heq ▸ hl)
    rw [hlines,List.append_assoc,List.dropWhile_append_of_pos hother] at hrest
    simp at hrest
  · intro hnot
    have hother : ∀ l ∈ script.splitOn '\n', decide (l ≠ delimiter) = true := by
      intro l hl
      exact decide_eq_true fun heq => hnot (heq ▸ hl)
    rw [List.takeWhile_append_of_pos hother,List.dropWhile_append_of_pos hother]
    simp [flatMap_splitOn]

end HereDocument

/-- Over `ssh` the first line of every command of the executor is read as the commands that are meant and
no others, whatever the paths and names in it. Only a job script has lines behind it, and they are all in
the here-document exactly when no line of the script is its delimiter. -/
theorem sshText_means (r : RemoteCommand) :
    readLine (sshText r.text) =
        some ((⟨[word "bash",word "-l",word "-c",literal r.text],[]⟩,[]),none) ∧
      readLine r.text = some (r.meaning,r.rest) ∧
      ∀ rest ∈ r.rest, ∃ d name script, r = .writeScript d name script ∧
        (hereDoc delimiter rest = (script ++ ['\n'],[]) ↔ delimiter ∉ script.splitOn '\n') := by
  refine ⟨read_sshText r.text,read r,fun rest hrest => ?_⟩
  cases r with
  | writeScript d name script =>
    obtain rfl := Option.some.inj hrest
    exact ⟨d,name,script,rfl,hereDoc_eq_iff script⟩
  | _ => cases hrest

end RemoteCommand

section Files
open RemoteCommand

/-- The text of each file of the remote side. -/
abbrev RemoteFiles := Text → Option Text

/-- The text of a word that nothing is expanded in. -/
def wordText (w : Word) : Option Text := w.mapM fun
  | .char c => some c
  | .exitStatus => none

/-- What a command that succeeds does to the files, of the commands that an upload and the
submission of a script begin with. The body is the here-document of the line. -/
def perform (body : Option Text) (files : RemoteFiles) (s : Simple) : Option RemoteFiles := do
  let args ← s.words.mapM wordText
  let redirects ← s.redirects.mapM fun r => (wordText r.2).map (r.1,·)
  match args, redirects with
  | [cmd,_,f], [] =>
    if cmd = "mkdir".toList then some files
    else if cmd = "rm".toList then some (Function.update files f none)
    else none
  | [cmd,_,t], [(Direction.append 1,f)] =>
    if cmd = "printf".toList then some (Function.update files f (some ((files f).getD [] ++ t))) else none
  | [cmd], [(.out 1,f),(.hereDoc,_)] =>
    if cmd = "cat".toList then body.map fun t => Function.update files f (some t) else none
  | _, _ => none

/-- What `bash` does with a text whose commands all succeed; the lines after the first are a
here-document up to its delimiter. -/
def bash (files : RemoteFiles) (t : Text) : Option (RemoteFiles × List Text) :=
  (readLine t).bind fun l =>
    let doc := l.2.map (hereDoc delimiter)
    ((l.1.1 :: l.1.2.map (·.2)).foldlM (perform (doc.map (·.1))) files).map fun files =>
      (files,(doc.map (·.2)).getD [])

/-- What the login shell does with the text that `ssh` sends it, and the lines that remain to be
executed. -/
def loginShell (files : RemoteFiles) (t : Text) : Option (RemoteFiles × List Text) :=
  match readLine t with
  | some ((⟨[sh,l,c,cmd],[]⟩, []), none) =>
    if [sh,l,c] = [word "bash",word "-l",word "-c"] then (wordText cmd).bind (bash files) else none
  | _ => none

/-- A command over `ssh`; nothing where it does not succeed, or where more than it is executed. -/
def runRemote (files : RemoteFiles) (cmd : RemoteCommand) : Option RemoteFiles :=
  match loginShell files (sshText cmd.text) with
  | some (files, []) => some files
  | _ => none

/-- The commands that fill the archive of an upload. -/
def archiveCommands (remoteDir b64 : Text) : List RemoteCommand :=
  .prepare remoteDir :: (Upload.chunks b64).map (.append remoteDir)

section Runs
variable (files : RemoteFiles) (d : Text)

theorem wordText_literal (t : Text) : wordText (literal t) = some t := by
  induction t with
  | nil => rfl
  | cons c t ih =>
    rw [wordText] at ih ⊢
    rw [literal,List.map_cons,List.mapM_cons,← literal,ih]
    rfl

theorem wordText_word (s : String) : wordText (word s) = some s.toList := wordText_literal s.toList

theorem loginShell_sshText (cmd : Text) : loginShell files (sshText cmd) = bash files cmd := by
  rw [loginShell,read_sshText]
  refine (if_pos rfl).trans ?_
  rw [wordText_literal]
  rfl

theorem runRemote_eq {cmd : RemoteCommand} {files' : RemoteFiles} (hrest : cmd.rest = none)
    (h : (cmd.meaning.1 :: cmd.meaning.2.map (·.2)).foldlM (perform none) files = some files') :
    runRemote files cmd = some files' := by
  have hbash : bash files cmd.text = some (files',[]) := by
    rw [bash,read cmd,hrest]
    exact congrArg (Option.map fun files => (files,[])) h
  rw [runRemote,loginShell_sshText,hbash]

section Perform
variable (body : Option Text) (f t : Text)

theorem perform_mkdir : perform body files ⟨[word "mkdir",word "-p",literal d],[]⟩ = some files := by
  simp only [perform,List.mapM_cons,List.mapM_nil,wordText_word,wordText_literal]
  rfl

theorem perform_rm : perform body files ⟨[word "rm",word "-f",literal f],[]⟩ = some (Function.update files f none) := by
  simp only [perform,List.mapM_cons,List.mapM_nil,wordText_word,wordText_literal]
  rfl

theorem perform_printf : perform body files ⟨[word "printf",word "%s",literal t],[(.append 1,literal f)]⟩ =
    some (Function.update files f (some ((files f).getD [] ++ t))) := by
  simp only [perform,List.mapM_cons,List.mapM_nil,wordText_word,wordText_literal]
  rfl

theorem perform_cat (marker : Text) : perform (some t) files
    ⟨[word "cat"],[(.out 1,literal f),(.hereDoc,literal marker)]⟩ = some (Function.update files f (some t)) := by
  simp only [perform,List.mapM_cons,List.mapM_nil,wordText_word,wordText_literal]
  rfl

end Perform

theorem run_prepare : runRemote files (.prepare d) = some (Function.update files (archive d) none) := by
  refine runRemote_eq files rfl ?_
  simp only [meaning,List.map_cons,List.map_nil,List.foldlM_cons,perform_mkdir,perform_rm]
  rfl

theorem run_append (chunk : Text) : runRemote files (.append d chunk) =
    some (Function.update files (archive d) (some ((files (archive d)).getD [] ++ chunk))) := by
  refine runRemote_eq files rfl ?_
  simp only [meaning,List.map_nil,List.foldlM_cons,perform_printf]
  rfl

theorem run_appends (chunks : List Text) : ∃ files',
    (chunks.map (RemoteCommand.append d)).foldlM runRemote files = some files' ∧
      (files' (archive d)).getD [] = (files (archive d)).getD [] ++ chunks.flatten ∧
      ∀ f ≠ archive d, files' f = files f := by
  induction chunks generalizing files with
  | nil => exact ⟨files,rfl,by simp,fun _ _ => rfl⟩
  | cons chunk rest ih =>
    obtain ⟨files',hrun,harchive,hothers⟩ :=
      ih (Function.update files (archive d) (some ((files (archive d)).getD [] ++ chunk)))
    refine ⟨files',?_,?_,fun f hf => ?_⟩
    · rw [List.map_cons,List.foldlM_cons,run_append]
      exact hrun
    · rw [harchive,Function.update_self,Option.getD_some,List.flatten_cons,List.append_assoc]
    · rw [hothers f hf,Function.update_of_ne hf]

end Runs

/-- Whatever the path of the remote directory, the commands that fill the archive of an upload, when each of
them succeeds, leave its file with the base64 text of the whole tar stream and touch no other file. The
command that unpacks the archive is not among them. -/
theorem upload_delivers (files : RemoteFiles) (remoteDir : Text) (stream : List UInt8) : ∃ files',
    (archiveCommands remoteDir (Base64.encode stream)).foldlM runRemote files = some files' ∧
      Base64.decode ((files' (archive remoteDir)).getD []) = stream ∧
      ∀ f ≠ archive remoteDir, files' f = files f := by
  obtain ⟨files',hrun,harchive,hothers⟩ :=
    run_appends (Function.update files (archive remoteDir) none) remoteDir
      (Upload.chunks (Base64.encode stream))
  refine ⟨files',?_,?_,fun f hf => ?_⟩
  · rw [archiveCommands,List.foldlM_cons,run_prepare,Option.bind_eq_bind,Option.bind_some]
    exact hrun
  · rw [harchive,Function.update_self,Upload.flatten_chunks]
    exact Base64.decode_encode stream
  · rw [hothers f hf,Function.update_of_ne hf]

section Scripts
variable (files : RemoteFiles) (d name script : Text)

/-- The job script arrives as it is, and nothing but its two commands is executed, exactly when
no line of it is the delimiter of the here-document. -/
theorem script_arrives_iff : loginShell files (sshText (writeScript d name script).text) =
    some (Function.update files (d ++ '/' :: name) (some (script ++ ['\n'])),[]) ↔
      delimiter ∉ script.splitOn '\n' := by
  rw [loginShell_sshText,bash,read,← hereDoc_eq_iff]
  have hrun (doc : Text × List Text) :
      ((writeScript d name script).meaning.1 :: (writeScript d name script).meaning.2.map (·.2)).foldlM
        (perform (some doc.1)) files = some (Function.update files (d ++ '/' :: name) (some doc.1)) := by
    simp only [meaning,List.map_cons,List.map_nil,List.foldlM_cons,perform_mkdir,perform_cat]
    rfl
  have hbash (doc : Text × List Text) :
      (((writeScript d name script).meaning.1 :: (writeScript d name script).meaning.2.map (·.2)).foldlM
        (perform (some doc.1)) files).map (fun files => (files,doc.2)) =
          some (Function.update files (d ++ '/' :: name) (some doc.1),doc.2) := by
    rw [hrun doc]
    rfl
  refine (Eq.congr_left (hbash (hereDoc delimiter (script ++ '\n' :: delimiter)))).trans ?_
  rw [Option.some.injEq,Prod.mk.injEq,Prod.ext_iff]
  refine and_congr_left fun _ => ⟨fun h => ?_,fun h => by rw [h]⟩
  have hfile := congrFun h (d ++ '/' :: name)
  simpa using hfile

end Scripts

end Files
end DftForge.Hpc
