import DftForge.Engines.Repair
import DftForge.Python.Lines

/-! # Job scripts

`_resolve`, `_run_command`, `_render`, and the scripts of the two schedulers. What `str`
prints for a value that is no text is a parameter.
-/
namespace DftForge.Hpc
open DftForge.Library DftForge.Runtime DftForge.Python DftForge.Engines

/-- `value not in (None, "")`. -/
def given : Json → Bool
  | .null => false
  | .str s => s ≠ ""
  | _ => true

/-- The value of a key, where there is one that counts. -/
def lookupGiven (d : Dict) (key : String) : Option Json := (d.get? key).filter given

/-- `job_defaults`. -/
structure JobDefaults where
  entries : Dict
  distinct : (entries.map Prod.fst).Nodup

/-- The value of a key in `job_defaults`, where there is one that counts. -/
def defaultGiven (jobDefaults : Option JobDefaults) (key : String) : Option Json :=
  jobDefaults.bind fun d => lookupGiven d.entries key

/-- `DEFAULTS`. -/
def defaults : Dict := [
  ("nodes",.num 1),
  ("ntasks",.num 8),
  ("cpus_per_task",.num 1),
  ("walltime",.str "24:00:00"),
  ("partition",.str ""),
  ("account",.str ""),
  ("memory",.str ""),
  ("module_loads",.str ""),
  ("env_setup",.str "")]

/-- The keys whose values go through `int`. -/
def intKeys : List String := ["nodes","ntasks","cpus_per_task","ppn"]

def intAlias (key : String) : String := if key = "ppn" then "cpus_per_task" else key

/-- The keys whose values are taken as they are. -/
def textKeys : List String :=
  ["walltime","time_limit","partition","queue","account","memory","module_loads","env_setup"]

def textAlias (key : String) : String :=
  if key = "time_limit" then "walltime" else if key = "queue" then "partition" else key

section Resolve
variable (nums : Numerals) (params : Dict)

/-- `merged.update({k: v for k, v in job_defaults.items() if v not in (None, "")})`. -/
def withDefaults (merged : Dict) (jobDefaults : Option JobDefaults) : Dict :=
  match jobDefaults with
  | none => merged
  | some d => merged.update (d.entries.filter fun e => given e.2)

def takeInt (merged : Dict) (key : String) : Except String Dict :=
  match lookupGiven params key with
  | some v => do return merged.set (intAlias key) (.num (← toInt nums v))
  | none => .ok merged

def takeText (merged : Dict) (key : String) : Dict :=
  match lookupGiven params key with
  | some v => merged.set (textAlias key) v
  | none => merged

/-- The value of `job_defaults` for a key that `params` does not have. -/
def overriding (jobDefaults : Option JobDefaults) (key : String) : Option Json :=
  if params.contains key then none else defaultGiven jobDefaults key

def takeDefault (jobDefaults : Option JobDefaults) (merged : Dict) (key : String) : Dict :=
  match overriding params jobDefaults key with
  | some v => merged.set (textAlias key) v
  | none => merged

/-- `_resolve`. -/
def resolve (jobDefaults : Option JobDefaults) : Except String Dict := do
  let merged ← intKeys.foldlM (takeInt nums params) (withDefaults defaults jobDefaults)
  let merged := textKeys.foldl (takeText params) merged
  return textKeys.foldl (takeDefault params jobDefaults) merged

end Resolve

section Command

/-- How Python prints the values that are put into a script. -/
structure Printer where
  shown : Json → Text
  shown_str : ∀ s, shown (.str s) = s.toList

variable (p : Printer) (params : Dict)

/-- `_run_command`: the engines `qe` and `pw` have a command of their own. -/
def runCommand (engine : Text) : Text :=
  match (params.get? "run_command").filter truthy with
  | some command => p.shown command
  | none =>
    if engine = "qe".toList ∨ engine = "pw".toList then
      "srun pw.x -in ".toList ++ p.shown ((params.get? "input_file").getD (.str "pw.in")) ++ " > ".toList ++
        p.shown ((params.get? "output_file").getD (.str "pw.out"))
    else "srun ".toList ++ engine

end Command

section Render

/-- `replace`, when the first characters of the text are to be passed over. -/
def replaceFrom (old new : Text) : ℕ → Text → Text
  | _, [] => []
  | skip + 1, _ :: rest => replaceFrom old new skip rest
  | 0, c :: rest =>
    if old.isPrefixOf (c :: rest) then new ++ replaceFrom old new (old.length - 1) rest
    else c :: replaceFrom old new 0 rest

/-- `text.replace(old, new)`, of some text. -/
def replace (old new text : Text) : Text := replaceFrom old new 0 text

/-- `"{{" + key + "}}"`. -/
def placeholder (key : Text) : Text := ['\x7b','\x7b'] ++ key ++ ['\x7d','\x7d']

/-- `_EMPTY_DIRECTIVE`. -/
def emptyDirective : Re.Pattern :=
  Regex.chain [.anchor fun before _ => before = none,Re.lit "#",.alt (Re.lit "SBATCH") (Re.lit "PBS"),
    Regex.plus Re.space,Regex.plus Re.notSpace,.many Re.space,Re.lit "=",.many Re.space,
    .anchor fun _ after => after = none]

/-- `_EMPTY_DIRECTIVE.match(line.strip())`. -/
def isEmptyDirective (line : Text) : Bool := !(Regex.run emptyDirective ⟨[],strip line,[]⟩).isEmpty

variable (p : Printer)

/-- The replacements of a dictionary, one after the other. -/
def replaceAll (values : List (Text × Text)) (text : Text) : Text :=
  values.foldl (fun text e => replace (placeholder e.1) e.2 text) text

/-- What is left of a text when the lines that are empty directives are taken out. -/
def withoutEmptyDirectives (text : Text) : Text :=
  strip (List.intercalate ['\n'] ((splitLines text).filter fun line => !isEmptyDirective line)) ++ ['\n']

/-- `_render`. -/
def render (template : Text) (values : Dict) : Text :=
  withoutEmptyDirectives (replaceAll (values.map fun e => (e.1.toList,p.shown e.2)) template)

end Render

section Templates

/-- `SBATCH_TEMPLATE`. -/
def sbatchTemplate : String :=
  "#!/bin/bash\n" ++
  "#SBATCH --job-name=\x7b\x7bjob_name\x7d\x7d\n" ++
  "#SBATCH --nodes=\x7b\x7bnodes\x7d\x7d\n" ++
  "#SBATCH --ntasks=\x7b\x7bntasks\x7d\x7d\n" ++
  "#SBATCH --cpus-per-task=\x7b\x7bcpus_per_task\x7d\x7d\n" ++
  "#SBATCH --time=\x7b\x7bwalltime\x7d\x7d\n" ++
  "#SBATCH --partition=\x7b\x7bpartition\x7d\x7d\n" ++
  "#SBATCH --account=\x7b\x7baccount\x7d\x7d\n" ++
  "#SBATCH --mem=\x7b\x7bmemory\x7d\x7d\n" ++
  "#SBATCH --output=\x7b\x7bjob_name\x7d\x7d-%j.out\n" ++
  "#SBATCH --error=\x7b\x7bjob_name\x7d\x7d-%j.err\n" ++
  "\n" ++
  "\x7b\x7bmodule_loads\x7d\x7d\n" ++
  "\x7b\x7benv_setup\x7d\x7d\n" ++
  "\n" ++
  "cd \x7b\x7bwork_dir\x7d\x7d\n" ++
  "\x7b\x7brun_command\x7d\x7d\n"

/-- `QSUB_TEMPLATE`. -/
def qsubTemplate : String :=
  "#!/bin/bash\n" ++
  "#PBS -N \x7b\x7bjob_name\x7d\x7d\n" ++
  "#PBS -l nodes=\x7b\x7bnodes\x7d\x7d:ppn=\x7b\x7bcpus_per_task\x7d\x7d\n" ++
  "#PBS -l walltime=\x7b\x7bwalltime\x7d\x7d\n" ++
  "#PBS -q \x7b\x7bpartition\x7d\x7d\n" ++
  "#PBS -o \x7b\x7bjob_name\x7d\x7d-$PBS_JOBID.out\n" ++
  "#PBS -e \x7b\x7bjob_name\x7d\x7d-$PBS_JOBID.err\n" ++
  "\n" ++
  "\x7b\x7bmodule_loads\x7d\x7d\n" ++
  "\x7b\x7benv_setup\x7d\x7d\n" ++
  "\n" ++
  "cd \x7b\x7bwork_dir\x7d\x7d\n" ++
  "\x7b\x7brun_command\x7d\x7d\n"

variable (nums : Numerals) (p : Printer) (params : Dict) (jobDefaults : Option JobDefaults)

/-- The values a script is rendered with. -/
def scriptValues (engine : Text) (jobName workDir : String) : Except String Dict := do
  let resolved ← resolve nums params jobDefaults
  let resolved := resolved.set "run_command" (.str (String.ofList (runCommand p params engine)))
  let resolved := resolved.set "job_name" (.str jobName)
  return resolved.set "work_dir" (.str workDir)

/-- `render_sbatch`. -/
def renderSbatch (engine : Text) (jobName workDir : String) : Except String Text := do
  return render p sbatchTemplate.toList (← scriptValues nums p params jobDefaults engine jobName workDir)

/-- `render_qsub`. -/
def renderQsub (engine : Text) (jobName workDir : String) : Except String Text := do
  return render p qsubTemplate.toList (← scriptValues nums p params jobDefaults engine jobName workDir)

end Templates
end DftForge.Hpc
