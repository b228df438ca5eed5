import DftForge.Library.RegexSpells
import DftForge.Structure.DeckReading

/-! # The settings in the environment file

What `save_config` and `save_compute_config` have written into the file, and what is read from
it at the next start. The two recognise assignments by the same expression, but the reader
strips the line before.
-/
namespace DftForge.Web.EnvFile
open DftForge.Library DftForge.Runtime DftForge.Python DftForge.Structure Re

/-- An `HTTPException`. -/
structure HttpError where
  status : ℕ
  detail : Text

/-- Keys and values, or variables: a dictionary of texts. -/
abbrev Settings := List (Text × Text)

section Assignments

def isNameStart (c : Char) : Bool := c.isAlpha || c = '_'

/-- `([A-Za-z_][A-Za-z0-9_]*)`. -/
def name : Pattern := .group 1 (.seq (.one isNameStart) (.many (.one isWord)))

/-- `(?:export\s+)?([A-Za-z_][A-Za-z0-9_]*)\s*=`. -/
def assignment : Pattern :=
  .seq (.opt (.seq (lit "export") (.plus space))) (.seq name (.seq (.many space) (.one (· = '='))))

/-- `\s*(.*)$`, on a line. -/
def remainder : Pattern := .seq (.many space) (.seq (.group 2 (.many dot)) lineEnd)

/-- `re.match`. -/
def matchStart (r : Pattern) (text : Text) : Option (Regex.Match Char) :=
  (Regex.run r ⟨[],text,[]⟩).head?.map fun d => ⟨⟨[],text,[]⟩,d⟩

end Assignments

section Reader

/-- `text.strip("'\"")`. -/
def stripQuotes (text : Text) : Text := rstripOf (· ∈ ['\'','"']) (text.dropWhile (· ∈ ['\'','"']))

/-- What the reader makes of a line. -/
def readEntry (line : Text) : Option (Text × Text) :=
  let line := strip line
  if line = [] ∨ line.head? = some '#' then none
  else (matchStart (.seq assignment remainder) line).map fun m =>
    (m.group 1,stripQuotes (strip (m.group 2)))

/-- `os.environ[key] = val` where the key is new; a null character is a `ValueError`. -/
def setDefault (env : Settings) (entry : Text × Text) : Option Settings :=
  if (env.lookup entry.1).isSome then some env
  else if Char.ofNat 0 ∈ entry.2 then none
  else some (env ++ [entry])

/-- `_load_env_file`, from the content of the file if there is one. -/
def loadEnvFile (file : Option Text) (env : Settings) : Option Settings :=
  ((file.elim [] splitLines).filterMap readEntry).foldlM setDefault env

end Reader

section Writer

def entryText (key value : Text) : Text := key ++ '=' :: value

/-- The key that the writer sees in a line. -/
def keyOf (line : Text) : Option Text := (matchStart assignment line).map (·.group 1)

/-- A line of the new file for a line of the old. -/
def rewrite (values : Settings) (line : Text) : Text :=
  match keyOf line with
  | none => line
  | some key => (values.lookup key).elim line (entryText key)

/-- The lines of the new file. -/
def rewritten (values : Settings) (lines : List Text) : List Text :=
  lines.map (rewrite values) ++
    (values.filter fun kv => !lines.any fun line => keyOf line = some kv.1).map fun kv => entryText kv.1 kv.2

/-- `_update_env_file`: the text of the new file. -/
def updateEnvFile (values : Settings) (file : Option Text) : Except HttpError Text :=
  match values.find? fun kv => '\n' ∈ kv.2 ∨ '\r' ∈ kv.2 with
  | some kv => .error ⟨400,"Invalid newline in ".toList ++ kv.1⟩
  | none => .ok (['\n'].intercalate (rewritten values (file.elim [] splitLines)) ++ ['\n'])

end Writer

section Requests

local instance lawfulText : LawfulBEq Text := inferInstanceAs (LawfulBEq (List Char))

/-- `LLM_PROVIDERS`, by their ids. -/
def llmProviders : List Text :=
  ["rules".toList,"openai".toList,"deepseek".toList,"qwen".toList,"moonshot".toList,"ollama".toList,
    "custom".toList]

structure ConfigRequest where
  provider : Option Text := none
  vendor : Option Text := none
  baseUrl : Option Text := none
  model : Option Text := none
  apiKey : Option Text := none

/-- `updates[key] = value` where a value is given. -/
def given (key : String) (value : Option Text) : Settings := value.toList.map fun v => (key.toList,v)

/-- The updates of `save_config`. -/
def configUpdates (req : ConfigRequest) : Except HttpError Settings :=
  if ∃ p ∈ req.provider, p ∉ ["dummy".toList,"openai".toList,"openai_compatible".toList,
      "openai-compatible".toList] then
    .error ⟨400,"Unsupported LLM provider".toList⟩
  else if ∃ v ∈ req.vendor, lower (strip v) ∉ llmProviders then
    .error ⟨400,"Unsupported LLM vendor".toList⟩
  else
    .ok (given "DFT_FORGE_LLM_PROVIDER" req.provider ++
      given "DFT_FORGE_LLM_VENDOR" (req.vendor.map fun v => lower (strip v)) ++
      given "DFT_FORGE_LLM_BASE_URL" (req.baseUrl.map strip) ++
      given "DFT_FORGE_LLM_MODEL" (req.model.map strip) ++
      given "DFT_FORGE_LLM_API_KEY" (req.apiKey.map strip))

structure ComputeConfigRequest where
  executor : Text := "local".toList
  qeBin : Option Text := none
  sshHost : Option Text := none
  sshKey : Option Text := none
  scheduler : Text := "none".toList
  remoteWorkdir : Option Text := none
  remoteQeBin : Option Text := none
  walltime : ℤ := 1800

/-- `value or default`. -/
def orElse (value : Option Text) (default : String) : Text :=
  if value.getD [] = [] then default.toList else value.getD []

/-- The updates of `save_compute_config`; `active` says that a run is registered. -/
def computeUpdates (active : Bool) (req : ComputeConfigRequest) : Except HttpError Settings :=
  let executor := lower (strip req.executor)
  let scheduler := lower (strip req.scheduler)
  if active then .error ⟨409,"有计算正在运行，停止后才能切换算力后端".toList⟩
  else if executor ∉ ["local".toList,"fake".toList,"ssh".toList] then
    .error ⟨400,"executor must be local, fake or ssh".toList⟩
  else if scheduler ∉ ["none".toList,"slurm".toList,"pbs".toList] then
    .error ⟨400,"scheduler must be none, slurm or pbs".toList⟩
  else if executor = "ssh".toList ∧ strip (orElse req.sshHost "") = [] then
    .error ⟨400,"SSH 模式必须填写主机".toList⟩
  else if ¬(30 ≤ req.walltime ∧ req.walltime ≤ 604800) then
    .error ⟨400,"walltime must be between 30 and 604800 seconds".toList⟩
  else
    .ok ([("DFT_FORGE_EXECUTOR".toList,executor),
      ("DFT_FORGE_QE_BIN".toList,strip (orElse req.qeBin "")),
      ("DFT_FORGE_SSH_HOST".toList,strip (orElse req.sshHost "")),
      ("DFT_FORGE_SCHEDULER".toList,scheduler),
      ("DFT_FORGE_REMOTE_WORKDIR".toList,strip (orElse req.remoteWorkdir "/root/workspace")),
      ("DFT_FORGE_REMOTE_QE_BIN".toList,strip (orElse req.remoteQeBin "/opt/qe/bin")),
      ("DFT_FORGE_WALLTIME".toList,(toString req.walltime).toList)] ++
      given "DFT_FORGE_SSH_KEY" (req.sshKey.map strip))

/-- The settings that a request can have stored. -/
def Accepted (values : Settings) : Prop :=
  values ≠ [] ∧
    ((∃ req, configUpdates req = .ok values) ∨ ∃ active req, computeUpdates active req = .ok values)

end Requests

end DftForge.Web.EnvFile
