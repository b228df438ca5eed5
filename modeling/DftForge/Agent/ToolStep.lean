import DftForge.Tools.CallCmd

/-! # The tool call of a plan step

`ToolRegistry.call` and the part of `run_session` that turns its result into the result
of the step. `handle_tool_result` is open; it may raise.
-/
namespace DftForge.Agent
open DftForge.Runtime DftForge.Python DftForge.Engines DftForge.Tools

/-- What a tool returns: the payload of `_call_cmd`, or the data of another tool. -/
inductive ToolData where
  | wrapped (payload : Payload)
  | raw (data : Dict)

structure ToolResult where
  data : ToolData
  error : Option String

/-- A registered tool on the arguments of the call: the first violation of its schema,
and what `execute_fn` returns or raises. -/
structure ToolEntry where
  enabled : Bool := true
  executeFn : Option (Except String ToolData)
  schemaViolation : Option String := none

namespace ToolRegistry

/-- `ToolRegistry.call`. -/
def call (toolId : String) (tool : Option ToolEntry) : ToolResult :=
  match tool with
  | none => ⟨.raw [],some ("Tool not found: " ++ toolId)⟩
  | some tool =>
    if !tool.enabled then ⟨.raw [],some ("Tool disabled: " ++ toolId)⟩
    else match tool.executeFn with
      | none => ⟨.raw [],some ("Tool missing executor: " ++ toolId)⟩
      | some ran =>
        match tool.schemaViolation with
        | some violation => ⟨.raw [],some ("Invalid arguments for " ++ toolId ++ ": " ++ violation)⟩
        | none =>
          match ran with
          | .ok data => ⟨data,none⟩
          | .error message => ⟨.raw [],some message⟩

end ToolRegistry

/-- Where the json of a step comes from: a payload or a file, or straight from the tool. -/
abbrev Source := Option Origin

/-- A json with its source; the value `null` is `None`. -/
def sourced (json : Option (Origin × Json)) : Option (Source × Json) :=
  match json with
  | none => none
  | some (_, .null) => none
  | some (origin, value) => some (some origin,value)

/-- `inner` before the output file is tried. -/
def ToolData.inner : ToolData → Option (Source × Json)
  | .wrapped payload => sourced payload.json
  | .raw data => some (none,.obj data)

/-- `inner`; `jsonPath` says that the argument `output` ends in `.json`. -/
def innerOf (j : JsonText) (data : ToolData) (jsonPath : Bool) (file : Option Content) :
    Option (Source × Json) :=
  data.inner.orElse fun _ => if jsonPath then sourced (readFile j file) else none

inductive StepStatus where
  | done
  | error
  deriving DecidableEq, Repr

/-- `data.get("error")` of a dictionary is true. -/
def hasError : Json → Bool
  | .obj fields => ((Dict.get? fields "error").map truthy).getD false
  | _ => false

/-- The tool whose error payloads its own handler reports. -/
def reportsErrors (toolId : String) : Bool := toolId = "structure.analyze"

structure StepResult where
  returncode : ℤ
  json : Option (Source × Json)
  error : Option String
  /-- The data that `handle_tool_result` was called with. -/
  handled : Option (Source × Json)

/-- `bool(error)`. -/
def raisedError : Option String → Bool
  | some message => message ≠ ""
  | none => false

/-- `step_failed` decides the status. -/
def StepResult.status (toolId : String) (r : StepResult) : StepStatus :=
  if raisedError r.error || (r.json.any (hasError ·.2) && !reportsErrors toolId) then .error else .done

/-- `inner or {}`. -/
def dataOf : Option (Source × Json) → Source × Json
  | some (source, value) => if truthy value then (source,value) else (none,.obj [])
  | none => (none,.obj [])

/-- The body of the `try` block in `run_session` and its `except`; `handle` is the text
of the exception that `handle_tool_result` raises on the data. -/
def stepResult (j : JsonText) (toolId : String) (result : ToolResult) (jsonPath : Bool)
    (file : Option Content) (handle : Json → Option String) : StepResult :=
  let inner := innerOf j result.data jsonPath file
  let data := dataOf inner
  let answer : StepResult :=
    { returncode := if result.error.isNone then 0 else 1, json := inner, error := result.error, handled := none }
  if raisedError result.error then answer
  else if hasError data.2 && !reportsErrors toolId then answer
  else match handle data.2 with
    | none => { answer with handled := some data }
    | some message => { returncode := 1, json := none, error := some message, handled := some data }

end DftForge.Agent
