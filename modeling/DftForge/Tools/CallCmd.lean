import DftForge.Engines.Repair

/-! # Tools that wrap a command

A command answers by the text it prints or by the file named by `args.output`, and
`_call_cmd` picks the json out of these. What the command computes is open: an
invocation is what it returned, printed and left in the file.
-/
namespace DftForge.Tools
open DftForge.Runtime DftForge.Python DftForge.Engines

/-- The `json` module. -/
structure JsonText where
  /-- `json.loads`, `none` on a `JSONDecodeError`. -/
  loads : Text → Option Json
  /-- `json.dumps(value, indent=2, default=str)`. -/
  dumps : Json → Text
  /-- `json.dumps(value, default=str)`. -/
  compact : Json → Text

/-- The text of an exception of `read_text`, which is never empty. -/
abbrev ReadError := {text : String // text ≠ ""}

/-- What `read_text` makes of a file. -/
abbrev Content := Except ReadError Text

section Payload

/-- The loop of `_balanced_json_objects`; `chunk` is the text since `start`, backwards. -/
structure Scan where
  depth : ℕ := 0
  chunk : Option Text := none
  inStr : Bool := false
  escape : Bool := false
  objects : List Text := []

/-- An opening brace. -/
def Scan.opening (s : Scan) (c : Char) : Scan :=
  { s with chunk := if s.depth = 0 then some [c] else s.chunk, depth := s.depth + 1 }

/-- A closing brace. -/
def Scan.closing (s : Scan) : Scan :=
  match s.depth with
  | 0 => s
  | 1 => { s with depth := 0, chunk := none, objects := s.objects ++ (s.chunk.map (·.reverse)).toList }
  | depth + 2 => { s with depth := depth + 1 }

def Scan.next (s : Scan) (c : Char) : Scan :=
  let s := { s with chunk := s.chunk.map (c :: ·) }
  if s.inStr then
    if s.escape then { s with escape := false }
    else if c = '\\' then { s with escape := true }
    else if c = '"' then { s with inStr := false }
    else s
  else if c = '"' then { s with inStr := true }
  else if c = Char.ofNat 0x7b then s.opening c
  else if c = Char.ofNat 0x7d then s.closing
  else s

def balancedJsonObjects (text : Text) : List Text := (text.foldl Scan.next {}).objects

example : balancedJsonObjects "x \x7b\"a\": \"\x7d\"\x7d\n\x7b\x7d".toList =
    ["\x7b\"a\": \"\x7d\"\x7d".toList,"\x7b\x7d".toList] := by decide

variable (j : JsonText)

/-- The largest of the parseable objects, the first one among equals. -/
def largestObject (text : Text) : Option Json :=
  ((balancedJsonObjects text).filterMap j.loads).argmax fun o => (j.compact o).length

/-- `_parse_payload`; the value `null` counts as nothing. -/
def parsePayload (text : Text) : Option Json :=
  if strip text = [] then none
  else match (j.loads text).orElse fun _ => largestObject j text with
    | some .null => none
    | payload => payload

theorem parsePayload_ne_null (text : Text) : parsePayload j text ≠ some .null := by
  unfold parsePayload
  split_ifs
  · exact nofun
  · split
    · exact nofun
    · assumption

end Payload

/-- What a command function did. -/
structure Invocation where
  returncode : ℤ
  stdout : Text
  stderr : Text
  /-- What it left in the file of `args.output`, when it wrote there. -/
  written : Option Content

/-- The file of `args.output` after the command ran. -/
def Invocation.fileAfter (inv : Invocation) (before : Option Content) : Option Content :=
  inv.written.orElse fun _ => before

/-- Where a json was read. -/
inductive Origin where
  | file
  | stdout
  | stderr
  deriving DecidableEq, Repr

structure Payload where
  returncode : ℤ
  stdout : Text
  stderr : Text
  /-- `payload["json"]` with the place it was read. -/
  json : Option (Origin × Json)
  jsonParseFailed : Bool

section Wrapper
variable (j : JsonText)

/-- The payload of `stdout`, else of `stderr`. -/
def readStreams (inv : Invocation) : Option (Origin × Json) :=
  match parsePayload j inv.stdout with
  | some value => some (.stdout,value)
  | none => (parsePayload j inv.stderr).map (.stderr,·)

/-- The json of a file, if it holds one. -/
def readFile : Option Content → Option (Origin × Json)
  | some (.ok text) => (j.loads text).map (.file,·)
  | _ => none

/-- `payload["json"]`, for the file that `ns.output` names. -/
def readJson (inv : Invocation) (file : Option Content) : Except String (Option (Origin × Json)) :=
  match file with
  | some (.error e) => .error e.1
  | file => .ok ((readFile j file).orElse fun _ => readStreams j inv)

def Invocation.payload (inv : Invocation) (json : Option (Origin × Json)) : Payload :=
  { returncode := inv.returncode, stdout := inv.stdout, stderr := inv.stderr, json
    jsonParseFailed := json.isNone && (strip inv.stdout ≠ [] || strip inv.stderr ≠ []) }

/-- `_call_cmd`; `named` says that the namespace has an output path. -/
def callCmd (named : Bool) (before : Option Content) (ran : Except String Invocation) :
    Except String Payload := do
  let inv ← ran
  let json ← readJson j inv (if named then inv.fileAfter before else none)
  .ok (inv.payload json)

variable {j} {inv : Invocation} {file : Option Content}

theorem readJson_of_readable (h : ∀ e, file ≠ some (.error e)) :
    readJson j inv file = .ok ((readFile j file).orElse fun _ => readStreams j inv) := by
  unfold readJson
  split
  · next e => exact absurd rfl (h e)
  · rfl

theorem callCmd_of_error {message : String} {named : Bool} {before : Option Content}
    (h : readJson j inv (if named then inv.fileAfter before else none) = .error message) :
    callCmd j named before (.ok inv) = .error message := by
  change (readJson j inv (if named then inv.fileAfter before else none) >>= _) = _
  rw [h]
  rfl

theorem callCmd_of_ok {json : Option (Origin × Json)} {named : Bool} {before : Option Content}
    (h : readJson j inv (if named then inv.fileAfter before else none) = .ok json) :
    callCmd j named before (.ok inv) = .ok (inv.payload json) := by
  change (readJson j inv (if named then inv.fileAfter before else none) >>= _) = _
  rw [h]
  rfl

end Wrapper

section Responses
variable (j : JsonText)

/-- `data.setdefault(key, value)`. -/
def setDefault (data : Dict) (key : String) (value : Json) : Dict :=
  if data.contains key then data else data.set key value

/-- `print` of a value. -/
def printed (data : Dict) : Text := j.dumps (.obj data) ++ ['\n']

/-- `_success_response`: into the output file, or printed when none is named. -/
def successResponse (data : Dict) (named : Bool) : Invocation :=
  let data := setDefault data "ok" (.bool true)
  { returncode := 0, stdout := if named then [] else printed j data, stderr := []
    written := if named then some (.ok (j.dumps (.obj data))) else none }

def errorPayload (message : String) (code : ℤ) (timestamp : String) (details : Option Dict) : Dict :=
  [("ok",.bool false),("error",.str message),("code",.num code),("timestamp",.str timestamp)] ++
    match details with
    | some (d :: ds) => [("details",.obj (d :: ds))]
    | _ => []

/-- `_error_response`: printed on `stderr`. -/
def errorResponse (message : String) (code : ℤ) (timestamp : String) (details : Option Dict) : Invocation :=
  { returncode := code, stdout := [], stderr := printed j (errorPayload message code timestamp details)
    written := none }

end Responses
end DftForge.Tools
