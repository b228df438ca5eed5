import DftForge.Agent.ToolStep

/-! # A tool reports its own invocation

The wrapper reads the output file before the streams, whoever wrote it, and the return
code is not looked at. A call reports its own invocation when the file had no json from
before that is read, and a failure is seen when the report names an error.
-/
namespace DftForge.Agent
open DftForge.Runtime DftForge.Python DftForge.Engines DftForge.Tools

/-- The namespaces of these two have no `output`. -/
def hasOutput (toolId : String) : Bool := toolId ≠ "thermo.eads" && toolId ≠ "thermo.formation"

/-- A call of a wrapped tool: its argument `output`, empty when absent, the file of that
name before the call, what the command did, and what the result handler raises. -/
structure WrappedCall where
  toolId : String
  output : String
  before : Option Content
  inv : Invocation
  handle : Json → Option String

namespace WrappedCall
variable (j : JsonText) (c : WrappedCall)

/-- `if out_path`. -/
def named : Bool := hasOutput c.toolId && c.output ≠ ""

/-- `str(args.get("output", "")).endswith(".json")`. -/
def jsonPath : Bool := decide (".json".toList <:+ c.output.toList)

def fileAfter : Option Content := c.inv.fileAfter c.before

/-- The file that `_call_cmd` looks at. -/
def lookedAt : Option Content := if c.named then c.fileAfter else none

def payload : Except String Payload := callCmd j c.named c.before (.ok c.inv)

def result : ToolResult :=
  ToolRegistry.call c.toolId (some { executeFn := some ((c.payload j).map .wrapped) })

def inner : Option (Source × Json) := innerOf j (c.result j).data c.jsonPath c.fileAfter

def step : StepResult := stepResult j c.toolId (c.result j) c.jsonPath c.fileAfter c.handle

/-- A json is the call's own unless it stood in a file that the call did not write. -/
def Own (source : Source) : Prop := source = some .file → c.inv.written.isSome = true

/-- What the wrapper returns was produced by this invocation, and a non-zero code is an
error of the step, which uses no json from before. -/
structure ReportsOwn : Prop where
  payload : ∀ p, c.payload j = .ok p → ∀ o v, p.json = some (o,v) → c.Own (some o)
  failure : c.inv.returncode ≠ 0 → (c.step j).status c.toolId = .error ∧
    (∀ o v, c.inner j = some (o,v) → c.Own o) ∧ ∀ o v, (c.step j).handled = some (o,v) → c.Own o

/-- The command did not write its output file, which held json before, and the file is
read: by the wrapper, or by the loop after a failure that printed no json. -/
def Stale : Prop :=
  c.inv.written = none ∧
    if c.named then (readFile j c.before).isSome = true
    else c.jsonPath = true ∧ c.inv.returncode ≠ 0 ∧ readStreams j c.inv = none ∧
      (sourced (readFile j c.before)).isSome = true

/-- The json that the command left: in the file it wrote, on `stdout` or on `stderr`. -/
def report : Option (Source × Json) :=
  let file := readFile j c.inv.written
  sourced <| if c.named then file.orElse fun _ => readStreams j c.inv
    else (readStreams j c.inv).orElse fun _ => if c.jsonPath then file else none

/-- A failing command reports an error, and its tool is not the one whose handler takes
error payloads; or the handler raises; or the output file cannot be read. -/
def FailureShown : Prop :=
  c.inv.returncode ≠ 0 →
    (∃ e, c.lookedAt = some (.error e)) ∨
    (hasError (dataOf (c.report j)).2 = true ∧ reportsErrors c.toolId = false) ∨
    ∃ message, c.handle (dataOf (c.report j)).2 = some message ∧ message ≠ ""

end WrappedCall

section Streams
variable {j : JsonText} {inv : Invocation} {o : Origin} {v : Json}

theorem readFile_origin {file : Option Content} (h : readFile j file = some (o,v)) :
    o = .file ∧ ∃ text, file = some (.ok text) := by
  rcases file with _ | _ | text
  · cases h
  · cases h
  · obtain ⟨value,_,heq⟩ := Option.map_eq_some_iff.mp h
    cases heq
    exact ⟨rfl,text,rfl⟩

theorem readStreams_origin (h : readStreams j inv = some (o,v)) : o ≠ .file ∧ v ≠ .null := by
  unfold readStreams at h
  cases hout : parsePayload j inv.stdout with
  | some value =>
    rw [hout] at h
    cases h
    exact ⟨by decide,fun hnull => parsePayload_ne_null j _ (hnull ▸ hout)⟩
  | none =>
    rw [hout] at h
    obtain ⟨value,hvalue,heq⟩ := Option.map_eq_some_iff.mp h
    cases heq
    exact ⟨by decide,fun hnull => parsePayload_ne_null j _ (hnull ▸ hvalue)⟩

theorem sourced_of_ne_null (h : v ≠ .null) : sourced (some (o,v)) = some (some o,v) := by
  cases v with
  | null => exact absurd rfl h
  | _ => rfl

theorem sourced_eq_some {json : Option (Origin × Json)} {source : Source}
    (h : sourced json = some (source,v)) : ∃ o, source = some o ∧ json = some (o,v) := by
  unfold sourced at h
  split at h
  · cases h
  · cases h
  · next o value _ =>
    cases h
    exact ⟨o,rfl,rfl⟩

end Streams

section Step
variable {j : JsonText} {toolId : String} {result : ToolResult} {jsonPath : Bool} {file : Option Content}
  {handle : Json → Option String}

theorem truthy_of_hasError {v : Json} (h : hasError v = true) : truthy v = true := by
  cases v with
  | obj fields =>
    cases fields with
    | nil => simp [hasError,Dict.get?] at h
    | cons => rfl
  | null => cases h
  | bool => cases h
  | num => cases h
  | str => cases h
  | arr => cases h

theorem hasError_dataOf {source : Source} {v : Json} {inner : Option (Source × Json)}
    (h : inner = some (source,v)) (herror : hasError v = true) : dataOf inner = (source,v) := by
  rw [h,dataOf,if_pos (truthy_of_hasError herror)]

/-- The data have an error exactly when the json has one. -/
theorem any_hasError (inner : Option (Source × Json)) :
    inner.any (hasError ·.2) = hasError (dataOf inner).2 := by
  rcases inner with _ | ⟨source,v⟩
  · rfl
  · by_cases h : hasError v = true
    · rw [hasError_dataOf rfl h,Option.any_some]
    · rw [Option.any_some,dataOf]
      split_ifs
      · rfl
      · simpa [hasError,Dict.get?] using h

/-- Without an error of the registry, a step fails when the data name an error or the
handler raises. -/
theorem stepResult_status (h : result.error = none) :
    (stepResult j toolId result jsonPath file handle).status toolId = .error ↔
      (hasError (dataOf (innerOf j result.data jsonPath file)).2 = true ∧ reportsErrors toolId = false) ∨
        ∃ message, handle (dataOf (innerOf j result.data jsonPath file)).2 = some message ∧
          message ≠ "" := by
  set inner := innerOf j result.data jsonPath file with hinner
  have hany := any_hasError inner
  unfold stepResult
  rw [← hinner,h]
  by_cases herror : hasError (dataOf inner).2 = true ∧ reportsErrors toolId = false
  · simp [raisedError,herror.1,herror.2,StepResult.status,hany]
  · have hcond : (hasError (dataOf inner).2 && !reportsErrors toolId) = false := by
      rw [Bool.eq_false_iff]
      intro hboth
      rw [Bool.and_eq_true,Bool.not_eq_true'] at hboth
      exact herror hboth
    cases hhandle : handle (dataOf inner).2 with
    | none => simp [raisedError,hcond,hhandle,StepResult.status,hany,herror]
    | some message => simp [raisedError,hcond,hhandle,StepResult.status,herror]

/-- The handler sees the json of the step or an empty dictionary. -/
theorem handled_eq {source : Source} {v : Json}
    (h : (stepResult j toolId result jsonPath file handle).handled = some (source,v)) :
    source = none ∨ innerOf j result.data jsonPath file = some (source,v) := by
  have hdata : dataOf (innerOf j result.data jsonPath file) = (source,v) := by
    unfold stepResult at h
    dsimp only at h
    split_ifs at h <;> split at h <;> exact Option.some_injective _ h
  rcases hin : innerOf j result.data jsonPath file with _ | ⟨source',v'⟩
  · rw [hin] at hdata
    cases hdata
    exact .inl rfl
  · rw [hin,dataOf] at hdata
    split_ifs at hdata
    · cases hdata
      exact .inr rfl
    · cases hdata
      exact .inl rfl

end Step

namespace WrappedCall
variable {j : JsonText} {c : WrappedCall}

theorem payload_of_unreadable {e : ReadError} (h : c.lookedAt = some (.error e)) :
    c.payload j = .error e.1 :=
  callCmd_of_error (by rw [show (if c.named then c.inv.fileAfter c.before else none) = _ from h]; rfl)

theorem payload_of_readable (h : ∀ e, c.lookedAt ≠ some (.error e)) :
    c.payload j = .ok (c.inv.payload ((readFile j c.lookedAt).orElse fun _ => readStreams j c.inv)) :=
  callCmd_of_ok (readJson_of_readable h)

theorem result_of_ok {p : Payload} (h : c.payload j = .ok p) : c.result j = ⟨.wrapped p,none⟩ := by
  rw [result,h]
  rfl

theorem result_of_error {message : String} (h : c.payload j = .error message) :
    c.result j = ⟨.raw [],some message⟩ := by
  rw [result,h]
  rfl

theorem lookedAt_of_named (h : c.named = true) : c.lookedAt = c.fileAfter := if_pos h

theorem lookedAt_of_not_named (h : c.named = false) : c.lookedAt = none := if_neg (by simp [h])

theorem fileAfter_of_written {file : Content} (h : c.inv.written = some file) : c.fileAfter = some file := by
  rw [fileAfter,Invocation.fileAfter,h]
  rfl

theorem fileAfter_of_not_written (h : c.inv.written = none) : c.fileAfter = c.before := by
  rw [fileAfter,Invocation.fileAfter,h]
  rfl

theorem inner_of_readable (h : ∀ e, c.lookedAt ≠ some (.error e)) :
    c.inner j = (sourced ((readFile j c.lookedAt).orElse fun _ => readStreams j c.inv)).orElse fun _ =>
      if c.jsonPath then sourced (readFile j c.fileAfter) else none := by
  rw [inner,result_of_ok (payload_of_readable h)]
  rfl

/-- What the wrapper finds in its file was written by the command, when nothing is stale. -/
theorem readFile_named (hnamed : c.named = true) (hstale : ¬c.Stale j) :
    readFile j c.fileAfter = readFile j c.inv.written := by
  cases hwritten : c.inv.written with
  | some file => rw [fileAfter_of_written hwritten]
  | none =>
    rw [fileAfter_of_not_written hwritten]
    cases hbefore : readFile j c.before with
    | none => rfl
    | some json => exact absurd ⟨hwritten,by rw [if_pos hnamed,hbefore]; rfl⟩ hstale

/-- So was what the loop finds there, after a failure that printed no json. -/
theorem readFile_not_named (hnamed : c.named = false) (hstale : ¬c.Stale j) (hpath : c.jsonPath = true)
    (hcode : c.inv.returncode ≠ 0) (hstreams : readStreams j c.inv = none) :
    sourced (readFile j c.fileAfter) = sourced (readFile j c.inv.written) := by
  cases hwritten : c.inv.written with
  | some file => rw [fileAfter_of_written hwritten]
  | none =>
    rw [fileAfter_of_not_written hwritten]
    cases hbefore : sourced (readFile j c.before) with
    | none => rfl
    | some json =>
      refine absurd ⟨hwritten,?_⟩ hstale
      rw [if_neg (by simp [hnamed]),hbefore]
      exact ⟨hpath,hcode,hstreams,rfl⟩

/-- A failing call that reads nothing stale uses what the command left. -/
theorem inner_eq_report (hread : ∀ e, c.lookedAt ≠ some (.error e)) (hstale : ¬c.Stale j)
    (hcode : c.inv.returncode ≠ 0) : c.inner j = c.report j := by
  rw [inner_of_readable hread]
  unfold report
  cases hnamed : c.named with
  | true =>
    rw [lookedAt_of_named hnamed,readFile_named hnamed hstale]
    dsimp only
    rw [if_pos rfl]
    cases readFile j c.inv.written with
    | none =>
      change (sourced (readStreams j c.inv)).orElse _ = sourced (readStreams j c.inv)
      cases sourced (readStreams j c.inv) <;> cases c.jsonPath <;> rfl
    | some json =>
      change (sourced (some json)).orElse _ = sourced (some json)
      cases sourced (some json) <;> cases c.jsonPath <;> rfl
  | false =>
    rw [lookedAt_of_not_named hnamed]
    change (sourced (readStreams j c.inv)).orElse _ = sourced ((readStreams j c.inv).orElse _)
    cases hstreams : readStreams j c.inv with
    | none =>
      change (if c.jsonPath then sourced (readFile j c.fileAfter) else none) =
        sourced (if c.jsonPath then readFile j c.inv.written else none)
      cases hpath : c.jsonPath with
      | false => rfl
      | true => exact readFile_not_named hnamed hstale hpath hcode hstreams
    | some json =>
      obtain ⟨o,v⟩ := json
      have hv := sourced_of_ne_null (o := o) (readStreams_origin hstreams).2
      change (sourced (some (o,v))).orElse _ = sourced (some (o,v))
      rw [hv]
      rfl

/-- Whatever a failing call uses is its own exactly when it is not stale. -/
theorem report_own {o : Source} {v : Json} (h : c.report j = some (o,v)) : c.Own o := by
  rintro rfl
  obtain ⟨o,ho,hfound⟩ := sourced_eq_some h
  cases ho
  have hfile : readFile j c.inv.written = some (.file,v) := by
    cases hstreams : readStreams j c.inv with
    | none => split_ifs at hfound <;> simp_all
    | some json =>
      obtain ⟨o,w⟩ := json
      have hne := (readStreams_origin hstreams).1
      cases hwritten : readFile j c.inv.written <;> split_ifs at hfound <;> simp_all
  obtain ⟨_,text,htext⟩ := readFile_origin hfile
  rw [htext]
  rfl

/-- An unreadable output file is an error of the call, and no json is used. -/
theorem failure_of_unreadable {e : ReadError} (h : c.lookedAt = some (.error e)) :
    (c.step j).status c.toolId = .error ∧ c.inner j = some (none,.obj []) ∧ (c.step j).handled = none := by
  have hresult := result_of_error (payload_of_unreadable (j := j) h)
  have hraised : raisedError (some e.1) = true := by simpa [raisedError] using e.2
  refine ⟨?_,by rw [inner,hresult]; rfl,?_⟩
  · rw [step,hresult]
    simp [stepResult,hraised,StepResult.status]
  · rw [step,hresult]
    simp [stepResult,hraised]

theorem status_of_readable (h : ∀ e, c.lookedAt ≠ some (.error e)) :
    (c.step j).status c.toolId = .error ↔
      (hasError (dataOf (c.inner j)).2 = true ∧ reportsErrors c.toolId = false) ∨
        ∃ message, c.handle (dataOf (c.inner j)).2 = some message ∧ message ≠ "" :=
  stepResult_status (by rw [result_of_ok (payload_of_readable h)])

theorem not_stale_of_reportsOwn (h : c.ReportsOwn j) : ¬c.Stale j := by
  rintro ⟨hwritten,hread⟩
  have hnot : c.inv.written.isSome ≠ true := by simp [hwritten]
  cases hnamed : c.named with
  | true =>
    rw [if_pos hnamed] at hread
    obtain ⟨⟨o,v⟩,hfile⟩ := Option.isSome_iff_exists.mp hread
    obtain ⟨rfl,text,hbefore⟩ := readFile_origin hfile
    have hlooked : c.lookedAt = c.before := by
      rw [lookedAt_of_named hnamed,fileAfter_of_not_written hwritten]
    have hpayload : c.payload j = .ok (c.inv.payload (some (.file,v))) := by
      rw [payload_of_readable (by rw [hlooked,hbefore]; exact nofun),hlooked,hfile]
      rfl
    exact hnot (h.payload _ hpayload .file v rfl rfl)
  | false =>
    rw [if_neg (by simp [hnamed])] at hread
    obtain ⟨hpath,hcode,hstreams,hsome⟩ := hread
    obtain ⟨⟨source,v⟩,hfile⟩ := Option.isSome_iff_exists.mp hsome
    obtain ⟨o,rfl,hjson⟩ := sourced_eq_some hfile
    obtain ⟨rfl,text,hbefore⟩ := readFile_origin hjson
    have hinner : c.inner j = some (some .file,v) := by
      rw [inner_of_readable (by rw [lookedAt_of_not_named hnamed]; exact nofun),
        lookedAt_of_not_named hnamed,hstreams,hpath,fileAfter_of_not_written hwritten,hfile]
      rfl
    exact hnot ((h.failure hcode).2.1 _ v hinner rfl)

theorem payload_own (hstale : ¬c.Stale j) {p : Payload} (hp : c.payload j = .ok p) {o : Origin} {v : Json}
    (hjson : p.json = some (o,v)) : c.Own (some o) := by
  intro ho
  cases ho
  by_cases hread : ∃ e, c.lookedAt = some (.error e)
  · obtain ⟨e,he⟩ := hread
    rw [payload_of_unreadable he] at hp
    cases hp
  · rw [payload_of_readable (fun e he => hread ⟨e,he⟩)] at hp
    cases hp
    change ((readFile j c.lookedAt).orElse fun _ => readStreams j c.inv) = some (.file,v) at hjson
    have hstreams : readStreams j c.inv ≠ some (.file,v) := fun h => (readStreams_origin h).1 rfl
    cases hnamed : c.named with
    | true =>
      rw [lookedAt_of_named hnamed,readFile_named hnamed hstale] at hjson
      cases hfile : readFile j c.inv.written with
      | none =>
        rw [hfile] at hjson
        exact absurd hjson hstreams
      | some json =>
        obtain ⟨_,text,htext⟩ := readFile_origin (o := json.1) (v := json.2) hfile
        rw [htext]
        rfl
    | false =>
      rw [lookedAt_of_not_named hnamed] at hjson
      exact absurd hjson hstreams

end WrappedCall

/-- A call reports its own invocation exactly when it reads nothing stale and a failure
is shown. -/
theorem reports_own_iff (j : JsonText) (c : WrappedCall) :
    c.ReportsOwn j ↔ ¬c.Stale j ∧ c.FailureShown j := by
  constructor
  · intro h
    have hstale := WrappedCall.not_stale_of_reportsOwn h
    refine ⟨hstale,fun hcode => ?_⟩
    by_cases hread : ∃ e, c.lookedAt = some (.error e)
    · exact .inl hread
    · have hreadable : ∀ e, c.lookedAt ≠ some (.error e) := fun e he => hread ⟨e,he⟩
      rw [← WrappedCall.inner_eq_report hreadable hstale hcode]
      exact .inr ((WrappedCall.status_of_readable hreadable).mp (h.failure hcode).1)
  · rintro ⟨hstale,hshown⟩
    refine ⟨fun p hp o v hjson => WrappedCall.payload_own hstale hp hjson,fun hcode => ?_⟩
    by_cases hread : ∃ e, c.lookedAt = some (.error e)
    · obtain ⟨e,he⟩ := hread
      obtain ⟨hstatus,hinner,hhandled⟩ := WrappedCall.failure_of_unreadable (j := j) he
      refine ⟨hstatus,fun o v h => ?_,fun o v h => ?_⟩
      · rw [hinner] at h
        cases h
        exact nofun
      · rw [hhandled] at h
        cases h
    · have hreadable : ∀ e, c.lookedAt ≠ some (.error e) := fun e he => hread ⟨e,he⟩
      have hinner := WrappedCall.inner_eq_report hreadable hstale hcode
      have hown : ∀ o v, c.inner j = some (o,v) → c.Own o := fun o v h =>
        WrappedCall.report_own (hinner ▸ h)
      refine ⟨?_,hown,fun o v h => ?_⟩
      · rw [WrappedCall.status_of_readable hreadable,hinner]
        exact (hshown hcode).resolve_left hread
      · rcases handled_eq h with rfl | h
        · exact nofun
        · exact hown o v h

section Responses
variable {j : JsonText} {c : WrappedCall}

theorem successResponse_own {data : Dict} (h : c.inv = successResponse j data c.named) : c.ReportsOwn j := by
  refine (reports_own_iff j c).mpr ⟨?_,fun hcode => absurd (by rw [h]; rfl) hcode⟩
  rintro ⟨hwritten,hread⟩
  cases hnamed : c.named with
  | true =>
    rw [h,hnamed] at hwritten
    cases hwritten
  | false =>
    rw [if_neg (by simp [hnamed])] at hread
    exact hread.2.1 (by rw [h]; rfl)

/-- What `print` shows of a dictionary is read back. -/
def ReadBack (j : JsonText) (data : Dict) : Prop :=
  strip (printed j data) ≠ [] ∧ j.loads (printed j data) = some (.obj data)

theorem errorResponse_streams {message timestamp : String} {code : ℤ} {details : Option Dict}
    (h : ReadBack j (errorPayload message code timestamp details)) :
    readStreams j (errorResponse j message code timestamp details) =
      some (.stderr,.obj (errorPayload message code timestamp details)) := by
  have hout : parsePayload j [] = none := rfl
  have herr : parsePayload j (printed j (errorPayload message code timestamp details)) =
      some (.obj (errorPayload message code timestamp details)) := by
    rw [parsePayload,if_neg h.1,h.2]
    rfl
  simp only [readStreams,errorResponse,hout,herr,Option.map_some]

theorem hasError_errorPayload {message timestamp : String} {code : ℤ} {details : Option Dict}
    (h : message ≠ "") : hasError (.obj (errorPayload message code timestamp details)) = true := by
  simpa [hasError,errorPayload,Dict.get?,List.lookup_cons,truthy] using h

/-- An error response is the call's own, and is seen, exactly when no json from before is
in the output file. -/
theorem errorResponse_own_iff {message timestamp : String} {code : ℤ} {details : Option Dict}
    (h : c.inv = errorResponse j message code timestamp details)
    (hprint : ReadBack j (errorPayload message code timestamp details)) (hmessage : message ≠ "")
    (htool : reportsErrors c.toolId = false) :
    c.ReportsOwn j ↔ (c.named = true → readFile j c.before = none) := by
  have hstreams : readStreams j c.inv = some (.stderr,.obj (errorPayload message code timestamp details)) := by
    rw [h,errorResponse_streams hprint]
  have hwritten : c.inv.written = none := by rw [h]; rfl
  have hreport : c.report j = some (some .stderr,.obj (errorPayload message code timestamp details)) := by
    unfold WrappedCall.report
    rw [hwritten,hstreams]
    cases c.named <;> rfl
  have herror : hasError (.obj (errorPayload message code timestamp details)) = true :=
    hasError_errorPayload hmessage
  have hshown : c.FailureShown j := fun _ =>
    .inr (.inl ⟨by rw [hasError_dataOf hreport herror]; exact herror,htool⟩)
  rw [reports_own_iff,and_iff_left hshown]
  cases hnamed : c.named with
  | true => simp [WrappedCall.Stale,hwritten,hnamed,Option.isSome_iff_ne_none]
  | false => simp [WrappedCall.Stale,hwritten,hnamed,hstreams]

end Responses

def importedText : Text :=
  ("\x7b\n  \"success\": true,\n  \"formula\": \"ClNa\",\n  \"source\": \"nacl.cif\",\n" ++
    "  \"ok\": true\n\x7d").toList

def imported : Dict :=
  [("success",.bool true),("formula",.str "ClNa"),("source",.str "nacl.cif"),("ok",.bool true)]

def importError : Dict := errorPayload "Import failed" 1 "2025-01-01T00:00:00+00:00" none

def importErrorText : Text :=
  ("\x7b\n  \"ok\": false,\n  \"error\": \"Import failed\",\n  \"code\": 1,\n" ++
    "  \"timestamp\": \"2025-01-01T00:00:00+00:00\"\n\x7d").toList

/-- The `json` module on the texts of two imports. -/
def importJson : JsonText where
  loads text := if text = importedText then some (.obj imported)
    else if text = importErrorText ++ ['\n'] then some (.obj importError) else none
  dumps _ := importErrorText
  compact _ := importErrorText.filter (· ≠ '\n')

/-- An import that fails after another one succeeded in the session. -/
def failedImport : WrappedCall :=
  { toolId := "structure.import", output := "session/structure.json", before := some (.ok importedText)
    inv := errorResponse importJson "Import failed" 1 "2025-01-01T00:00:00+00:00" none
    handle := fun _ => none }

/-- The step of the failed import is done, with the structure of the earlier one. -/
theorem stale_import :
    failedImport.inv.returncode = 1 ∧
    (failedImport.step importJson).status failedImport.toolId = .done ∧
    (failedImport.step importJson).handled = some (some .file,.obj imported) ∧
    ¬failedImport.ReportsOwn importJson := by
  have hhandled : (failedImport.step importJson).handled = some (some .file,.obj imported) := by rfl
  refine ⟨rfl,by decide +kernel,hhandled,fun h => ?_⟩
  have hown := (h.failure (by decide)).2.2 _ _ hhandled rfl
  cases hown

end DftForge.Agent
