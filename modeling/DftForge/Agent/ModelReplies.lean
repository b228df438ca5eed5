import DftForge.Agent.WorkflowGate
import DftForge.Runtime.JsonColumns

/-! # The workflow in a model's reply

`_extract_json` cuts an object out of what a language model answers, whatever stands around it, and
`plan` asks again until an answer has a workflow that validates.
-/
namespace DftForge.Agent
open DftForge.Library DftForge.Runtime DftForge.Python

/-- The back quote. -/
def tick : Char := Char.ofNat 96

/-- A reply without its code fence. -/
def unfenced (cleaned : Text) : Text :=
  if [tick,tick,tick] <+: cleaned then
    let inner := rstripOf (· = tick) (cleaned.dropWhile (· = tick))
    if "json".toList <+: lower inner then inner.drop 4 else inner
  else cleaned

/-- From the first opening brace to the last closing brace; nothing where one of them is missing. -/
def betweenBraces (text : Text) : Text := rstripOf (· ≠ '\x7d') (text.dropWhile (· ≠ '\x7b'))

section Replies
variable (nums : JsonText.Numerals ℚ) (decodeError : Text → String)

/-- `_extract_json`. -/
def extractJson (reply : Text) : Except String Json :=
  match betweenBraces (unfenced (strip reply)) with
  | [] => .error "no JSON object found in LLM reply"
  | slice => match JsonText.loads nums slice with
    | none => .error (decodeError slice)
    | some v => .ok (Json.ofValue v)

/-- What a call of the model does: an error that is not caught, one that is, or a reply. -/
inductive ChatReply where
  | crashed
  | failed (error : String)
  | text (reply : Text)

/-- A reply up to `_to_workflow`. -/
def ChatReply.outcome : ChatReply → ChatOutcome
  | .crashed => .crashed
  | .failed error => .failed error
  | .text reply => match extractJson nums decodeError reply with
    | .error error => .failed error
    | .ok (.obj data) => .object data
    | .ok _ => .crashed

end Replies

/-- The object that the system prompt asks for. -/
def StepIR.spelled (step : StepIR) : Dict :=
  [("step_id",.str step.stepId),("step_type",.str step.stepType),("prefix",.str step.prefixName),
    ("depends_on",.arr step.dependsOn),("overrides",.obj step.overrides)]

def WorkflowIR.spelled (w : WorkflowIR) : Dict :=
  [("task_id",.str w.taskId),("task_type",.str w.taskType),("material",.str w.material),
    ("reasoning",.str w.reasoning),("steps",.arr (w.steps.map fun step => .obj step.spelled))]

section Cutting
variable {body t : Text}

/-- An object stands in the text, with no brace that opens before it and none that closes after it. -/
def StandsIn (body t : Text) : Prop := ∃ pre post, t = pre ++ (body ++ post) ∧ '\x7b' ∉ pre ∧ '\x7d' ∉ post

/-- What is written of an object. -/
def Braced (body : Text) : Prop := (∃ t, body = '\x7b' :: t) ∧ ∃ t, body = t ++ ['\x7d']

theorem braced_write {N : Type*} (nums : JsonText.Numerals N) (l : JsonText.Layout)
    (fields : List (Text × JsonText.Value N)) : Braced (JsonText.write nums l 0 (.obj fields)) := by
  cases fields with
  | nil => exact ⟨⟨_,rfl⟩,['\x7b'],rfl⟩
  | cons f fs =>
    obtain ⟨k,v⟩ := f
    refine ⟨⟨_,rfl⟩,?_⟩
    rw [JsonText.write]
    exact ⟨_,by simp only [← List.append_assoc,← List.cons_append]; rfl⟩

theorem dropWhile_append_cons {p : Char → Bool} {c : Char} (hc : p c = false) (pre t : Text) :
    (pre ++ c :: t).dropWhile p = pre.dropWhile p ++ c :: t := by
  have hstay : (c :: t).dropWhile p = c :: t := List.dropWhile_cons_of_neg (by rw [hc]; exact Bool.false_ne_true)
  rw [List.dropWhile_append,hstay]
  split_ifs with hempty
  · rw [List.isEmpty_iff.mp hempty,List.nil_append]
  · rfl

theorem rstripOf_append_cons {p : Char → Bool} {c : Char} (hc : p c = false) (t post : Text) :
    rstripOf p (t ++ c :: post) = t ++ c :: rstripOf p post := by
  have hreverse : (t ++ c :: post).reverse = post.reverse ++ c :: t.reverse := by simp
  rw [rstripOf,hreverse,dropWhile_append_cons hc]
  simp [rstripOf]

theorem mem_of_mem_rstripOf {p : Char → Bool} {c : Char} (h : c ∈ rstripOf p t) : c ∈ t := by
  rw [rstripOf,List.mem_reverse] at h
  exact List.mem_reverse.mp ((List.dropWhile_sublist p).subset h)

/-- Nothing is cut off of an object whose ends stay. -/
theorem StandsIn.dropWhile (h : StandsIn body t) (hbody : Braced body) {p : Char → Bool} (hp : p '\x7b' = false) :
    StandsIn body (t.dropWhile p) := by
  obtain ⟨pre,post,rfl,hpre,hpost⟩ := h
  obtain ⟨⟨rest,rfl⟩,-⟩ := hbody
  refine ⟨pre.dropWhile p,post,?_,fun hmem => hpre ((List.dropWhile_sublist p).subset hmem),hpost⟩
  exact dropWhile_append_cons hp pre _

theorem StandsIn.rstripOf (h : StandsIn body t) (hbody : Braced body) {p : Char → Bool} (hp : p '\x7d' = false) :
    StandsIn body (rstripOf p t) := by
  obtain ⟨pre,post,rfl,hpre,hpost⟩ := h
  obtain ⟨-,front,rfl⟩ := hbody
  refine ⟨pre,Python.rstripOf p post,?_,hpre,fun hmem => hpost (mem_of_mem_rstripOf hmem)⟩
  have hend := rstripOf_append_cons hp (pre ++ front) post
  simpa only [List.append_assoc,List.singleton_append] using hend

theorem standsIn_strip (h : StandsIn body t) (hbody : Braced body) : StandsIn body (strip t) :=
  (h.dropWhile hbody (by decide)).rstripOf hbody (by decide)

/-- A word that a text begins with in lower case lies before a brace that is no part of it. -/
theorem length_le_of_prefix_lower {word pre t : Text} (hword : ∀ c ∈ word, c ≠ '\x7b' ∧ c ≠ 'i')
    (h : word <+: lower (pre ++ '\x7b' :: t)) : word.length ≤ pre.length := by
  induction word generalizing pre with
  | nil => exact Nat.zero_le _
  | cons x xs ih =>
    obtain ⟨hx,hxs⟩ := List.forall_mem_cons.mp hword
    cases pre with
    | nil => exact absurd (List.cons_prefix_cons.mp h).1 hx.1
    | cons c pre =>
      refine Nat.succ_le_succ (ih hxs ?_)
      rw [List.cons_append,lower,List.flatMap_cons,← lower,lowerChar] at h
      split_ifs at h
      · exact (List.cons_prefix_cons.mp h).2
      · exact absurd (List.cons_prefix_cons.mp h).1 hx.2
      · exact (List.cons_prefix_cons.mp h).2

/-- The word that is cut off ends before the object. -/
theorem standsIn_drop_json (h : StandsIn body t) (hbody : Braced body) (hjson : "json".toList <+: lower t) :
    StandsIn body (t.drop 4) := by
  obtain ⟨pre,post,rfl,hpre,hpost⟩ := h
  obtain ⟨⟨rest,rfl⟩,-⟩ := hbody
  have hword : ∀ c ∈ "json".toList, c ≠ '\x7b' ∧ c ≠ 'i' := by simp
  rw [List.cons_append] at hjson
  have hlong := length_le_of_prefix_lower hword hjson
  refine ⟨pre.drop 4,post,?_,fun hmem => hpre (List.mem_of_mem_drop hmem),hpost⟩
  rw [List.drop_append_of_le_length (show 4 ≤ pre.length from hlong)]

theorem standsIn_unfenced (h : StandsIn body t) (hbody : Braced body) : StandsIn body (unfenced t) := by
  have hinner : StandsIn body (rstripOf (· = tick) (t.dropWhile (· = tick))) :=
    (h.dropWhile hbody (by decide)).rstripOf hbody (by decide)
  rw [unfenced]
  by_cases hfence : [tick,tick,tick] <+: t
  · rw [if_pos hfence]
    by_cases hjson : "json".toList <+: lower (rstripOf (· = tick) (t.dropWhile (· = tick)))
    · rw [if_pos hjson]
      exact standsIn_drop_json hinner hbody hjson
    · rwa [if_neg hjson]
  · rwa [if_neg hfence]

theorem betweenBraces_of_standsIn (h : StandsIn body t) (hbody : Braced body) : betweenBraces t = body := by
  obtain ⟨pre,post,rfl,hpre,hpost⟩ := h
  have hfirst : pre.dropWhile (· ≠ '\x7b') = [] :=
    List.dropWhile_eq_nil_iff.mpr fun c hc => decide_eq_true fun heq => hpre (heq ▸ hc)
  have hlast : rstripOf (· ≠ '\x7d') post = [] := by
    rw [rstripOf,List.reverse_eq_nil_iff,List.dropWhile_eq_nil_iff]
    exact fun c hc => decide_eq_true fun heq => hpost (heq ▸ List.mem_reverse.mp hc)
  obtain ⟨⟨rest,hrest⟩,front,hfront⟩ := hbody
  have hcut : (pre ++ (body ++ post)).dropWhile (· ≠ '\x7b') = body ++ post := by
    rw [hrest,List.cons_append,dropWhile_append_cons (by decide),hfirst,List.nil_append]
  rw [betweenBraces,hcut,hfront,List.append_assoc,List.singleton_append,rstripOf_append_cons (by decide),hlast]

end Cutting

section Plans
variable {nums : JsonText.Numerals ℚ} {decodeError : Text → String}

/-- An object is read from a reply, whatever stands before it without an opening brace and after it
without a closing one. -/
theorem extractJson_write (l : JsonText.Layout) {data : Dict} (hdata : IsJson nums (.obj data)) {pre post : Text}
    (hpre : '\x7b' ∉ pre) (hpost : '\x7d' ∉ post) :
    extractJson nums decodeError (pre ++ (JsonText.write nums l 0 (Json.obj data).textValue ++ post)) = .ok (.obj data) := by
  set body := JsonText.write nums l 0 (Json.obj data).textValue with hbodyEq
  have hbody : Braced body := braced_write nums l (fieldValues data)
  have hstands : StandsIn body (unfenced (strip (pre ++ (body ++ post)))) :=
    standsIn_unfenced (standsIn_strip ⟨pre,post,rfl,hpre,hpost⟩ hbody) hbody
  have hloads : JsonText.loads nums body = some (Json.obj data).textValue := JsonText.loads_write nums l hdata
  rw [extractJson,betweenBraces_of_standsIn hstands hbody]
  obtain ⟨⟨rest,hrest⟩,-⟩ := hbody
  rw [hrest] at hloads ⊢
  simp only [hloads,ofValue_textValue]

namespace OpenAICompatProvider
variable (p : OpenAICompatProvider)

/-- `plan`, from what its calls of the model do. -/
def planReplies (nums : JsonText.Numerals ℚ) (decodeError : Text → String) (replies : List ChatReply) :
    Option LLMResponse := p.plan (replies.map (ChatReply.outcome nums decodeError))

theorem toStep_spelled (step : StepIR) : p.toStep (.obj step.spelled) = some step := rfl

theorem toWorkflow_spelled {w : WorkflowIR} (htype : w.taskType = "T1" ∨ w.taskType = "T2") :
    p.toWorkflow w.spelled = some w := by
  have hsteps : (w.steps.map fun step => Json.obj step.spelled).mapM p.toStep = some w.steps := by
    induction w.steps with
    | nil => rfl
    | cons step steps ih => rw [List.map_cons,List.mapM_cons,toStep_spelled,ih]; rfl
  have hitems : iterItems ((w.spelled.get? "steps").getD (.arr [])) = some (w.steps.map fun step => .obj step.spelled) := rfl
  have htaskType : taskType w.spelled w.steps = w.taskType := by
    have hget : w.spelled.get? "task_type" = some (.str w.taskType) := rfl
    rw [taskType,hget]
    rcases htype with h | h
    · rw [h]; rfl
    · rw [h]; rfl
  simp only [toWorkflow,hitems,Option.bind_eq_bind,Option.bind_some,hsteps,htaskType]
  rfl

/-- A workflow that validates comes out of the plan as it was spelled: after any refused replies, the
reply may have any text around the object, a code fence among it, and any layout of the object. -/
theorem plan_reads_reply (w : WorkflowIR) (l : JsonText.Layout) (pre post : Text) (before after : List ChatReply)
    (hvalid : w.validate p.unicode = []) (hdata : IsJson nums (.obj w.spelled)) (hpre : '\x7b' ∉ pre)
    (hpost : '\x7d' ∉ post) (hbefore : ∀ r ∈ before, p.Refused (r.outcome nums decodeError)) :
    let reply := pre ++ (JsonText.write nums l 0 (Json.obj w.spelled).textValue ++ post)
    (p.planReplies nums decodeError (before ++ .text reply :: after)).map (planFromPrompt p.unicode) = some (.ok w) := by
  intro reply
  have houtcome : (ChatReply.text reply).outcome nums decodeError = .object w.spelled := by
    rw [ChatReply.outcome,extractJson_write l hdata hpre hpost]
  have hrefused : ∀ outcome ∈ before.map (ChatReply.outcome nums decodeError), p.Refused outcome := by
    intro outcome houtcome
    obtain ⟨r,hr,rfl⟩ := List.mem_map.mp houtcome
    exact hbefore r hr
  obtain ⟨error,herror⟩ := attempts_refused (.object w.spelled :: after.map (ChatReply.outcome nums decodeError)) hrefused
  rw [planReplies,plan,List.map_append,List.map_cons,houtcome,herror,attempts,toWorkflow_spelled p (taskType_of_validate hvalid)]
  simp only [if_pos hvalid,Option.map_some,planFromPrompt,Option.filter_none]

def relaxSilicon : WorkflowIR where
  taskId := "si_vc_relax"
  taskType := "T1"
  material := "Si"
  steps := [{ stepType := "vc-relax", prefixName := "si", stepId := "relax" }]
  reasoning := "one relaxation"

def plainProvider : OpenAICompatProvider := ⟨plainCasts,{},fun _ => ""⟩

theorem fenced_reply_read :
    let reply := "Here it is:\n```json\n".toList ++
      (JsonText.write sampleNumbers ⟨true,some 2⟩ 0 (Json.obj relaxSilicon.spelled).textValue ++ "\n```\n".toList)
    (plainProvider.planReplies sampleNumbers (fun _ => "") ([.text "I cannot plan this.".toList] ++ [.text reply])).map
      (planFromPrompt plainProvider.unicode) = some (.ok relaxSilicon) := by
  refine plan_reads_reply plainProvider relaxSilicon ⟨true,some 2⟩ _ _ _ [] rfl ?_ (by decide) (by decide) ?_
  · have hkeys : (["task_id","task_type","material","reasoning","steps"].map String.toList).Nodup := by decide
    have hstepKeys : (["step_id","step_type","prefix","depends_on","overrides"].map String.toList).Nodup := by decide
    exact ⟨hkeys,trivial,trivial,trivial,trivial,
      ⟨⟨hstepKeys,trivial,trivial,trivial,trivial,⟨List.nodup_nil,trivial⟩,trivial⟩,trivial⟩,trivial⟩
  · intro r hr
    obtain rfl := List.mem_singleton.mp hr
    exact trivial

end OpenAICompatProvider

end Plans

end DftForge.Agent
