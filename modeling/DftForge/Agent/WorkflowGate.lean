import DftForge.Agent.PlanCompile
import DftForge.Agent.Workflow
import DftForge.Runtime.CycleDetection

/-! # The gate between a language model and the execution

`OpenAICompatProvider` reads a workflow from each answer until one validates, and
`Planner.plan_from_prompt` validates once more. Neither looks at the dependencies. The
graph runtime does for its templates, and what it checks is what a workflow lacks.
-/
namespace DftForge.Agent
open DftForge.Runtime DftForge.Python DftForge.Catalog

/-- The outcome of one call of the model: an error that is caught, one that is not, or the
object found in the answer. -/
inductive ChatOutcome where
  | crashed
  | failed (error : String)
  | object (data : Dict)

structure LLMResponse where
  workflow : Option WorkflowIR := none
  error : Option String := none

/-- `OpenAICompatProvider`; `crash` is the text of the exception its reading raises. -/
structure OpenAICompatProvider where
  casts : Casts
  unicode : Unicode
  crash : Dict → String

namespace OpenAICompatProvider
variable (p : OpenAICompatProvider)

/-- `str(d.get(key, default))`. -/
def textAt (d : Dict) (key default : String) : String := ((d.get? key).map p.casts.text).getD default

/-- One step of `_to_workflow`; nothing where it raises. -/
def toStep : Json → Option StepIR
  | .obj s => do
    let stepId ← Dict.get? s "step_id"
    let stepType ← Dict.get? s "step_type"
    let dependsOn ← iterItems ((Dict.get? s "depends_on").getD (.arr []))
    let overrides ← p.casts.toDict ((Dict.get? s "overrides").getD (.obj []))
    return {
      stepType := p.casts.text stepType
      prefixName := p.textAt s "prefix" "run"
      stepId := p.casts.text stepId
      dependsOn := dependsOn
      overrides := overrides }
  | _ => none

/-- A type that is neither T1 nor T2 is read off the steps. -/
def taskType (data : Dict) (steps : List StepIR) : String :=
  match data.get? "task_type" with
  | some (.str "T1") => "T1"
  | some (.str "T2") => "T2"
  | _ => if steps.any fun s => s.stepType = "bands_nscf" || s.stepType = "dos_nscf" then "T2" else "T1"

/-- `_to_workflow`. -/
def toWorkflow (data : Dict) : Option WorkflowIR := do
  let items ← iterItems ((data.get? "steps").getD (.arr []))
  let steps ← items.mapM p.toStep
  return {
    taskId := p.textAt data "task_id" "llm_plan"
    taskType := taskType data steps
    material := p.textAt data "material" ""
    steps := steps
    reasoning := p.textAt data "reasoning" "" }

/-- The loop of `plan` over the outcomes of its calls; nothing where a call crashes. -/
def attempts (total : ℕ) : List ChatOutcome → String → Option LLMResponse
  | [], error =>
    some { error := some ("LLM planning failed after " ++ toString total ++ " attempts: " ++ error) }
  | .crashed :: _, _ => none
  | .failed error :: rest, _ => attempts total rest error
  | .object data :: rest, _ =>
    match p.toWorkflow data with
    | none => attempts total rest (p.crash data)
    | some w =>
      if w.validate p.unicode = [] then some { workflow := some w }
      else attempts total rest (String.intercalate "; " (w.validate p.unicode))

def plan (outcomes : List ChatOutcome) : Option LLMResponse := p.attempts outcomes.length outcomes ""

end OpenAICompatProvider

/-- `plan_from_prompt`, from the response of the provider. -/
def planFromPrompt (u : Unicode) (response : LLMResponse) : Except String WorkflowIR :=
  match response.error.filter (· ≠ ""), response.workflow with
  | some error, _ => .error ("LLM planning failed: " ++ error)
  | none, none => .error "LLM provider returned no workflow"
  | none, some w =>
    if w.validate u = [] then .ok w else .error ("Invalid workflow: " ++ pyList (w.validate u))

/-- What a workflow must be for its steps to be carried out in some order. -/
structure WorkflowIR.Executable (w : WorkflowIR) : Prop where
  unique : (w.steps.map (·.stepId)).Nodup
  names : ∀ step ∈ w.steps, ∀ d ∈ step.dependsOn,
    ∃ other ∈ w.steps, d = .str other.stepId ∧ other.stepId ≠ step.stepId
  acyclic : ∀ id, ¬ Relation.TransGen
    (fun a b => ∃ step ∈ w.steps, step.stepId = b ∧ Json.str a ∈ step.dependsOn) id id
  ascii : ∀ step ∈ w.steps, ∀ ch ∈ step.prefixName.toList, ch.isAlphanum = true ∨ ch = '_' ∨ ch = '-'

def asText : Json → Option String
  | .str s => some s
  | _ => none

/-- The steps and their dependencies as a template of the graph runtime. -/
def WorkflowIR.template (w : WorkflowIR) : GraphTemplate :=
  { templateId := w.taskId
    nodes := w.steps.map fun s =>
      { id := s.stepId, tool := s.stepType, dependsOn := s.dependsOn.filterMap asText } }

/-- The errors of a template that are about its ids and its dependencies. -/
def aboutEdges : TemplateError → Bool
  | .duplicateNodeIds | .unknownDependency _ _ | .selfDependency _ | .cycle _ => true
  | _ => false

/-- The dependencies are texts in which the validation of templates finds nothing wrong,
and the prefixes stay within ASCII. -/
structure WorkflowIR.Linked (w : WorkflowIR) : Prop where
  texts : ∀ step ∈ w.steps, ∀ d ∈ step.dependsOn, (asText d).isSome
  graph : ∀ e ∈ w.template.validate none, aboutEdges e = false
  ascii : ∀ step ∈ w.steps, ∀ ch ∈ step.prefixName.toList, ch.toNat < 128

section Edges
variable {t : GraphTemplate}

theorem forall_mem_flag {wrong : Bool} {error : TemplateError} {P : TemplateError → Prop} :
    (∀ e ∈ GraphTemplate.flag wrong error, P e) ↔ (wrong = true → P error) := by
  cases wrong <;> simp [GraphTemplate.flag]

theorem referenceError_aboutEdges {n : NodeSpec} {raw : List Char} {e : TemplateError}
    (h : t.referenceError n raw = some e) : aboutEdges e = false := by
  unfold GraphTemplate.referenceError at h
  split at h
  · cases h
  · split at h
    · cases h
      rfl
    · split_ifs at h
      cases h
      rfl
    · cases h
      rfl
    · split_ifs at h <;> cases h <;> rfl

theorem outputError_aboutEdges {name : String} {ref : Json} {e : TemplateError}
    (h : t.outputError name ref = some e) : aboutEdges e = false := by
  unfold GraphTemplate.outputError at h
  split at h
  · split at h
    · split_ifs at h
      cases h
      rfl
    · cases h
      rfl
  · cases h
    rfl

theorem nodeErrors_iff {n : NodeSpec} :
    (∀ e ∈ t.nodeErrors n, aboutEdges e = false) ↔
      (∀ d ∈ n.dependsOn, d ∈ t.ids) ∧ n.id ∉ n.dependsOn := by
  have hrefs : ∀ e ∈ (iterFieldStrings n.params).filterMap (t.referenceError n), aboutEdges e = false := by
    intro e he
    obtain ⟨raw,_,hraw⟩ := List.mem_filterMap.mp he
    exact referenceError_aboutEdges hraw
  have hdeps : (∀ e ∈ (n.dependsOn.filter (· ∉ t.ids)).map (TemplateError.unknownDependency n.id),
      aboutEdges e = false) ↔ ∀ d ∈ n.dependsOn, d ∈ t.ids := by
    rw [List.forall_mem_map]
    simp [aboutEdges, imp_false]
  unfold GraphTemplate.nodeErrors
  simp only [List.flatten_cons, List.flatten_nil, List.append_nil, List.forall_mem_append,
    forall_mem_flag, iff_true_intro hrefs, and_true, hdeps]
  simp [aboutEdges]

/-- The ids and dependencies of a template pass its validation exactly if they name
each other without repetition and without a cycle. -/
theorem aboutEdges_iff {known : Option (List String)} :
    (∀ e ∈ t.validate known, aboutEdges e = false) ↔
      t.ids.Nodup ∧ (∀ n ∈ t.nodes, (∀ d ∈ n.dependsOn, d ∈ t.ids) ∧ n.id ∉ n.dependsOn) ∧
        t.detectCycle = none := by
  have houtputs : ∀ e ∈ t.outputs.filterMap (fun kv => t.outputError kv.1 kv.2), aboutEdges e = false := by
    intro e he
    obtain ⟨kv,_,hkv⟩ := List.mem_filterMap.mp he
    exact outputError_aboutEdges hkv
  have htools : ∀ e ∈ known.toList.flatMap fun known =>
      (t.nodes.filter (·.tool ∉ known)).map fun n => TemplateError.unknownTool n.id n.tool,
      aboutEdges e = false := by
    intro e he
    obtain ⟨names,_,he⟩ := List.mem_flatMap.mp he
    obtain ⟨n,_,rfl⟩ := List.mem_map.mp he
    rfl
  have hdup : t.ids.dedup.length = t.ids.length ↔ t.ids.Nodup :=
    ⟨GraphTemplate.nodup_of_length_dedup,fun h => by rw [h.dedup]⟩
  unfold GraphTemplate.validate
  simp only [List.flatten_cons, List.flatten_nil, List.append_nil, List.forall_mem_append,
    forall_mem_flag, iff_true_intro houtputs, iff_true_intro htools, and_true]
  have hnodes : (∀ e ∈ t.nodes.flatMap t.nodeErrors, aboutEdges e = false) ↔
      ∀ n ∈ t.nodes, (∀ d ∈ n.dependsOn, d ∈ t.ids) ∧ n.id ∉ n.dependsOn := by
    rw [List.forall_mem_flatMap]
    exact forall₂_congr fun n _ => nodeErrors_iff
  rw [hnodes]
  cases hcycle : t.detectCycle <;> simp [aboutEdges, hdup]

end Edges

section Gate
variable {w : WorkflowIR} {u : Unicode}

theorem mem_texts {deps : List Json} {id : String} : id ∈ deps.filterMap asText ↔ Json.str id ∈ deps := by
  rw [List.mem_filterMap]
  constructor
  · rintro ⟨d,hd,hid⟩
    cases d with
    | str s => exact Option.some.inj hid ▸ hd
    | _ => cases hid
  · intro h
    exact ⟨_,h,rfl⟩

theorem template_ids : w.template.ids = w.steps.map (·.stepId) := by
  simp [GraphTemplate.ids, WorkflowIR.template, Function.comp_def]

theorem forall_template_nodes {P : NodeSpec → Prop} : (∀ n ∈ w.template.nodes, P n) ↔
    ∀ s ∈ w.steps, P { id := s.stepId, tool := s.stepType, dependsOn := s.dependsOn.filterMap asText } :=
  List.forall_mem_map

/-- The edges of the template are the dependencies of the steps. -/
theorem edge_eq (hnodup : w.template.ids.Nodup)
    (hknown : ∀ n ∈ w.template.nodes, ∀ d ∈ n.dependsOn, d ∈ w.template.ids) :
    Dag.Edge w.template.adjacency =
      fun a b => ∃ step ∈ w.steps, step.stepId = b ∧ Json.str a ∈ step.dependsOn := by
  funext a b
  refine propext ⟨?_,?_⟩
  · intro h
    obtain ⟨n,hn,hid,ha,_⟩ := GraphTemplate.mem_adjacency h
    obtain ⟨step,hstep,rfl⟩ := List.mem_map.mp hn
    exact ⟨step,hstep,hid,mem_texts.mp ha⟩
  · rintro ⟨step,hstep,rfl,ha⟩
    have hn := List.mem_map_of_mem (f := fun s : StepIR =>
      ({ id := s.stepId, tool := s.stepType, dependsOn := s.dependsOn.filterMap asText } : NodeSpec)) hstep
    have hadj := GraphTemplate.adjacency_of_nodup hnodup hn (hknown _ hn)
    rw [Dag.Edge, hadj]
    exact mem_texts.mpr ha

theorem ascii_of_isAlphanum {c : Char} (h : c.isAlphanum = true) : c.toNat < 128 := by
  simp only [Char.isAlphanum, Char.isAlpha, Char.isUpper, Char.isLower, Char.isDigit, Bool.or_eq_true,
    Bool.and_eq_true, decide_eq_true_eq, ge_iff_le, UInt32.le_iff_toNat_le] at h
  have : c.toNat = c.val.toNat := rfl
  have h1 : 'Z'.val.toNat = 90 := rfl
  rcases h with ((⟨_,h⟩ | ⟨_,h⟩) | ⟨_,h⟩) <;> simp at h <;> omega

/-- In a prefix that validates, ASCII leaves letters, digits and the two marks. -/
theorem prefix_ascii_iff {name : String}
    (h : isAlnum u (name.toList.filter fun c => c ≠ '_' && c ≠ '-') = true) :
    (∀ c ∈ name.toList, c.isAlphanum = true ∨ c = '_' ∨ c = '-') ↔ ∀ c ∈ name.toList, c.toNat < 128 := by
  refine forall₂_congr fun c hc => ⟨?_,fun hlt => ?_⟩
  · rintro (h | rfl | rfl)
    · exact ascii_of_isAlphanum h
    · decide
    · decide
  · by_cases hmark : c = '_' ∨ c = '-'
    · exact Or.inr hmark
    · rw [isAlnum, Bool.and_eq_true, List.all_eq_true] at h
      have halnum := h.2 c (List.mem_filter.mpr ⟨hc,by simpa [not_or] using hmark⟩)
      simp only [Bool.or_eq_true, Bool.and_eq_true, decide_eq_true_eq] at halnum
      rcases halnum with halnum | ⟨hge,_⟩
      · exact Or.inl halnum
      · omega

theorem prefix_of_validate (h : w.validate u = []) {step : StepIR} (hstep : step ∈ w.steps) :
    isAlnum u (step.prefixName.toList.filter fun c => c ≠ '_' && c ≠ '-') = true := by
  rw [WorkflowIR.validate, List.append_eq_nil_iff, List.flatMap_eq_nil_iff] at h
  have herrors := h.2 step hstep
  rw [StepIR.errors, List.append_eq_nil_iff] at herrors
  by_contra hno
  rw [if_neg hno] at herrors
  cases herrors.2

/-- A workflow that validates is executable exactly if its steps are linked. -/
theorem executable_iff (h : w.validate u = []) : w.Executable ↔ w.Linked := by
  have hascii : (∀ step ∈ w.steps, ∀ ch ∈ step.prefixName.toList,
      ch.isAlphanum = true ∨ ch = '_' ∨ ch = '-') ↔
      ∀ step ∈ w.steps, ∀ ch ∈ step.prefixName.toList, ch.toNat < 128 :=
    forall₂_congr fun step hstep => prefix_ascii_iff (prefix_of_validate h hstep)
  constructor
  · intro hex
    have htexts : ∀ step ∈ w.steps, ∀ d ∈ step.dependsOn, (asText d).isSome := by
      intro step hstep d hd
      obtain ⟨other,_,rfl,_⟩ := hex.names step hstep d hd
      rfl
    have hnodup : w.template.ids.Nodup := template_ids (w := w) ▸ hex.unique
    have hnodes : ∀ n ∈ w.template.nodes,
        (∀ d ∈ n.dependsOn, d ∈ w.template.ids) ∧ n.id ∉ n.dependsOn := by
      refine forall_template_nodes.mpr fun step hstep => ⟨fun d hd => ?_,fun hself => ?_⟩
      · obtain ⟨other,hother,hd,_⟩ := hex.names step hstep _ (mem_texts.mp hd)
        rw [template_ids, Json.str.inj hd]
        exact List.mem_map_of_mem hother
      · obtain ⟨other,_,hd,hne⟩ := hex.names step hstep _ (mem_texts.mp hself)
        exact hne (Json.str.inj hd).symm
    have hcycle : w.template.detectCycle = none := by
      rw [GraphTemplate.detectCycle_none_iff, edge_eq hnodup fun n hn => (hnodes n hn).1]
      exact hex.acyclic
    exact ⟨htexts,aboutEdges_iff.mpr ⟨hnodup,hnodes,hcycle⟩,hascii.mp hex.ascii⟩
  · intro hlinked
    obtain ⟨hnodup,hnodes,hcycle⟩ := aboutEdges_iff.mp hlinked.graph
    have hsteps := forall_template_nodes.mp hnodes
    rw [GraphTemplate.detectCycle_none_iff, edge_eq hnodup fun n hn => (hnodes n hn).1] at hcycle
    rw [template_ids] at hnodup
    refine ⟨hnodup,fun step hstep d hd => ?_,hcycle,hascii.mpr hlinked.ascii⟩
    cases d with
    | str id =>
      have hmem := (hsteps step hstep).1 id (mem_texts.mpr hd)
      rw [template_ids] at hmem
      obtain ⟨other,hother,rfl⟩ := List.mem_map.mp hmem
      refine ⟨other,hother,rfl,fun hsame => (hsteps step hstep).2 ?_⟩
      exact mem_texts.mpr (hsame ▸ hd)
    | _ => cases hlinked.texts step hstep _ hd

theorem planFromPrompt_ok_iff {response : LLMResponse} :
    planFromPrompt u response = .ok w ↔
      response.error.filter (· ≠ "") = none ∧ response.workflow = some w ∧ w.validate u = [] := by
  unfold planFromPrompt
  cases response.error.filter (· ≠ "") with
  | some error => simp
  | none =>
    cases response.workflow with
    | none => simp
    | some w' =>
      dsimp only
      constructor
      · intro h
        split_ifs at h with hvalid
        obtain rfl := Except.ok.inj h
        exact ⟨rfl,rfl,hvalid⟩
      · rintro ⟨-,hw,hvalid⟩
        obtain rfl := Option.some.inj hw
        rw [if_pos hvalid]

namespace OpenAICompatProvider
variable {p : OpenAICompatProvider}

/-- The outcome is no answer, or an answer without a workflow that validates. -/
def Refused (p : OpenAICompatProvider) : ChatOutcome → Prop
  | .crashed => False
  | .failed _ => True
  | .object data => ∀ w, p.toWorkflow data = some w → w.validate p.unicode ≠ []

/-- The model answers with an object after refused outcomes only. -/
def Answers (p : OpenAICompatProvider) (outcomes : List ChatOutcome) (data : Dict) : Prop :=
  ∃ before after, outcomes = before ++ .object data :: after ∧ ∀ outcome ∈ before, p.Refused outcome

theorem attempts_refused {total : ℕ} {before : List ChatOutcome} (rest : List ChatOutcome) {error : String}
    (h : ∀ outcome ∈ before, p.Refused outcome) :
    ∃ error', p.attempts total (before ++ rest) error = p.attempts total rest error' := by
  induction before generalizing error with
  | nil => exact ⟨error,rfl⟩
  | cons outcome before ih =>
    have hfirst := h outcome List.mem_cons_self
    have hbefore : ∀ o ∈ before, p.Refused o := fun o ho => h o (List.mem_cons_of_mem _ ho)
    cases outcome with
    | crashed => exact hfirst.elim
    | failed message => exact ih hbefore
    | object data =>
      rw [List.cons_append, attempts]
      cases hw : p.toWorkflow data with
      | none => exact ih hbefore
      | some w =>
        dsimp only
        rw [if_neg (hfirst w hw)]
        exact ih hbefore

theorem attempts_workflow {total : ℕ} {outcomes : List ChatOutcome} {error : String} {response : LLMResponse}
    (h : p.attempts total outcomes error = some response) (hw : response.workflow = some w) :
    ∃ data, p.Answers outcomes data ∧ p.toWorkflow data = some w ∧ w.validate p.unicode = [] := by
  induction outcomes generalizing error with
  | nil =>
    obtain rfl := Option.some.inj h
    cases hw
  | cons outcome rest ih =>
    have hskip : p.Refused outcome → (∃ error', p.attempts total rest error' = some response) →
        ∃ data, p.Answers (outcome :: rest) data ∧ p.toWorkflow data = some w ∧
          w.validate p.unicode = [] := by
      rintro hrefused ⟨error',h'⟩
      obtain ⟨data,⟨before,after,rfl,hbefore⟩,hdata⟩ := ih h'
      exact ⟨data,⟨outcome :: before,after,rfl,List.forall_mem_cons.mpr ⟨hrefused,hbefore⟩⟩,hdata⟩
    cases outcome with
    | crashed => cases h
    | failed message => exact hskip trivial ⟨_,h⟩
    | object data =>
      rw [attempts] at h
      cases hread : p.toWorkflow data with
      | none =>
        rw [hread] at h
        refine hskip (fun w' hw' => ?_) ⟨_,h⟩
        cases hread.symm.trans hw'
      | some w' =>
        rw [hread] at h
        dsimp only at h
        by_cases hvalid : w'.validate p.unicode = []
        · rw [if_pos hvalid] at h
          obtain rfl := Option.some.inj h
          obtain rfl := Option.some.inj hw
          exact ⟨data,⟨[],rest,rfl,by simp⟩,hread,hvalid⟩
        · rw [if_neg hvalid] at h
          refine hskip (fun w'' hw'' => ?_) ⟨_,h⟩
          obtain rfl := Option.some.inj (hread.symm.trans hw'')
          exact hvalid

/-- The planner returns the workflow of the first answer whose workflow validates. -/
theorem planned_iff {outcomes : List ChatOutcome} :
    (∃ response, p.plan outcomes = some response ∧ planFromPrompt p.unicode response = .ok w) ↔
      ∃ data, p.Answers outcomes data ∧ p.toWorkflow data = some w ∧ w.validate p.unicode = [] := by
  constructor
  · rintro ⟨response,hresponse,hok⟩
    exact attempts_workflow hresponse (planFromPrompt_ok_iff.mp hok).2.1
  · rintro ⟨data,⟨before,after,rfl,hbefore⟩,hread,hvalid⟩
    refine ⟨{ workflow := some w },?_,planFromPrompt_ok_iff.mpr ⟨rfl,rfl,hvalid⟩⟩
    obtain ⟨error,herror⟩ := attempts_refused (.object data :: after) hbefore
    rw [plan, herror, attempts, hread]
    exact if_pos hvalid

end OpenAICompatProvider

/-- Validation admits an executable workflow, and the planner returns one of whatever it
is answered, exactly where the steps of the workflow that validates are linked. -/
theorem workflow_gate_iff (p : OpenAICompatProvider) :
    (∀ w : WorkflowIR, (w.validate p.unicode = [] → w.Executable) ↔
      (w.validate p.unicode = [] → w.Linked)) ∧
    (∀ response : LLMResponse, (∀ w, planFromPrompt p.unicode response = .ok w → w.Executable) ↔
      ∀ w, response.error.filter (· ≠ "") = none → response.workflow = some w →
        w.validate p.unicode = [] → w.Linked) ∧
    ∀ outcomes : List ChatOutcome,
      (∀ w response, p.plan outcomes = some response → planFromPrompt p.unicode response = .ok w →
        w.Executable) ↔
      ∀ w data, p.Answers outcomes data → p.toWorkflow data = some w → w.validate p.unicode = [] →
        w.Linked := by
  refine ⟨fun w => ?_,fun response => ?_,fun outcomes => ?_⟩
  · exact forall_congr' executable_iff
  · constructor
    · intro h w herror hw hvalid
      exact (executable_iff hvalid).mp (h w (planFromPrompt_ok_iff.mpr ⟨herror,hw,hvalid⟩))
    · intro h w hok
      obtain ⟨herror,hw,hvalid⟩ := planFromPrompt_ok_iff.mp hok
      exact (executable_iff hvalid).mpr (h w herror hw hvalid)
  · constructor
    · intro h w data hanswers hread hvalid
      obtain ⟨response,hresponse,hok⟩ := OpenAICompatProvider.planned_iff.mpr ⟨data,hanswers,hread,hvalid⟩
      exact (executable_iff hvalid).mp (h w response hresponse hok)
    · intro h w response hresponse hok
      obtain ⟨data,hanswers,hread,hvalid⟩ := OpenAICompatProvider.planned_iff.mp ⟨response,hresponse,hok⟩
      exact (executable_iff hvalid).mpr (h w data hanswers hread hvalid)

/-- A step that waits for a step the workflow does not have. -/
def danglingAnswer : Dict :=
  [("task_type",.str "T2"),("material",.str "Si"),
    ("steps",.arr [.obj [("step_id",.str "nscf"),("step_type",.str "bands_nscf"),("prefix",.str "si"),
      ("depends_on",.arr [.str "scf"])]])]

def danglingStep : StepIR :=
  { stepType := "bands_nscf", prefixName := "si", stepId := "nscf", dependsOn := [.str "scf"] }

def danglingWorkflow : WorkflowIR :=
  { taskId := "llm_plan", taskType := "T2", material := "Si", steps := [danglingStep] }

def asciiProvider : OpenAICompatProvider := ⟨plainCasts,{},fun _ => ""⟩

/-- The planner returns a workflow whose step waits for a missing one, and the validation
accepts a prefix outside ASCII. -/
theorem dangling_accepted :
    (∃ response, asciiProvider.plan [.object danglingAnswer] = some response ∧
      planFromPrompt asciiProvider.unicode response = .ok danglingWorkflow ∧ ¬ danglingWorkflow.Executable) ∧
    ∃ w : WorkflowIR, ∃ u : Unicode, u.isAlnum 'é' = true ∧ w.validate u = [] ∧ ¬ w.Executable := by
  refine ⟨?_,⟨"id","T1","Si",[{ stepType := "vc-relax", prefixName := "é" }],""⟩,
    { isAlnum := fun c => c = 'é' },?_⟩
  · refine ⟨{ workflow := some danglingWorkflow },rfl,rfl,fun hex => ?_⟩
    obtain ⟨other,hother,hd,_⟩ := hex.names danglingStep (List.mem_singleton.mpr rfl) (.str "scf")
      (List.mem_singleton.mpr rfl)
    obtain rfl := List.mem_singleton.mp hother
    exact absurd (Json.str.inj hd) (by decide)
  · refine ⟨by decide,by decide +kernel,fun hex => ?_⟩
    have hchar := hex.ascii _ (List.mem_singleton.mpr rfl) 'é' (by decide)
    revert hchar
    decide

end Gate
end DftForge.Agent
