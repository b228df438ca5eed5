import DftForge.Agent.PlanCompile

/-! # Which plans the planner takes up

A payload whose actions all name enabled tools is taken up exactly if it gives no
criteria of success and its fields can be read. The criteria share a list with the
errors of the compilation, so the planner takes each for an unknown capability.
-/
namespace DftForge.Agent
open DftForge.Runtime DftForge.Python DftForge.Engines
variable {c : Casts} {tools : List RegisteredTool} {files : List TemplateFile}

/-- A value that `(value or [])[:n]` can read. -/
def Sliceable (v : Json) : Prop := truthy v = false ∨ (∃ items, v = .arr items) ∨ ∃ s, v = .str s

theorem texts_isSome_iff (n width : ℕ) {v : Json} :
    (PlanIR.texts c n width (pyOr v (.arr []))).isSome ↔ Sliceable v := by
  unfold PlanIR.texts Sliceable pyOr
  rw [Option.isSome_map]
  by_cases h : truthy v = true
  · rw [if_pos h]
    cases v <;> simp [sliceItems, h]
  · rw [if_neg h]
    simp [sliceItems, Bool.eq_false_iff.mpr h]

/-- What is read of a value that counts as true is not empty. -/
theorem texts_ne_nil {n width : ℕ} {v : Json} {items : List String} (hv : truthy v = true)
    (h : PlanIR.texts c (n + 1) width (pyOr v (.arr [])) = some items) : items ≠ [] := by
  obtain ⟨values,hvalues,rfl⟩ := Option.map_eq_some_iff.mp h
  rw [pyOr, if_pos hv] at hvalues
  intro hempty
  rw [List.map_eq_nil_iff] at hempty
  subst hempty
  cases v with
  | arr entries =>
    cases entries with
    | nil => cases hv
    | cons => cases hvalues
  | str s =>
    have hs : s ≠ "" := of_decide_eq_true hv
    have hnil := List.map_eq_nil_iff.mp (Option.some.inj hvalues)
    rcases List.take_eq_nil_iff.mp hnil with hn | hnil
    · cases hn
    · exact hs (String.toList_eq_nil_iff.mp hnil)
  | _ => cases hvalues

theorem texts_nil {n width : ℕ} {v : Json} (hv : truthy v = false) :
    PlanIR.texts c n width (pyOr v (.arr [])) = some [] := by
  rw [pyOr, if_neg (by simp [hv])]
  simp [PlanIR.texts, sliceItems]

theorem truthy_pyOr {a b : Json} : truthy (pyOr a b) = (truthy a || truthy b) := by
  unfold pyOr
  cases h : truthy a <;> simp [h]

theorem fromPayload_eq_some {payload : Dict} {source : String} {plan : PlanIR}
    (h : PlanIR.fromPayload c payload source = some plan) :
    ∃ actions, iterItems (PlanIR.payloadActions payload) = some actions ∧
      plan.actions = actions.filterMap (PlanIR.normalize c) ∧
      PlanIR.texts c 8 160 (PlanIR.payloadCriteria payload) = some plan.validation := by
  obtain ⟨actions,hactions,h⟩ := Option.bind_eq_some_iff.mp h
  obtain ⟨constraints,-,h⟩ := Option.bind_eq_some_iff.mp h
  obtain ⟨assumptions,-,h⟩ := Option.bind_eq_some_iff.mp h
  obtain ⟨outputs,-,h⟩ := Option.bind_eq_some_iff.mp h
  obtain ⟨validation,hvalidation,h⟩ := Option.bind_eq_some_iff.mp h
  obtain rfl := Option.some.inj h
  exact ⟨actions,hactions,rfl,hvalidation⟩

/-- A payload with readable actions is read when its other fields can be. -/
theorem fromPayload_isSome_iff {payload : Dict} (source : String) {actions : List Json}
    (hactions : iterItems (PlanIR.payloadActions payload) = some actions) :
    (PlanIR.fromPayload c payload source).isSome ↔
      (c.toDict (pyOr (field payload "constraints") (.obj []))).isSome ∧
      Sliceable (field payload "assumptions") ∧
      Sliceable (pyOr (field payload "expected_outputs") (field payload "outputs")) ∧
      Sliceable (pyOr (field payload "validation") (field payload "success_criteria")) := by
  rw [← texts_isSome_iff (c := c) 8 180,
    ← texts_isSome_iff (c := c) 12 120,
    ← texts_isSome_iff (c := c) 8 160]
  unfold PlanIR.fromPayload PlanIR.payloadCriteria
  rw [hactions]
  cases c.toDict (pyOr (field payload "constraints") (.obj [])) <;>
    cases PlanIR.texts c 8 180 (pyOr (field payload "assumptions") (.arr [])) <;>
    cases PlanIR.texts c 12 120
      (pyOr (pyOr (field payload "expected_outputs") (field payload "outputs")) (.arr [])) <;>
    cases PlanIR.texts c 8 160
      (pyOr (pyOr (field payload "validation") (field payload "success_criteria")) (.arr [])) <;>
    simp

namespace LLMPlanner
variable {p : LLMPlanner} {message : String} {payload : Dict}

/-- Every action of the payload names an enabled tool. -/
def Resolves (p : LLMPlanner) (payload : Dict) : Prop :=
  ∃ capabilities actions, buildCapabilityGraph p.casts p.tools p.files = some capabilities ∧
    iterItems (PlanIR.payloadActions payload) = some actions ∧
    ∀ a ∈ actions.filterMap (PlanIR.normalize p.casts), a.resolved p.casts capabilities ∈ toolIds p.tools

/-- The payload gives no criteria of success, and its other fields can be read. -/
structure Plain (p : LLMPlanner) (payload : Dict) : Prop where
  validation : truthy (field payload "validation") = false
  successCriteria : truthy (field payload "success_criteria") = false
  constraints : (p.casts.toDict (pyOr (field payload "constraints") (.obj []))).isSome
  assumptions : Sliceable (field payload "assumptions")
  outputs : Sliceable (pyOr (field payload "expected_outputs") (field payload "outputs"))
  args : ∀ actions, iterItems (PlanIR.payloadActions payload) = some actions →
    ∀ a ∈ (actions.filterMap (PlanIR.normalize p.casts)).take 8, (a.argsDict p.casts).isSome

/-- The planner gets to this attempt, and the payload answers it. -/
def AnsweredBy (p : LLMPlanner) (message : String) (payload : Dict) (answers : Reply × Reply) : Bool → Prop
  | true => answers.1 = .object payload
  | false => (∃ refusal, p.attempt message true answers.1 = .again refusal) ∧ answers.2 = .object payload

/-- As far as its capabilities go the plan of the payload is accepted: it is what the
planner returns, or the first attempt asks once more for its arguments. -/
def TakenUp (p : LLMPlanner) (message : String) (payload : Dict) (first : Bool) : Prop :=
  ∀ answers, p.AnsweredBy message payload answers first →
    (∃ steps compiled reply plan, p.compiled message payload = some (steps,compiled) ∧
      p.plan message answers = .accepted steps reply plan) ∨
    first = true ∧ ∃ err, p.attempt message true (.object payload) = .again (.invalidArgs err)

/-- The attempt is repeated for unknown capabilities. -/
def ReportsUnknown (p : LLMPlanner) (message : String) (payload : Dict) (first : Bool) : Prop :=
  ∃ err, p.attempt message first (.object payload) = .again (.unknownCapabilities err)

@[simp] theorem withGoal_actions {plan : PlanIR} : (withGoal message plan).actions = plan.actions := by
  unfold withGoal
  split_ifs <;> rfl

@[simp] theorem withGoal_validation {plan : PlanIR} :
    (withGoal message plan).validation = plan.validation := by
  unfold withGoal
  split_ifs <;> rfl

/-- The validation of a compiled plan whose actions resolve holds the criteria only. -/
theorem compiled_validation (hres : p.Resolves payload) {steps : List PlannedStep} {plan : PlanIR}
    (h : p.compiled message payload = some (steps,plan)) :
    PlanIR.texts p.casts 8 160 (PlanIR.payloadCriteria payload) = some plan.validation := by
  obtain ⟨capabilities,actions,hcaps,hactions,hall⟩ := hres
  obtain ⟨read,hread,hcompile⟩ := Option.bind_eq_some_iff.mp h
  obtain ⟨actions',hactions',hplan,htexts⟩ := fromPayload_eq_some hread
  obtain ⟨capabilities',results,hcaps',hresults,hout⟩ := compilePlan_eq_some hcompile
  obtain rfl := Option.some.inj (hcaps.symm.trans hcaps')
  obtain rfl := Option.some.inj (hactions.symm.trans hactions')
  have hnone : errorsOf results = [] := by
    refine List.eq_nil_iff_forall_not_mem.mpr fun error herror => ?_
    obtain ⟨a,ha,hbad,_⟩ := error_of_results hresults error herror
    rw [withGoal_actions, hplan] at ha
    exact hbad (hall a (List.mem_of_mem_take ha))
  obtain ⟨rfl,rfl⟩ := Prod.mk.inj hout
  rw [htexts, hnone, List.append_nil, withGoal_validation]

/-- Where the actions resolve, the payload compiles when every field can be read. -/
theorem compiled_isSome_iff (hres : p.Resolves payload) :
    (p.compiled message payload).isSome ↔
      (p.casts.toDict (pyOr (field payload "constraints") (.obj []))).isSome ∧
      Sliceable (field payload "assumptions") ∧
      Sliceable (pyOr (field payload "expected_outputs") (field payload "outputs")) ∧
      Sliceable (pyOr (field payload "validation") (field payload "success_criteria")) ∧
      ∀ actions, iterItems (PlanIR.payloadActions payload) = some actions →
        ∀ a ∈ (actions.filterMap (PlanIR.normalize p.casts)).take 8, (a.argsDict p.casts).isSome := by
  obtain ⟨capabilities,actions,hcaps,hactions,hall⟩ := hres
  have hread := fromPayload_isSome_iff (c := p.casts) "llm" hactions
  unfold compiled
  cases h : PlanIR.fromPayload p.casts payload "llm" with
  | none =>
    rw [h] at hread
    constructor
    · intro hsome
      cases hsome
    · rintro ⟨h1,h2,h3,h4,_⟩
      cases hread.mpr ⟨h1,h2,h3,h4⟩
  | some read =>
    obtain ⟨actions',hactions',hplan,_⟩ := fromPayload_eq_some h
    obtain rfl := Option.some.inj (hactions.symm.trans hactions')
    rw [h] at hread
    obtain ⟨h1,h2,h3,h4⟩ := hread.mp rfl
    rw [Option.bind_some, compilePlan_isSome_iff hcaps, withGoal_actions, hplan]
    constructor
    · intro hargs
      refine ⟨h1,h2,h3,h4,fun other hother => ?_⟩
      obtain rfl := Option.some.inj (hactions.symm.trans hother)
      exact hargs
    · rintro ⟨_,_,_,_,hargs⟩
      exact hargs actions hactions

/-- The payload compiles without an entry in its validation. -/
def Compiles (p : LLMPlanner) (message : String) (payload : Dict) (steps : List PlannedStep) : Prop :=
  ∃ plan, p.compiled message payload = some (steps,plan) ∧ plan.validation = []

theorem compiles_iff (hres : p.Resolves payload) :
    (∃ steps, p.Compiles message payload steps) ↔ p.Plain payload := by
  constructor
  · rintro ⟨steps,plan,hcompiled,hnil⟩
    obtain ⟨h1,h2,h3,-,h5⟩ := (compiled_isSome_iff hres).mp (Option.isSome_of_eq_some hcompiled)
    have htexts := compiled_validation hres hcompiled
    have hcriteria : truthy (pyOr (field payload "validation") (field payload "success_criteria")) = false := by
      by_contra htrue
      exact texts_ne_nil (Bool.of_not_eq_false htrue) htexts hnil
    rw [truthy_pyOr, Bool.or_eq_false_iff] at hcriteria
    exact ⟨hcriteria.1,hcriteria.2,h1,h2,h3,h5⟩
  · intro h
    have hcriteria : truthy (pyOr (field payload "validation") (field payload "success_criteria")) = false := by
      rw [truthy_pyOr, h.validation, h.successCriteria]
      rfl
    obtain ⟨⟨steps,plan⟩,hcompiled⟩ := Option.isSome_iff_exists.mp ((compiled_isSome_iff hres).mpr
      ⟨h.constraints,h.assumptions,h.outputs,Or.inl hcriteria,h.args⟩)
    have htexts := (compiled_validation hres hcompiled).symm.trans (texts_nil hcriteria)
    exact ⟨steps,plan,hcompiled,Option.some.inj htexts⟩

/-- An attempt answered by a payload raises, names capabilities, or has a plan without
errors: then it is accepted, or the first attempt asks for other arguments. -/
theorem attempt_cases (p : LLMPlanner) (message : String) (payload : Dict) (first : Bool) :
    (p.attempt message first (.object payload) = .raised ∧ p.compiled message payload = none) ∨
    (p.ReportsUnknown message payload first ∧ ∀ steps, ¬ p.Compiles message payload steps) ∨
    ∃ steps, p.Compiles message payload steps ∧
      ((∃ reply plan, p.attempt message first (.object payload) = .accepted steps reply plan) ∨
        first = true ∧ ∃ err, p.attempt message first (.object payload) = .again (.invalidArgs err)) := by
  unfold ReportsUnknown Compiles
  rw [attempt]
  cases hcompiled : p.compiled message payload with
  | none => exact Or.inl ⟨rfl,rfl⟩
  | some out =>
    obtain ⟨steps,plan⟩ := out
    by_cases hnil : plan.validation = []
    · refine Or.inr (Or.inr ⟨steps,⟨plan,rfl,hnil⟩,?_⟩)
      by_cases hargs : p.validateSteps steps ≠ [] ∧ first = true
      · exact Or.inr ⟨hargs.2,_,(if_neg (not_not.mpr hnil)).trans (if_pos hargs)⟩
      · exact Or.inl ⟨_,_,(if_neg (not_not.mpr hnil)).trans (if_neg hargs)⟩
    · refine Or.inr (Or.inl ⟨⟨_,if_pos hnil⟩,?_⟩)
      rintro steps' ⟨plan',hsome,hnil'⟩
      cases hsome
      exact hnil hnil'

theorem plan_first {answers : Reply × Reply} {steps : List PlannedStep} {reply : Option String} {out : PlanIR}
    (h : p.attempt message true answers.1 = .accepted steps reply out) :
    p.plan message answers = .accepted steps reply out := by
  rw [plan, h]

theorem plan_second {answers : Reply × Reply} {refusal : Refusal}
    (h : p.attempt message true answers.1 = .again refusal) :
    p.plan message answers = p.attempt message false answers.2 := by
  rw [plan, h]

theorem takenUp_of_compiles {first : Bool} {steps : List PlannedStep}
    (h : p.Compiles message payload steps) : p.TakenUp message payload first := by
  intro answers hanswer
  obtain ⟨compiled,hcompiled,hnil⟩ := h
  rcases attempt_cases p message payload first with ⟨_,hnone⟩ | ⟨_,hnot⟩ | ⟨steps',hsteps',hout⟩
  · cases hnone.symm.trans hcompiled
  · exact absurd ⟨compiled,hcompiled,hnil⟩ (hnot steps)
  · obtain ⟨compiled',hcompiled',_⟩ := hsteps'
    cases first with
    | true =>
      rcases hout with ⟨reply,out,hout⟩ | ⟨_,herr⟩
      · rw [← show answers.1 = .object payload from hanswer] at hout
        exact Or.inl ⟨steps',compiled',reply,out,hcompiled',plan_first hout⟩
      · exact Or.inr ⟨rfl,herr⟩
    | false =>
      obtain ⟨⟨refusal,hrefusal⟩,hsecond⟩ := hanswer
      rcases hout with ⟨reply,out,hout⟩ | ⟨hfalse,_⟩
      · rw [← hsecond] at hout
        exact Or.inl ⟨steps',compiled',reply,out,hcompiled',(plan_second hrefusal).trans hout⟩
      · cases hfalse

/-- The answers in which the other attempt fails. -/
def aloneAt (payload : Dict) : Bool → Reply × Reply
  | true => (.object payload,.failed "")
  | false => (.failed "",.object payload)

theorem compiles_of_takenUp {first : Bool} (h : p.TakenUp message payload first) :
    ∃ steps, p.Compiles message payload steps := by
  have hanswer : p.AnsweredBy message payload (aloneAt payload first) first := by
    cases first with
    | true => exact rfl
    | false => exact ⟨⟨_,rfl⟩,rfl⟩
  have hplan : ∀ refusal, p.attempt message first (.object payload) = .again refusal →
      ∃ refusal', p.plan message (aloneAt payload first) = .again refusal' := by
    intro refusal hagain
    cases first with
    | true => exact ⟨_,plan_second hagain⟩
    | false => exact ⟨_,(plan_second rfl).trans hagain⟩
  have hraised : p.attempt message first (.object payload) = .raised →
      p.plan message (aloneAt payload first) = .raised := by
    intro hraise
    cases first with
    | true =>
      rw [plan, show (aloneAt payload true).1 = .object payload from rfl, hraise]
    | false => exact (plan_second rfl).trans hraise
  rcases attempt_cases p message payload first with ⟨hraise,_⟩ | ⟨⟨err,herr⟩,_⟩ | ⟨steps,hsteps,_⟩
  · rcases h _ hanswer with ⟨_,_,_,_,_,haccept⟩ | ⟨rfl,err,herr⟩
    · cases (hraised hraise).symm.trans haccept
    · cases hraise.symm.trans herr
  · rcases h _ hanswer with ⟨_,_,_,_,_,haccept⟩ | ⟨rfl,err',herr'⟩
    · obtain ⟨_,hagain⟩ := hplan _ herr
      cases hagain.symm.trans haccept
    · cases herr.symm.trans herr'
  · exact ⟨steps,hsteps⟩

/-- A payload whose actions resolve is taken up, and unknown capabilities are reported
only of others, exactly if it is plain. -/
theorem plan_taken_up_iff (p : LLMPlanner) (message : String) (payload : Dict) (first : Bool) :
    ((p.Resolves payload → p.TakenUp message payload first) ∧
      (p.ReportsUnknown message payload first → ¬ p.Resolves payload)) ↔
    (p.Resolves payload → p.Plain payload) := by
  constructor
  · rintro ⟨htaken,_⟩ hres
    exact (compiles_iff hres).mp (compiles_of_takenUp (htaken hres))
  · intro hplain
    constructor
    · intro hres
      obtain ⟨steps,hsteps⟩ : ∃ steps, p.Compiles message payload steps :=
        (compiles_iff hres).mpr (hplain hres)
      exact takenUp_of_compiles hsteps
    · rintro ⟨err,herr⟩ hres
      obtain ⟨steps,hsteps⟩ : ∃ steps, p.Compiles message payload steps :=
        (compiles_iff hres).mpr (hplain hres)
      rcases attempt_cases p message payload first with ⟨hraise,_⟩ | ⟨_,hnot⟩ |
        ⟨_,_,⟨_,_,haccept⟩ | ⟨_,_,hargs⟩⟩
      · cases hraise.symm.trans herr
      · exact hnot steps hsteps
      · cases haccept.symm.trans herr
      · cases hargs.symm.trans herr

end LLMPlanner

section Criteria

def statusPlanner : LLMPlanner := ⟨plainCasts,statusTools,[],fun _ => []⟩

/-- One action that resolves, and one criterion of success. -/
def withCriteria : Dict :=
  [("actions",.arr [.obj [("capability",.str "job.status")]]),("success_criteria",.arr [.str "converged"])]

/-- The criterion is reported as an unknown capability at both attempts, and the planner
falls back. -/
theorem criterion_reported :
    statusPlanner.Resolves withCriteria ∧
    statusPlanner.attempt "" true (.object withCriteria) = .again (.unknownCapabilities "converged") ∧
    statusPlanner.plan "" (.object withCriteria,.object withCriteria) =
      .again (.unknownCapabilities "converged") := by
  refine ⟨⟨[⟨"job.status","job.status"⟩],_,rfl,rfl,?_⟩,?_,?_⟩
  · decide
  · rfl
  · rfl

end Criteria
end DftForge.Agent
