import DftForge.Agent.PlanCompile
import DftForge.Tools.Registry

/-! # The pre-check of a plan and the execution boundary

`validate_steps` checks the arguments of a plan as they are, and `_schema_violation`
checks them again, without their nulls, when a step is called.
-/
namespace DftForge.Agent
open DftForge.Runtime DftForge.Engines DftForge.Tools

section Validate
variable (v : Validator)

/-- `registry.get(tool_id) if tool_id else None`; a list or a dictionary cannot be looked up. -/
def toolNamed : Json → Option (Option ToolSchema)
  | .str id => some (if id = "" then none else getTool id)
  | .arr (_ :: _) => none
  | .obj (_ :: _) => none
  | _ => some none

/-- `step.get("args")`, where `None` becomes an empty dictionary. -/
def argsOf (step : Dict) : Json := if isNull (field step "args") then .obj [] else field step "args"

/-- `step {i} ({tool_id}): ` -/
def stepLabel (i : ℕ) (toolId : String) : String := "step " ++ toString i ++ " (" ++ toolId ++ "): "

/-- The violations of arguments. -/
def argsViolations (i : ℕ) (toolId : String) (schema : Schema) : Json → List String
  | .obj args => (v.sortedErrors schema (.obj args)).map fun e => stepLabel i toolId ++ e.text
  | other => [stepLabel i toolId ++ "args must be an object, got " ++ v.typeName other]

/-- What one round of the loop appends, unless it raises. -/
def stepViolations (i : ℕ) : Json → Option (List String)
  | .obj step =>
    (toolNamed (field step "tool")).map fun named =>
      match named with
      | none => []
      | some entry =>
        match entry.inputSchema with
        | none => []
        | some schema => argsViolations v i entry.id schema (argsOf step)
  | _ => some ["step " ++ toString i ++ ": not an object"]

/-- The violations of a plan, step by step. -/
def violations (steps : List Json) : Option (List (List String)) :=
  steps.zipIdx.mapM fun step => stepViolations v step.2 step.1

/-- `validate_steps`. -/
def validateSteps (steps : List Json) : Option (List String) := (violations v steps).map List.flatten

end Validate

/-- The step names a registered tool and has these arguments. -/
structure Calls (step : Json) (entry : ToolSchema) (args : Json) : Prop where
  registered : entry ∈ defaultTools
  step : ∃ fields : Dict, step = .obj fields ∧ fields.get? "tool" = some (.str entry.id) ∧ argsOf fields = args

/-- Nulls under declared keys are all that is wrong with the arguments: no required key is
missing or null, and what is not null fits. -/
structure OnlyNulls (schema : Schema) (args : Dict) : Prop where
  null : ∃ property ∈ schema.properties, args.get? property.1 = some .null
  required : ∀ key ∈ schema.required, ∃ w, args.get? key = some w ∧ w ≠ .null
  fits : ∀ property ∈ schema.properties, ∀ w, args.get? property.1 = some w → w ≠ .null →
    property.2.valid w = true

section Agreement
variable {v : Validator}

/-- The arguments of a step are what the loop checks. -/
theorem stepViolations_of_calls {step : Json} {entry : ToolSchema} {args : Json} {schema : Schema}
    (hcalls : Calls step entry args) (hschema : entry.inputSchema = some schema) (i : ℕ) :
    stepViolations v i step = some (argsViolations v i entry.id schema args) := by
  obtain ⟨hmem,fields,rfl,htool,hargs⟩ := hcalls
  rw [stepViolations, field, htool, Option.getD_some, toolNamed, if_neg (id_ne_empty hmem),
    getTool_of_mem hmem]
  simp [hschema,hargs]

/-- The pre-check accepts exactly what the schema admits. -/
theorem argsViolations_eq_nil (hdraft7 : v.Draft7) (i : ℕ) (toolId : String) (schema : Schema) (args : Dict) :
    argsViolations v i toolId schema (.obj args) = [] ↔ schema.valid (.obj args) = true := by
  rw [argsViolations, List.map_eq_nil_iff, v.sortedErrors_eq_nil hdraft7]

/-- What is admitted as it is, is admitted without its nulls. -/
theorem valid_dropNull {schema : Schema} (hplain : schema.plain = true) {args : Dict}
    (h : schema.valid (.obj args) = true) : schema.valid (.obj (dropNull args)) = true := by
  obtain ⟨hrecord,hnull,hdeclared⟩ := Schema.plain_spec hplain
  rw [hrecord, record_valid_iff] at h ⊢
  obtain ⟨_,heq,hfits,hrequired⟩ := h
  obtain rfl := Json.obj.inj heq
  refine ⟨_,rfl,fun property hp w hw => hfits property hp w (get?_dropNull.mp hw).1,fun key hkey => ?_⟩
  obtain ⟨w,hw⟩ := hrequired key hkey
  obtain ⟨property,hp,rfl⟩ := hdeclared key hkey
  -- a required entry is declared, and no declared entry may be null
  refine ⟨w,get?_dropNull.mpr ⟨hw,fun hw' => ?_⟩⟩
  have := hfits property hp w hw
  rw [hw', hnull property hp] at this
  cases this

/-- The arguments are admitted only without their nulls exactly if nothing else is wrong
with them. -/
theorem onlyNulls_iff {schema : Schema} (hplain : schema.plain = true) {args : Dict} :
    OnlyNulls schema args ↔
      schema.valid (.obj (dropNull args)) = true ∧ ¬ schema.valid (.obj args) = true := by
  obtain ⟨hrecord,hnull,hdeclared⟩ := Schema.plain_spec hplain
  have hdropped : schema.valid (.obj (dropNull args)) = true ↔
      (∀ property ∈ schema.properties, ∀ w, args.get? property.1 = some w → w ≠ .null →
        property.2.valid w = true) ∧ ∀ key ∈ schema.required, ∃ w, args.get? key = some w ∧ w ≠ .null := by
    conv_lhs => rw [hrecord]
    rw [record_valid_iff]
    simp only [Json.obj.injEq,exists_eq_left',get?_dropNull,and_imp]
  have hwhole : schema.valid (.obj args) = true ↔
      (∀ property ∈ schema.properties, ∀ w, args.get? property.1 = some w → property.2.valid w = true) ∧
        ∀ key ∈ schema.required, ∃ w, args.get? key = some w := by
    conv_lhs => rw [hrecord]
    rw [record_valid_iff]
    simp only [Json.obj.injEq,exists_eq_left']
  rw [hdropped, hwhole]
  constructor
  · rintro ⟨⟨property,hp,hw⟩,hrequired,hfits⟩
    refine ⟨⟨hfits,hrequired⟩,fun hvalid => ?_⟩
    have := hvalid.1 property hp .null hw
    rw [hnull property hp] at this
    cases this
  · rintro ⟨⟨hfits,hrequired⟩,hinvalid⟩
    refine ⟨?_,hrequired,hfits⟩
    by_contra hnone
    refine hinvalid ⟨fun property hp w hw => hfits property hp w hw ?_,fun key hkey => ?_⟩
    · rintro rfl
      exact hnone ⟨property,hp,hw⟩
    · obtain ⟨w,hw,_⟩ := hrequired key hkey
      exact ⟨w,hw⟩

theorem violations_getElem? {steps : List Json} {reports : List (List String)}
    (h : violations v steps = some reports) {i : ℕ} {step : Json} (hi : steps[i]? = some step) :
    reports[i]? = stepViolations v i step := by
  have hall := List.forall₂_iff_get.mp (mapM_forall₂ h)
  obtain ⟨hlt,rfl⟩ := List.getElem?_eq_some_iff.mp hi
  have hlt' : i < reports.length := by
    rw [← hall.1, List.length_zipIdx]
    exact hlt
  have hstep := hall.2 i (by simpa using hlt) hlt'
  rw [List.getElem?_eq_getElem hlt']
  simpa using hstep.symm

theorem violations_isSome {steps : List Json} (h : ∀ step ∈ steps, ∃ entry args, Calls step entry args) :
    ∃ reports, violations v steps = some reports := by
  refine Option.isSome_iff_exists.mp (mapM_isSome.mpr fun item hitem => ?_)
  obtain ⟨entry,args,hcalls⟩ := h item.1 (List.fst_mem_of_mem_zipIdx hitem)
  obtain ⟨schema,hschema,_⟩ := defaultTools_plain entry hcalls.registered
  rw [stepViolations_of_calls hcalls hschema]
  rfl

/-- The pre-check reports nothing for a step exactly if the boundary accepts its arguments. -/
def Agrees (v : Validator) (steps : List Json) : Prop :=
  ∃ reports, violations v steps = some reports ∧
    ∀ (i : ℕ) step entry args, steps[i]? = some step → Calls step entry args →
      (reports[i]? = some [] ↔ schemaViolation v entry args = none)

theorem refused_unless_object {entry : ToolSchema} {schema : Schema} (hschema : entry.inputSchema = some schema)
    {args : Json} (hargs : ∀ fields, args ≠ .obj fields) (i : ℕ) :
    argsViolations v i entry.id schema args ≠ [] ∧ schemaViolation v entry args ≠ none := by
  cases args with
  | obj fields => exact absurd rfl (hargs fields)
  | _ => simp [argsViolations,schemaViolation,hschema]

theorem checks_agree_iff (hdraft7 : v.Draft7) {entry : ToolSchema} {schema : Schema}
    (hschema : entry.inputSchema = some schema) (hplain : schema.plain = true) (i : ℕ) (args : Dict) :
    (argsViolations v i entry.id schema (.obj args) = [] ↔ schemaViolation v entry (.obj args) = none) ↔
      ¬ OnlyNulls schema args := by
  rw [argsViolations_eq_nil hdraft7, schemaViolation_eq_none_iff hdraft7 hschema, onlyNulls_iff hplain]
  constructor
  · rintro hagree ⟨hdropped,hwhole⟩
    exact hwhole (hagree.mpr hdropped)
  · intro h
    exact ⟨valid_dropNull hplain,fun hdropped => by_contra fun hwhole => h ⟨hdropped,hwhole⟩⟩

/-- Pre-check and boundary agree on a plan of registered tools exactly if no step's
arguments are wrong only in that declared entries are null. -/
theorem precheck_agrees_iff (hdraft7 : v.Draft7) {steps : List Json}
    (hsteps : ∀ step ∈ steps, ∃ entry args, Calls step entry args) :
    Agrees v steps ↔ ∀ step ∈ steps, ∀ entry args, Calls step entry (.obj args) →
      ∀ schema, entry.inputSchema = some schema → ¬ OnlyNulls schema args := by
  obtain ⟨reports,hreports⟩ := violations_isSome hsteps (v := v)
  constructor
  · rintro ⟨reports',hreports',hagree⟩ step hmem entry args hcalls schema hschema
    obtain ⟨_,hschema',hplain⟩ := defaultTools_plain entry hcalls.registered
    obtain rfl := Option.some.inj (hschema.symm.trans hschema')
    obtain ⟨i,hi⟩ := List.getElem?_of_mem hmem
    rw [← checks_agree_iff hdraft7 hschema hplain i]
    have := hagree i step entry (.obj args) hi hcalls
    rwa [violations_getElem? hreports' hi, stepViolations_of_calls hcalls hschema, Option.some.injEq] at this
  · intro hnone
    refine ⟨reports,hreports,fun i step entry args hi hcalls => ?_⟩
    obtain ⟨schema,hschema,hplain⟩ := defaultTools_plain entry hcalls.registered
    rw [violations_getElem? hreports hi, stepViolations_of_calls hcalls hschema, Option.some.injEq]
    by_cases hobj : ∃ fields, args = .obj fields
    · obtain ⟨fields,rfl⟩ := hobj
      exact (checks_agree_iff hdraft7 hschema hplain i fields).mpr
        (hnone step (List.mem_of_getElem? hi) entry fields hcalls schema hschema)
    · have hrefused := refused_unless_object (v := v) hschema (not_exists.mp hobj) i
      exact ⟨fun h => absurd h hrefused.1,fun h => absurd h hrefused.2⟩

/-- A plan passes the pre-check exactly if each of its steps does. -/
theorem validateSteps_eq_nil {steps : List Json} : validateSteps v steps = some [] ↔
    ∀ (i : ℕ) step, steps[i]? = some step → stepViolations v i step = some [] := by
  rw [validateSteps, Option.map_eq_some_iff]
  constructor
  · rintro ⟨reports,hreports,hnil⟩ i step hi
    have hreport := violations_getElem? hreports hi
    obtain ⟨hlt,_⟩ := List.getElem?_eq_some_iff.mp hi
    have hlength : reports.length = steps.length := by
      rw [← (List.forall₂_iff_get.mp (mapM_forall₂ hreports)).1, List.length_zipIdx]
    have hsome : reports[i]? = some reports[i] := List.getElem?_eq_getElem (hlength ▸ hlt)
    rw [← hreport, hsome, List.flatten_eq_nil_iff.mp hnil _ (List.getElem_mem _)]
  · intro hall
    have hsome : (violations v steps).isSome := by
      refine mapM_isSome.mpr fun item hitem => ?_
      rw [hall item.2 item.1 (List.mk_mem_zipIdx_iff_getElem?.mp hitem)]
      rfl
    obtain ⟨reports,hreports⟩ := Option.isSome_iff_exists.mp hsome
    refine ⟨reports,hreports,List.flatten_eq_nil_iff.mpr fun report hreport => ?_⟩
    have hforall := List.forall₂_iff_get.mp (mapM_forall₂ hreports)
    obtain ⟨i,hlt,rfl⟩ := List.getElem_of_mem hreport
    have hlt' : i < steps.length := by
      rw [← List.length_zipIdx (l := steps), hforall.1]
      exact hlt
    have := (violations_getElem? hreports (List.getElem?_eq_getElem hlt')).trans
      (hall i _ (List.getElem?_eq_getElem hlt'))
    rwa [List.getElem?_eq_getElem hlt, Option.some.injEq] at this

/-- A plan that passes the pre-check is never refused for its arguments. -/
theorem accepted_of_validateSteps (hdraft7 : v.Draft7) {steps : List Json} (h : validateSteps v steps = some [])
    {step : Json} (hmem : step ∈ steps) {entry : ToolSchema} {args : Json} (hcalls : Calls step entry args) :
    schemaViolation v entry args = none := by
  obtain ⟨i,hi⟩ := List.getElem?_of_mem hmem
  obtain ⟨schema,hschema,hplain⟩ := defaultTools_plain entry hcalls.registered
  have hpassed := validateSteps_eq_nil.mp h i step hi
  rw [stepViolations_of_calls hcalls hschema, Option.some.injEq] at hpassed
  by_cases hobj : ∃ fields, args = .obj fields
  · obtain ⟨fields,rfl⟩ := hobj
    rw [schemaViolation_eq_none_iff hdraft7 hschema]
    exact valid_dropNull hplain ((argsViolations_eq_nil hdraft7 i entry.id schema fields).mp hpassed)
  · exact absurd hpassed (refused_unless_object (v := v) hschema (not_exists.mp hobj) i).1

/-- A step that generates silicon. -/
def siliconStep (args : Dict) : Json :=
  .obj [("tool",.str "structure.generate"),("args",.obj (("source",.str "Si") :: args))]

theorem siliconStep_calls (args : Dict) :
    Calls (siliconStep args) generateTool (.obj (("source",.str "Si") :: args)) :=
  ⟨by simp [defaultTools],_,rfl,rfl,rfl⟩

/-- Every entry that a step calls is the one its tool id names. -/
theorem Calls.unique {step : Json} {entry entry' : ToolSchema} {args args' : Json} (h : Calls step entry args)
    (h' : Calls step entry' args') : entry = entry' ∧ args = args' := by
  obtain ⟨hmem,fields,rfl,htool,hargs⟩ := h
  obtain ⟨hmem',fields',heq,htool',hargs'⟩ := h'
  obtain rfl := Json.obj.inj heq
  have hid : entry.id = entry'.id := Json.str.inj (Option.some.inj (htool.symm.trans htool'))
  refine ⟨Option.some.inj ?_,hargs.symm.trans hargs'⟩
  rw [← getTool_of_mem hmem, ← getTool_of_mem hmem', hid]

theorem precheck_agrees_silicon :
    (collector (fun _ => "None") fun _ => "dict").Draft7 ∧
      (∀ step ∈ [siliconStep []], ∃ entry args, Calls step entry args) ∧
      Agrees (collector (fun _ => "None") fun _ => "dict") [siliconStep []] := by
  have hcalls : ∀ step ∈ [siliconStep []], ∃ entry args, Calls step entry args := by
    simpa using ⟨_,_,siliconStep_calls []⟩
  refine ⟨collector_draft7 _ _,hcalls,(precheck_agrees_iff (collector_draft7 _ _) hcalls).mpr ?_⟩
  intro step hstep entry args hargs schema hschema honly
  obtain rfl := List.mem_singleton.mp hstep
  obtain ⟨rfl,heq⟩ := (siliconStep_calls []).unique hargs
  obtain rfl := Json.obj.inj heq
  obtain rfl := Option.some.inj hschema
  obtain ⟨property,hp,hnull⟩ := honly.null
  have hkeys : property ∈ [("source",Schema.text),("output",Schema.text)] := hp
  fin_cases hkeys <;> cases hnull

/-- An output that is null is refused before the session and accepted in it. -/
theorem null_output_bounced : ¬ ∀ v : Validator, v.Draft7 → ∀ steps : List Json,
    (∀ step ∈ steps, ∃ entry args, Calls step entry args) → Agrees v steps := by
  intro h
  have hcalls := siliconStep_calls [("output",.null)]
  obtain ⟨reports,hreports,hagree⟩ := h (collector (fun _ => "None") fun _ => "dict") (collector_draft7 _ _)
    [siliconStep [("output",.null)]] (by simpa using ⟨_,_,hcalls⟩)
  have hboth := hagree 0 _ _ _ rfl hcalls
  rw [violations_getElem? hreports rfl, stepViolations_of_calls hcalls rfl, Option.some.injEq,
    checks_agree_iff (collector_draft7 _ _) rfl (by decide)] at hboth
  refine hboth ⟨⟨("output",.text),.tail _ (.head _),rfl⟩,?_,?_⟩
  · intro key hkey
    obtain rfl := List.mem_singleton.mp hkey
    exact ⟨.str "Si",rfl,Json.noConfusion⟩
  · intro property hp w hw hw'
    have hkeys : property ∈ [("source",Schema.text),("output",Schema.text)] := hp
    fin_cases hkeys
    · obtain rfl := Option.some.inj hw
      rfl
    · exact absurd (Option.some.inj hw).symm hw'

end Agreement
end DftForge.Agent
