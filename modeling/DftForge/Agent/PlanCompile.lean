import DftForge.Agent.Planning

/-! # What a compiled plan carries out

The compiler looks at the first eight actions of a plan. Of these it loses none: each
becomes a step, or leaves an error in the plan.
-/
namespace DftForge.Agent
open DftForge.Runtime DftForge.Python DftForge.Engines

section Traversal
variable {α β : Type*} {f : α → Option β}

/-- A traversal that ends gives one result for each entry. -/
theorem mapM_forall₂ {xs : List α} {ys : List β} (h : xs.mapM f = some ys) :
    List.Forall₂ (fun x y => f x = some y) xs ys := by
  induction xs generalizing ys with
  | nil =>
    obtain rfl := Option.some.inj h
    exact .nil
  | cons x xs ih =>
    rw [List.mapM_cons] at h
    obtain ⟨y,hy,ys',hys,rfl⟩ := by simpa [Option.bind_eq_some_iff] using h
    exact .cons hy (ih hys)

theorem mapM_isSome {xs : List α} : (xs.mapM f).isSome ↔ ∀ x ∈ xs, (f x).isSome := by
  induction xs with
  | nil => simp
  | cons x xs ih =>
    rw [List.mapM_cons, List.forall_mem_cons, ← ih]
    cases f x with
    | none => simp
    | some y => cases xs.mapM f <;> simp

end Traversal

variable {c : Casts} {tools : List RegisteredTool} {files : List TemplateFile}

/-- A template file that is skipped, or gives a capability. -/
def TemplateFile.Readable (f : TemplateFile) : Prop :=
  ∀ payload, f.payload = some payload →
    ∃ d, payload = .obj d ∧ hasKeys d "outputs" = true ∧ hasKeys d "inputs" = true

theorem capability_isSome_iff {f : TemplateFile} : (f.capability c).isSome ↔ f.Readable := by
  unfold TemplateFile.capability TemplateFile.Readable
  rcases f.payload with _ | payload
  · simp
  · cases payload with
    | obj d =>
      simp only [Option.some.injEq, forall_eq', Json.obj.injEq, exists_eq_left']
      rw [← Bool.and_eq_true]
      split_ifs with h <;> simp [h]
    | _ => simp

/-- The capabilities can be collected when every template file is readable. -/
theorem buildCapabilityGraph_isSome_iff :
    (buildCapabilityGraph c tools files).isSome ↔ ∀ f ∈ files, f.Readable := by
  rw [buildCapabilityGraph, Option.isSome_map, mapM_isSome]
  exact forall₂_congr fun f _ => capability_isSome_iff

/-- The step does what the action asks for. -/
structure Carries (c : Casts) (tools : List RegisteredTool) (capabilities : List Capability) (a : Action)
    (step : PlannedStep) : Prop where
  enabled : step.tool ∈ toolIds tools
  tool : step.tool = a.resolved c capabilities
  args : ∃ args, a.argsDict c = some args ∧ step.args = a.passed c capabilities args

theorem compile_ok {a : Action} {capabilities : List Capability} {step : PlannedStep}
    (h : a.compile c tools capabilities = some (.ok step)) : Carries c tools capabilities a step := by
  obtain ⟨args,hargs,hstep⟩ := Option.map_eq_some_iff.mp h
  by_cases hmem : a.resolved c capabilities ∈ toolIds tools
  · rw [if_pos hmem] at hstep
    cases step with
    | mk tool stepArgs description =>
      simp only [Except.ok.injEq, PlannedStep.mk.injEq] at hstep
      obtain ⟨htool,hpassed,-⟩ := hstep
      rw [htool] at hmem
      exact ⟨hmem,htool.symm,args,hargs,hpassed.symm⟩
  · rw [if_neg hmem] at hstep
    cases hstep

/-- An action leaves an error exactly if its tool is not enabled. -/
theorem compile_error {a : Action} {capabilities : List Capability} {error : String}
    (h : a.compile c tools capabilities = some (.error error)) :
    a.resolved c capabilities ∉ toolIds tools ∧ error = "unknown capability: " ++ a.name c := by
  obtain ⟨args,_,hstep⟩ := Option.map_eq_some_iff.mp h
  by_cases hmem : a.resolved c capabilities ∈ toolIds tools
  · rw [if_pos hmem] at hstep
    cases hstep
  · rw [if_neg hmem] at hstep
    exact ⟨hmem,(Except.error.inj hstep).symm⟩

theorem compile_isSome_iff {a : Action} {capabilities : List Capability} :
    (a.compile c tools capabilities).isSome ↔ (a.argsDict c).isSome := by
  rw [Action.compile, Option.isSome_map]

theorem steps_of_no_errors {actions : List Action} {capabilities : List Capability}
    {results : List (Except String PlannedStep)}
    (h : List.Forall₂ (fun a r => a.compile c tools capabilities = some r) actions results)
    (hnone : errorsOf results = []) :
    List.Forall₂ (Carries c tools capabilities) actions (stepsOf results) := by
  induction h with
  | nil => exact .nil
  | @cons a r actions results hr _ ih =>
    cases r with
    | error e => cases hnone
    | ok step => exact .cons (compile_ok hr) (ih hnone)

/-- Each error names an action that does not resolve. -/
theorem error_of_results {actions : List Action} {capabilities : List Capability}
    {results : List (Except String PlannedStep)}
    (h : List.Forall₂ (fun a r => a.compile c tools capabilities = some r) actions results) :
    ∀ error ∈ errorsOf results, ∃ a ∈ actions, a.resolved c capabilities ∉ toolIds tools ∧
      error = "unknown capability: " ++ a.name c := by
  induction h with
  | nil => simp [errorsOf]
  | @cons a r actions results hr _ ih =>
    intro error hmem
    have hrest : error ∈ errorsOf results → ∃ b ∈ a :: actions,
        b.resolved c capabilities ∉ toolIds tools ∧ error = "unknown capability: " ++ b.name c := by
      intro h
      obtain ⟨b,hb,hbad⟩ := ih error h
      exact ⟨b,List.mem_cons_of_mem _ hb,hbad⟩
    cases r with
    | ok step => exact hrest hmem
    | error e =>
      rcases List.mem_cons.mp hmem with rfl | hmem
      · exact ⟨a,List.mem_cons_self,compile_error hr⟩
      · exact hrest hmem

theorem compilePlan_eq_some {plan : PlanIR} {out : List PlannedStep × PlanIR}
    (h : compilePlan c tools files plan = some out) :
    ∃ capabilities results, buildCapabilityGraph c tools files = some capabilities ∧
      List.Forall₂ (fun a r => a.compile c tools capabilities = some r) (plan.actions.take 8) results ∧
      out = (stepsOf results,{ plan with validation := plan.validation ++ errorsOf results }) := by
  obtain ⟨capabilities,hcaps,h⟩ := Option.bind_eq_some_iff.mp h
  obtain ⟨results,hresults,h⟩ := Option.bind_eq_some_iff.mp h
  exact ⟨capabilities,results,hcaps,mapM_forall₂ hresults,(Option.some.inj h).symm⟩

/-- Where the capabilities are known, a plan compiles when its arguments are dictionaries. -/
theorem compilePlan_isSome_iff {plan : PlanIR} {capabilities : List Capability}
    (hcaps : buildCapabilityGraph c tools files = some capabilities) :
    (compilePlan c tools files plan).isSome ↔ ∀ a ∈ plan.actions.take 8, (a.argsDict c).isSome := by
  have hall : ((plan.actions.take 8).mapM fun a : Action => a.compile c tools capabilities).isSome ↔
      ∀ a ∈ plan.actions.take 8, (a.argsDict c).isSome :=
    mapM_isSome.trans (forall₂_congr fun a _ => compile_isSome_iff)
  rw [← hall, compilePlan, hcaps, Option.bind_eq_bind, Option.bind_some]
  cases (plan.actions.take 8).mapM fun a : Action => a.compile c tools capabilities <;> rfl

/-- A plan with readable arguments, on readable templates, is compiled: some of its first
eight actions leave an error each, or all of them become steps, in their order. -/
theorem plan_compiles {plan : PlanIR} (hfiles : ∀ f ∈ files, f.Readable)
    (hargs : ∀ a ∈ plan.actions, ∃ args, pyOr a.args (.obj []) = .obj args) :
    ∃ capabilities steps errors, buildCapabilityGraph c tools files = some capabilities ∧
      compilePlan c tools files plan =
        some (steps,{ plan with validation := plan.validation ++ errors }) ∧
      (∀ error ∈ errors, ∃ a ∈ plan.actions.take 8, a.resolved c capabilities ∉ toolIds tools ∧
        error = "unknown capability: " ++ a.name c) ∧
      (errors ≠ [] ∨ List.Forall₂ (Carries c tools capabilities) (plan.actions.take 8) steps) := by
  have hbuilt : (buildCapabilityGraph c tools files).isSome := buildCapabilityGraph_isSome_iff.mpr hfiles
  obtain ⟨capabilities,hcaps⟩ := Option.isSome_iff_exists.mp hbuilt
  have hsome : (compilePlan c tools files plan).isSome := by
    refine (compilePlan_isSome_iff hcaps).mpr fun a ha => ?_
    obtain ⟨args,hobj⟩ := hargs a (List.mem_of_mem_take ha)
    rw [Action.argsDict, hobj]
    rfl
  obtain ⟨out,hout⟩ := Option.isSome_iff_exists.mp hsome
  obtain ⟨capabilities',results,hcaps',hall,rfl⟩ := compilePlan_eq_some hout
  obtain rfl := Option.some.inj (hcaps.symm.trans hcaps')
  refine ⟨capabilities,stepsOf results,errorsOf results,hcaps,hout,error_of_results hall,?_⟩
  by_cases hnone : errorsOf results = []
  · exact Or.inr (steps_of_no_errors hall hnone)
  · exact Or.inl hnone

section Truncation

/-- Casts of a planner whose plans hold texts and dictionaries only. -/
def plainCasts : Casts := ⟨fun _ => "",fun _ => none⟩

def statusTools : List RegisteredTool := [⟨"job.status",true⟩]

def nineActions : PlanIR :=
  { goal := "", actions := List.replicate 9 { capability := .str "job.status" } }

/-- Nine actions become eight steps without an error, and one list among the template
files stops the compilation of every plan. -/
theorem ninth_action_lost :
    ((compilePlan plainCasts statusTools [] nineActions).map fun out => (out.1.length,out.2.validation)) =
      some (8,[]) ∧
    (compilePlan plainCasts statusTools [⟨"t0_scf",some (.arr [])⟩] nineActions).isNone := by
  decide

end Truncation

theorem plan_compiles_status :
    nineActions.actions.length = 9 ∧
      ∃ capabilities steps errors, buildCapabilityGraph plainCasts statusTools [] = some capabilities ∧
      compilePlan plainCasts statusTools [] nineActions =
        some (steps,{ nineActions with validation := nineActions.validation ++ errors }) ∧
      (∀ error ∈ errors, ∃ a ∈ nineActions.actions.take 8,
        a.resolved plainCasts capabilities ∉ toolIds statusTools ∧
        error = "unknown capability: " ++ a.name plainCasts) ∧
      (errors ≠ [] ∨ List.Forall₂ (Carries plainCasts statusTools capabilities)
        (nineActions.actions.take 8) steps) :=
  ⟨rfl,plan_compiles (by simp) (by
    intro a ha
    obtain rfl := List.eq_of_mem_replicate ha
    exact ⟨[],rfl⟩)⟩

end DftForge.Agent
