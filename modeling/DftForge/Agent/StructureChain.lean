import DftForge.Agent.Session

/-! # Structures from step to step

`built_structure` and `ctx["last_structure_source"]` are set by successes and never
cleared, so a run after a failed build may take an older structure, and a run that
names a material may lose it to the structure of an earlier turn.
-/
namespace DftForge.Agent
open DftForge.Runtime DftForge.Python DftForge.Engines DftForge.Tools

/-- The system that a graph runs on. -/
inductive System where
  | structure_ (path : Json)
  | material (name : Json)

/-- A structure is taken before the material, whose default is the template's. -/
def systemOf (inputs : Dict) : System :=
  if truthyAt inputs "structure" then .structure_ ((inputs.get? "structure").getD .null)
  else .material ((inputs.get? "material").getD (.str "Si"))

namespace Visit

def isBuild (v : Visit) : Bool :=
  match v.step.tool with
  | some (.build _) => true
  | _ => false

/-- The output that the handler of a builder noted. -/
def reported (v : Visit) : Option Json :=
  match v.step.tool, v.outcome with
  | some (.build _), .called _ result =>
    match result.handled with
    | some (_, .obj data) => if truthyAt data "output" then Dict.get? data "output" else none
    | _ => none
  | _, _ => none

/-- The structure that a build step wrote, if the step succeeded. -/
def built (v : Visit) : Option Json :=
  match v.step.tool, v.outcome with
  | some tool, .called _ result => if result.status tool.id = .done then v.reported else none
  | _, _ => none

/-- What a step left in `ctx["last_structure_source"]`, if it set it. -/
def source (v : Visit) : Option Json :=
  match v.step.tool, v.outcome with
  | some .importStructure, .called args result =>
    match result.handled with
    | some (_, .obj data) =>
      if truthyAt data "ok" && truthyAt data "success" then
        some (if truthyAt data "source" then (Dict.get? data "source").getD .null
          else (args.get? "source").getD .null)
      else none
    | _ => none
  | _, _ => v.reported

/-- The call of `graph.run` computes this system. -/
def RunsOn (v : Visit) (system : System) : Prop :=
  ∃ args result inputs, v.outcome = .called args result ∧ args.get? "inputs" = some (.obj inputs) ∧
    systemOf inputs = system

end Visit

/-- The nearest build step before. -/
def nearestBuild (before : List Visit) : Option Visit := before.reverse.find? (·.isBuild)

/-- The last of the values. -/
def latest (f : Visit → Option Json) (before : List Visit) (default : Json) : Json :=
  (before.reverse.findSome? f).getD default

/-- The structure that is left over from the steps of the plan and the turns before it. -/
def leftover (last : Json) (before : List Visit) (v : Visit) : Json :=
  effectiveStructure v.env ⟨latest Visit.source before last,latest Visit.reported before .null⟩

section Chain
variable (sh : Shell)

/-- What a `graph.run` step with the given inputs should compute. -/
structure ChainsRight (before : List Visit) (v : Visit) (inputs : Dict) : Prop where
  unnamed : truthyAt inputs "material" = false → truthyAt inputs "structure" = false →
    ∀ b, nearestBuild before = some b →
      (∀ path, b.built = some path → v.RunsOn (.structure_ path)) ∧ (b.built = none → v.outcome = .aborted)
  named : ∀ material, inputs.get? "material" = some material → truthy material = true →
    (∀ b ∈ before, b.built = none) → v.RunsOn (.material material)

/-- Every `graph.run` step of a plan computes what it should; `last` is the structure of
the turns before. -/
def Chained (last : Json) (plan : List (Step × StepEnv)) : Prop :=
  ∀ before v after, visits sh ⟨last,.null⟩ plan = before ++ v :: after → v.step.tool = some .graphRun →
    ∀ inputs, sh.dictAt v.step.args "inputs" = some inputs → ChainsRight before v inputs

/-- No structure is left over where a `graph.run` step should not take one. -/
structure NothingLeft (last : Json) (before : List Visit) (v : Visit) (inputs : Dict) : Prop where
  unnamed : truthyAt inputs "material" = false → truthyAt inputs "structure" = false →
    ∀ b, nearestBuild before = some b → b.built = none → truthy (leftover last before v) = false
  named : truthyAt inputs "material" = true → (∀ b ∈ before, b.built = none) →
    truthyAt inputs "structure" = false ∧ truthy (leftover last before v) = false

/-- The plan leaves nothing over before any of its `graph.run` steps. -/
def Unlinked (last : Json) (plan : List (Step × StepEnv)) : Prop :=
  ∀ before v after, visits sh ⟨last,.null⟩ plan = before ++ v :: after → v.step.tool = some .graphRun →
    ∀ inputs, sh.dictAt v.step.args "inputs" = some inputs → NothingLeft last before v inputs

end Chain

section Dictionaries
variable {d : Dict} {key : String}

theorem get?_of_truthyAt (h : truthyAt d key = true) : ∃ v, d.get? key = some v ∧ truthy v = true := by
  unfold truthyAt at h
  cases hget : d.get? key with
  | none => simp [hget] at h
  | some v => exact ⟨v,rfl,by simpa [hget] using h⟩

theorem truthyAt_of_get? {v : Json} (h : d.get? key = some v) : truthyAt d key = truthy v := by
  rw [truthyAt,h]
  rfl

theorem systemOf_congr {d' : Dict} (hs : d'.get? "structure" = d.get? "structure")
    (hm : d'.get? "material" = d.get? "material") : systemOf d' = systemOf d := by
  rw [systemOf,systemOf,truthyAt_congr hs,hs,hm]

end Dictionaries

section Prepare
variable {sh : Shell} {env : StepEnv} {s : RunState}

/-- Steps that set other keys leave this one alone. -/
theorem foldl_get?_of_ne {key : String} {step : Dict → String → Dict}
    (hstep : ∀ d k, key ≠ k → (step d k).get? key = d.get? key) {keys : List String}
    (hkeys : ∀ k ∈ keys, key ≠ k) (d : Dict) : (keys.foldl step d).get? key = d.get? key := by
  induction keys generalizing d with
  | nil => rfl
  | cons k rest ih =>
    rw [List.foldl_cons,ih fun k' hk' => hkeys k' (List.mem_cons_of_mem _ hk')]
    exact hstep d k (hkeys k List.mem_cons_self)

theorem approved_get? {key : String} (args inputs : Dict)
    (h : key ∉ ["ecutwfc","kpoints","nbnd","nkpoints_bands"]) :
    (approved sh args inputs).get? key = inputs.get? key := by
  have hkeys : ∀ id, ∀ k ∈ approvedKeys id, key ≠ k := by
    rintro id k hk rfl
    unfold approvedKeys at hk
    split_ifs at hk <;> simp_all
  unfold approved
  apply foldl_get?_of_ne
  · intro d k hk
    split <;> first | rfl | exact Dict.get?_set_of_ne hk _ _
  · exact hkeys _

theorem scaledPath_get? {key : String} (args inputs : Dict) (structure_ : Json)
    (h : key ≠ "nkpoints_bands") : (scaledPath sh env args inputs structure_).get? key = inputs.get? key := by
  unfold scaledPath
  split_ifs
  · split
    · split_ifs <;> first | rfl | exact Dict.get?_set_of_ne h _ _
    · rfl
  · rfl

theorem systemOf_approved (args inputs : Dict) : systemOf (approved sh args inputs) = systemOf inputs :=
  systemOf_congr (approved_get? args inputs (by decide)) (approved_get? args inputs (by decide))

/-- A structure that is handed on is what the graph runs on. -/
theorem systemOf_handed (args inputs : Dict) {path : Json} (h : truthy path = true) :
    systemOf (approved sh args (scaledPath sh env args
      (pop (inputs.set "structure" path) "material") path)) = .structure_ path := by
  have hget : (scaledPath sh env args (pop (inputs.set "structure" path) "material") path).get?
      "structure" = some path := by
    rw [scaledPath_get? _ _ _ (by decide),pop_get?_of_ne (by decide),Dict.get?_set_self]
  rw [systemOf_approved,systemOf,truthyAt_of_get? hget,if_pos h,hget]
  rfl

end Prepare
section History
variable {sh : Shell} {s : RunState} {plan : List (Step × StepEnv)} {before after : List Visit} {v : Visit}

/-- A visit starts in the state that the visits before it left. -/
theorem visits_state (h : visits sh s plan = before ++ v :: after) :
    v.state = before.foldl Visit.next s ∧ runStep sh v.state v.step v.env = some v.outcome := by
  induction plan generalizing s before with
  | nil => simp [visits] at h
  | cons x rest ih =>
    obtain ⟨step,env⟩ := x
    rw [visits] at h
    cases hrun : runStep sh s step env with
    | none => simp [hrun] at h
    | some outcome =>
      rw [hrun] at h
      cases before with
      | nil =>
        cases h
        exact ⟨rfl,hrun⟩
      | cons u us =>
        rw [List.cons_append,List.cons.injEq] at h
        obtain ⟨rfl,hrest⟩ := h
        have hv := ih hrest
        exact hv

theorem latest_append (f : Visit → Option Json) (before : List Visit) (v : Visit) (default : Json) :
    latest f (before ++ [v]) default = (f v).getD (latest f before default) := by
  rw [latest,latest,List.reverse_append,List.reverse_singleton,List.singleton_append,List.findSome?_cons]
  cases f v <;> rfl

theorem next_eq (s : RunState) (v : Visit) :
    v.next s = ⟨v.source.getD s.lastStructureSource,v.reported.getD s.builtStructure⟩ := by
  obtain ⟨⟨tool,args⟩,env,state,outcome⟩ := v
  cases outcome with
  | called args result =>
    rcases hhandled : result.handled with _ | ⟨source,data⟩
    · rcases tool with _ | _ | _ | _ | _ <;>
        simp [Visit.next,RunState.record,Visit.source,Visit.reported,hhandled]
    · cases data with
      | obj data =>
        rcases tool with _ | _ | _ | _ | _
        · simp [Visit.next,RunState.record,Visit.source,Visit.reported]
        · simp only [Visit.next,RunState.record,Visit.source,Visit.reported,hhandled,
            RunState.handleToolResult]
          split_ifs <;> rfl
        · simp only [Visit.next,RunState.record,Visit.source,Visit.reported,hhandled,
            RunState.handleToolResult]
          split_ifs with hout
          · obtain ⟨path,hpath,_⟩ := get?_of_truthyAt hout
            simp [hpath]
          · rfl
        · simp [Visit.next,RunState.record,Visit.source,Visit.reported,RunState.handleToolResult,hhandled]
        · simp [Visit.next,RunState.record,Visit.source,Visit.reported,RunState.handleToolResult,hhandled]
      | _ =>
        rcases tool with _ | _ | _ | _ | _ <;>
          simp [Visit.next,RunState.record,Visit.source,Visit.reported,hhandled]
  | _ => rcases tool with _ | _ | _ | _ | _ <;> simp [Visit.next,RunState.record,Visit.source,Visit.reported]

/-- The state after some visits, from what each of them left. -/
theorem foldl_next (s : RunState) (before : List Visit) :
    before.foldl Visit.next s =
      ⟨latest Visit.source before s.lastStructureSource,latest Visit.reported before s.builtStructure⟩ := by
  induction before using List.reverseRecOn with
  | nil => rfl
  | append_singleton before v ih =>
    rw [List.foldl_append,List.foldl_cons,List.foldl_nil,ih,next_eq,latest_append,latest_append]

theorem effective_eq_leftover {last : Json} (h : visits sh ⟨last,.null⟩ plan = before ++ v :: after) :
    effectiveStructure v.env v.state = leftover last before v := by
  rw [(visits_state h).1,foldl_next,leftover]

end History

section Visits
variable {v : Visit} {before : List Visit}

theorem reported_of_built {path : Json} (h : v.built = some path) : v.reported = some path := by
  unfold Visit.built at h
  split at h
  · split_ifs at h
    exact h
  · cases h

theorem truthy_of_reported {path : Json} (h : v.reported = some path) : truthy path = true := by
  unfold Visit.reported at h
  split at h
  · split at h
    · split_ifs at h with hout
      rw [truthyAt_of_get? h] at hout
      exact hout
    · cases h
  · cases h

theorem isBuild_of_reported {path : Json} (h : v.reported = some path) : v.isBuild = true := by
  unfold Visit.reported at h
  split at h
  · next htool _ => rw [Visit.isBuild,htool]
  · cases h

/-- What the nearest build step noted is the latest note. -/
theorem latest_of_nearest {b : Visit} {path : Json} (hb : nearestBuild before = some b)
    (hpath : b.reported = some path) : latest Visit.reported before .null = path := by
  have hfind : ∀ us : List Visit, us.find? (·.isBuild) = some b → us.findSome? Visit.reported = some path := by
    intro us
    induction us with
    | nil => exact nofun
    | cons u us ih =>
      intro h
      rw [List.find?_cons] at h
      rw [List.findSome?_cons]
      cases hu : u.isBuild with
      | true =>
        rw [hu] at h
        cases h
        rw [hpath]
      | false =>
        rw [hu] at h
        cases hr : u.reported with
        | none => exact ih h
        | some p => simp [isBuild_of_reported hr] at hu
  rw [latest,hfind _ hb]
  rfl

theorem Visit.RunsOn.unique {a b : System} (ha : v.RunsOn a) (hb : v.RunsOn b) : a = b := by
  obtain ⟨args,result,inputs,hout,hget,rfl⟩ := ha
  obtain ⟨args',result',inputs',hout',hget',rfl⟩ := hb
  rw [hout] at hout'
  cases hout'
  rw [hget] at hget'
  cases hget'
  rfl

theorem Visit.RunsOn.not_aborted {a : System} (h : v.RunsOn a) : v.outcome ≠ .aborted := by
  obtain ⟨args,result,inputs,hout,_⟩ := h
  rw [hout]
  exact nofun

end Visits

section GraphRun
variable {sh : Shell} {v : Visit} {inputs : Dict}

theorem graphRun_outcome (htool : v.step.tool = some .graphRun)
    (hinputs : sh.dictAt v.step.args "inputs" = some inputs)
    (hrun : runStep sh v.state v.step v.env = some v.outcome) :
    (truthy (effectiveStructure v.env v.state) = true → truthyAt inputs "structure" = false →
      v.RunsOn (.structure_ (effectiveStructure v.env v.state))) ∧
    (truthy (effectiveStructure v.env v.state) = false → truthyAt inputs "material" = false →
      truthyAt inputs "structure" = false → v.outcome = .aborted) ∧
    (truthyAt inputs "structure" = true ∨ truthy (effectiveStructure v.env v.state) = false ∧
      truthyAt inputs "material" = true → v.RunsOn (systemOf inputs)) := by
  have hset : sh.dictAt (v.step.args.set "workdir" (sh.path "graphs".toList)) "inputs" = some inputs := by
    rw [Shell.dictAt,Dict.get?_set_of_ne (by decide)]
    exact hinputs
  rw [runStep,htool] at hrun
  simp only [reduceCtorEq,if_false,guardOf,prepareStepArgs,prepareGraphRun,hset] at hrun
  set effective := effectiveStructure v.env v.state
  refine ⟨fun heff hstr => ?_,fun heff hmat hstr => ?_,fun h => ?_⟩
  · simp only [heff,hstr,Bool.not_false,Bool.and_self,if_true,Option.some.injEq] at hrun
    exact ⟨_,_,_,hrun.symm,Dict.get?_set_self _ _ _,systemOf_handed _ _ heff⟩
  · simp only [heff,hmat,hstr,Bool.not_false,Bool.and_self,Bool.false_and,Bool.false_eq_true,if_false,
      if_true,Option.some.injEq] at hrun
    exact hrun.symm
  · have hfirst : (truthy effective && !truthyAt inputs "structure") = false := by
      rcases h with h | h <;> simp [h]
    have hsecond : (!truthy effective && !truthyAt inputs "material" && !truthyAt inputs "structure") =
      false := by
      rcases h with h | h <;> simp [h]
    simp only [hfirst,hsecond,Bool.false_eq_true,if_false,Option.some.injEq] at hrun
    exact ⟨_,_,_,hrun.symm,Dict.get?_set_self _ _ _,systemOf_approved _ _⟩

end GraphRun
section Chain
variable {sh : Shell} {last : Json} {plan : List (Step × StepEnv)} {before after : List Visit} {v : Visit}
  {inputs : Dict}

/-- A `graph.run` step computes what it should exactly when nothing is left over. -/
theorem chainsRight_iff (h : visits sh ⟨last,.null⟩ plan = before ++ v :: after)
    (htool : v.step.tool = some .graphRun) (hinputs : sh.dictAt v.step.args "inputs" = some inputs) :
    ChainsRight before v inputs ↔ NothingLeft last before v inputs := by
  obtain ⟨htaken,haborted,hkept⟩ := graphRun_outcome htool hinputs (visits_state h).2
  rw [effective_eq_leftover h] at htaken haborted hkept
  constructor
  · intro hright
    refine ⟨fun hmat hstr b hb hnone => ?_,fun hmat hnone => ?_⟩
    · rw [Bool.eq_false_iff]
      intro hleft
      exact (htaken hleft hstr).not_aborted ((hright.unnamed hmat hstr b hb).2 hnone)
    · obtain ⟨material,hget,htruthy⟩ := get?_of_truthyAt hmat
      have hruns := hright.named material hget htruthy hnone
      have hstr : truthyAt inputs "structure" = false := by
        rw [Bool.eq_false_iff]
        intro hstr
        have heq := hruns.unique (hkept (.inl hstr))
        rw [systemOf,if_pos hstr] at heq
        cases heq
      refine ⟨hstr,?_⟩
      rw [Bool.eq_false_iff]
      intro hleft
      cases hruns.unique (htaken hleft hstr)
  · intro hnothing
    refine ⟨fun hmat hstr b hb => ⟨fun path hpath => ?_,fun hnone => ?_⟩,fun material hget htruthy hnone => ?_⟩
    · have hreported := reported_of_built hpath
      have hleft : leftover last before v = path := by
        rw [leftover,latest_of_nearest hb hreported,effectiveStructure,if_pos (truthy_of_reported hreported)]
      rw [← hleft]
      exact htaken (by rw [hleft]; exact truthy_of_reported hreported) hstr
    · exact haborted (hnothing.unnamed hmat hstr b hb hnone) hmat hstr
    · have hmat : truthyAt inputs "material" = true := (truthyAt_of_get? hget).trans htruthy
      obtain ⟨hstr,hleft⟩ := hnothing.named hmat hnone
      have hruns := hkept (.inr ⟨hleft,hmat⟩)
      rwa [systemOf,if_neg (by simp [hstr]),hget] at hruns

end Chain

/-- A plan hands its structures on as it should exactly when it leaves nothing over. -/
theorem chained_iff (sh : Shell) (last : Json) (plan : List (Step × StepEnv)) :
    Chained sh last plan ↔ Unlinked sh last plan := by
  constructor
  · intro h before v after hvisits htool inputs hinputs
    exact (chainsRight_iff hvisits htool hinputs).mp (h before v after hvisits htool inputs hinputs)
  · intro h before v after hvisits htool inputs hinputs
    exact (chainsRight_iff hvisits htool hinputs).mpr (h before v after hvisits htool inputs hinputs)

/-- The answer of a builder, or of a graph run, with these data. -/
def answer (data : Dict) : StepResult :=
  { returncode := 0, json := some (none,.obj data), error := none, handled := some (none,.obj data) }

/-- A failed call. -/
def failure (message : String) : StepResult :=
  { returncode := 1, json := none, error := some message, handled := none }

def emptySession : Shell := { sessionDir := "s", str := fun _ => "", dict := fun _ => none, runConfig := [] }

/-- The slab is built, the slab with the adsorbate is not, and its energy is computed. -/
def adsorptionPlan : List (Step × StepEnv) := [
  (⟨some (.build .build2d),[("kind",.str "graphene")]⟩,
    ⟨.passes,fun _ => false,fun _ => none,fun _ => answer [("output",.str "s/graphene_1_1.cif")]⟩),
  (⟨some (.build .build2d),[("kind",.str "graphene"),
    ("adsorb",.obj [("element",.str "O"),("site",.str "top")])]⟩,
    ⟨.passes,fun _ => true,fun _ => some 2,fun _ => failure "atoms too close"⟩),
  (⟨some .graphRun,[("template_id",.str "t0_scf")]⟩,
    ⟨.passes,fun _ => true,fun _ => some 2,fun _ => answer [("run_id",.str "r1")]⟩)]

/-- The energy is that of the clean slab. -/
theorem clean_slab_taken : ¬Chained emptySession .null adsorptionPlan := by
  intro h
  have hright := h ((visits emptySession ⟨.null,.null⟩ adsorptionPlan).take 2) _ [] rfl rfl [] rfl
  have haborted := (hright.unnamed rfl rfl _ rfl).2 rfl
  cases haborted

/-- In the second turn the plan names the material Al, and Si is computed. -/
theorem earlier_turn_taken :
    ¬Chained emptySession (.str "s/generated.cif") [(⟨some .graphRun,
      [("template_id",.str "t0_scf"),("inputs",.obj [("material",.str "Al")])]⟩,
      ⟨.passes,fun _ => true,fun _ => some 2,fun _ => answer [("run_id",.str "r2")]⟩)] := by
  intro h
  have hright := h [] _ [] rfl rfl _ rfl
  obtain ⟨args,result,inputs,hout,hget,hsystem⟩ := hright.named (.str "Al") rfl rfl (by simp)
  cases hout
  cases hget
  cases hsystem

end DftForge.Agent
