import DftForge.Agent.PlannedSteps

/-! # Plans of executable steps

A step is executable when the boundary accepts its prepared arguments, in whatever state
of the session it is met. The rule planner emits only such steps, but for the adsorption
energy of fluorine: it asks for a gas molecule that the schema of the tool does not list.
-/
namespace DftForge.Agent
open DftForge.Runtime DftForge.Python DftForge.Engines DftForge.Library DftForge.Tools

/-- The thermochemistry steps have the energies they need. -/
structure Injects (h : Host) (toolId : String) (args : Dict) (energies : List Energy) : Prop where
  eads : toolId = "thermo.eads" → 3 ≤ energies.length ∧ ∀ e ∈ energies, e.Reported
  formation : toolId = "thermo.formation" →
    ((h.referenceElements (h.textAt args "formula" "")).getD []).length + 1 ≤ energies.length ∧
      ∀ e ∈ energies, e.Reported

/-- The step is the help step, or names a registered tool that accepts its prepared arguments. -/
def Executable (v : Validator) (h : Host) (step : PlanStep) : Prop :=
  step.toolId = some "help" ∨ ∃ entry ∈ defaultTools, step.toolId = some entry.id ∧
    ∀ (w : World) (ctx : Dict) (built : Option String) (energies : List Energy) (args : Dict),
      Written v h ctx → Injects h entry.id step.args energies →
        prepareStep h w (sessionOf ctx built energies) step.args entry.id = .ready args →
          schemaViolation v entry (.obj args) = none

section Executable
variable {v : Validator} {h : Host} {u : Unicode} {message : Text} {ctx : Dict}

theorem Emitted.executable (hdraft7 : v.Draft7) {step : PlanStep} (hemitted : Emitted step) :
    Executable v h step := by
  cases hemitted with
  | help args description => exact Or.inl rfl
  | fitting entry hmem heads hformation hfit description =>
    refine Or.inr ⟨entry,hmem,rfl,fun w ctx built energies args' hwritten _ hready => ?_⟩
    exact (prepareStep_fitting hmem ((hwritten.fits hdraft7).plain built energies) hfit heads hformation
      hready).accepted hdraft7 hmem
  | eads description =>
    have hmem : eadsTool ∈ defaultTools := by simp [defaultTools]
    refine Or.inr ⟨eadsTool,hmem,rfl,fun w ctx built energies args' _ hinjects hready => ?_⟩
    obtain ⟨hthree,henergies⟩ := hinjects.eads rfl
    exact (eads_fitting henergies hthree hready).accepted hdraft7 hmem
  | formation formula description =>
    have hmem : formationTool ∈ defaultTools := by simp [defaultTools]
    refine Or.inr ⟨formationTool,hmem,rfl,fun w ctx built energies args' _ hinjects hready => ?_⟩
    obtain ⟨hlength,henergies⟩ := hinjects.formation rfl
    exact (formation_fitting henergies hlength hready).accepted hdraft7 hmem

/-- The fifth step of an adsorption energy of fluorine. -/
def fluorineStep : PlanStep := planStep "structure.molecule" [("kind",.str "f2")] "构建气体分子参考 F2"

theorem fluorineStep_mem (hfluorine : FluorineEads u message ctx) : fluorineStep ∈ rulePlan h u message ctx := by
  obtain ⟨hconfirm,hcompare,heads,hkind,hspecies⟩ := hfluorine
  obtain ⟨kind,hk⟩ := Option.isSome_iff_exists.mp hkind
  obtain ⟨hmolecule,hsingle⟩ := fluorine hspecies (lower message)
  have hnone : comparePlan h ctx (detectIntents u message ctx) (lower message) = none := by
    unfold comparePlan
    split_ifs with hwants hledger hhints
    · rfl
    · exact absurd ⟨by simpa using hwants,hledger⟩ hcompare
    · simp [hk] at hhints
    · rfl
  have hplan : eadsPlan (detectIntents u message ctx) (lower message) = some
      (eadsSteps kind "f2" (adsSpecies (detectIntents u message ctx))
        ((detectIntents u message ctx).adsSite.getD "top")) := by
    unfold eadsPlan
    rw [heads, hk, hmolecule, hsingle]
    rfl
  unfold rulePlan
  rw [hconfirm]
  dsimp only
  rw [hnone, hplan]
  exact .tail _ (.tail _ (.tail _ (.tail _ (.head _))))

/-- Whatever the preparation adds, the kind of the molecule is refused. -/
theorem fluorineStep_refused (hdraft7 : v.Draft7) (hwritten : Written v h ctx) :
    ¬ Executable v h fluorineStep := by
  rintro (hhelp | ⟨entry,hmem,hid,hall⟩)
  · exact absurd (Option.some.inj hhelp) (by decide)
  · obtain rfl := eq_of_id hmem (Option.some.inj hid).symm (rfl : _ = some moleculeTool)
    have haccepted := hall quietWorld ctx none [] _ hwritten
      ⟨fun heq => absurd heq (by decide),fun heq => absurd heq (by decide)⟩ rfl
    have hvalid := ((record_accepted_iff hdraft7 (rfl : moleculeTool.inputSchema = some (.record _ _))).mp
      haccepted).1 _ (.head _) (.str "f2") rfl Json.noConfusion
    cases hvalid

/-- Every step of a rule plan is executable exactly if the plan is not for an adsorption
energy of fluorine. -/
theorem plan_executable_iff (hdraft7 : v.Draft7) (hwritten : Written v h ctx) :
    (∀ step ∈ rulePlan h u message ctx, Executable v h step) ↔ ¬ FluorineEads u message ctx := by
  constructor
  · intro hall hfluorine
    exact fluorineStep_refused hdraft7 hwritten (hall _ (fluorineStep_mem hfluorine))
  · intro hfluorine step hstep
    exact (rulePlan_emitted (hwritten.fits hdraft7) hfluorine step hstep).executable hdraft7

/-- The letters of Chinese texts. -/
def ideographs : Unicode := { isAlnum := fun c => 0x4E00 ≤ c.toNat && c.toNat ≤ 0x9FFF }

/-- What a session has noted when silicon was built. -/
def builtSilicon : Dict := noteResult quietHost "structure.generate" "" [("source",.str "si")]
  [("output",.str "session/generated.cif"),("formula",.str "Si")] []

theorem builtSilicon_written : Written (collector (fun _ => "None") fun _ => "dict") quietHost builtSilicon := by
  have hmem : generateTool ∈ defaultTools := by simp [defaultTools]
  refine .handled "" hmem (by decide +kernel) ⟨fun key hkey => ?_,fun hjob => absurd hjob (by decide)⟩ .start
  have hkeys : key ∈ ["output","formula"] := hkey
  simp only [List.mem_cons,List.not_mem_nil,or_false] at hkeys
  rcases hkeys with rfl | rfl
  · exact .inr ⟨"session/generated.cif",rfl⟩
  · exact .inr ⟨"Si",rfl⟩

theorem plan_executable_silicon : builtSilicon ≠ [] ∧
    Written (collector (fun _ => "None") fun _ => "dict") quietHost builtSilicon ∧
      ∀ step ∈ rulePlan quietHost ideographs "算它的能带".toList builtSilicon,
        Executable (collector (fun _ => "None") fun _ => "dict") quietHost step := by
  refine ⟨by decide,builtSilicon_written,(plan_executable_iff (collector_draft7 _ _) builtSilicon_written).mpr
    fun hfluorine => ?_⟩
  exact absurd hfluorine.species (by decide)

theorem fluorine_not_executable : ¬ ∀ (v : Validator) (h : Host) (u : Unicode) (message : Text) (ctx : Dict),
    v.Draft7 → Written v h ctx → ∀ step ∈ rulePlan h u message ctx, Executable v h step := by
  intro hall
  have hfluorine : FluorineEads ideographs "F吸附石墨烯的吸附能".toList [] :=
    ⟨by decide,by decide,by decide,by decide,by decide⟩
  exact fluorineStep_refused (collector_draft7 (fun _ => "None") fun _ => "dict") .start
    (hall _ quietHost _ _ [] (collector_draft7 _ _) .start _ (fluorineStep_mem hfluorine))

end Executable
end DftForge.Agent
