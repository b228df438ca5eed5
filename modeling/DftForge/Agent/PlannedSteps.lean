import DftForge.Agent.SessionContext

/-! # The steps that the rule planner emits

Every branch of the rule planner emits steps of registered tools with arguments that fit,
except that an adsorption energy of fluorine asks for a molecule that is not in the schema
of its tool.
-/
namespace DftForge.Agent
open DftForge.Runtime DftForge.Python DftForge.Engines DftForge.Library DftForge.Tools

section Signals

def build2dKinds : List String := ["graphene","bn","mos2","ws2","mose2","wse2","mote2","wte2"]

def adsSites : List String := ["top","bridge","hollow"]

def moleculeKinds : List String := ["o2","n2","h2","cl2","co","oh","no","h2o","co2","nh3"]

/-- What holds of the signals of every message. -/
structure Detected (sig : IntentSignals) : Prop where
  kind : ∀ kind, sig.build2dKind = some kind → kind ∈ build2dKinds
  site : sig.adsSite.getD "top" ∈ adsSites
  formula : Textual sig.formulaHint

theorem firstIn_mem {table : List (String × String)} {text : Text} {value : String}
    (h : firstIn table text = some value) : value ∈ table.map Prod.snd := by
  obtain ⟨row,hrow,rfl⟩ := Option.map_eq_some_iff.mp h
  exact List.mem_map_of_mem (List.mem_of_find?_eq_some hrow)

theorem build2dKind_mem {u : Unicode} {message : Text} {kind : String}
    (h : build2dKind u message = some kind) : kind ∈ build2dKinds := by
  have halways : ∀ value ∈ always2d.map Prod.snd, value ∈ build2dKinds := by decide
  have htmd : ∀ value ∈ tmd2d.map Prod.snd, value ∈ build2dKinds := by decide
  unfold build2dKind at h
  dsimp only at h
  cases hfirst : firstIn always2d (normalized message) with
  | some value =>
    rw [hfirst] at h
    obtain rfl := Option.some.inj h
    exact halways _ (firstIn_mem hfirst)
  | none =>
    rw [hfirst, Option.orElse_eq_orElse, Option.orElse_none] at h
    split_ifs at h
    · obtain rfl := Option.some.inj h
      decide
    · exact htmd _ (firstIn_mem h)

theorem adsSite_mem (message : Text) : adsSite message ∈ adsSites := by
  unfold adsSite
  dsimp only
  split_ifs <;> decide

theorem detectIntents_detected (u : Unicode) (message : Text) {ctx : Dict} (hfits : Fits ctx) :
    Detected (detectIntents u message ctx) where
  kind _ h := build2dKind_mem h
  site := by
    unfold detectIntents
    dsimp only
    cases adsEl u message with
    | none => exact .head _
    | some el => exact adsSite_mem message
  formula := by
    change Textual (formulaHint u message ctx)
    unfold formulaHint
    split
    · exact Or.inr ⟨_,rfl⟩
    · exact (hfits.texts _ (by decide)).pyOr (hfits.texts _ (by decide))

theorem Textual.str_of_truthy {v : Json} (hv : Textual v) (htruthy : truthy v = true) : ∃ s, v = .str s := by
  rcases hv with rfl | hs
  · cases htruthy
  · exact hs

theorem Textual.pyOr_str {a : Json} (ha : Textual a) (s : String) : ∃ t, Agent.pyOr a (.str s) = .str t := by
  unfold Agent.pyOr
  split_ifs with htruthy
  · exact ha.str_of_truthy htruthy
  · exact ⟨s,rfl⟩

theorem optText_textual (s : Option String) : Textual (optText s) := by
  cases s with
  | none => exact Or.inl rfl
  | some s => exact Or.inr ⟨s,rfl⟩

theorem Detected.composition {sig : IntentSignals} (h : Detected sig) : Textual (composition sig) :=
  h.formula.pyOr (optText_textual _)

end Signals

section Molecules

theorem lookup_mem {table : List (String × String)} {key value : String} (h : table.lookup key = some value) :
    (key,value) ∈ table := by
  obtain ⟨before,after,htable,_⟩ := List.lookup_eq_some_iff.mp h
  rw [htable]
  exact List.mem_append_right before List.mem_cons_self

theorem adsorbate_kind {key value : String} (h : adsorbateMolecules.lookup key = some value) (hkey : key ≠ "F") :
    value ∈ moleculeKinds := by
  have hall : ∀ row ∈ adsorbateMolecules, row.1 ≠ "F" → row.2 ∈ moleculeKinds := by decide
  exact hall _ (lookup_mem h) hkey

theorem lowerText_ne (species : String) : lowerText species ≠ "F" := by
  intro h
  have hlist : species.toList.map Char.toLower = ['F'] := by
    rw [← String.toList_ofList (l := species.toList.map Char.toLower)]
    exact congrArg String.toList h
  obtain ⟨c,_,hc⟩ := List.map_eq_singleton_iff.mp hlist
  have := Char.isUpper_toLower_eq_false c
  rw [hc] at this
  cases this

/-- The molecule of an adsorbate that is not fluorine is one that the tool builds. -/
theorem moleculeKind_mem {species : String} {lower : Text} {molecule : String}
    (h : moleculeKind species lower = some molecule) (hspecies : upperText species ≠ "F") :
    molecule ∈ moleculeKinds := by
  unfold moleculeKind at h
  cases hupper : adsorbateMolecules.lookup (upperText species) with
  | some value =>
    rw [hupper] at h
    obtain rfl := Option.some.inj h
    exact adsorbate_kind hupper hspecies
  | none =>
    rw [hupper, Option.orElse_eq_orElse, Option.orElse_none] at h
    cases hlower : adsorbateMolecules.lookup (lowerText species) with
    | some value =>
      rw [hlower] at h
      obtain rfl := Option.some.inj h
      exact adsorbate_kind hlower (lowerText_ne species)
    | none =>
      rw [hlower, Option.orElse_none] at h
      have hall : ∀ mk ∈ ["co2","h2o","nh3","cl2","o2","n2","h2","co"], mk ∈ moleculeKinds := by decide
      exact hall _ (List.mem_of_find?_eq_some h)

/-- Fluorine is a single atom, and its molecule is looked up. -/
theorem fluorine {species : String} (hspecies : upperText species = "F") (lower : Text) :
    moleculeKind species lower = some "f2" ∧ isSingleAtom species = true := by
  constructor
  · unfold moleculeKind
    rw [hspecies]
    rfl
  · have hlist : species.toList.map Char.toUpper = ['F'] := by
      rw [← String.toList_ofList (l := species.toList.map Char.toUpper)]
      exact congrArg String.toList hspecies
    obtain ⟨c,hc,hupper⟩ := List.map_eq_singleton_iff.mp hlist
    have hlength : species.length = 1 := by
      rw [← String.length_toList, hc]
      rfl
    unfold isSingleAtom
    rw [hlength, hc, capitalize, hupper]
    decide

end Molecules

/-- A help step, a step whose arguments fit, or a step that waits for energies. -/
inductive Emitted : PlanStep → Prop where
  | help (args : Dict) (description : String) : Emitted (planStep "help" args description)
  | fitting (entry : ToolSchema) {args : Dict} (hmem : entry ∈ defaultTools) (heads : entry.id ≠ "thermo.eads")
      (hformation : entry.id ≠ "thermo.formation") (hfit : Fitting entry args) (description : String) :
      Emitted (planStep entry.id args description)
  | eads (description : String) : Emitted (planStep "thermo.eads" [] description)
  | formation (formula description : String) :
      Emitted (planStep "thermo.formation" [("formula",.str formula)] description)

section Values
variable {entry : ToolSchema} {args rest : Dict} {key : String} {value : Json}

theorem EntriesFit.nil : EntriesFit entry [] := fun _ he => by cases he

theorem EntriesFit.cons (hv : Admits entry key value) (hrest : EntriesFit entry rest) :
    EntriesFit entry ((key,value) :: rest) := by
  intro e he
  rcases List.mem_cons.mp he with rfl | he
  · exact Or.inr hv
  · exact hrest e he

theorem EntriesFit.append (h : EntriesFit entry args) (hrest : EntriesFit entry rest) :
    EntriesFit entry (args ++ rest) :=
  fun e he => (List.mem_append.mp he).elim (h e) (hrest e)

/-- Arguments fit if each entry does and the required ones are there. -/
theorem Fitting.of_entries (hentries : EntriesFit entry args)
    (hrequired : ((requiredKeys entry).all fun key => !isNull (field args key)) = true) :
      Fitting entry args := by
  refine ⟨hentries,fun key hkey => ?_⟩
  have hnull := List.all_eq_true.mp hrequired key hkey
  unfold field at hnull
  cases hget : args.get? key with
  | none =>
    rw [hget] at hnull
    cases hnull
  | some w =>
    refine ⟨w,rfl,?_⟩
    rintro rfl
    rw [hget] at hnull
    cases hnull

theorem emitted_of (entry : ToolSchema) (hget : getTool entry.id = some entry)
    (hids : entry.id ∉ ["thermo.eads","thermo.formation"]) (hentries : EntriesFit entry args)
    (hrequired : ((requiredKeys entry).all fun key => !isNull (field args key)) = true) (description : String) :
    Emitted (planStep entry.id args description) := by
  rw [List.mem_cons, List.mem_singleton, not_or] at hids
  exact .fitting entry (getTool_id hget).1 hids.1 hids.2 (.of_entries hentries hrequired) description

theorem oneOf_valid {texts : List String} {s : String} (h : s ∈ texts) :
    (Schema.oneOf texts).valid (.str s) = true := by
  have henum : enumHolds (some texts) (.str s) = true := decide_eq_true h
  rw [Schema.oneOf, Schema.valid, henum]
  rfl

theorem adsorb_valid (el : String) {site : String} (hsite : site ∈ adsSites) :
    adsorbSchema.valid (.obj [("element",.str el),("site",.str site)]) = true := by
  refine record_valid_iff.mpr ⟨_,rfl,?_,fun key hkey => by cases hkey⟩
  intro property hp w hw
  fin_cases hp
  · obtain rfl := Option.some.inj hw
    rfl
  · obtain rfl := Option.some.inj hw
    exact oneOf_valid hsite
  · cases hw

theorem dopants_valid (el : String) :
    (Schema.listOf dopantSchema).valid (.arr [.obj [("index",.num 0),("element",.str el)]]) = true := by
  rfl

end Values

section Steps
variable {description : String}

theorem emitted_graphRun (templateId : String) (inputs : Dict) :
    Emitted (runStepOf templateId inputs description) :=
  emitted_of graphRunTool rfl (by decide)
    (.cons (admits_of_declared rfl rfl) (.cons (admits_of_declared rfl rfl) .nil)) rfl description

theorem emitted_generate (source : String) :
    Emitted (planStep "structure.generate" [("source",.str source)] description) :=
  emitted_of generateTool rfl (by decide) (.cons (admits_of_declared rfl rfl) .nil) rfl description

/-- A monolayer with whatever else the schema admits. -/
theorem emitted_build2d {kind : String} (hkind : kind ∈ build2dKinds) {rest : Dict}
    (hrest : EntriesFit build2dTool rest) :
    Emitted (planStep "structure.build2d" (("kind",.str kind) :: rest) description) :=
  emitted_of build2dTool rfl (by decide)
    (.cons (admits_of_declared rfl (oneOf_valid hkind)) hrest) rfl description

theorem supercell_fits (size : String) : EntriesFit build2dTool [("supercell",.str size)] :=
  .cons (admits_of_declared rfl rfl) .nil

theorem adsorb_fits (el : String) {site : String} (hsite : site ∈ adsSites) :
    EntriesFit build2dTool [("adsorb",.obj [("element",.str el),("site",.str site)])] :=
  .cons (admits_of_declared rfl (adsorb_valid el hsite)) .nil

theorem emitted_dope (source el size : String) : Emitted (planStep "structure.dope"
    [("source",.str source),("element",.str el),("supercell",.str size)] description) :=
  emitted_of dopeTool rfl (by decide) (.cons (admits_of_declared rfl rfl) (.cons (admits_of_declared rfl rfl)
    (.cons (admits_of_declared rfl rfl) .nil))) rfl description

theorem emitted_molecule {kind : String} (hkind : kind ∈ moleculeKinds) :
    Emitted (planStep "structure.molecule" [("kind",.str kind)] description) :=
  emitted_of moleculeTool rfl (by decide)
    (.cons (admits_of_declared rfl (oneOf_valid hkind)) .nil) rfl description

theorem emitted_reference (el : String) :
    Emitted (planStep "structure.reference" [("element",.str el)] description) :=
  emitted_of referenceTool rfl (by decide) (.cons (admits_of_declared rfl rfl) .nil) rfl description

theorem emitted_import (source : String) :
    Emitted (planStep "structure.import" [("source",.str source)] description) :=
  emitted_of importTool rfl (by decide) (.cons (admits_of_declared rfl rfl) .nil) rfl description

theorem emitted_analyze (sig : IntentSignals) (source : String) : Emitted (analyzeStep sig (.str source)) := by
  refine emitted_of analyzeTool rfl (by decide) (.cons (admits_of_declared rfl rfl) fun e he => ?_) rfl _
  obtain rfl := List.mem_singleton.mp he
  cases sig.pairTypes with
  | none => exact Or.inl rfl
  | some pairs => exact Or.inr (admits_of_declared rfl rfl)

theorem emitted_compare (lower : Text) :
    Emitted (planStep "analysis.compare"
      [("use_last",.num 2),("metric",.str (metricOf lower))] description) := by
  have hmetric : metricOf lower ∈ ["band_gap","energy","auto"] := by
    unfold metricOf
    split_ifs <;> decide
  exact emitted_of compareTool rfl (by decide) (.cons (admits_of_declared rfl rfl)
    (.cons (admits_of_declared rfl (oneOf_valid hmetric)) .nil)) rfl description

theorem emitted_status (runId : String) :
    Emitted (planStep "graph.status" [("run_id",.str runId)] description) :=
  emitted_of graphStatusTool rfl (by decide) (.cons (admits_of_declared rfl rfl) .nil) rfl description

end Steps

section Branches
variable {h : Host} {sig : IntentSignals} {lower : Text} {ctx : Dict} {steps : List PlanStep}

theorem comparePlan_emitted (hplan : comparePlan h ctx sig lower = some steps) :
    ∀ step ∈ steps, Emitted step := by
  unfold comparePlan at hplan
  split_ifs at hplan <;> obtain rfl := Option.some.inj hplan
  · intro step hstep
    obtain rfl := List.mem_singleton.mp hstep
    exact emitted_compare lower
  · intro step hstep
    obtain rfl := List.mem_singleton.mp hstep
    exact .help _ _

theorem eadsPlan_emitted (hdetected : Detected sig) (hplan : eadsPlan sig lower = some steps)
    (hspecies : upperText (adsSpecies sig) ≠ "F") : ∀ step ∈ steps, Emitted step := by
  unfold eadsPlan at hplan
  split at hplan
  · cases hplan
  split at hplan
  · next kind molecule hkind hmolecule =>
    have hk := hdetected.kind kind hkind
    split_ifs at hplan <;> obtain rfl := Option.some.inj hplan
    · intro step hstep
      obtain rfl := List.mem_singleton.mp hstep
      exact .help _ _
    · simp only [eadsSteps,List.forall_mem_cons,List.not_mem_nil,false_implies,implies_true,and_true]
      refine ⟨?_,emitted_graphRun _ _,?_,emitted_graphRun _ _,?_,emitted_graphRun _ _,.eads _⟩
      · exact emitted_build2d hk ((supercell_fits "3x3").append (adsorb_fits _ hdetected.site))
      · exact emitted_build2d hk (supercell_fits "3x3")
      · exact emitted_molecule (moleculeKind_mem hmolecule hspecies)
  · cases hplan

theorem formationPlan_emitted (hplan : formationPlan h sig = some steps) : ∀ step ∈ steps, Emitted step := by
  unfold formationPlan at hplan
  split at hplan
  · cases hplan
  dsimp only at hplan
  split_ifs at hplan <;> obtain rfl := Option.some.inj hplan
  · intro step hstep
    obtain rfl := List.mem_singleton.mp hstep
    exact .help _ _
  · unfold formationSteps
    intro step hstep
    rw [List.mem_append, List.mem_cons, List.mem_flatMap, List.mem_singleton] at hstep
    rcases hstep with (rfl | ⟨el,_,hel⟩) | rfl
    · exact emitted_graphRun _ _
    · rcases List.mem_cons.mp hel with rfl | hel
      · exact emitted_reference el
      · obtain rfl := List.mem_singleton.mp hel
        exact emitted_graphRun _ _
    · exact .formation _ _

theorem targetRuns_emitted (name : String) (inputs : Dict) :
    ∀ step ∈ targetRuns sig name inputs, Emitted step := by
  intro step hstep
  obtain ⟨tid,_,rfl⟩ := List.mem_map.mp hstep
  exact emitted_graphRun _ _

theorem structureStep_emitted (hdetected : Detected sig) : ∀ step ∈ structureStep h sig, Emitted step := by
  unfold structureStep
  split
  · next kind hkind =>
    intro step hstep
    obtain rfl := List.mem_singleton.mp hstep
    refine emitted_build2d (hdetected.kind kind hkind) ((EntriesFit.append ?_ ?_).append ?_)
    · split_ifs
      · exact supercell_fits _
      · exact .nil
    · cases sig.dopantEl with
      | none => exact .nil
      | some el => exact .cons (admits_of_declared rfl (dopants_valid el)) .nil
    · cases sig.adsEl with
      | none => exact .nil
      | some el => exact adsorb_fits el hdetected.site
  · split_ifs with htruthy
    · obtain ⟨source,hsource⟩ := hdetected.composition.str_of_truthy htruthy
      rw [hsource]
      intro step hstep
      obtain rfl := List.mem_singleton.mp hstep
      exact emitted_dope _ _ _
    · exact fun step hstep => by cases hstep
  · exact fun step hstep => by cases hstep

theorem buildPlan_emitted (hdetected : Detected sig) (hplan : buildPlan h sig = some steps) :
    ∀ step ∈ steps, Emitted step := by
  unfold buildPlan at hplan
  split_ifs at hplan
  obtain rfl := Option.some.inj hplan
  intro step hstep
  rcases List.mem_append.mp hstep with hstep | hstep
  · exact structureStep_emitted hdetected step hstep
  · exact targetRuns_emitted _ _ step hstep

theorem graphPlan_emitted (hplan : graphPlan h sig = some steps) : ∀ step ∈ steps, Emitted step := by
  unfold graphPlan at hplan
  split_ifs at hplan
  obtain rfl := Option.some.inj hplan
  exact targetRuns_emitted _ _

end Branches

section Simple
variable {h : Host} {message : Text} {ctx : Dict} {sig : IntentSignals} {lower : Text}

theorem analyzeSteps_emitted (hfits : Fits ctx) (hdetected : Detected sig) :
    ∀ step ∈ analyzeSteps h ctx sig, Emitted step := by
  unfold analyzeSteps
  split
  · next hsource =>
    obtain ⟨source,heq⟩ := ((hfits.texts _ (by decide)).pyOr (hfits.texts _ (by decide))).str_of_truthy hsource
    rw [currentSource, heq]
    exact List.forall_mem_singleton.mpr (emitted_analyze sig source)
  · split
    · next kind hkind =>
      exact List.forall_mem_cons.mpr ⟨emitted_build2d (hdetected.kind kind hkind) .nil,
        List.forall_mem_singleton.mpr (emitted_analyze sig _)⟩
    · split_ifs
      · obtain ⟨source,heq⟩ := ((optText_textual sig.materialHint).pyOr hdetected.formula).pyOr_str "Si"
        rw [heq]
        exact List.forall_mem_cons.mpr
          ⟨emitted_generate source,List.forall_mem_singleton.mpr (emitted_analyze sig _)⟩
      · exact List.forall_mem_singleton.mpr (emitted_analyze sig _)

theorem structureSteps_emitted (hfits : Fits ctx) (hdetected : Detected sig) :
    ∀ step ∈ structureSteps h ctx sig, Emitted step := by
  unfold structureSteps
  split_ifs
  · exact analyzeSteps_emitted hfits hdetected
  · unfold importSteps
    split_ifs
    · exact fun step hstep => by cases hstep
    · exact List.forall_mem_singleton.mpr (emitted_import _)
  · unfold generateSteps
    split
    · next kind hkind => exact List.forall_mem_singleton.mpr (emitted_build2d (hdetected.kind kind hkind) .nil)
    · exact List.forall_mem_singleton.mpr (emitted_generate _)
  · exact fun step hstep => by cases hstep

theorem inputStep_emitted (hfits : Fits ctx) : Emitted (inputStep ctx sig lower) := by
  have htype : calcType lower ∈ ["scf","vc-relax","relax","bands","dos"] := by
    unfold calcType
    split_ifs <;> decide
  have hkind : Admits inputBuildTool "type" (.str (calcType lower)) := admits_of_declared rfl (oneOf_valid htype)
  unfold inputStep
  dsimp only
  split_ifs with hsource
  · obtain ⟨source,heq⟩ := ((hfits.texts _ (by decide)).pyOr (hfits.texts _ (by decide))).str_of_truthy hsource
    rw [currentSource, heq]
    exact emitted_of inputBuildTool rfl (by decide) (.cons hkind (.cons (admits_of_declared rfl rfl)
      (.cons (admits_of_declared rfl rfl) .nil))) rfl _
  · exact emitted_of inputBuildTool rfl (by decide) (.cons hkind (.cons (admits_of_declared rfl rfl) .nil)) rfl _

theorem submitStep_emitted (hfits : Fits ctx) : Emitted (submitStep ctx) := by
  obtain ⟨input,heq⟩ := (hfits.texts "last_input_file" (by decide)).pyOr_str "input.in"
  unfold submitStep
  rw [heq]
  exact emitted_of jobSubmitTool rfl (by decide) (.cons (admits_of_declared rfl rfl)
    (.cons (admits_of_declared rfl rfl) .nil)) rfl _

theorem statusStep_emitted (hfits : Fits ctx) : Emitted (statusStep message ctx) := by
  obtain ⟨job,heq⟩ := (hfits.texts "last_job_id" (by decide)).pyOr_str
    (((words message).getLast?.map String.ofList).getD "local_default")
  unfold statusStep jobId
  rw [heq]
  exact emitted_of jobStatusTool rfl (by decide) (.cons (admits_of_declared rfl rfl) .nil) rfl _

/-- The type of the last parse was admitted then. -/
theorem parseStep_emitted (hfits : Fits ctx) : Emitted (parseStep ctx) := by
  obtain ⟨input,heq⟩ := (hfits.texts "last_output_file" (by decide)).pyOr_str "input.in"
  have hnull : isNull ((ctx.get? "last_result_type").getD (.str "vc-relax")) = false := by
    refine Bool.eq_false_iff.mpr fun hnull => ?_
    have hvalid := hfits.resultType ("type",.oneOf ["vc-relax","scf","nscf","bands","dos"])
      (.tail _ (.head _)) rfl
    rw [isNull_iff.mp hnull] at hvalid
    cases hvalid
  unfold parseStep outputFile
  rw [heq]
  refine emitted_of resultParseTool rfl (by decide) (.cons (admits_of_declared rfl rfl)
    (.cons hfits.resultType .nil)) ?_ _
  change (true && (!isNull ((ctx.get? "last_result_type").getD (.str "vc-relax")) && true)) = true
  rw [hnull]
  rfl

theorem verifyStep_emitted (hfits : Fits ctx) : Emitted (verifyStep ctx) := by
  obtain ⟨input,heq⟩ := (hfits.texts "last_output_file" (by decide)).pyOr_str "input.in"
  unfold verifyStep outputFile
  rw [heq, hfits.taskType]
  exact emitted_of resultVerifyTool rfl (by decide) (.cons (admits_of_declared rfl rfl)
    (.cons (admits_of_declared rfl rfl) .nil)) rfl _

theorem ledgerStep_emitted : Emitted ledgerStep :=
  emitted_of ledgerQueryTool rfl (by decide) (.cons (admits_of_declared rfl rfl) .nil) rfl _

theorem doctorStep_emitted : Emitted doctorStep := emitted_of doctorTool rfl (by decide) .nil rfl _

theorem wanted_emitted {want : Bool} {step : PlanStep} (h : Emitted step) :
    ∀ x ∈ wanted want step, Emitted x := by
  unfold wanted
  split_ifs
  · exact List.forall_mem_singleton.mpr h
  · exact fun x hx => by cases hx

theorem simplePlan_emitted (hfits : Fits ctx) (hdetected : Detected sig) :
    ∀ step ∈ simplePlan h message ctx sig lower, Emitted step := by
  unfold simplePlan
  split_ifs
  · exact List.forall_mem_singleton.mpr (.help _ _)
  · unfold simpleSteps
    simp only [List.forall_mem_append]
    exact ⟨⟨⟨⟨⟨⟨⟨structureSteps_emitted hfits hdetected,wanted_emitted (inputStep_emitted hfits)⟩,
      wanted_emitted (submitStep_emitted hfits)⟩,wanted_emitted (statusStep_emitted hfits)⟩,
      wanted_emitted (parseStep_emitted hfits)⟩,wanted_emitted (verifyStep_emitted hfits)⟩,
      wanted_emitted ledgerStep_emitted⟩,wanted_emitted doctorStep_emitted⟩

end Simple

section Plan
variable {h : Host} {u : Unicode} {message : Text} {ctx : Dict}

/-- The planner gets as far as an adsorption energy of fluorine on a monolayer: the message
is no confirmation, and no comparison that the ledger answers. -/
structure FluorineEads (u : Unicode) (message : Text) (ctx : Dict) : Prop where
  unconfirmed : confirms message ctx = false
  notCompared : ¬ ((detectIntents u message ctx).wantsCompare = true ∧ 2 ≤ (ledgerOf ctx).length)
  eads : (detectIntents u message ctx).wantsEads = true
  kind : (detectIntents u message ctx).build2dKind.isSome = true
  species : upperText (adsSpecies (detectIntents u message ctx)) = "F"

/-- The branch of the adsorption energy, and what it was entered for. -/
theorem fluorine_of_plan {steps : List PlanStep} (hconfirm : confirms message ctx = false)
    (hcompare : comparePlan h ctx (detectIntents u message ctx) (lower message) = none)
    (hplan : eadsPlan (detectIntents u message ctx) (lower message) = some steps)
    (hspecies : upperText (adsSpecies (detectIntents u message ctx)) = "F") : FluorineEads u message ctx where
  unconfirmed := hconfirm
  notCompared := by
    rintro ⟨hwants,hledger⟩
    rw [comparePlan, hwants, if_neg (by decide), if_pos hledger] at hcompare
    cases hcompare
  eads := by
    unfold eadsPlan at hplan
    split at hplan
    · cases hplan
    · next h => simpa using h
  kind := by
    unfold eadsPlan at hplan
    split at hplan
    · cases hplan
    split at hplan
    · next hkind _ => rw [hkind, Option.isSome_some]
    · cases hplan
  species := hspecies

theorem mem_orElse {o p : Option (List PlanStep)} {d : List PlanStep} {step : PlanStep}
    (hstep : step ∈ (o <|> p).getD d) :
    (∃ steps, o = some steps ∧ step ∈ steps) ∨ (o = none ∧ step ∈ p.getD d) := by
  cases o with
  | none => exact Or.inr ⟨rfl,hstep⟩
  | some steps => exact Or.inl ⟨steps,rfl,hstep⟩

/-- Without fluorine every step of a plan is one that fits or waits for energies. -/
theorem rulePlan_emitted (hfits : Fits ctx) (hfluorine : ¬ FluorineEads u message ctx) :
    ∀ step ∈ rulePlan h u message ctx, Emitted step := by
  have hdetected := detectIntents_detected u message hfits
  intro step hstep
  unfold rulePlan at hstep
  split at hstep
  · next hconfirm =>
    obtain ⟨runId,heq⟩ := (hfits.texts "last_run_id" (by decide)).str_of_truthy
      (Bool.and_eq_true_iff.mp hconfirm).1
    rw [heq] at hstep
    obtain rfl := List.mem_singleton.mp hstep
    exact emitted_status runId
  · next hconfirm =>
    dsimp only at hstep
    rcases mem_orElse hstep with ⟨steps,hplan,hmem⟩ | ⟨hcompare,hstep⟩
    · exact comparePlan_emitted hplan step hmem
    rcases mem_orElse hstep with ⟨steps,hplan,hmem⟩ | ⟨_,hstep⟩
    · refine eadsPlan_emitted hdetected hplan (fun hspecies => hfluorine ?_) step hmem
      exact fluorine_of_plan (Bool.eq_false_iff.mpr hconfirm) hcompare hplan hspecies
    rcases mem_orElse hstep with ⟨steps,hplan,hmem⟩ | ⟨_,hstep⟩
    · exact formationPlan_emitted hplan step hmem
    rcases mem_orElse hstep with ⟨steps,hplan,hmem⟩ | ⟨_,hstep⟩
    · exact buildPlan_emitted hdetected hplan step hmem
    cases hgraph : graphPlan h (detectIntents u message ctx) with
    | some steps =>
      rw [hgraph] at hstep
      exact graphPlan_emitted hgraph step hstep
    | none =>
      rw [hgraph] at hstep
      exact simplePlan_emitted hfits hdetected step hstep

end Plan
end DftForge.Agent
