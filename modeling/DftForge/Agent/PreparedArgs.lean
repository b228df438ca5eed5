import DftForge.Agent.Malformed
import DftForge.Agent.RulePlanner

/-! # Prepared arguments and the execution boundary

Arguments fit a tool when the boundary accepts them whatever order they come in. The
preparation of a step only sets entries, and sets them to what the schema admits.
-/
namespace DftForge.Agent
open DftForge.Runtime DftForge.Python DftForge.Engines DftForge.Tools DftForge.Qe

section Fitting

def properties (entry : ToolSchema) : List (String × Schema) := (entry.inputSchema.map Schema.properties).getD []

def requiredKeys (entry : ToolSchema) : List String := (entry.inputSchema.map Schema.required).getD []

/-- Every property of that name admits the value. -/
def Admits (entry : ToolSchema) (key : String) (value : Json) : Prop :=
  ∀ property ∈ properties entry, property.1 = key → property.2.valid value = true

/-- Each entry is null or admitted. -/
def EntriesFit (entry : ToolSchema) (args : Dict) : Prop :=
  ∀ e ∈ args, e.2 = .null ∨ Admits entry e.1 e.2

structure Fitting (entry : ToolSchema) (args : Dict) : Prop where
  entries : EntriesFit entry args
  required : ∀ key ∈ requiredKeys entry, ∃ w, args.get? key = some w ∧ w ≠ .null

variable {entry : ToolSchema} {args : Dict} {key : String} {value : Json}

theorem mem_set {d : Dict} {e : String × Json} (h : e ∈ d.set key value) : e = (key,value) ∨ e ∈ d := by
  induction d with
  | nil => exact Or.inl (List.mem_singleton.mp h)
  | cons e' rest ih =>
    obtain ⟨k,v⟩ := e'
    unfold Dict.set at h
    split_ifs at h with hk
    · exact (List.mem_cons.mp h).imp_right (List.mem_cons_of_mem _)
    · rcases List.mem_cons.mp h with rfl | h
      · exact Or.inr List.mem_cons_self
      · exact (ih h).imp_right (List.mem_cons_of_mem _)

theorem EntriesFit.set (h : EntriesFit entry args) (hv : Admits entry key value) :
    EntriesFit entry (args.set key value) := by
  intro e he
  rcases mem_set he with rfl | he
  · exact Or.inr hv
  · exact h e he

theorem Fitting.set (h : Fitting entry args) (hv : Admits entry key value) (hnull : value ≠ .null) :
    Fitting entry (args.set key value) := by
  refine ⟨h.entries.set hv,fun k hk => ?_⟩
  by_cases heq : k = key
  · subst heq
    exact ⟨value,Dict.get?_set_self _ _ _,hnull⟩
  · rw [Dict.get?_set_of_ne heq]
    exact h.required k hk

theorem Fitting.setDefault (h : Fitting entry args) (hv : Admits entry key value) :
    Fitting entry (setDefault args key value) := by
  unfold DftForge.Agent.setDefault
  split_ifs with hkey
  · exact h
  · constructor
    · intro e he
      rcases List.mem_append.mp he with he | he
      · exact h.entries e he
      · obtain rfl := List.mem_singleton.mp he
        exact Or.inr hv
    · intro k hk
      obtain ⟨w,hw,hnull⟩ := h.required k hk
      refine ⟨w,?_,hnull⟩
      unfold Dict.get? at hw ⊢
      rw [List.lookup_append, hw]
      rfl

theorem Fitting.accepted {v : Validator} (hdraft7 : v.Draft7) (hmem : entry ∈ defaultTools)
    (h : Fitting entry args) : schemaViolation v entry (.obj args) = none := by
  obtain ⟨schema,hschema,hplain⟩ := defaultTools_plain entry hmem
  obtain ⟨hrecord,_⟩ := Schema.plain_spec hplain
  have hproperties : properties entry = schema.properties := by rw [properties, hschema]; rfl
  have hrequired : requiredKeys entry = schema.required := by rw [requiredKeys, hschema]; rfl
  refine (record_accepted_iff hdraft7 (hschema.trans (congrArg some hrecord))).mpr ⟨?_,?_⟩
  · intro property hp w hw hnull
    rw [← hproperties] at hp
    exact (h.entries _ (Dict.mem_of_get? hw)).resolve_left hnull property hp rfl
  · rw [← hrequired]
    exact h.required

end Fitting

section Keys

/-- `{"type": "string"}`. -/
def isTextSchema : Schema → Bool
  | .mk [.string] none [] [] none => true
  | _ => false

theorem valid_of_isTextSchema {schema : Schema} (h : isTextSchema schema = true) (s : String) :
    schema.valid (.str s) = true := by
  unfold isTextSchema at h
  split at h
  · rfl
  · cases h

/-- The keys that the preparation sets to texts. -/
def preparedKeys : List String := ["output","workdir","database","source","input","structure"]

theorem preparedKeys_text : ∀ entry ∈ defaultTools, ∀ property ∈ properties entry,
    property.1 ∈ preparedKeys → isTextSchema property.2 = true := by
  have hall : defaultTools.all (fun entry => (properties entry).all fun property =>
      !decide (property.1 ∈ preparedKeys) || isTextSchema property.2) = true := by decide
  intro entry hentry property hp hkey
  have := List.all_eq_true.mp (List.all_eq_true.mp hall entry hentry) property hp
  simpa [hkey] using this

theorem admits_text {entry : ToolSchema} (hmem : entry ∈ defaultTools) {key : String} (hkey : key ∈ preparedKeys)
    (s : String) : Admits entry key (.str s) := by
  rintro property hp rfl
  exact valid_of_isTextSchema (preparedKeys_text entry hmem property hp hkey) s

/-- The schemas that a tool declares for a key. -/
def declared (entry : ToolSchema) (key : String) : List Schema :=
  ((properties entry).filter fun property => property.1 = key).map Prod.snd

theorem admits_of_declared {entry : ToolSchema} {key : String} {value : Json} {schema : Schema}
    (hdeclared : declared entry key = [schema]) (hv : schema.valid value = true) : Admits entry key value := by
  intro property hp hkey
  have hmem : property.2 ∈ declared entry key :=
    List.mem_map_of_mem (List.mem_filter.mpr ⟨hp,decide_eq_true hkey⟩)
  rw [hdeclared, List.mem_singleton] at hmem
  rw [hmem]
  exact hv

theorem eq_of_id {entry entry' : ToolSchema} (hmem : entry ∈ defaultTools) {toolId : String}
    (hid : entry.id = toolId) (hget : getTool toolId = some entry') : entry = entry' := by
  subst hid
  exact Option.some.inj ((getTool_of_mem hmem).symm.trans hget)

end Keys

/-- What the structure and the ledger of a session are, and the kind of its last result. -/
structure SessionState.Plain (s : SessionState) : Prop where
  built : s.builtStructure = .null ∨ ∃ path, s.builtStructure = .str path
  ledger : ∀ e ∈ s.ledger, ∃ fields, e = .obj fields
  resultType : Admits resultParseTool "type" s.lastResultType
  taskType : Admits resultVerifyTool "task_type" s.lastTaskType

section Prepare
variable {h : Host} {w : World} {s : SessionState} {entry : ToolSchema} {args args' : Dict}

theorem Fitting.setPath (hmem : entry ∈ defaultTools) (hfit : Fitting entry args) {key : String}
    (hkey : key ∈ preparedKeys) (sh : Shell) (name : Text) : Fitting entry (args.set key (sh.path name)) :=
  hfit.set (admits_text hmem hkey _) Json.noConfusion

/-- The output path of a builder is a new one, or one that the arguments had. -/
theorem outputPath_cases {sh : Shell} {b : Builder} {output : Json} (hout : outputPath sh args b = some output) :
    (∃ name, output = sh.path name) ∨ (args.get? "output" = some output ∧ truthy output = true) := by
  cases b with
  | generate => exact Or.inl ⟨_,(Option.some.inj hout).symm⟩
  | build2d =>
    obtain ⟨site,_,hsite⟩ := Option.map_eq_some_iff.mp hout
    exact Or.inl ⟨_,hsite.symm⟩
  | dope => exact Or.inl ⟨_,(Option.some.inj hout).symm⟩
  | molecule =>
    dsimp only [outputPath] at hout
    split at hout
    · next v hv =>
      split_ifs at hout with htruthy
      · obtain rfl := Option.some.inj hout
        exact Or.inr ⟨hv,htruthy⟩
      · exact Or.inl ⟨_,(Option.some.inj hout).symm⟩
    · exact Or.inl ⟨_,(Option.some.inj hout).symm⟩
  | reference =>
    dsimp only [outputPath] at hout
    split at hout
    · next v hv =>
      split_ifs at hout with htruthy
      · obtain rfl := Option.some.inj hout
        exact Or.inr ⟨hv,htruthy⟩
      · exact Or.inl ⟨_,(Option.some.inj hout).symm⟩
    · exact Or.inl ⟨_,(Option.some.inj hout).symm⟩

theorem builder_fitting (hmem : entry ∈ defaultTools) (hfit : Fitting entry args) {sh : Shell} {env : StepEnv}
    {r : RunState} {b : Builder} (hready : prepareStepArgs sh env r (.build b) args = .ready args') :
    Fitting entry args' := by
  dsimp only [prepareStepArgs] at hready
  split at hready
  · next output hout =>
    obtain rfl := Prepared.ready.inj hready
    rcases outputPath_cases hout with ⟨name,rfl⟩ | ⟨hget,htruthy⟩
    · exact hfit.setPath hmem (by decide) sh name
    · have hnull : output ≠ .null := fun h => by simp [h,truthy] at htruthy
      exact hfit.set ((hfit.entries _ (Dict.mem_of_get? hget)).resolve_left hnull) hnull
  · cases hready

theorem graphRun_fitting (hfit : Fitting graphRunTool args) {sh : Shell} {env : StepEnv} {r : RunState}
    (hready : prepareStepArgs sh env r .graphRun args = .ready args') : Fitting graphRunTool args' := by
  have hworkdir := hfit.setPath (by simp [defaultTools])
    (by decide : "workdir" ∈ preparedKeys) sh "graphs".toList
  have hinputs (inputs : Dict) : Fitting graphRunTool
      ((args.set "workdir" (sh.path "graphs".toList)).set "inputs" (.obj inputs)) :=
    hworkdir.set (admits_of_declared rfl rfl) Json.noConfusion
  dsimp only [prepareStepArgs,prepareGraphRun] at hready
  split at hready
  · cases hready
  · split_ifs at hready
    · obtain rfl := Prepared.ready.inj hready
      exact hinputs _
    · obtain rfl := Prepared.ready.inj hready
      exact hinputs _

theorem analyze_fitting (hmem : entry ∈ defaultTools) (hfit : Fitting entry args)
    (hready : prepareAnalyze h w s args = .ready args') : Fitting entry args' := by
  have hsource (source : String) : Fitting entry (args.set "source" (.str source)) :=
    hfit.set (admits_text hmem (by decide) source) Json.noConfusion
  unfold prepareAnalyze at hready
  split at hready
  · obtain rfl := Prepared.ready.inj hready
    exact hfit.setPath hmem (by decide) _ _
  · dsimp only at hready
    generalize (if truthyAt args "source" = true then h.textAt args "source" "" else "") = source at hready
    generalize (if truthy (currentStructure s) = true then h.text (currentStructure s) else source) = chained
      at hready
    split at hready
    · obtain rfl := Prepared.ready.inj hready
      exact hsource _
    split at hready
    · split at hready
      · cases hready
      · obtain rfl := Prepared.ready.inj hready
        exact hfit
      · split at hready
        · cases hready
        · obtain rfl := Prepared.ready.inj hready
          exact hsource _
        · obtain rfl := Prepared.ready.inj hready
          exact hfit
    · obtain rfl := Prepared.ready.inj hready
      exact hfit

theorem lastEntries_mem {ledger : List Json} {n : ℤ} {e : Json} (he : e ∈ lastEntries ledger n) :
    e ∈ ledger := by
  unfold lastEntries at he
  split_ifs at he <;> exact List.mem_of_mem_drop he

theorem object_list_valid {items : List Json} (h : ∀ e ∈ items, ∃ fields, e = .obj fields) :
    (Schema.listOf .object).valid (.arr items) = true := by
  have hitems : itemsValid (some Schema.object) items = true := by
    rw [itemsValid, List.all_eq_true]
    intro e he
    obtain ⟨fields,rfl⟩ := h e he
    rfl
  rw [Schema.listOf, Schema.valid, itemsIn, hitems]
  rfl

theorem compare_fitting (hplain : s.Plain) (hfit : Fitting compareTool args)
    (hready : prepareCompare h s args = .ready args') : Fitting compareTool args' := by
  unfold prepareCompare at hready
  dsimp only at hready
  split at hready
  · cases hready
  · split_ifs at hready
    · obtain rfl := Prepared.ready.inj hready
      refine hfit.set (admits_of_declared rfl (object_list_valid fun e he => ?_)) Json.noConfusion
      exact hplain.ledger e (lastEntries_mem he)
    · obtain rfl := Prepared.ready.inj hready
      exact hfit

/-- The preparation of a step that needs no energies keeps its arguments fitting. -/
theorem prepareOther_fitting (hmem : entry ∈ defaultTools) (hplain : s.Plain) (hfit : Fitting entry args)
    (heads : entry.id ≠ "thermo.eads") (hformation : entry.id ≠ "thermo.formation")
    (hready : prepareOther h w s args entry.id = .ready args') : Fitting entry args' := by
  unfold prepareOther at hready
  simp only [heads,hformation,decide_false,Bool.false_and,Bool.false_eq_true,if_false] at hready
  split at hready
  · exact analyze_fitting hmem hfit hready
  split at hready
  · next hcompare =>
    rw [Bool.and_eq_true, decide_eq_true_eq] at hcompare
    obtain rfl := eq_of_id hmem hcompare.1 (rfl : _ = some compareTool)
    exact compare_fitting hplain hfit hready
  split at hready
  · have houtput := hfit.setPath hmem (by decide : "output" ∈ preparedKeys) h.toShell "input.in".toList
    obtain rfl := Prepared.ready.inj hready
    split
    · next hbuilt =>
      rw [Bool.and_eq_true] at hbuilt
      rcases hplain.built with hnull | ⟨path,hpath⟩
      · rw [hnull] at hbuilt
        cases hbuilt.2
      · rw [hpath]
        exact houtput.set (admits_text hmem (by decide) path) Json.noConfusion
    · exact houtput
  split at hready
  · obtain rfl := Prepared.ready.inj hready
    exact hfit.setPath hmem (by decide) _ _
  split at hready
  · obtain rfl := Prepared.ready.inj hready
    exact (hfit.setPath hmem (by decide) _ _).setPath hmem (by decide) _ _
  split at hready
  · next hparse =>
    obtain rfl := eq_of_id hmem hparse (rfl : _ = some resultParseTool)
    obtain rfl := Prepared.ready.inj hready
    exact (hfit.setDefault (admits_text hmem (by decide) _)).setDefault hplain.resultType
  split at hready
  · next hverify =>
    obtain rfl := eq_of_id hmem hverify (rfl : _ = some resultVerifyTool)
    obtain rfl := Prepared.ready.inj hready
    exact (hfit.setDefault (admits_text hmem (by decide) _)).setDefault hplain.taskType
  split at hready
  · obtain rfl := Prepared.ready.inj hready
    exact hfit.set (admits_text hmem (by decide) _) Json.noConfusion
  · obtain rfl := Prepared.ready.inj hready
    exact hfit

/-- The preparation of a step keeps its arguments fitting. -/
theorem prepareStep_fitting (hmem : entry ∈ defaultTools) (hplain : s.Plain) (hfit : Fitting entry args)
    (heads : entry.id ≠ "thermo.eads") (hformation : entry.id ≠ "thermo.formation")
    (hready : prepareStep h w s args entry.id = .ready args') : Fitting entry args' := by
  rcases toolOf_spec entry.id with htool | ⟨b,htool,_⟩ | ⟨htool,hid⟩ | htool
  · rw [prepareStep, htool] at hready
    obtain rfl := Prepared.ready.inj hready
    exact hfit.setPath hmem (by decide) _ _
  · rw [prepareStep, htool] at hready
    exact builder_fitting hmem hfit hready
  · obtain rfl := eq_of_id hmem hid (rfl : _ = some graphRunTool)
    rw [prepareStep, htool] at hready
    dsimp only at hready
    split_ifs at hready
    exact graphRun_fitting hfit hready
  · rw [prepareStep, htool] at hready
    exact prepareOther_fitting hmem hplain hfit heads hformation hready

end Prepare

/-- The energy of a finished run: a number, and the number of atoms if it is known. -/
structure Energy.Reported (e : Energy) : Prop where
  energy : ∃ q, e.energyRy = .num q
  natoms : e.natoms = .null ∨ ∃ n : ℤ, e.natoms = .num n

section Thermo
variable {h : Host} {w : World} {s : SessionState} {args' : Dict}

theorem number_valid (q : ℚ) : Schema.number.valid (.num q) = true := rfl

theorem integer_valid (n : ℤ) : Schema.integer.valid (.num n) = true := by
  have hint : (n : ℚ).isInt = true := by simp [Rat.isInt]
  simp [Schema.integer,Schema.ofType,Schema.valid,JsonType.holds,hint,enumHolds,propertiesValid,requiredHolds,
    itemsValid]

/-- The three energies are all that an adsorption energy needs. -/
theorem eads_fitting (henergies : ∀ e ∈ s.scfEnergies, e.Reported) (hthree : 3 ≤ s.scfEnergies.length)
    (hready : prepareStep h w s [] "thermo.eads" = .ready args') : Fitting eadsTool args' := by
  replace hready : prepareEads h s [] = .ready args' := hready
  unfold prepareEads at hready
  split at hready
  · next m surface adsorbed rest hreverse =>
    have hall : ∀ e ∈ m :: surface :: adsorbed :: rest, e.Reported :=
      fun e he => henergies e (List.mem_reverse.mp (hreverse ▸ he))
    obtain ⟨⟨qm,hqm⟩,hnm⟩ := hall m (by simp)
    obtain ⟨⟨qs,hqs⟩,hns⟩ := hall surface (by simp)
    obtain ⟨⟨qa,hqa⟩,hna⟩ := hall adsorbed (by simp)
    have hbase : Fitting eadsTool ((((Dict.set [] "ry_a" adsorbed.energyRy).set "ry_s" surface.energyRy).set
        "ry_m" m.energyRy)) := by
      rw [hqm, hqs, hqa]
      constructor
      · have hnil : EntriesFit eadsTool [] := fun e he => by cases he
        exact ((hnil.set (admits_of_declared rfl (number_valid qa))).set
          (admits_of_declared rfl (number_valid qs))).set (admits_of_declared rfl (number_valid qm))
      · intro key hkey
        fin_cases hkey <;> exact ⟨_,rfl,Json.noConfusion⟩
    dsimp only at hready
    split_ifs at hready with htruthy
    · rw [Bool.and_eq_true, Bool.and_eq_true] at htruthy
      rcases hna with hna | ⟨na,hna⟩
      · rw [hna] at htruthy
        cases htruthy.1.1
      rcases hns with hns | ⟨ns,hns⟩
      · rw [hns] at htruthy
        cases htruthy.1.2
      rcases hnm with hnm | ⟨nm,hnm⟩
      · rw [hnm] at htruthy
        cases htruthy.2
      rw [hna, hns, hnm] at hready
      dsimp only [numberOf] at hready
      split_ifs at hready
      · obtain rfl := Prepared.ready.inj hready
        refine (hbase.set (admits_of_declared rfl ?_) Json.noConfusion).set
          (admits_of_declared rfl (integer_valid nm)) Json.noConfusion
        rw [← Int.cast_sub]
        exact integer_valid (na - ns)
      · obtain rfl := Prepared.ready.inj hready
        exact hbase
    · obtain rfl := Prepared.ready.inj hready
      exact hbase
  · next hshort =>
    exfalso
    have hlength : s.scfEnergies.reverse.length = s.scfEnergies.length := List.length_reverse
    rcases hreverse : s.scfEnergies.reverse with _ | ⟨a,_ | ⟨b,_ | ⟨c,rest⟩⟩⟩
    · rw [hreverse] at hlength
      simp at hlength
      omega
    · rw [hreverse] at hlength
      simp at hlength
      omega
    · rw [hreverse] at hlength
      simp at hlength
      omega
    · exact hshort a b c rest hreverse

/-- A formation energy needs one energy for the compound and one for each element. -/
theorem formation_fitting {formula : String} (henergies : ∀ e ∈ s.scfEnergies, e.Reported)
    (hlength : ((h.referenceElements formula).getD []).length + 1 ≤ s.scfEnergies.length)
    (hready : prepareStep h w s [("formula",.str formula)] "thermo.formation" = .ready args') :
    Fitting formationTool args' := by
  replace hready : prepareFormation h s [("formula",.str formula)] = .ready args' := hready
  unfold prepareFormation at hready
  rw [show h.textAt [("formula",.str formula)] "formula" "" = formula from rfl] at hready
  dsimp only at hready
  cases henergy : s.scfEnergies with
  | nil => simp [henergy] at hlength
  | cons compound rest =>
    rw [henergy] at hready hlength henergies
    dsimp only at hready
    obtain ⟨⟨q,hq⟩,_⟩ := henergies compound List.mem_cons_self
    rw [if_pos (by simpa using hlength)] at hready
    obtain rfl := Prepared.ready.inj hready
    rw [hq]
    constructor
    · have hformula : EntriesFit formationTool [("formula",.str formula)] := by
        intro e he
        obtain rfl := List.mem_singleton.mp he
        exact Or.inr (admits_of_declared rfl rfl)
      exact (hformula.set (admits_of_declared rfl (number_valid q))).set (admits_of_declared rfl rfl)
    · intro key hkey
      fin_cases hkey <;> exact ⟨_,rfl,Json.noConfusion⟩

end Thermo
end DftForge.Agent
