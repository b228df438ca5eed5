import DftForge.Agent.Intent
import DftForge.Agent.StepLoop
import DftForge.Tools.Registry

/-! # The rule planner

`RulePlanner.plan` with all its branches: what the session context and the signals of
`detect_intents` make of a message. The element list of a formula is open, as in
`prepare_step_args`.
-/
namespace DftForge.Agent
open DftForge.Runtime DftForge.Python DftForge.Engines DftForge.Library DftForge.Tools

section Tables

/-- `_ADSORBATE_MOLECULE`. -/
def adsorbateMolecules : List (String × String) := [
  ("O","o2"),("N","n2"),("H","h2"),("Cl","cl2"),("F","f2"),
  ("CO","co"),("OH","oh"),("NO","no"),("H2O","h2o"),("CO2","co2"),("NH3","nh3")]

/-- `REFERENCE_PHASES`, by element. -/
def referencePhases : List String := [
  "Si","Ge","C","Sn","Na","K","Mo","W","V","Nb","Ta","Cr","Fe","Ca","Al","Ni","Cu","Ag","Au","Pt",
  "Pd","Pb","Ti","Zr","Hf","Mg","Zn","Co","O","N","H","Cl","F"]

/-- `_2D_KIND_NAMES`. -/
def kindNames : List (String × String) := [
  ("graphene","石墨烯"),("bn","h-BN"),("mos2","MoS2"),("ws2","WS2"),("mose2","MoSe2"),
  ("wse2","WSe2"),("mote2","MoTe2"),("wte2","WTe2")]

/-- The labels of the planner, which lack two of the kinds. -/
def kindLabels : List (String × String) := kindNames.take 6

def targetLabels : List (String × String) :=
  [("t2_bands","能带结构"),("t2_dos","态密度"),("t1_vc_relax","结构优化")]

/-- `table.get(key, key)`. -/
def labelled (table : List (String × String)) (key : String) : String := (table.lookup key).getD key

end Tables

def upperText (s : String) : String := String.ofList (s.toList.map Char.toUpper)

def lowerText (s : String) : String := String.ofList (s.toList.map Char.toLower)

/-- A text that may be `None`. -/
def optText : Option String → Json
  | some s => .str s
  | none => .null

/-- `", ".join(...)`. -/
def commaJoined (xs : List String) : String := ", ".intercalate xs

def planStep (toolId : String) (args : Dict) (description : String) : PlanStep := ⟨some toolId,args,description⟩

/-- A `graph.run` step. -/
def runStepOf (templateId : String) (inputs : Dict) (description : String) : PlanStep :=
  planStep "graph.run" [("template_id",.str templateId),("inputs",.obj inputs)] description

/-- The reply that asks for the numbers of the last run. -/
def confirmation : Re.Pattern :=
  Regex.chain [spaces,
    (["可以","好的","好","继续","是的","要","请","提取","拿出来"].map Re.lit).foldl .alt (Re.lit "需要"),
    spaces,Regex.opt (Re.oneOf "。！!,.，"),spaces]

/-- `re.fullmatch`. -/
def fullMatch (r : Re.Pattern) (text : Text) : Bool := (Regex.run r ⟨[],text,[]⟩).any (·.after.isEmpty)

section Ledger
variable (h : Host) (ctx : Dict)

/-- `ctx.get("ledger") or []`. -/
def ledgerOf : List Json := itemsIn (field ctx "ledger")

def metricOf (lower : Text) : String :=
  if hasAny ["能量","energy"] lower then "energy"
  else if hasAny ["能带","带隙","带结构","band"] lower then "band_gap"
  else "auto"

/-- `str(e.get("label") or e.get("material") or "计算")`. -/
def entryLabel (e : Json) : String :=
  h.text (pyOr (pyOr (field (fieldsIn e) "label") (field (fieldsIn e) "material")) (.str "计算"))

def knownSystems : String :=
  if (ledgerOf ctx).isEmpty then "还没有任何计算记录" else "、".intercalate ((ledgerOf ctx).map (entryLabel h))

/-- The comparison intent: the session ledger first. -/
def comparePlan (sig : IntentSignals) (lower : Text) : Option (List PlanStep) :=
  if !sig.wantsCompare then none
  else if 2 ≤ (ledgerOf ctx).length then
    some [planStep "analysis.compare" [("use_last",.num 2),("metric",.str (metricOf lower))]
      "对比本会话最近两次计算"]
  else if sig.build2dKind.isNone && sig.dopantEl.isNone && !truthy sig.formulaHint && sig.materialHint.isNone then
    some [planStep "help" [("topic",.str "compare")]
      ("对比需要先有两个体系的计算结果。本会话已有: " ++ knownSystems h ctx ++
        "。请先补算另一个体系（例如'算纯石墨烯的能带'），再说'对比'即可。")]
  else none

end Ledger

section Thermo
variable (h : Host) (sig : IntentSignals)

/-- The adsorbate, oxygen where none is named. -/
def adsSpecies : String := sig.adsEl.getD "O"

/-- The gas molecule of an adsorbate, or one that the message names. -/
def moleculeKind (species : String) (lower : Text) : Option String :=
  adsorbateMolecules.lookup (upperText species) <|> adsorbateMolecules.lookup (lowerText species) <|>
    ["co2","h2o","nh3","cl2","o2","n2","h2","co"].find? fun mk =>
      contains (lower.filter fun c => c ≠ ' ' && c ≠ '-') mk

def isSingleAtom (species : String) : Bool :=
  species.length ≤ 2 && decide (String.ofList (capitalize species.toList) ∈ elementSymbols)

/-- The seven steps of an adsorption energy. -/
def eadsSteps (kind molecule species site : String) : List PlanStep := [
  planStep "structure.build2d" [("kind",.str kind),("supercell",.str "3x3"),
      ("adsorb",.obj [("element",.str species),("site",.str site)])]
    ("构建吸附体系: " ++ species ++ "@" ++ kind ++ " 3x3 超胞(" ++ site ++ "位)"),
  runStepOf "t0_scf" [] "吸附体系单点能 E(surf+ads)",
  planStep "structure.build2d" [("kind",.str kind),("supercell",.str "3x3")]
    ("构建纯表面: " ++ kind ++ " 3x3 超胞"),
  runStepOf "t0_scf" [] "纯表面单点能 E(surf)",
  planStep "structure.molecule" [("kind",.str molecule)] ("构建气体分子参考 " ++ upperText molecule),
  runStepOf "t0_scf" [] "分子单点能 E(mol)",
  planStep "thermo.eads" [] "计算吸附能 E_ads = E(surf+ads) − E(surf) − E(mol)"]

/-- The adsorption energy on a monolayer. -/
def eadsPlan (lower : Text) : Option (List PlanStep) :=
  if !sig.wantsEads then none
  else match sig.build2dKind, moleculeKind (adsSpecies sig) lower with
    | some kind, some molecule =>
      if !isSingleAtom (adsSpecies sig) then
        some [planStep "help" [("topic",.str "eads")]
          ("分子吸附（" ++ adsSpecies sig ++ "）的多原子建模暂不支持；当前 E_ads 闭环支持" ++
            "单原子吸附（O/H/N/Cl，气相参考 O₂/H₂/N₂/Cl₂）。可先算原子吸附能。")]
      else some (eadsSteps kind molecule (adsSpecies sig) (sig.adsSite.getD "top"))
    | _, _ => none

/-- `sig.formula_hint or sig.material_hint`. -/
def composition : Json := pyOr sig.formulaHint (optText sig.materialHint)

def formationSteps (comp : String) (els : List String) : List PlanStep :=
  runStepOf "t0_scf" [("material",.str comp)] (comp ++ " 化合物单点能") ::
    els.flatMap (fun el => [
      planStep "structure.reference" [("element",.str el)] ("构建 " ++ el ++ " 元素参考态"),
      runStepOf "t0_scf" [] (el ++ " 参考态单点能")]) ++
    [planStep "thermo.formation" [("formula",.str comp)] ("计算 " ++ comp ++ " 形成能")]

/-- The formation energy of a compound. -/
def formationPlan : Option (List PlanStep) :=
  if !(sig.wantsFormation && truthy (composition sig)) then none
  else
    let comp := h.text (composition sig)
    let els := (h.referenceElements comp).getD []
    let unsupported := els.filter fun e => e ∉ referencePhases
    if !unsupported.isEmpty then
      some [planStep "help" [("topic",.str "formation")]
        ("暂无法计算 " ++ comp ++ " 的形成能：缺少元素参考态（" ++ commaJoined unsupported ++ "）。" ++
          "当前支持的元素: " ++ commaJoined (referencePhases.mergeSort fun a b => decide (a ≤ b)))]
    else some (formationSteps comp els)

end Thermo

section Build
variable (h : Host) (sig : IntentSignals)

/-- The arguments of a monolayer with its dopant and adsorbate. -/
def build2dArgs (kind : String) : Dict :=
  [("kind",Json.str kind)] ++
    (if sig.dopantEl.isSome || sig.adsEl.isSome then [("supercell",.str "3x3")] else []) ++
    (sig.dopantEl.elim [] fun el => [("dopants",.arr [.obj [("index",.num 0),("element",.str el)]])]) ++
    (sig.adsEl.elim [] fun el =>
      [("adsorb",.obj [("element",.str el),("site",.str (sig.adsSite.getD "top"))])])

def build2dDescription (kind : String) : String :=
  "构建" ++ labelled kindLabels kind ++ "单层" ++ (sig.dopantEl.elim "" fun el => el ++ "掺杂") ++
    (sig.adsEl.elim "" fun el => el ++ "吸附(" ++ sig.adsSite.getD "None" ++ ")")

/-- The pristine monolayer. -/
def monolayerStep (kind : String) : PlanStep :=
  planStep "structure.build2d" [("kind",.str kind)] ("构建" ++ labelled kindLabels kind ++ "单层")

/-- The builder of a two-dimensional or doped structure. -/
def structureStep : List PlanStep :=
  match sig.build2dKind, sig.dopantEl with
  | some kind, _ => [planStep "structure.build2d" (build2dArgs sig kind) (build2dDescription sig kind)]
  | none, some el =>
    if truthy (composition sig) then
      [planStep "structure.dope" [("source",composition sig),("element",.str el),("supercell",.str "2x2x2")]
        ("构建" ++ el ++ "掺杂" ++ h.text (composition sig) ++ "超胞")]
    else []
  | none, none => []

/-- The name of the system, its modification included. -/
def systemName : String :=
  match sig.build2dKind, sig.dopantEl, sig.adsEl with
  | some kind, some el, _ => el ++ "掺杂" ++ labelled kindNames kind
  | some kind, none, some el => labelled kindNames kind ++ "(" ++ el ++ "吸附)"
  | some kind, none, none => labelled kindNames kind
  | none, el, _ => el.getD "None" ++ "掺杂" ++ (if truthy sig.formulaHint then h.text sig.formulaHint else "")

/-- A run for each target, of the structure that was built before or of a material. -/
def targetRuns (name : String) (inputs : Dict) : List PlanStep :=
  sig.graphTargets.map fun tid => runStepOf tid inputs (name ++ " " ++ labelled targetLabels tid)

/-- Two-dimensional and doped structures: built first, then computed. -/
def buildPlan : Option (List PlanStep) :=
  if (sig.build2dKind.isSome || sig.dopantEl.isSome) && !sig.strongAnalyze && !sig.wantsImport &&
      !sig.wantsGenerate && !(sig.wantsAnalyze && sig.graphTargets.isEmpty) then
    if (structureStep h sig).isEmpty then none
    else some (structureStep h sig ++ targetRuns sig (systemName h sig) [])
  else none

/-- The full computation of a formula. -/
def graphPlan : Option (List PlanStep) :=
  if !sig.graphTargets.isEmpty && truthy sig.formulaHint && !sig.strongAnalyze &&
      !(sig.wantsImport || sig.wantsGenerate) then
    some (targetRuns sig (h.text sig.formulaHint) [("material",sig.formulaHint)])
  else none

end Build

section Simple
variable (h : Host) (message : Text) (ctx : Dict) (sig : IntentSignals) (lower : Text)

/-- `ctx.get("last_structure_file") or ctx.get("last_structure_source")`. -/
def currentSource : Json := pyOr (field ctx "last_structure_file") (field ctx "last_structure_source")

def analyzeStep (source : Json) : PlanStep :=
  planStep "structure.analyze" [("source",source),("pair_types",optText sig.pairTypes)] "Analyze structure"

def generateStep (source : Json) : PlanStep :=
  planStep "structure.generate" [("source",source)] ("Generate " ++ h.text source ++ " structure")

def analyzeSteps : List PlanStep :=
  if truthy (currentSource ctx) then [analyzeStep sig (currentSource ctx)]
  else match sig.build2dKind with
    | some kind => [monolayerStep kind,analyzeStep sig (.str "__generated__")]
    | none =>
      if sig.wantsGenerate || sig.materialHint.isSome || truthy sig.formulaHint then
        [generateStep h (pyOr (pyOr (optText sig.materialHint) sig.formulaHint) (.str "Si")),
          analyzeStep sig (.str "__generated__")]
      else [analyzeStep sig (.str "tests/fixtures/POSCAR_Si")]

def importSteps : List PlanStep :=
  if sig.hasStructureCtx then []
  else [planStep "structure.import" [("source",.str (sig.materialHint.getD "tests/fixtures/POSCAR_Si"))]
    "Import structure"]

def generateSteps : List PlanStep :=
  match sig.build2dKind with
  | some kind => [monolayerStep kind]
  | none => [generateStep h (.str (sig.materialHint.getD "Si"))]

/-- The first intent about structures. -/
def structureSteps : List PlanStep :=
  if sig.wantsAnalyze then analyzeSteps h ctx sig
  else if sig.wantsImport then importSteps sig
  else if sig.wantsGenerate then generateSteps h sig
  else []

def calcType : String :=
  if hasAny ["vc-relax","relax","松弛","vc_relax"] lower then "vc-relax"
  else if hasAny ["bands","带"] lower then "bands"
  else if hasAny ["dos","态密度"] lower then "dos"
  else "scf"

def inputStep : PlanStep :=
  let kind := calcType lower
  let material := sig.materialHint.getD "Si"
  if truthy (currentSource ctx) then
    planStep "input.build" [("type",.str kind),("structure",currentSource ctx),("structure_format",.str "auto")]
      ("Build " ++ kind ++ " input from structure")
  else
    planStep "input.build" [("type",.str kind),("material",.str material)]
      ("Build " ++ kind ++ " input for " ++ material)

def submitStep : PlanStep :=
  planStep "job.submit" [("input",pyOr (field ctx "last_input_file") (.str "input.in")),("backend",.str "local")]
    "Submit job"

/-- The last job, or the last word of the message. -/
def jobId : Json :=
  pyOr (field ctx "last_job_id") (.str (((words message).getLast?.map String.ofList).getD "local_default"))

def statusStep : PlanStep := planStep "job.status" [("job_id",jobId message ctx)] "Check job status"

def outputFile : Json := pyOr (field ctx "last_output_file") (.str "input.in")

def parseStep : PlanStep :=
  planStep "result.parse"
    [("input",outputFile ctx),("type",(ctx.get? "last_result_type").getD (.str "vc-relax"))]
    "Parse result"

def verifyStep : PlanStep :=
  planStep "result.verify" [("input",outputFile ctx),("task_type",(ctx.get? "last_task_type").getD (.str "T1"))]
    "Verify result"

def ledgerStep : PlanStep := planStep "ledger.query" [("limit",.num 20)] "Query ledger"

def doctorStep : PlanStep := planStep "doctor" [] "Check environment"

/-- `[x] if wanted else []`. -/
def wanted (want : Bool) (x : PlanStep) : List PlanStep := if want then [x] else []

/-- The steps of the simple intents. -/
def simpleSteps : List PlanStep :=
  structureSteps h ctx sig ++ wanted sig.wantsBuild (inputStep ctx sig lower) ++
    wanted sig.wantsSubmit (submitStep ctx) ++ wanted sig.wantsStatus (statusStep message ctx) ++
    wanted sig.wantsParse (parseStep ctx) ++ wanted sig.wantsVerify (verifyStep ctx) ++
    wanted sig.wantsLedger ledgerStep ++ wanted sig.wantsDoctor doctorStep

def simplePlan : List PlanStep :=
  if (simpleSteps h message ctx sig lower).isEmpty then [planStep "help" [] "Show help"]
  else simpleSteps h message ctx sig lower

end Simple

section Plan
variable (h : Host) (u : Unicode) (message : Text) (ctx : Dict)

/-- A bare confirmation after a run. -/
def confirms : Bool := truthy (field ctx "last_run_id") && fullMatch confirmation message

/-- `RulePlanner.plan`. -/
def rulePlan : List PlanStep :=
  if confirms message ctx then
    [planStep "graph.status" [("run_id",field ctx "last_run_id")] "读取上一次计算的详细输出并提取关键数值"]
  else
    let sig := detectIntents u message ctx
    let lower := lower message
    (comparePlan h ctx sig lower <|> eadsPlan sig lower <|> formationPlan h sig <|> buildPlan h sig <|>
      graphPlan h sig).getD (simplePlan h message ctx sig lower)

end Plan
end DftForge.Agent
