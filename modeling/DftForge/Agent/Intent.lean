import DftForge.Agent.Planning
import DftForge.Python.Text

/-! # Intent detection

`detect_intents`: keyword tables and regular expressions that turn a chat message into the
signals of the rule planner, and `extract_formula`.
-/
namespace DftForge.Agent
open DftForge.Runtime DftForge.Python DftForge.Engines DftForge.Library

/-- Everything the rule planner may need. The hint for a formula may come from the session
context and is null where there is none. -/
structure IntentSignals where
  materialHint : Option String
  pairTypes : Option String
  formulaHint : Json
  build2dKind : Option String
  dopantEl : Option String
  adsEl : Option String
  adsSite : Option String
  wantsAnalyze : Bool
  wantsImport : Bool
  wantsGenerate : Bool
  wantsBuild : Bool
  wantsSubmit : Bool
  wantsStatus : Bool
  wantsParse : Bool
  wantsVerify : Bool
  wantsLedger : Bool
  wantsDoctor : Bool
  wantsCompare : Bool
  wantsEads : Bool
  wantsFormation : Bool
  wants2d : Bool
  strongAnalyze : Bool
  graphTargets : List String
  hasStructureCtx : Bool
  hasJobCtx : Bool

section Tables

/-- `_ELEMENTS`. -/
def elementSymbols : List String := [
  "H","He","Li","Be","B","C","N","O","F","Ne","Na","Mg","Al","Si","P","S",
  "Cl","Ar","K","Ca","Sc","Ti","V","Cr","Mn","Fe","Co","Ni","Cu","Zn","Ga",
  "Ge","As","Se","Br","Kr","Rb","Sr","Y","Zr","Nb","Mo","Tc","Ru","Rh","Pd",
  "Ag","Cd","In","Sn","Sb","Te","I","Xe","Cs","Ba","La","Ce","Pr","Nd","Pm",
  "Sm","Eu","Gd","Tb","Dy","Ho","Er","Tm","Yb","Lu","Hf","Ta","W","Re","Os",
  "Ir","Pt","Au","Hg","Tl","Pb","Bi","Po","At","Rn","Fr","Ra","Ac","Th","Pa",
  "U","Np","Pu"]

/-- `_ZH_MATERIAL`. -/
def zhMaterial : List (String × String) :=
  [("硅","Si"),("铝","Al"),("氯化钠","NaCl"),("食盐","NaCl"),("氧化镁","MgO")]

/-- `_TRAD_TO_SIMP`. -/
def tradToSimp : List (Char × Char) := [
  ('態','态'),('帶','带'),('結','结'),('構','构'),('導','导'),('計','计'),
  ('摻','掺'),('對','对'),('較','较'),('區','区'),('驗','验'),('釋','释'),
  ('優','优'),('鬆','松'),('馳','弛'),('網','网'),('歷','历'),('錄','录'),
  ('診','诊'),('斷','断'),('環','环'),('層','层'),('維','维'),('們','们')]

/-- A row of `_MATERIAL_HINTS`. -/
structure MaterialHint where
  material : String
  pairTypes : String
  keys : List String
  needsBoundary : Bool

def materialHints : List MaterialHint := [
  ⟨"NaCl","Na-Cl",["nacl","氯化钠","clna"],false⟩,
  ⟨"MgO","Mg-O",["mgo","氧化镁","gomg"],false⟩,
  ⟨"Si","Si-Si",["si","硅"],true⟩,
  ⟨"Al","Al-Al",["al","铝"],true⟩]

def analyzeKeys : List String := [
  "键长","键能","bond","distance","距离","分析","analyze","info",
  "看看","查看结构","结构信息","原子","atoms","体积","volume",
  "晶胞","cell","neighbors","邻居","结构","structure"]

def importKeys : List String :=
  ["导入","import","读取","load","打开","open","加载","读取结构","导入结构"]

def generateKeys : List String := ["生成","generate","创建","create","做个","建一个"]

def buildKeys : List String := [
  "构建","build","生成","generate","输入","input","松弛","relax",
  "vc-relax","scf","bands","dos","态密度","带","计算类型","in文件",
  "qe输入","输入文件"]

def submitKeys : List String := ["提交","submit","运行","run","执行","execute","开始","提交计算"]

def statusKeys : List String := ["状态","status","进度","progress","查看","check","任务","job"]

def parseKeys : List String := ["解析","parse","结果","result","输出","output","读取结果"]

def verifyKeys : List String := ["验证","verify","校验","校验结果"]

def ledgerKeys : List String :=
  ["账本","ledger","历史","history","record","查询","query","记录","日志"]

def doctorKeys : List String :=
  ["环境","env","doctor","诊断","diagnose","依赖","dependencies","安装","software"]

def compareKeys : List String := ["对比","比较","区别","差异","差距","compare"," vs ","vs.","哪个更"]

def eadsKeys : List String := ["吸附能","adsorption energy","eads","e_ads"]

def formationKeys : List String := ["形成能","formation energy","formation enthalpy","生成能"]

def strongAnalyzeKeys : List String := ["键长","键能","bond","distance","距离","分析","analyze"]

/-- `_ALWAYS_2D`. -/
def always2d : List (String × String) :=
  [("石墨烯","graphene"),("graphene","graphene"),("氮化硼","bn"),("h-bn","bn"),("hbn","bn")]

/-- `_TMD_2D`. -/
def tmd2d : List (String × String) := [
  ("mos2","mos2"),("二硫化钼","mos2"),("ws2","ws2"),
  ("mose2","mose2"),("wse2","wse2"),("mote2","mote2"),("wte2","wte2")]

/-- `_GRAPH_TARGETS`. -/
def graphTargetTable : List (List String × String) := [
  (["能带","带结构","带隙","bands","band"],"t2_bands"),
  (["态密度","dos"],"t2_dos"),
  (["结构优化","晶格常数","弛豫","松弛","优化","vc-relax","vcrelax","vc_relax"],"t1_vc_relax")]

def genericCalcWords : List String := ["算","计算","跑","仿真","simulation"]

def words2d : List String := ["单层","monolayer","二维","2d"]

end Tables

/-- `any(k in text for k in keys)`. -/
def hasAny (keys : List String) (text : Text) : Bool := keys.any (contains text)

/-- The value of the first key in the text. -/
def firstIn (table : List (String × String)) (text : Text) : Option String :=
  (table.find? fun row => contains text row.1).map Prod.snd

/-- `message.lower().translate(_TRAD_TO_SIMP)`. -/
def normalized (message : Text) : Text := (lower message).map fun c => (tradToSimp.lookup c).getD c

section Expressions
open Regex

/-- `[a-z0-9]`. -/
def lowerAlnum (c : Char) : Bool := c.isLower || c.isDigit

/-- `_WORD_BOUNDARY`. -/
def wholeWord (k : String) : Re.Pattern :=
  chain [.anchor fun before _ => !before.any lowerAlnum,Re.lit k,
    .anchor fun _ after => !after.any lowerAlnum]

def upperLetter : Re.Pattern := .one Char.isUpper

def lowerLetter : Re.Pattern := .one Char.isLower

def spaces : Re.Pattern := many Re.space

/-- `r{0,n}`. -/
def upTo (r : Re.Pattern) : ℕ → Re.Pattern
  | 0 => .empty
  | n + 1 => opt (.seq r (upTo r n))

/-- `[A-Z][a-z]?`. -/
def symbol : Re.Pattern := .seq upperLetter (opt lowerLetter)

variable (u : Unicode)

/-- `[A-Za-z]{1,2}\d{0,3}`. -/
def formulaPart : Re.Pattern :=
  chain [.one Char.isAlpha,opt (.one Char.isAlpha),upTo (Re.digit u) 3]

/-- The tokens of `extract_formula`. -/
def formulaToken : Re.Pattern := .seq (formulaPart u) (many (.seq (opt Re.space) (formulaPart u)))

/-- `([A-Z][a-z]?)\s*掺杂`. -/
def dopantBefore : Re.Pattern := chain [.group 1 symbol,spaces,Re.lit "掺杂"]

/-- `掺杂\s*([A-Z][a-z]?)`. -/
def dopantAfter : Re.Pattern := chain [Re.lit "掺杂",spaces,.group 1 symbol]

/-- `([A-Z][a-z]?)[-\s]doped`. -/
def dopedWord : Re.Pattern :=
  chain [.group 1 symbol,.one fun c => c = '-' || isSpace c,Re.lit "doped"]

/-- `掺杂\s*([a-z])\b`. -/
def dopantLower : Re.Pattern := chain [Re.lit "掺杂",spaces,.group 1 lowerLetter,Re.boundary u]

/-- `([A-Z][a-z]?[A-Za-z0-9]*)\s*吸附`. -/
def adsorbateBefore : Re.Pattern :=
  chain [.group 1 (.seq symbol (many (.one Char.isAlphanum))),spaces,Re.lit "吸附"]

/-- `([a-z0-9]{2,3})\s*(?:on|@)\s*\w+`. -/
def adsorbateOn : Re.Pattern :=
  chain [.group 1 (chain [.one lowerAlnum,.one lowerAlnum,opt (.one lowerAlnum)]),spaces,
    .alt (Re.lit "on") (Re.lit "@"),spaces,plus (.one (isWordChar u))]

/-- `\b(o2|n2|h2|cl2|co|oh|no|h2o|co2|nh3)\s*吸附`. -/
def adsorbateMolecule : Re.Pattern :=
  chain [Re.boundary u,.group 1 ((["n2","h2","cl2","co","oh","no","h2o","co2","nh3"].map Re.lit).foldl
    .alt (Re.lit "o2")),spaces,Re.lit "吸附"]

/-- `\bbn\b`. -/
def bnWord : Re.Pattern := chain [Re.boundary u,Re.lit "bn",Re.boundary u]

/-- `re.search(...)`, and group 1. -/
def searchGroup (r : Re.Pattern) (text : Text) : Option Text := (search r text).map (·.group 1)

end Expressions

section Formula
variable (u : Unicode)

/-- `str.capitalize` of ASCII letters. -/
def capitalize : Text → Text
  | [] => []
  | c :: rest => c.toUpper :: rest.map Char.toLower

/-- The element and the count of a part, which is letters and then digits. -/
def partOf (part : Text) : Option Text :=
  let sym := part.takeWhile Char.isAlpha
  ([capitalize sym,sym.map Char.toUpper].find? fun probe => String.ofList probe ∈ elementSymbols).map
    (· ++ part.dropWhile Char.isAlpha)

/-- The formula of a token whose parts are all elements. -/
def formulaOf (token : Text) : Option Text :=
  (((Regex.findAll (formulaPart u) token).map Regex.Match.whole).mapM partOf).bind fun syms =>
    if syms = [] || 4 < syms.length then none else some syms.flatten

/-- `best`: the first of the longest formulas. -/
def longest : Option Text → List Text → Option Text
  | best, [] => best
  | none, formula :: rest => longest (some formula) rest
  | some best, formula :: rest => longest (some (if best.length < formula.length then formula else best)) rest

/-- `extract_formula`. -/
def extractFormula (message : Text) : Option String :=
  firstIn zhMaterial message <|>
    (longest none (((Regex.findAll (formulaToken u) message).map Regex.Match.whole).filterMap
      (formulaOf u))).map String.ofList

end Formula

section Detect
variable (u : Unicode) (message : Text) (ctx : Dict)

/-- Whether a material's keyword is in the text. -/
def MaterialHint.hits (hint : MaterialHint) (text : Text) : Bool :=
  hint.keys.any fun k =>
    if hint.needsBoundary then (Regex.search (wholeWord k) text).isSome else contains text k

def materialRow : Option MaterialHint := materialHints.find? (·.hits (normalized message))

/-- `material_hint or extract_formula(message) or ctx.get("last_formula") or ctx.get("last_material")`. -/
def formulaHint : Json :=
  match ((materialRow message).map MaterialHint.material).orElse fun _ => extractFormula u message with
  | some formula => .str formula
  | none => pyOr (field ctx "last_formula") (field ctx "last_material")

/-- The monolayer that is named; a transition metal dichalcogenide also has a bulk form. -/
def build2dKind : Option String :=
  let lower := normalized message
  firstIn always2d lower <|>
    if (Regex.search (bnWord u) lower).isSome then some "bn"
    else if hasAny words2d lower || contains message "吸附" || contains lower "adsorb" then firstIn tmd2d lower
    else none

/-- The dopant; a single letter is taken in upper case. -/
def dopantEl : Option String :=
  let el := searchGroup dopantBefore message <|> searchGroup dopantAfter message <|>
    searchGroup dopedWord (normalized message) <|> searchGroup (dopantLower u) message
  el.map fun el => String.ofList (if el.length = 1 then el.map Char.toUpper else el)

def adsEl : Option String :=
  let lower := normalized message
  (searchGroup adsorbateBefore message <|> searchGroup (adsorbateOn u) lower <|>
    searchGroup (adsorbateMolecule u) lower).map String.ofList

def adsSite : String :=
  let lower := normalized message
  if contains lower "bridge" || contains message "桥" then "bridge"
  else if contains lower "hollow" || contains message "洞" || contains message "六元环" then "hollow"
  else "top"

/-- `detect_intents`. -/
def detectIntents : IntentSignals :=
  let lower := normalized message
  let compare := hasAny compareKeys lower
  let analyze := hasAny analyzeKeys lower
  let strong := hasAny strongAnalyzeKeys lower
  let imports := hasAny importKeys lower
  let generate := hasAny generateKeys lower && !contains lower "build a"
  -- an analysis submits, builds, parses and verifies nothing
  let build := hasAny buildKeys lower && !generate && !analyze
  let submit := hasAny submitKeys lower &&
    !(contains lower "计算" && !hasAny ["提交","运行","run","execute"] lower) && !compare && !analyze
  let status := hasAny statusKeys lower && !compare
  let ledger := hasAny ledgerKeys lower
  let doctor := hasAny doctorKeys lower
  let targets := (graphTargetTable.filter fun row => hasAny row.1 lower).map Prod.snd
  { materialHint := (materialRow message).map MaterialHint.material
    pairTypes := (materialRow message).map MaterialHint.pairTypes
    formulaHint := formulaHint u message ctx
    build2dKind := build2dKind u message
    dopantEl := dopantEl u message
    adsEl := adsEl u message
    adsSite := (adsEl u message).map fun _ => adsSite message
    wantsAnalyze := analyze
    wantsImport := imports
    wantsGenerate := generate
    wantsBuild := build
    wantsSubmit := submit
    wantsStatus := status
    wantsParse := hasAny parseKeys lower && !compare && !analyze
    wantsVerify := hasAny verifyKeys lower && !analyze
    wantsLedger := ledger
    wantsDoctor := doctor
    wantsCompare := compare
    wantsEads := hasAny eadsKeys lower
    wantsFormation := hasAny formationKeys lower
    wants2d := hasAny words2d lower
    strongAnalyze := strong
    graphTargets :=
      if targets.isEmpty && hasAny genericCalcWords lower && !strong &&
          !(imports || generate || build || status || ledger || doctor) then ["t1_vc_relax"]
      else targets
    hasStructureCtx := truthy (field ctx "last_structure_file") || truthy (field ctx "last_structure_source") ||
      truthy (field ctx "last_input_file")
    hasJobCtx := truthy (field ctx "last_job_id") }

end Detect

example : extractFormula {} "算CaTiO3的能带".toList = some "CaTiO3" := by decide

end DftForge.Agent
