import DftForge.Tools.Schema

/-! # The registered tools and the execution boundary

The argument schemas of the tools that `register_default_tools` and
`register_graph_tools` register, and `_schema_violation`, with which the registry refuses
arguments. Texts that only describe a tool are left out.
-/
namespace DftForge.Tools
open DftForge.Runtime DftForge.Engines

/-- A registered tool and the schema of its arguments. -/
structure ToolSchema where
  id : String
  /-- `input_schema`, if it is a dictionary that is not empty. -/
  inputSchema : Option Schema

namespace Schema

def text : Schema := ofType .string

def number : Schema := ofType .number

def integer : Schema := ofType .integer

def boolean : Schema := ofType .boolean

def object : Schema := ofType .object

def structureFormat : Schema := oneOf ["cif","poscar","xyz","qe_input","explicit"]

def backend : Schema := oneOf ["local","ssh"]

end Schema

/-- A tool with a record of arguments. -/
def ToolSchema.of (id : String) (properties : List (String × Schema)) (required : List String := []) :
    ToolSchema :=
  ⟨id,some (.record properties required)⟩

section Schemas
open Schema

def generateTool : ToolSchema := .of "structure.generate" [("source",text),("output",text)] ["source"]

/-- The dopants may be bare element symbols. -/
def dopantSchema : Schema :=
  .mk [.object,.string] none [("index",integer),("element",text)] [] none

def adsorbSchema : Schema :=
  record [("element",text),("site",oneOf ["top","bridge","hollow"]),("height",number)]

def build2dTool : ToolSchema := .of "structure.build2d" [
  ("kind",oneOf ["graphene","bn","mos2","ws2","mose2","wse2","mote2","wte2"]),
  ("supercell",text),("vacancy",integer),("dopants",listOf dopantSchema),("adsorb",adsorbSchema),
  ("height",number),("vacuum",number),("output",text)] ["kind"]

def dopeTool : ToolSchema := .of "structure.dope" [
  ("source",text),("element",text),("supercell",text),("index",integer),("output",text)] ["source","element"]

def moleculeTool : ToolSchema := .of "structure.molecule" [
  ("kind",oneOf ["o2","n2","h2","cl2","co","oh","no","h2o","co2","nh3"]),
  ("box",number),("output",text)] ["kind"]

def referenceTool : ToolSchema := .of "structure.reference" [("element",text),("output",text)] ["element"]

def compareTool : ToolSchema := .of "analysis.compare" [
  ("entries",listOf object),("use_last",integer),("metric",oneOf ["band_gap","energy","auto"])]

def eadsTool : ToolSchema := .of "thermo.eads" [
  ("ry_a",number),("ry_s",number),("ry_m",number),("nat_a",integer),("nat_mol",integer)] ["ry_a","ry_s","ry_m"]

def formationTool : ToolSchema := .of "thermo.formation" [
  ("formula",text),("compound_energy",number),("refs",object)] ["formula","compound_energy","refs"]

def importTool : ToolSchema := .of "structure.import" [
  ("source",text),("format",structureFormat),("fractional",boolean),("min_nn",number),
  ("write_cif",text),("output",text)] ["source"]

def analyzeTool : ToolSchema := .of "structure.analyze" [
  ("source",text),("format",structureFormat),("fractional",boolean),("min_nn",number),
  ("pair_types",text),("output",text)] ["source"]

def inputBuildTool : ToolSchema := .of "input.build" [
  ("structure",text),("structure_format",text),("fractional",boolean),("material",text),
  ("type",oneOf ["scf","vc-relax","relax","bands","dos"]),("prefix",text),("ecutwfc",number),
  ("ecutrho",number),("kpoints",listOf integer),("conv_thr",number),("nstep",integer),
  ("pseudo_dir",text),("output",text)] ["type"]

def jobSubmitTool : ToolSchema := .of "job.submit" [
  ("input",text),("backend",backend),("backend_config",object),("output",text)] ["input"]

def jobStatusTool : ToolSchema := .of "job.status" [
  ("job_id",text),("backend",backend),("backend_config",object),("output",text)] ["job_id"]

def resultParseTool : ToolSchema := .of "result.parse" [
  ("input",text),("type",oneOf ["vc-relax","scf","nscf","bands","dos"]),("xml_path",text),
  ("output",text)] ["input","type"]

def resultVerifyTool : ToolSchema := .of "result.verify" [
  ("input",text),("task_type",oneOf ["T1","T2"]),("output",text)] ["input"]

def ledgerQueryTool : ToolSchema := .of "ledger.query" [
  ("database",text),("task_id",text),("limit",integer),("output",text)]

def doctorTool : ToolSchema := .of "doctor" [("output",text)]

def graphTemplatesTool : ToolSchema := .of "graph.templates" [("workdir",text)]

def graphRunTool : ToolSchema := .of "graph.run" [
  ("template_id",text),("inputs",object),("workdir",text)] ["template_id"]

def graphStatusTool : ToolSchema := .of "graph.status" [("run_id",text),("workdir",text)]

end Schemas

/-- `register_default_tools`. -/
def defaultTools : List ToolSchema := [
  generateTool,build2dTool,dopeTool,moleculeTool,referenceTool,compareTool,eadsTool,formationTool,
  importTool,analyzeTool,inputBuildTool,jobSubmitTool,jobStatusTool,resultParseTool,resultVerifyTool,
  ledgerQueryTool,doctorTool,graphTemplatesTool,graphRunTool,graphStatusTool]

/-- `registry.get(tool_id)`. -/
def getTool (id : String) : Option ToolSchema := defaultTools.find? (·.id = id)

theorem getTool_id {id : String} {entry : ToolSchema} (h : getTool id = some entry) :
    entry ∈ defaultTools ∧ entry.id = id :=
  ⟨List.mem_of_find?_eq_some h,by simpa using List.find?_some h⟩

theorem getTool_of_mem {entry : ToolSchema} (h : entry ∈ defaultTools) : getTool entry.id = some entry := by
  fin_cases h <;> rfl

theorem id_ne_empty {entry : ToolSchema} (h : entry ∈ defaultTools) : entry.id ≠ "" := by
  fin_cases h <;> decide

def isNull : Json → Bool
  | .null => true
  | _ => false

theorem isNull_iff {v : Json} : isNull v = true ↔ v = .null := by cases v <;> simp [isNull]

/-- `{k: v for k, v in arguments.items() if v is not None}`; an entry counts by the value
of its key. -/
def dropNull (arguments : Dict) : Dict :=
  arguments.filter fun entry => !isNull ((arguments.get? entry.1).getD .null)

theorem get?_filter_of_get? {p : String → Bool} {d : Dict} {key : String} :
    Dict.get? (d.filter fun entry => p entry.1) key = if p key then d.get? key else none := by
  induction d with
  | nil => simp [Dict.get?]
  | cons entry rest ih =>
    obtain ⟨k,v⟩ := entry
    unfold Dict.get? at ih ⊢
    by_cases hk : key = k
    · subst hk
      by_cases hp : p key = true
      · simp [hp]
      · simpa [List.filter_cons,hp] using ih
    · have hne : (key == k) = false := by simpa using hk
      rw [List.lookup_cons, hne, ← ih, List.filter_cons]
      split
      · rw [List.lookup_cons, hne]
      · rfl

theorem get?_dropNull {arguments : Dict} {key : String} {v : Json} :
    (dropNull arguments).get? key = some v ↔ arguments.get? key = some v ∧ v ≠ .null := by
  rw [dropNull, get?_filter_of_get? (p := fun k => !isNull ((arguments.get? k).getD .null))]
  cases h : arguments.get? key with
  | none => simp
  | some w =>
    by_cases hw : w = .null
    · subst hw
      simp only [Option.getD_some,isNull,Bool.not_true,Bool.false_eq_true,if_false,reduceCtorEq,
        Option.some.injEq,false_iff,not_and,not_not]
      exact Eq.symm
    · have hnot : isNull w = false := Bool.eq_false_iff.mpr fun h => hw (isNull_iff.mp h)
      simp only [Option.getD_some,hnot,Bool.not_false,if_true,Option.some.injEq]
      exact ⟨fun h => ⟨h,h ▸ hw⟩,And.left⟩

section Boundary
variable (v : Validator)

/-- `_schema_violation`. -/
def schemaViolation (entry : ToolSchema) (arguments : Json) : Option String :=
  match entry.inputSchema with
  | none => none
  | some schema =>
    match arguments with
    | .obj fields => (v.sortedErrors schema (.obj (dropNull fields))).head?.map SchemaError.text
    | other => some ("args must be an object, got " ++ v.typeName other)

variable {v}

/-- The boundary accepts what is admitted without its nulls. -/
theorem schemaViolation_eq_none_iff (hdraft7 : v.Draft7) {entry : ToolSchema} {schema : Schema}
    (hschema : entry.inputSchema = some schema) {fields : Dict} :
    schemaViolation v entry (.obj fields) = none ↔ schema.valid (.obj (dropNull fields)) = true := by
  rw [← v.sortedErrors_eq_nil hdraft7, schemaViolation, hschema, Option.map_eq_none_iff, List.head?_eq_none_iff]

/-- What the boundary accepts of a record: each declared entry that is not null is admitted,
and none that is required is missing or null. -/
theorem record_accepted_iff (hdraft7 : v.Draft7) {entry : ToolSchema} {properties : List (String × Schema)}
    {required : List String} (hschema : entry.inputSchema = some (.record properties required)) {fields : Dict} :
    schemaViolation v entry (.obj fields) = none ↔
      (∀ property ∈ properties, ∀ w, fields.get? property.1 = some w → w ≠ .null →
        property.2.valid w = true) ∧
      ∀ key ∈ required, ∃ w, fields.get? key = some w ∧ w ≠ .null := by
  rw [schemaViolation_eq_none_iff hdraft7 hschema, record_valid_iff]
  simp only [Json.obj.injEq,exists_eq_left',get?_dropNull,and_imp]

end Boundary

/-- A schema of an object none of whose declared entries may be null, and which declares
the entries it requires. -/
def Schema.plain : Schema → Bool
  | .mk types enum properties required items =>
    types = [.object] && enum.isNone && items.isNone &&
      properties.all (fun property => !property.2.valid .null) &&
      required.all fun key => decide (key ∈ properties.map Prod.fst)

theorem defaultTools_plain : ∀ entry ∈ defaultTools, ∃ schema, entry.inputSchema = some schema ∧
    schema.plain = true := by
  intro entry h
  fin_cases h <;> exact ⟨_,rfl,by decide⟩

theorem Schema.plain_spec {schema : Schema} (h : schema.plain = true) :
    schema = .record schema.properties schema.required ∧
      (∀ property ∈ schema.properties, property.2.valid .null = false) ∧
      ∀ key ∈ schema.required, ∃ property ∈ schema.properties, property.1 = key := by
  cases schema with
  | mk types enum properties required items =>
    simp only [plain,Bool.and_eq_true,decide_eq_true_eq,Option.isNone_iff_eq_none,List.all_eq_true,
      Bool.not_eq_true'] at h
    obtain ⟨⟨⟨⟨rfl,rfl⟩,rfl⟩,hnull⟩,hrequired⟩ := h
    exact ⟨rfl,hnull,fun key hkey => List.mem_map.mp (hrequired key hkey)⟩

end DftForge.Tools
