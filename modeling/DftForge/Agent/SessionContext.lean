import DftForge.Agent.PreparedArgs

/-! # What a session leaves in its context

`handle_tool_result` on the keys of the session context that the rule planner reads. A
result is handled only if its step was called, so with arguments that the registry
accepted; what the commands report under the keys that are stored is text.
-/
namespace DftForge.Agent
open DftForge.Runtime DftForge.Python DftForge.Engines DftForge.Tools

section Handle
variable (h : Host) (toolId description : String) (args data ctx : Dict)

def builderIds : List String :=
  ["structure.generate","structure.build2d","structure.dope","structure.molecule","structure.reference"]

def noteImport : Dict :=
  ((ctx.set "last_structure_file" (h.path "structure.json".toList)).set "last_structure_source"
    (pyOr (field data "source") (field args "source"))).set "last_formula" (field data "formula")

def noteBuild : Dict :=
  ((ctx.set "last_structure_source" (field data "output")).set "last_structure_file" (field data "output")).set
    "last_formula" (field data "formula")

/-- The run id, and the last twenty entries of the ledger. -/
def noteRun : Dict :=
  let ctx := ctx.set "last_run_id" (field data "run_id")
  match (graphRunAdds h.factsRaise 0 description args data).1 with
  | some entry =>
    let ledger := ledgerOf ctx ++ [entry]
    ctx.set "ledger" (.arr (ledger.drop (ledger.length - 20)))
  | none => ctx

/-- `data["output_files"][0]`, or the input where there are none. -/
def firstOutput : Json :=
  match field data "output_files" with
  | .arr (file :: _) => file
  | _ => h.path "input.in".toList

/-- `handle_tool_result`. -/
def noteResult : Dict :=
  if toolId = "structure.import" then
    if truthyAt data "ok" && truthyAt data "success" then noteImport h args data ctx else ctx
  else if toolId ∈ builderIds then if truthyAt data "output" then noteBuild data ctx else ctx
  else if toolId = "graph.run" then
    if truthyAt data "run_id" then noteRun h description args data ctx else ctx
  else if toolId = "graph.status" then
    if truthyAt data "error" then ctx
    else ctx.set "last_run_id" (pyOr (field data "run_id") (field args "run_id"))
  else if toolId = "input.build" then
    if truthyAt data "input_file" then ctx.set "last_input_file" (field data "input_file") else ctx
  else if toolId = "job.submit" then
    if truthyAt data "ok" && truthyAt data "success" then
      (ctx.set "last_job_id" (field data "job_id")).set "last_output_file" (firstOutput h data)
    else ctx
  else if toolId = "result.parse" then
    (ctx.set "last_output_file" (field args "input")).set "last_result_type" (field args "type")
  else ctx

end Handle

/-- A text or `None`. -/
def Textual (v : Json) : Prop := v = .null ∨ ∃ s, v = .str s

/-- The keys of a payload whose values are stored. -/
def reportedKeys (toolId : String) : List String :=
  if toolId = "structure.import" then ["source","formula"]
  else if toolId ∈ builderIds then ["output","formula"]
  else if toolId = "graph.run" || toolId = "graph.status" then ["run_id"]
  else if toolId = "input.build" then ["input_file"]
  else if toolId = "job.submit" then ["job_id"]
  else []

/-- What the commands report: paths, formulas and ids are texts, and so are the names of
the output files. -/
structure Reports (toolId : String) (data : Dict) : Prop where
  texts : ∀ key ∈ reportedKeys toolId, Textual (field data key)
  files : toolId = "job.submit" → ∀ files, field data "output_files" = .arr files →
    ∀ file ∈ files, ∃ name, file = .str name

/-- The contexts that sessions write, one handled result after the other. -/
inductive Written (v : Validator) (h : Host) : Dict → Prop where
  | start : Written v h []
  | handled {ctx args data : Dict} {entry : ToolSchema} (description : String) (hmem : entry ∈ defaultTools)
      (haccepted : schemaViolation v entry (.obj args) = none) (hreports : Reports entry.id data)
      (hctx : Written v h ctx) : Written v h (noteResult h entry.id description args data ctx)

section Fits

/-- The keys of the context that hold texts. -/
def textKeys : List String := ["last_structure_file","last_structure_source","last_formula","last_material",
  "last_input_file","last_job_id","last_output_file","last_run_id"]

/-- What the values in a context are. -/
structure Fits (ctx : Dict) : Prop where
  texts : ∀ key ∈ textKeys, Textual (field ctx key)
  resultType : Admits resultParseTool "type" ((ctx.get? "last_result_type").getD (.str "vc-relax"))
  taskType : ctx.get? "last_task_type" = none
  ledger : ∀ e ∈ ledgerOf ctx, ∃ fields, e = .obj fields

variable {ctx : Dict}

theorem fits_start : Fits [] where
  texts _ _ := Or.inl rfl
  resultType := admits_of_declared rfl (by decide)
  taskType := rfl
  ledger _ he := by cases he

theorem field_set_self (d : Dict) (key : String) (value : Json) : field (d.set key value) key = value := by
  rw [field, Dict.get?_set_self]
  rfl

theorem field_set_of_ne {key key' : String} (hne : key' ≠ key) (d : Dict) (value : Json) :
    field (d.set key value) key' = field d key' := by
  rw [field, Dict.get?_set_of_ne hne, field]

/-- Storing a value that is what its key asks for. -/
theorem Fits.set (hfits : Fits ctx) {key : String} {value : Json} (htext : key ∈ textKeys → Textual value)
    (htype : key = "last_result_type" → Admits resultParseTool "type" value) (htask : "last_task_type" ≠ key)
    (hledger : key = "ledger" → ∃ entries, value = .arr entries ∧ ∀ e ∈ entries, ∃ fields, e = .obj fields) :
    Fits (ctx.set key value) where
  texts key' hkey' := by
    by_cases heq : key' = key
    · rw [heq, field_set_self]
      exact htext (heq ▸ hkey')
    · rw [field_set_of_ne heq]
      exact hfits.texts key' hkey'
  resultType := by
    by_cases heq : "last_result_type" = key
    · rw [heq, Dict.get?_set_self]
      exact htype heq.symm
    · rw [Dict.get?_set_of_ne heq]
      exact hfits.resultType
  taskType := by
    rw [Dict.get?_set_of_ne htask]
    exact hfits.taskType
  ledger := by
    by_cases heq : "ledger" = key
    · obtain ⟨entries,rfl,hentries⟩ := hledger heq.symm
      rw [ledgerOf, heq, field_set_self]
      exact hentries
    · rw [ledgerOf, field_set_of_ne heq]
      exact hfits.ledger

theorem Fits.setText (hfits : Fits ctx) {key : String} (hkey : key ∈ textKeys) {value : Json}
    (hv : Textual value) : Fits (ctx.set key value) := by
  refine hfits.set (fun _ => hv) ?_ ?_ ?_
  · rintro rfl
    exact absurd hkey (by decide)
  · rintro rfl
    exact absurd hkey (by decide)
  · rintro rfl
    exact absurd hkey (by decide)

theorem Textual.pyOr {a b : Json} (ha : Textual a) (hb : Textual b) : Textual (pyOr a b) := by
  unfold DftForge.Agent.pyOr
  split_ifs
  · exact ha
  · exact hb

/-- What the boundary accepts under a key that is declared as a text. -/
theorem accepted_text {v : Validator} (hdraft7 : v.Draft7) {entry : ToolSchema} {args : Dict}
    (hmem : entry ∈ defaultTools) (haccepted : schemaViolation v entry (.obj args) = none) {key : String}
    (hkey : (key,Schema.text) ∈ properties entry) : Textual (field args key) := by
  obtain ⟨schema,hschema,hplain⟩ := defaultTools_plain entry hmem
  obtain ⟨hrecord,_⟩ := Schema.plain_spec hplain
  have hfits := ((record_accepted_iff hdraft7 (hschema.trans (congrArg some hrecord))).mp haccepted).1
  have hp : (key,Schema.text) ∈ schema.properties := by
    rw [properties, hschema] at hkey
    exact hkey
  cases hget : args.get? key with
  | none => exact Or.inl (by rw [field, hget]; rfl)
  | some w =>
    rw [field, hget, Option.getD_some]
    by_cases hnull : w = .null
    · exact Or.inl hnull
    · have hvalid := hfits _ hp w hget hnull
      cases w with
      | str s => exact Or.inr ⟨s,rfl⟩
      | _ => cases hvalid

theorem Fits.setLedger (hfits : Fits ctx) {entries : List Json}
    (hentries : ∀ e ∈ entries, ∃ fields, e = .obj fields) : Fits (ctx.set "ledger" (.arr entries)) :=
  hfits.set (fun hkey => absurd hkey (by decide)) (fun hkey => absurd hkey (by decide)) (by decide)
    fun _ => ⟨entries,rfl,hentries⟩

theorem Fits.setResultType (hfits : Fits ctx) {value : Json} (hv : Admits resultParseTool "type" value) :
    Fits (ctx.set "last_result_type" value) :=
  hfits.set (fun hkey => absurd hkey (by decide)) (fun _ => hv) (by decide) fun hkey => absurd hkey (by decide)

end Fits

section Run
variable {v : Validator} {h : Host} {ctx args data : Dict} {description : String}

theorem graphRunAdds_object {step : ℕ} {entry : Json}
    (hentry : (graphRunAdds h.factsRaise step description args data).1 = some entry) :
    ∃ fields, entry = .obj fields := by
  unfold graphRunAdds at hentry
  split at hentry
  · split at hentry
    · cases hentry
    · split at hentry
      · split at hentry
        · cases hentry
        · next hledger =>
          obtain rfl := Option.some.inj hentry
          unfold ledgerEntry at hledger
          obtain ⟨bands,_,hledger⟩ := Option.bind_eq_some_iff.mp hledger
          obtain ⟨scf,_,hledger⟩ := Option.bind_eq_some_iff.mp hledger
          obtain ⟨inputs,_,hledger⟩ := Option.bind_eq_some_iff.mp hledger
          exact ⟨_,(Option.some.inj hledger).symm⟩
      · cases hentry
  · cases hentry

theorem noteRun_fits (hfits : Fits ctx) (hrun : Textual (field data "run_id")) :
    Fits (noteRun h description args data ctx) := by
  have hid := hfits.setText (by decide : "last_run_id" ∈ textKeys) hrun
  unfold noteRun
  dsimp only
  split
  · next entry hentry =>
    refine hid.setLedger fun e he => ?_
    rcases List.mem_append.mp (List.mem_of_mem_drop he) with he | he
    · exact hid.ledger e he
    · obtain rfl := List.mem_singleton.mp he
      exact graphRunAdds_object hentry
  · exact hid

/-- The names of output files are texts, and so is the path of the input. -/
theorem firstOutput_text (hfiles : ∀ files, field data "output_files" = .arr files →
    ∀ file ∈ files, ∃ name, file = .str name) : Textual (firstOutput h data) := by
  unfold firstOutput
  split
  · next file rest houtput => exact Or.inr (hfiles _ houtput file List.mem_cons_self)
  · exact Or.inr ⟨_,rfl⟩

/-- The type of a parse that was accepted is one of the types that parses have. -/
theorem accepted_type (hdraft7 : v.Draft7) (haccepted : schemaViolation v resultParseTool (.obj args) = none) :
    Admits resultParseTool "type" (field args "type") := by
  have hrecord := (record_accepted_iff hdraft7
    (rfl : resultParseTool.inputSchema = some (.record _ _))).mp haccepted
  obtain ⟨w,hw,hnull⟩ := hrecord.2 "type" (by decide)
  intro property hp hkey
  rw [field, hw]
  exact hrecord.1 property hp w (hkey ▸ hw) hnull

/-- Handling a result keeps what the values in the context are. -/
theorem noteResult_fits (hdraft7 : v.Draft7) {entry : ToolSchema} (hmem : entry ∈ defaultTools)
    (haccepted : schemaViolation v entry (.obj args) = none) (hreports : Reports entry.id data)
    (hfits : Fits ctx) :
    Fits (noteResult h entry.id description args data ctx) := by
  have hreported {key : String} (hkey : key ∈ reportedKeys entry.id) : Textual (field data key) :=
    hreports.texts key hkey
  unfold noteResult
  split
  · next hid =>
    obtain rfl := eq_of_id hmem hid (rfl : _ = some importTool)
    split_ifs
    · exact ((hfits.setText (by decide) (Or.inr ⟨_,rfl⟩)).setText (by decide)
        ((hreported (by decide)).pyOr (accepted_text hdraft7 hmem haccepted (.head _)))).setText (by decide)
        (hreported (by decide))
    · exact hfits
  split
  · next himport hid =>
    have hkeys : reportedKeys entry.id = ["output","formula"] := by rw [reportedKeys, if_neg himport, if_pos hid]
    split_ifs
    · exact ((hfits.setText (by decide) (hreported (by simp [hkeys]))).setText (by decide)
        (hreported (by simp [hkeys]))).setText (by decide) (hreported (by simp [hkeys]))
    · exact hfits
  split
  · next hid =>
    obtain rfl := eq_of_id hmem hid (rfl : _ = some graphRunTool)
    split_ifs
    · exact noteRun_fits hfits (hreported (by decide))
    · exact hfits
  split
  · next hid =>
    obtain rfl := eq_of_id hmem hid (rfl : _ = some graphStatusTool)
    split_ifs
    · exact hfits
    · exact hfits.setText (by decide)
        ((hreported (by decide)).pyOr (accepted_text hdraft7 hmem haccepted (.head _)))
  split
  · next hid =>
    obtain rfl := eq_of_id hmem hid (rfl : _ = some inputBuildTool)
    split_ifs
    · exact hfits.setText (by decide) (hreported (by decide))
    · exact hfits
  split
  · next hid =>
    obtain rfl := eq_of_id hmem hid (rfl : _ = some jobSubmitTool)
    split_ifs
    · exact (hfits.setText (by decide) (hreported (by decide))).setText (by decide)
        (firstOutput_text (hreports.files rfl))
    · exact hfits
  split
  · next hid =>
    obtain rfl := eq_of_id hmem hid (rfl : _ = some resultParseTool)
    exact (hfits.setText (by decide) (accepted_text hdraft7 hmem haccepted (.head _))).setResultType
      (accepted_type hdraft7 haccepted)
  · exact hfits

theorem Written.fits (hdraft7 : v.Draft7) (hwritten : Written v h ctx) : Fits ctx := by
  induction hwritten with
  | start => exact fits_start
  | handled description hmem haccepted hreports _ ih => exact noteResult_fits hdraft7 hmem haccepted hreports ih

end Run

/-- The state of a session in which a step is prepared. -/
def sessionOf (ctx : Dict) (built : Option String) (energies : List Energy) : SessionState where
  lastStructureSource := field ctx "last_structure_source"
  builtStructure := optText built
  scfEnergies := energies
  ledger := ledgerOf ctx
  lastResultType := (ctx.get? "last_result_type").getD (.str "vc-relax")
  lastTaskType := (ctx.get? "last_task_type").getD (.str "T1")

theorem Fits.plain {ctx : Dict} (hfits : Fits ctx) (built : Option String) (energies : List Energy) :
    (sessionOf ctx built energies).Plain where
  built := by
    cases built with
    | none => exact Or.inl rfl
    | some path => exact Or.inr ⟨path,rfl⟩
  ledger := hfits.ledger
  resultType := hfits.resultType
  taskType := by
    rw [sessionOf, hfits.taskType]
    exact admits_of_declared rfl rfl

end DftForge.Agent
