import DftForge.Compiler.StrongerInputs
import DftForge.Engines.OneBasis
import DftForge.Engines.Timeouts
import DftForge.Qe.Stages
import DftForge.Runtime.CancelResume
import DftForge.Runtime.Histories

/-! # The axis of a band plot

The bands node of `t2_bands` computes the axis of its plot from its own `nkpoints_bands`,
but its eigenvalues stand on the path that the nscf attempt was compiled with. Over every
history of calls, crashes and repairs, this decides when both have as many points.
-/
namespace DftForge.Compiler
open DftForge.Runtime DftForge.Python DftForge.Engines DftForge.Catalog DftForge.Hpc DftForge.Qe

/-- What `parse_bands` finds in a file. -/
structure BandsFile (F : Type) extends ParsedBands F where
  bandGapEv : F
  isMetal : Bool
  eigenvalues : Option (List (List F))

/-- What the outside answers to one call of `QECalcTool.execute`. -/
structure Answers (F : Type) where
  /-- The text of the exception, where Python or a library raises one. -/
  exception : String := ""
  /-- `_link_upstream_save` finds the directory. -/
  upstreamSave : Bool := true
  /-- What becomes of the pw.x run on the compiled input. -/
  pw : ToolResult
  bandsX : JobResult := { success := true, exitCode := 0 }
  /-- The file that `_locate_bands_xml` finds. -/
  bandsXml : Option (String × BandsFile F) := none
  /-- The text of a file, empty where there is none. -/
  readText : String → Text := fun _ => []
  /-- What becomes of the calculations that are neither bands nor runs of pw.x. -/
  other : ToolResult

/-- The tool with its compiler and what else it takes from its libraries. -/
structure QECalcTool (F : Type) where
  compiler : QECompiler F
  unicode : Unicode
  target : ReadTarget F
  /-- `cell.bandpath(npoints=n, pbc=pbc).get_linear_kpoint_axis()`. -/
  axis : Atoms F → ℤ → Option (List F × List F × List String)
  /-- A float among the outputs, and rounded to four digits. -/
  float : F → Json
  rounded : F → Json

/-- The number of points in a list of k-points; the first row counts them. -/
def Input.pathPoints (i : Input) : Option ℕ := (i.card "K_POINTS crystal").map fun rows => rows.tail.length

namespace QECalcTool
variable {F : Type} (tool : QECalcTool F)

/-- `"Γ" if str(l).upper() in ("G", "GAMMA") else str(l)`. -/
def plotLabel (label : String) : String :=
  if label.toUpper = "G" ∨ label.toUpper = "GAMMA" then "Γ" else label

/-- `atoms if atoms is not None else build_atoms(material)`. -/
def source (tgt : Target F) : Option (Atoms F) :=
  tgt.atoms.or ((tool.compiler.materials.lookup tgt.material).bind (tool.compiler.buildAtoms tgt.material))

/-- The outputs of the plotting axis; none where ASE raises. -/
def axisOutputs (tgt : Target F) (points : ℤ) : Dict :=
  match (tool.source tgt).bind fun src => tool.axis src (max 10 points) with
  | none => []
  | some (x,ticks,labels) => [("k_axis",.arr (x.map tool.rounded)),("k_ticks",.arr (ticks.map tool.rounded)),
      ("k_labels",.arr (labels.map fun l => .str (plotLabel l)))]

def bandsOutputs (bands : BandsFile F) : Dict :=
  [("n_bands",.num bands.nBands),("n_kpoints",.num bands.nKpoints),("band_gap_ev",tool.float bands.bandGapEv),
    ("is_metal",.bool bands.isMetal),("fermi_ev",tool.float bands.fermiEnergyEv)]

def eigenvalueOutputs (bands : BandsFile F) : Dict :=
  (bands.eigenvalues.map fun rows =>
    ("eigenvalues_ev",Json.arr (rows.map fun row => .arr (row.map tool.rounded)))).toList

/-- `_read_stdout`. -/
def readStdout (a : Answers F) (path : Option Json) : Text :=
  match path with
  | none => []
  | some v => if truthy v then a.readText (tool.compiler.shown v) else []

def bandsXError (job : JobResult) : ToolError where
  message := "bands.x failed: " ++
    String.ofList (Engines.orText job.errorMessage (Engines.orText job.stderr "exit != 0".toList))
  category := "tool_failure"
  repairable := true

def noXmlError (qePrefix : String) (job : JobResult) : ToolError where
  message := "bands.x produced no eigenvalue XML (" ++ qePrefix ++ ".xml / " ++ qePrefix ++
    ".save/data-file-schema.xml): " ++
    String.ofList (Engines.orText job.errorMessage "unknown error".toList)
  category := "tool_failure"

def bandsError (reasons : List String) : ToolError where
  message := "bands verification failed: " ++ "; ".intercalate reasons
  category := "verification"
  repairable := true

/-- `_run_bands`. -/
def runBands (tgt : Target F) (params : Dict) (a : Answers F) : ToolResult :=
  match tool.compiler.asInt params "nkpoints_bands" 100,
    tool.compiler.compileBandsInput tgt.material (some tgt.qePrefix) tgt.atoms with
  | some points,some _ =>
    if !a.bandsX.success then .error (.toolError (bandsXError a.bandsX))
    else match a.bandsXml with
      | none => .error (.toolError (noXmlError tgt.qePrefix a.bandsX))
      | some (path,bands) =>
        match verifyT2Bands tool.compiler.f tool.unicode (tool.readStdout a (params.get? "scf_stdout"))
          (tool.readStdout a (params.get? "nscf_stdout")) path (some bands.toParsedBands) with
        | none => .error (.crash a.exception)
        | some report =>
          if !report.passed then .error (.toolError (bandsError report.failureReasons))
          else .ok (tool.bandsOutputs bands ++ tool.axisOutputs tgt points ++ tool.eigenvalueOutputs bands)
  | _,_ => .error (.crash a.exception)

def missingUpstream (qePrefix : String) : ToolError where
  message := "no upstream " ++ qePrefix ++ ".save found — add a succeeded scf/nscf dependency"
  category := "missing_upstream"

/-- `execute`. -/
def execute (params : Dict) (a : Answers F) : ToolResult :=
  match tool.target (params.get? "material") (params.get? "structure") (params.get? "prefix") with
  | none => .error (.crash a.exception)
  | some tgt =>
    let kind := tool.compiler.textOr params "calc" "scf"
    if kind ∈ ["nscf","bands","dos","pdos"] ∧ !a.upstreamSave then
      .error (.toolError (missingUpstream tgt.qePrefix))
    else if kind ∈ ["vc-relax","scf","nscf"] then
      match tool.compiler.nodeInput tool.target params with
      | none => .error (.crash a.exception)
      | some _ => a.pw
    else if kind = "bands" then tool.runBands tgt params a
    else a.other

/-- Environments in which the tool `qe` is this one and the repair handler is that of the engine. -/
structure Serves (env : Env) : Prop where
  repairs : RepairsQE tool.compiler.nums env
  runs : ∃ qe, env.tools.lookup "qe" = some qe ∧
    ∀ node ctx, ∃ a, qe node ctx = tool.execute node.params a

/-- What the code relies on: `str` leaves a text as it is, ASE labels every path of a cell that
has one, entry by entry, and a path through more points is longer. -/
structure Laws : Prop where
  text : ∀ s, tool.compiler.shown (.str s) = s
  drawn : ∀ atoms n m, (tool.compiler.bandpath atoms n).isSome → (tool.axis atoms m).isSome
  entries : ∀ atoms n x ticks labels, tool.axis atoms n = some (x,ticks,labels) →
    ∃ points, tool.compiler.bandpath atoms n = some points ∧ x.length = points.length
  longer : ∀ atoms n m ps qs, QEParamRepairer.minBandPathPoints ≤ n → n < m →
    tool.compiler.bandpath atoms n = some ps → tool.compiler.bandpath atoms m = some qs →
    ps.length < qs.length

section Reach
open QEParamRepairer
variable {F : Type} {tool : QECalcTool F} {inputs params outputs : Dict} {nums : Numerals}

/-- A timeout repair has left a lower number of path points. -/
def Shrunk (nums : Numerals) (given left : Option Json) : Prop :=
  ∃ v n m, given = some v ∧ toInt nums v = .ok n ∧ minBandPathPoints ≤ m ∧ m < n ∧ left = some (.num (m : ℚ))

theorem Shrunk.again {given left left' : Option Json} (h : Shrunk nums given left)
    (h' : Shrunk nums left left') :
    Shrunk nums given left' := by
  obtain ⟨v,n,m,hv,hn,_,hlt,hleft⟩ := h
  obtain ⟨w,k,l,hw,hk,hmin,hlt',hleft'⟩ := h'
  rw [hleft,Option.some.injEq] at hw
  subst hw
  obtain rfl : m = k := by
    rw [toInt,truncate_intCast] at hk
    exact Except.ok.inj hk
  exact ⟨v,n,l,hv,hn,hmin,hlt'.trans hlt,hleft'⟩

theorem reduced_lt {n m : ℤ} (h : minBandPathPoints < n) (hm : sixTenths nums n = .ok m) :
    max minBandPathPoints m < n := by
  have hpos : 0 < n := by
    unfold minBandPathPoints at h
    omega
  exact max_lt h (sixTenths_lt hpos hm)

theorem repairTimeout_points (node : NodeRun) :
    (repairTimeout nums node).params.get? "nkpoints_bands" = node.params.get? "nkpoints_bands" ∨
      Shrunk nums (node.params.get? "nkpoints_bands")
        ((repairTimeout nums node).params.get? "nkpoints_bands") := by
  unfold repairTimeout
  cases hpath : node.params.get? "nkpoints_bands" with
  | none =>
    left
    simp only [Option.getD_none,truthy,Bool.false_eq_true,if_false]
    repeat' split
    all_goals first
      | exact hpath
      | exact (Dict.get?_set_of_ne (by decide) _ _).trans hpath
  | some v =>
    simp only [Option.getD_some]
    cases hv : truthy v with
    | false =>
      left
      simp only [Bool.false_eq_true,if_false]
      repeat' split
      all_goals first
        | exact hpath
        | exact (Dict.get?_set_of_ne (by decide) _ _).trans hpath
    | true =>
      simp only [if_true]
      cases hn : toInt nums v with
      | error crash => exact .inl hpath
      | ok n =>
        by_cases hle : n ≤ minBandPathPoints
        · simp only [hle,if_true]
          exact .inl hpath
        · simp only [hle,if_false]
          cases hm : sixTenths nums n with
          | error crash => exact .inl hpath
          | ok m =>
            right
            exact ⟨v,n,_,rfl,hn,le_max_left _ _,reduced_lt (not_le.mp hle) hm,Dict.get?_set_self _ _ _⟩

/-- The number of path points stays, or the error was taken for a timeout and it shrank. -/
theorem repair_points (node : NodeRun) (error : ToolError) :
    (repair nums node error).params.get? "nkpoints_bands" = node.params.get? "nkpoints_bands" ∨
      (branch error = .timeout ∧ Shrunk nums (node.params.get? "nkpoints_bands")
        ((repair nums node error).params.get? "nkpoints_bands")) := by
  unfold repair
  cases hbranch : branch error with
  | declined => exact .inl rfl
  | bands => exact .inl (repairBands_get? node (by decide))
  | timeout => exact (repairTimeout_points node).imp_right fun h => ⟨rfl,h⟩
  | cutoff =>
    left
    rcases @repairCutoff_params nums node with hkept | ⟨current,_,_,hset⟩
    · rw [hkept]
    · rw [hset,Dict.get?_set_of_ne (by decide),Dict.get?_set_of_ne (by decide)]

/-- The parameters of a node of `t2_bands`, whatever repairs it had. -/
structure PathParams (nums : Numerals) (inputs : Dict) (id : NodeId) (params : Dict) : Prop where
  source : ∀ key ∈ ["material","structure"], params.get? key = inputs.get? key
  kind : params.get? "calc" = some (.str id)
  unset : ∀ key ∈ ["prefix","kmode"], params.get? key = none
  points : id ≠ "scf" → params.get? "nkpoints_bands" = inputs.get? "nkpoints_bands" ∨
    (id = "nscf" ∧ Shrunk nums (inputs.get? "nkpoints_bands") (params.get? "nkpoints_bands"))

/-- A succeeded node has outputs that the tool returned on its parameters. -/
def PathDone (tool : QECalcTool F) : DoneNode := fun inputs id params outputs =>
  PathParams tool.compiler.nums inputs id params ∧ ∃ a, tool.execute params a = .ok outputs

theorem PathParams.resolved {run : GraphRun} {spec : NodeSpec} (hspec : spec ∈ t2Bands.nodes)
    (h : resolveParams t2Bands run spec.params = .ok params) :
    PathParams nums run.inputs spec.id params := by
  simp only [t2Bands,List.mem_cons,List.not_mem_nil,or_false] at hspec
  have hsource : ∀ key ∈ ["material","structure"], params.get? key = run.inputs.get? key := by
    intro key hkey
    simp only [List.mem_cons,List.not_mem_nil,or_false] at hkey
    rcases hspec with rfl | rfl | rfl <;> rcases hkey with rfl | rfl <;>
      exact resolved_input h rfl (by decide)
  have hcalc : params.get? "calc" = some (.str spec.id) := by
    rcases hspec with rfl | rfl | rfl
    · obtain ⟨w,hw,hparams⟩ := resolveFields_get? h "calc"
      obtain rfl := Except.ok.inj hw
      exact hparams
    · obtain ⟨w,hw,hparams⟩ := resolveFields_get? h "calc"
      obtain rfl := Except.ok.inj hw
      exact hparams
    · obtain ⟨w,hw,hparams⟩ := resolveFields_get? h "calc"
      obtain rfl := Except.ok.inj hw
      exact hparams
  have hunset : ∀ key ∈ ["prefix","kmode"], params.get? key = none := by
    intro key hkey
    simp only [List.mem_cons,List.not_mem_nil,or_false] at hkey
    rcases hspec with rfl | rfl | rfl <;> rcases hkey with rfl | rfl
    all_goals first
      | exact resolveFields_get? h "prefix"
      | exact resolveFields_get? h "kmode"
  refine ⟨hsource,hcalc,hunset,fun hid => .inl ?_⟩
  rcases hspec with rfl | rfl | rfl
  · exact absurd rfl hid
  · exact resolved_input h rfl (by decide)
  · exact resolved_input h rfl (by decide)

/-- A repair keeps them, unless it takes an error of the bands node for a timeout. -/
theorem PathParams.repair {id : NodeId} {node : NodeRun} (h : PathParams nums inputs id node.params)
    (error : ToolError) (hbands : id = "bands" → branch error ≠ .timeout)
    (hid : id ∈ ["scf","nscf","bands"]) :
    PathParams nums inputs id (QEParamRepairer.repair nums node error).params := by
  have hkept : ∀ key ∉ ["nbnd","nkpoints_bands","kpoints","ecutwfc","ecutrho"],
      (QEParamRepairer.repair nums node error).params.get? key = node.params.get? key :=
    fun key hkey => repair_get? node error hkey
  refine ⟨fun key hkey => ?_,?_,fun key hkey => ?_,fun hscf => ?_⟩
  · have hother : key ∉ ["nbnd","nkpoints_bands","kpoints","ecutwfc","ecutrho"] := by
      revert key
      decide
    rw [hkept key hother]
    exact h.source key hkey
  · rw [hkept "calc" (by decide)]
    exact h.kind
  · have hother : key ∉ ["nbnd","nkpoints_bands","kpoints","ecutwfc","ecutrho"] := by
      revert key
      decide
    rw [hkept key hother]
    exact h.unset key hkey
  · rcases @repair_points nums node error with hsame | ⟨hbranch,hshrunk⟩
    · rw [hsame]
      exact h.points hscf
    · have hnscf : id = "nscf" := by
        simp only [List.mem_cons,List.not_mem_nil,or_false] at hid
        rcases hid with rfl | rfl | rfl
        · exact absurd rfl hscf
        · rfl
        · exact absurd hbranch (hbands rfl)
      right
      refine ⟨hnscf,?_⟩
      rcases h.points hscf with hsame | ⟨_,hbefore⟩
      · rwa [hsame] at hshrunk
      · exact hbefore.again hshrunk

end Reach

section Calls
open QEParamRepairer
variable {F : Type} {tool : QECalcTool F} {inputs params outputs : Dict} {a : Answers F}

/-- The reasons of the three checks, each there or not. -/
theorem verifyT2Bands_reasons {f : Floats F} {u : Unicode} {scf nscf : Text} {path : String}
    {bands : ParsedBands F} {r : ConvergenceReport F}
    (h : verifyT2Bands f u scf nscf path (some bands) = some r) :
    ∃ p q e : Bool, r.failureReasons = (if p then [] else ["SCF stage failed"]) ++
      (if q then [] else ["NSCF stage did not pass"]) ++
      if e then [] else ["bands XML parsed but empty (no eigenvalues)"] := by
  simp only [verifyT2Bands,Option.bind_eq_bind,Option.bind_eq_some_iff,Option.pure_def,Option.some.injEq] at h
  obtain ⟨scf,_,nscf,_,rfl⟩ := h
  refine ⟨scf.passed,nscf.passed,decide (bands.nBands ≠ 0),?_⟩
  rw [← checkStages_reasons]
  simp only [counted,checkBandsFile,ConvergenceReport.note,ConvergenceReport.failUnless,ConvergenceReport.fail]
  cases decide (bands.nBands ≠ 0) <;> simp

theorem bandsError_branch (p q e : Bool) : branch (bandsError ((if p then [] else ["SCF stage failed"]) ++
    (if q then [] else ["NSCF stage did not pass"]) ++
    if e then [] else ["bands XML parsed but empty (no eigenvalues)"])) ≠ .timeout := by
  have htext : contains (lower (bandsError ((if p then [] else ["SCF stage failed"]) ++
      (if q then [] else ["NSCF stage did not pass"]) ++
      if e then [] else ["bands XML parsed but empty (no eigenvalues)"])).message.toList) "timed out" =
        false := by
    cases p <;> cases q <;> cases e <;> decide +kernel
  unfold branch
  simp only [htext,Bool.false_eq_true,if_false]
  split_ifs <;> decide

theorem PathParams.textOr {nums : Numerals} {id : NodeId} (hl : tool.Laws)
    (h : PathParams nums inputs id params) :
    tool.compiler.textOr params "calc" "scf" = id := by
  rw [QECompiler.textOr,h.kind]
  exact hl.text id

/-- No repairable error of the bands node reads as a timeout. -/
theorem execute_bands_error {nums : Numerals} (hl : tool.Laws) (h : PathParams nums inputs "bands" params)
    {f : Failure} (herr : tool.execute params a = .error f) (hrepairable : f.toError.repairable = true) :
    branch f.toError ≠ .timeout := by
  unfold execute at herr
  split at herr
  · obtain rfl := Except.error.inj herr
    cases hrepairable
  · next tgt _ =>
    simp only [h.textOr hl] at herr
    split_ifs at herr with hsave hpw
    · obtain rfl := Except.error.inj herr
      cases hrepairable
    · exact absurd hpw (by decide)
    · unfold runBands at herr
      split at herr
      · split_ifs at herr with hjob
        · obtain rfl := Except.error.inj herr
          have hcategory : "tool_failure" ∉ repairableCategories := by decide
          have hbranch : branch (bandsXError a.bandsX) = .declined := by
            unfold branch
            exact if_pos hcategory
          rw [Failure.toError,hbranch]
          decide
        · split at herr
          · obtain rfl := Except.error.inj herr
            cases hrepairable
          · split at herr
            · obtain rfl := Except.error.inj herr
              cases hrepairable
            · next report hreport =>
              split_ifs at herr with hpassed
              obtain rfl := Except.error.inj herr
              obtain ⟨p,q,e,hreasons⟩ := verifyT2Bands_reasons hreport
              rw [Failure.toError,hreasons]
              exact bandsError_branch p q e
      · obtain rfl := Except.error.inj herr
        cases hrepairable

/-- What single nodes of `t2_bands` are like, whatever happens to them. -/
theorem path_rule (hl : tool.Laws) :
    NodeRule (· = t2Bands) tool.Serves (PathParams tool.compiler.nums) (PathDone tool) where
  resolved ht hspec h := by
    subst ht
    exact PathParams.resolved hspec h
  repaired := by
    rintro t env env' inputs spec ctx f repairer node handed rfl hspec henv henv' hreach hcall hrepairable hused hhanded
    have hspec' := hspec
    simp only [t2Bands,List.mem_cons,List.not_mem_nil,or_false] at hspec'
    have htool : spec.tool = "qe" := by rcases hspec' with rfl | rfl | rfl <;> rfl
    have hnone : spec.repair = none := by rcases hspec' with rfl | rfl | rfl <;> rfl
    have hids : spec.id ∈ ["scf","nscf","bands"] := by rcases hspec' with rfl | rfl | rfl <;> decide
    have hqe : repairer = QEParamRepairer.repair tool.compiler.nums := by
      rw [repairerFor,hnone] at hused
      obtain ⟨handler,hhead,rfl⟩ := Option.map_eq_some_iff.mp hused
      exact henv'.repairs handler hhead
    subst hqe
    rw [← hhanded] at hreach
    refine hreach.repair f.toError (fun hbands => ?_) hids
    obtain ⟨qe,hqe,hruns⟩ := henv.runs
    obtain ⟨a,ha⟩ := hruns node ctx
    rw [executeTool,htool,hqe] at hcall
    have hexec : tool.execute node.params a = .error f := ha.symm.trans hcall
    rw [hhanded,hbands] at hreach
    exact execute_bands_error hl hreach hexec hrepairable
  returned := by
    rintro t env inputs spec ctx outputs node rfl hspec henv hreach hcall
    refine ⟨hreach,?_⟩
    simp only [t2Bands,List.mem_cons,List.not_mem_nil,or_false] at hspec
    have htool : spec.tool = "qe" := by rcases hspec with rfl | rfl | rfl <;> rfl
    obtain ⟨qe,hqe,hruns⟩ := henv.runs
    obtain ⟨a,ha⟩ := hruns node ctx
    rw [executeTool,htool,hqe] at hcall
    exact ⟨a,ha.symm.trans hcall⟩

end Calls

section Alignment
open QEParamRepairer
variable {F : Type} {tool : QECalcTool F} {inputs params outputs : Dict} {a : Answers F} {nums : Numerals}

/-- The axis in the outputs of the bands node has as many entries as the k-point list that the input
of the nscf node emits. -/
def Aligned (tool : QECalcTool F) (s : Sched) : Prop := ∃ i points axis,
  tool.compiler.nodeInput tool.target (s.run.nodes "nscf").params = some i ∧ i.pathPoints = some points ∧
    (s.run.nodes "bands").outputs.get? "k_axis" = some (.arr axis) ∧ axis.length = points

/-- The inputs give a number of path points, and the nscf node still has it. -/
def PathKept (s : Sched) : Prop := optional s.run.inputs "nkpoints_bands" ≠ none ∧
  (s.run.nodes "nscf").params.get? "nkpoints_bands" = s.run.inputs.get? "nkpoints_bands"

theorem source_of_resolve {tgt : Target F} {db : Profile F} {atoms : Atoms F} {alat : F}
    (h : tool.compiler.resolve tgt.material tgt.atoms = some (db,atoms,alat)) :
      tool.source tgt = some atoms := by
  unfold source
  unfold QECompiler.resolve at h
  cases htgt : tgt.atoms with
  | some given =>
    rw [htgt] at h
    obtain ⟨p,_,hp⟩ := Option.map_eq_some_iff.mp h
    obtain ⟨_,rfl,_⟩ := hp
    rfl
  | none =>
    rw [htgt] at h
    simp only [Option.bind_eq_bind,Option.bind_eq_some_iff,Option.pure_def,Option.some.injEq] at h
    obtain ⟨e,he,atoms',hatoms,hp⟩ := h
    obtain ⟨_,rfl,_⟩ := hp
    rw [Option.none_or,he]
    exact hatoms

theorem compileScf_points {c : QECompiler F} {material : String} {o : QECompiler.ScfArgs F} {i : Input}
    (h : c.compileScf material o = some i) (hcalc : o.calculation = "nscf") (hmode : o.kmode = "path") :
    ∃ db atoms alat points, c.resolve material o.atoms = some (db,atoms,alat) ∧
      c.bandpath atoms (max 10 o.nkpointsBands) = some points ∧ i.pathPoints = some points.length := by
  simp only [QECompiler.compileScf,Option.bind_eq_bind,Option.bind_eq_some_iff,Option.pure_def,
    Option.some.injEq] at h
  obtain ⟨⟨db,atoms,alat⟩,hresolve,_,_,_,_,_,_,_,_,_,_,species,_,card,hcard,rfl⟩ := h
  rw [QECompiler.kpointsCard,if_pos ⟨hcalc,hmode⟩] at hcard
  obtain ⟨points,hpoints,rfl⟩ := Option.map_eq_some_iff.mp hcard
  refine ⟨db,atoms,alat,points,hresolve,hpoints,?_⟩
  unfold Input.pathPoints Input.card
  by_cases hcell : db.ibrav = 0 <;> simp [hcell]

/-- A succeeded nscf node was compiled with a path through so many points. -/
theorem nscf_points (hl : tool.Laws) (h : PathParams nums inputs "nscf" params)
    (hok : tool.execute params a = .ok outputs) :
    ∃ tgt src i n points, tool.target (inputs.get? "material") (inputs.get? "structure") none = some tgt ∧
      tool.source tgt = some src ∧ tool.compiler.nodeInput tool.target params = some i ∧
      tool.compiler.asInt params "nkpoints_bands" 60 = some n ∧
      tool.compiler.bandpath src (max 10 n) = some points ∧ i.pathPoints = some points.length := by
  have hkind := h.textOr hl
  have hmode : tool.compiler.textOr params "kmode" "path" = "path" := by
    rw [QECompiler.textOr,h.unset "kmode" (by decide)]
  unfold execute at hok
  rw [h.source "material" (by decide),h.source "structure" (by decide),h.unset "prefix" (by decide)] at hok
  split at hok
  · cases hok
  · next tgt htgt =>
    simp only [hkind] at hok
    split_ifs at hok with hsave hpw
    · cases hi : tool.compiler.nodeInput tool.target params with
      | none =>
        rw [hi] at hok
        cases hok
      | some i =>
        have hinput := hi
        unfold QECompiler.nodeInput at hinput
        rw [h.source "material" (by decide),h.source "structure" (by decide),h.unset "prefix" (by decide),htgt]
          at hinput
        simp only [hkind,Option.bind_eq_bind,Option.bind_some] at hinput
        rw [if_neg (by decide),if_neg (by decide),if_pos trivial] at hinput
        simp only [Option.bind_eq_some_iff] at hinput
        obtain ⟨kpoints,_,convThr,_,n,hn,hcompile⟩ := hinput
        obtain ⟨db,src,alat,points,hresolve,hpoints,hcount⟩ := compileScf_points hcompile rfl hmode
        exact ⟨tgt,src,i,n,points,htgt,source_of_resolve hresolve,rfl,hn,hpoints,hcount⟩
    · exact absurd (by decide) hpw
    · exact absurd (by decide) hpw

theorem get?_append (d d' : Dict) (key : String) : Dict.get? (d ++ d') key = (d.get? key).or (d'.get? key) := by
  unfold Dict.get?
  exact List.lookup_append

/-- A succeeded bands node has the axis of its own path. -/
theorem bands_axis (hl : tool.Laws) (h : PathParams nums inputs "bands" params)
    (hok : tool.execute params a = .ok outputs) :
    ∃ tgt n, tool.target (inputs.get? "material") (inputs.get? "structure") none = some tgt ∧
      tool.compiler.asInt params "nkpoints_bands" 100 = some n ∧
      outputs.get? "k_axis" = (tool.axisOutputs tgt n).get? "k_axis" := by
  unfold execute at hok
  rw [h.source "material" (by decide),h.source "structure" (by decide),h.unset "prefix" (by decide)] at hok
  split at hok
  · cases hok
  · next tgt htgt =>
    simp only [h.textOr hl] at hok
    split_ifs at hok with hsave hpw
    · exact absurd hpw (by decide)
    · unfold runBands at hok
      split at hok
      · next n input hn _ =>
        split_ifs at hok with hjob
        split at hok
        · cases hok
        · split at hok
          · cases hok
          · split_ifs at hok with hpassed
            obtain rfl := Except.ok.inj hok
            refine ⟨tgt,n,htgt,hn,?_⟩
            have hfront : ∀ bands, (tool.bandsOutputs bands).get? "k_axis" = none := fun _ => rfl
            have hback : ∀ bands, (tool.eigenvalueOutputs bands).get? "k_axis" = none := by
              intro bands
              unfold eigenvalueOutputs
              cases bands.eigenvalues <;> rfl
            rw [get?_append,get?_append,hfront,hback,Option.none_or,Option.or_none]
      · cases hok

theorem axis_entries (hl : tool.Laws) {tgt : Target F} {src : Atoms F} (hsrc : tool.source tgt = some src)
    {n m : ℤ} {points : List (Vec F)} (hpath : tool.compiler.bandpath src n = some points) :
    ∃ axis path, (tool.axisOutputs tgt m).get? "k_axis" = some (.arr axis) ∧
      tool.compiler.bandpath src (max 10 m) = some path ∧ axis.length = path.length := by
  obtain ⟨⟨x,ticks,labels⟩,haxis⟩ := Option.isSome_iff_exists.mp
    (hl.drawn src n (max 10 m) (Option.isSome_iff_exists.mpr ⟨_,hpath⟩))
  obtain ⟨path,hdrawn,hlength⟩ := hl.entries _ _ _ _ _ haxis
  refine ⟨x.map tool.rounded,path,?_,hdrawn,by rw [List.length_map,hlength]⟩
  rw [axisOutputs,hsrc,Option.bind_some,haxis]
  rfl

/-- The two nodes read the same number, or the nscf node a lower one, from 24 on. -/
theorem points_cases {given params params' : Dict} (c : QECompiler F) {n m : ℤ}
    (hbands : params'.get? "nkpoints_bands" = given.get? "nkpoints_bands")
    (hnscf : params.get? "nkpoints_bands" = given.get? "nkpoints_bands" ∨
      Shrunk c.nums (given.get? "nkpoints_bands") (params.get? "nkpoints_bands"))
    (hn : c.asInt params "nkpoints_bands" 60 = some n) (hm : c.asInt params' "nkpoints_bands" 100 = some m) :
    ((optional given "nkpoints_bands" ≠ none ∧
      params.get? "nkpoints_bands" = given.get? "nkpoints_bands") ∧ n = m) ∨
    (¬ (optional given "nkpoints_bands" ≠ none ∧
      params.get? "nkpoints_bands" = given.get? "nkpoints_bands") ∧ minBandPathPoints ≤ n ∧ n < m) := by
  unfold QECompiler.asInt at hn hm
  rw [QECompiler.optional_congr hbands] at hm
  rcases hnscf with hsame | ⟨v,k,l,hgiven,hk,hmin,hlt,hleft⟩
  · rw [QECompiler.optional_congr hsame] at hn
    cases hopt : optional given "nkpoints_bands" with
    | none =>
      rw [hopt] at hn hm
      obtain rfl := Option.some.inj hn
      obtain rfl := Option.some.inj hm
      exact .inr ⟨fun h => h.1 rfl,by decide,by decide⟩
    | some v =>
      rw [hopt] at hn hm
      exact .inl ⟨⟨Option.some_ne_none v,hsame⟩,Option.some.inj (hn.symm.trans hm)⟩
  · have hopt : optional given "nkpoints_bands" = some v := by
      unfold optional
      rw [hgiven]
      cases v <;> first | rfl | cases hk
    have hleft' : optional params "nkpoints_bands" = some (.num (l : ℚ)) := by
      unfold optional
      rw [hleft]
    rw [hopt] at hm
    rw [hleft'] at hn
    simp only [hk,Except.toOption,Option.some.injEq] at hm
    simp only [toInt,truncate_intCast,Except.toOption,Option.some.injEq] at hn
    subst hm hn
    refine .inr ⟨fun h => ?_,hmin,hlt⟩
    rw [hleft,hgiven] at h
    obtain rfl := Option.some.inj h.2
    rw [toInt,truncate_intCast] at hk
    exact absurd (Except.ok.inj hk) hlt.ne

variable {e : GraphEngine} {v : ValidTemplate} {st : Store} {runId : RunId} {s : Sched}
variable {entry : GraphEngine.EntryPoint} {input : ℕ → Tick}

/-- In every state of every call, a succeeded bands node is aligned exactly if the nscf node kept
the number of path points that the inputs gave. -/
theorem aligned_iff (hl : tool.Laws) (hst : History tool.Serves e st)
    (henter : e.call st runId entry = .enters v s) (ht : v.template = t2Bands)
    (hinput : ∀ n, tool.Serves (input n).env) (n : ℕ) :
    let s' := (e.scheduler.run v.template input s n).state
    (s'.run.nodes "bands").state = .succeeded → (Aligned tool s' ↔ PathKept s') := by
  intro s' hs
  have hreach := hst.session (path_rule hl).sessionRule henter ht hinput n
  have hrec := call_run_recorded hst.reachable.good henter input n
  have hids : ∀ id ∈ ["nscf","bands"], id ∈ v.template.ids := by
    rw [ht]
    decide
  have hdep : Runtime.DependsOn v.template "bands" "nscf" := by
    rw [ht]
    exact ⟨bandsSpec,by simp [t2Bands],rfl,by simp [bandsSpec]⟩
  have hnscf : (s'.run.nodes "nscf").state = .succeeded := hrec.succeeded_below (.single hdep) hs
  obtain ⟨hparams,a,hok⟩ := hreach.done "nscf" (hids _ (by decide)) hnscf
  obtain ⟨hparams',a',hok'⟩ := hreach.done "bands" (hids _ (by decide)) hs
  obtain ⟨tgt,src,i,k,points,htgt,hsrc,hi,hk,hpoints,hcount⟩ := nscf_points hl hparams hok
  obtain ⟨tgt',m,htgt',hm,hout⟩ := bands_axis hl hparams' hok'
  obtain rfl := Option.some.inj (htgt.symm.trans htgt')
  obtain ⟨axis,path,haxis,hpath,hlength⟩ := axis_entries hl hsrc hpoints
  have hgiven : (s'.run.nodes "bands").params.get? "nkpoints_bands" =
      s.run.inputs.get? "nkpoints_bands" :=
    (hparams'.points (by decide)).resolve_right fun h => absurd h.1 (by decide)
  have hleft := (hparams.points (by decide)).imp_right And.right
  have hsame : Aligned tool s' ↔ points.length = path.length := by
    constructor
    · rintro ⟨i',p,axis',hi',hp,haxis',hlen⟩
      obtain rfl := Option.some.inj (hi.symm.trans hi')
      obtain rfl := Option.some.inj (hcount.symm.trans hp)
      rw [hout,haxis,Option.some.injEq,Json.arr.injEq] at haxis'
      rw [← hlen,← haxis',hlength]
    · intro heq
      exact ⟨i,_,axis,hi,hcount,hout.trans haxis,hlength.trans heq.symm⟩
  have hinputs : s'.run.inputs = s.run.inputs := hreach.given
  rw [hsame,PathKept,hinputs]
  rcases points_cases tool.compiler hgiven hleft hk hm with ⟨hkept,rfl⟩ | ⟨hlost,hmin,hlt⟩
  · rw [Option.some.inj (hpoints.symm.trans hpath)]
    exact iff_of_true rfl hkept
  · refine iff_of_false (fun heq => ?_) hlost
    have h10 : (10 : ℤ) ≤ minBandPathPoints := by decide
    rw [max_eq_right (h10.trans hmin)] at hpoints
    rw [max_eq_right (h10.trans (hmin.trans hlt.le))] at hpath
    exact absurd heq (hl.longer _ _ _ _ _ hmin hlt hpoints hpath).ne

end Alignment

section Samples

/-- Silicon on rationals; a path is as long as it is asked to be. -/
def plotTool : QECalcTool ℚ where
  compiler := { QECompiler.exactNumbers with
    bandpath := fun _ n => some (List.replicate n.toNat (0,0,0))
    pathSegments := fun _ => some [] }
  unicode := {}
  target := QECompiler.namedTarget
  axis := fun _ n => some (List.replicate n.toNat 0,[],[])
  float := .num
  rounded := .num

theorem plotTool_laws : plotTool.Laws where
  text s := rfl
  drawn _ _ _ _ := rfl
  entries _ n x ticks labels h := by
    obtain ⟨rfl,_⟩ := Prod.mk.inj (Option.some.inj h)
    exact ⟨_,rfl,by rw [List.length_replicate,List.length_replicate]⟩
  longer _ n m ps qs hmin hlt hps hqs := by
    obtain rfl := Option.some.inj hps
    obtain rfl := Option.some.inj hqs
    rw [List.length_replicate,List.length_replicate]
    unfold QEParamRepairer.minBandPathPoints at hmin
    omega

def scfText : String := "     convergence has been achieved in   8 iterations\n     JOB DONE."

def nscfText : String :=
  "     End of band structure calculation\n     the Fermi energy is     6.1 ev\n     JOB DONE."

/-- Every calculation succeeds, but for the first nscf attempt where `late` says so. -/
def plotAnswers (late : Bool) (node : NodeRun) : Answers ℚ where
  pw := if late ∧ node.nodeId = "nscf" ∧ node.attempt = 1 then
      .error (.toolError (executionError "pw.x timed out after 600s".toList))
    else .ok [("stdout_file",.str node.nodeId)]
  bandsXml := some ("si.xml",⟨⟨8,100,6⟩,1,false,none⟩)
  readText := fun path => if path = "scf" then scfText.toList else nscfText.toList
  other := .ok []

def plotEnv (late : Bool) : Env where
  tools := [("qe",fun node _ => plotTool.execute node.params (plotAnswers late node))]
  repairers := [("qe_param_bump",QEParamRepairer.repair plotTool.compiler.nums)]

theorem plotEnv_serves (late : Bool) : plotTool.Serves (plotEnv late) where
  repairs := by
    rintro _ ⟨⟩
    rfl
  runs := ⟨_,rfl,fun node _ => ⟨plotAnswers late node,rfl⟩⟩

def plotInput (late : Bool) : ℕ → Tick := fun _ => { env := plotEnv late, done := ["scf","nscf","bands"] }

/-- The state of the fresh run after so many iterations. -/
def plotState (late : Bool) (n : ℕ) : Sched :=
  ((soleEngine t2BandsValid false).scheduler.run t2Bands (plotInput late) (firstStart t2BandsValid) n).state

/-- The number of path points, where it is a number. -/
def pathNumber (params : Dict) : Option ℚ :=
  match params.get? "nkpoints_bands" with
  | some (.num q) => some q
  | _ => none

def axisLength (outputs : Dict) : Option ℕ :=
  match outputs.get? "k_axis" with
  | some (.arr axis) => some axis.length
  | _ => none

theorem get?_of_pathNumber {params : Dict} {q : ℚ} (h : pathNumber params = some q) :
    params.get? "nkpoints_bands" = some (.num q) := by
  unfold pathNumber at h
  split at h
  · next heq =>
    obtain rfl := Option.some.inj h
    exact heq
  · cases h

theorem createdStore_history (late : Bool) :
    History plotTool.Serves (soleEngine t2BandsValid late) (createdStore t2BandsValid) :=
  .create .empty rfl (createdStore_create t2BandsValid late)

theorem aligned_silicon : ((plotState false 3).run.nodes "bands").state = .succeeded ∧
    Aligned plotTool (plotState false 3) := by
  have hrun : (((plotState false 3).run.nodes "bands").state,
      pathNumber ((plotState false 3).run.nodes "nscf").params,pathNumber (plotState false 3).run.inputs) =
        (.succeeded,some 100,some 100) := by decide +kernel
  obtain ⟨hs,hnumbers⟩ := Prod.mk.inj hrun
  obtain ⟨hleft,hgiven⟩ := Prod.mk.inj hnumbers
  have hkept : PathKept (plotState false 3) := by
    refine ⟨?_,(get?_of_pathNumber hleft).trans (get?_of_pathNumber hgiven).symm⟩
    unfold optional
    rw [get?_of_pathNumber hgiven]
    exact Option.some_ne_none _
  have hinput : ∀ n, plotTool.Serves (plotInput false n).env := fun _ => plotEnv_serves false
  have hiff := aligned_iff plotTool_laws (createdStore_history false) (createdStore_start false) rfl hinput 3
  exact ⟨hs,(hiff hs).mpr hkept⟩

/-- A run in which the first nscf attempt ran out of time. -/
theorem silicon_misaligned : History plotTool.Serves (soleEngine t2BandsValid false)
    (createdStore t2BandsValid) ∧
    (soleEngine t2BandsValid false).call (createdStore t2BandsValid) "run_1" .start =
      .enters t2BandsValid (firstStart t2BandsValid) ∧
    (∀ n, plotTool.Serves (plotInput true n).env) ∧
    ¬ ∀ n, ((plotState true n).run.nodes "bands").state = .succeeded → Aligned plotTool (plotState true n) := by
  refine ⟨createdStore_history false,createdStore_start _,fun _ => plotEnv_serves true,fun h => ?_⟩
  have hrun : (((plotState true 4).run.nodes "bands").state,
      ((plotTool.compiler.nodeInput plotTool.target ((plotState true 4).run.nodes "nscf").params).bind
        Input.pathPoints),axisLength ((plotState true 4).run.nodes "bands").outputs) =
        (.succeeded,some 60,some 100) := by decide +kernel
  obtain ⟨hs,hlengths⟩ := Prod.mk.inj hrun
  obtain ⟨hemitted,hdrawn⟩ := Prod.mk.inj hlengths
  obtain ⟨i,points,axis,hi,hpoints,hout,hlength⟩ := h 4 hs
  rw [hi,Option.bind_some,hpoints,Option.some.injEq] at hemitted
  rw [axisLength,hout,Option.some.injEq] at hdrawn
  omega

end Samples

end QECalcTool
end DftForge.Compiler
