import DftForge.Compiler.BandAxis
import DftForge.Compiler.Meshes

/-! # The mesh of a density of states

dos.x counts the states of the nscf run, which should be sampled at least as densely as the scf
run. The runner compiles the nscf input with the band path that is the default of `compile_scf`;
in `t2_dos` the nscf node never sees the mesh that the scf node was given.
-/
namespace DftForge.Compiler
open DftForge.Runtime DftForge.Python DftForge.Engines DftForge.Catalog DftForge.Hpc DftForge.Qe

/-- Both inputs have automatic meshes, and the three divisions of the second are no smaller. -/
def DenseMesh (scf nscf : Input) : Prop :=
  ∀ axis < 3, ∃ n m, scf.meshNumber axis = some n ∧ nscf.meshNumber axis = some m ∧ n ≤ m

/-- The first two calls of a run are pw.x on the scf and the nscf input, with such meshes. -/
def Flow.Dense (fl : Flow) : Prop :=
  ∃ scf nscf rest, fl.calls = (.pw,scf) :: (.pw,nscf) :: rest ∧ DenseMesh scf nscf

namespace QECompiler
variable {F : Type} {c : QECompiler F} {material : String} {i j : Input}

/-- No mesh is given, or one whose divisions are at most those of the doubled default. -/
def MeshWithin (c : QECompiler F) (kpoints : Option (List Json)) (default : List ℤ) : Prop :=
  kpoints.getD [] = [] ∨ ∃ row, c.meshRow (kpoints.getD []) = some row ∧ ∀ axis < 3, ∃ n d,
    rowNumber row axis = some n ∧ default[axis]? = some d ∧ n ≤ doubledDivision d

theorem le_doubledDivision (n : ℤ) : n ≤ doubledDivision n := by
  unfold doubledDivision
  split_ifs <;> omega

theorem mesh_given {kpoints : Option (List Json)} (h : kpoints.getD [] ≠ []) (db : Profile F) :
    mesh kpoints db = kpoints.getD [] := by
  unfold mesh
  split
  · rfl
  · next hnone =>
    exfalso
    rcases kpoints with _ | _ | ⟨k,ks⟩
    · exact h rfl
    · exact h rfl
    · exact hnone k ks rfl

theorem length_of_meshRow {ks : List Json} {row : String} (h : c.meshRow ks = some row) : 6 ≤ ks.length := by
  unfold meshRow at h
  split at h
  · simp
  · cases h

theorem doubled_division (ns : List ℤ) {axis : ℕ} (h : axis < 3) :
    (doubledMesh ns)[axis]? = ns[axis]?.map doubledDivision := by
  rcases ns with _ | ⟨n0,_ | ⟨n1,_ | ⟨n2,ns⟩⟩⟩ <;> interval_cases axis <;> rfl

/-- The divisions of the two rows, of the given mesh and of the doubled default. -/
theorem denseMesh_iff (hc : c.WritesInts) {kpoints : Option (List Json)} {db : Profile F} {row row' : String}
    (hrow : c.meshRow (mesh kpoints db) = some row)
    (hrow' : c.meshRow ((doubledMesh (defaultMesh db)).map fun n : ℤ => Json.num n) = some row')
    (hi : i.card "K_POINTS automatic" = some [row]) (hj : j.card "K_POINTS automatic" = some [row']) :
    DenseMesh i j ↔ c.MeshWithin kpoints (defaultMesh db) := by
  have hdoubled : ∀ axis < 3, j.meshNumber axis = (defaultMesh db)[axis]?.map doubledDivision := by
    intro axis haxis
    rw [meshNumber_of_row hj,rowNumber_ints hc hrow' (by omega),doubled_division _ haxis]
  by_cases hnone : kpoints.getD [] = []
  · refine iff_of_true (fun axis haxis => ?_) (.inl hnone)
    rw [mesh_absent hnone] at hrow
    have hlen := length_of_meshRow hrow
    rw [List.length_map] at hlen
    obtain ⟨d,hd⟩ : ∃ d, (defaultMesh db)[axis]? = some d := ⟨_,List.getElem?_eq_getElem (by omega)⟩
    refine ⟨d,doubledDivision d,?_,by rw [hdoubled axis haxis,hd]; rfl,le_doubledDivision d⟩
    rw [meshNumber_of_row hi,rowNumber_ints hc hrow (by omega)]
    exact hd
  · rw [mesh_given hnone] at hrow
    constructor
    · refine fun hdense => .inr ⟨row,hrow,fun axis haxis => ?_⟩
      obtain ⟨n,m,hn,hm,hle⟩ := hdense axis haxis
      rw [hdoubled axis haxis] at hm
      obtain ⟨d,hd,rfl⟩ := Option.map_eq_some_iff.mp hm
      exact ⟨n,d,(meshNumber_of_row hi axis).symm.trans hn,hd,hle⟩
    · rintro (habsent | ⟨given,hgiven,hwithin⟩) axis haxis
      · exact absurd habsent hnone
      · obtain rfl := Option.some.inj (hrow.symm.trans hgiven)
        obtain ⟨n,d,hn,hd,hle⟩ := hwithin axis haxis
        exact ⟨n,doubledDivision d,(meshNumber_of_row hi axis).trans hn,
          by rw [hdoubled axis haxis,hd]; rfl,hle⟩

/-- The nscf input of the runner lists a band path, so it has no mesh. -/
theorem stageInput_nscf {params : Dict} {meshKey : String}
    (h : c.stageInput material params "nscf" meshKey = some j) :
    j.card "K_POINTS automatic" = none := by
  unfold stageInput at h
  simp only [Option.bind_eq_bind,Option.bind_eq_some_iff] at h
  obtain ⟨kpoints,_,hj⟩ := h
  obtain ⟨db,atoms,_,card,_,hkpoints,hcard⟩ := compileScf_kpoints hj
  rw [kpointsCard,if_pos ⟨rfl,rfl⟩] at hkpoints
  obtain ⟨points,_,rfl⟩ := Option.map_eq_some_iff.mp hkpoints
  rw [hcard]
  exact if_neg (show ¬ "K_POINTS crystal" = "K_POINTS automatic" by decide)

theorem runT2Dos_not_dense {params : Dict} {fl : Flow} (h : c.runT2Dos material params = some fl) :
    ¬ fl.Dense := by
  simp only [runT2Dos,Option.bind_eq_bind,Option.bind_eq_some_iff,Option.pure_def,Option.some.injEq] at h
  obtain ⟨_,_,scf,_,nscf,hnscf,dos,_,rfl⟩ := h
  rintro ⟨scf',nscf',rest,hcalls,hdense⟩
  obtain ⟨_,hcalls⟩ := List.cons.inj hcalls
  obtain ⟨_,rfl⟩ := Prod.mk.inj (List.cons.inj hcalls).1
  obtain ⟨_,m,_,hm,_⟩ := hdense 0 (by decide)
  rw [Input.meshNumber,stageInput_nscf hnscf] at hm
  cases hm

end QECompiler

namespace QECalcTool
open QEParamRepairer QECompiler

section Reach
variable {F : Type} {tool : QECalcTool F} {inputs params outputs : Dict} {nums : Numerals} {a : Answers F}

/-- A repair gives no mesh to a node without one. -/
theorem repair_kpoints_none {node : NodeRun} (h : node.params.get? "kpoints" = none) (error : ToolError) :
    (repair nums node error).params.get? "kpoints" = none := by
  unfold repair
  cases branch error with
  | declined => exact h
  | bands => exact (repairBands_get? node (by decide)).trans h
  | timeout =>
    unfold repairTimeout
    rw [h]
    dsimp only
    repeat' split
    all_goals first
      | exact h
      | exact (Dict.get?_set_of_ne (by decide) _ _).trans h
  | cutoff =>
    rcases @repairCutoff_params nums node with hkept | ⟨current,_,_,hset⟩
    · rw [hkept]
      exact h
    · rw [hset,Dict.get?_set_of_ne (by decide),Dict.get?_set_of_ne (by decide)]
      exact h

/-- The parameters of a node of `t2_dos`, whatever repairs it had. -/
structure MeshParams (inputs : Dict) (id : NodeId) (params : Dict) : Prop where
  source : ∀ key ∈ ["material","structure"], params.get? key = inputs.get? key
  kind : params.get? "calc" = some (.str id)
  unset : params.get? "prefix" = none
  mode : id = "nscf" → params.get? "kmode" = some (.str "uniform") ∧ params.get? "kpoints" = none

/-- A succeeded node has outputs that the tool returned on its parameters. -/
def MeshDone (tool : QECalcTool F) : DoneNode := fun inputs id params outputs =>
  MeshParams inputs id params ∧ ∃ a, tool.execute params a = .ok outputs

theorem MeshParams.resolved {run : GraphRun} {spec : NodeSpec} (hspec : spec ∈ t2Dos.nodes)
    (h : resolveParams t2Dos run spec.params = .ok params) : MeshParams run.inputs spec.id params := by
  simp only [t2Dos,List.mem_cons,List.not_mem_nil,or_false] at hspec
  have hsource : ∀ key ∈ ["material","structure"], params.get? key = run.inputs.get? key := by
    intro key hkey
    simp only [List.mem_cons,List.not_mem_nil,or_false] at hkey
    rcases hspec with rfl | rfl | rfl | rfl <;> rcases hkey with rfl | rfl <;>
      exact resolved_input h rfl (by decide)
  have hcalc : params.get? "calc" = some (.str spec.id) := by
    obtain ⟨w,hw,hparams⟩ : ∃ w, Except.ok (Json.str spec.id) = .ok w ∧ params.get? "calc" = some w := by
      rcases hspec with rfl | rfl | rfl | rfl <;> exact resolveFields_get? h "calc"
    obtain rfl := Except.ok.inj hw
    exact hparams
  have hunset : params.get? "prefix" = none := by
    rcases hspec with rfl | rfl | rfl | rfl <;> exact resolveFields_get? h "prefix"
  refine ⟨hsource,hcalc,hunset,fun hid => ?_⟩
  rcases hspec with rfl | rfl | rfl | rfl
  · exact absurd hid (by decide)
  · obtain ⟨w,hw,hparams⟩ := resolveFields_get? h "kmode"
    obtain rfl := Except.ok.inj hw
    exact ⟨hparams,resolveFields_get? h "kpoints"⟩
  · exact absurd hid (by decide)
  · exact absurd hid (by decide)

theorem MeshParams.repair {id : NodeId} {node : NodeRun} (h : MeshParams inputs id node.params)
    (error : ToolError) : MeshParams inputs id (QEParamRepairer.repair nums node error).params := by
  have hkept : ∀ key ∉ ["nbnd","nkpoints_bands","kpoints","ecutwfc","ecutrho"],
      (QEParamRepairer.repair nums node error).params.get? key = node.params.get? key :=
    fun key hkey => repair_get? node error hkey
  refine ⟨fun key hkey => ?_,?_,?_,fun hid => ⟨?_,repair_kpoints_none (h.mode hid).2 error⟩⟩
  · have hother : key ∉ ["nbnd","nkpoints_bands","kpoints","ecutwfc","ecutrho"] := by
      revert key
      decide
    rw [hkept key hother]
    exact h.source key hkey
  · rw [hkept "calc" (by decide)]
    exact h.kind
  · rw [hkept "prefix" (by decide)]
    exact h.unset
  · rw [hkept "kmode" (by decide)]
    exact (h.mode hid).1

/-- What single nodes of `t2_dos` are like, whatever happens to them. -/
theorem mesh_rule : NodeRule (· = t2Dos) tool.Serves MeshParams (MeshDone tool) where
  resolved ht hspec h := by
    subst ht
    exact MeshParams.resolved hspec h
  repaired := by
    rintro t env env' inputs spec ctx f repairer node handed rfl hspec _ henv' hreach _ _ hused hhanded
    have hnone : spec.repair = none := by
      simp only [t2Dos,List.mem_cons,List.not_mem_nil,or_false] at hspec
      rcases hspec with rfl | rfl | rfl | rfl <;> rfl
    have hqe : repairer = QEParamRepairer.repair tool.compiler.nums := by
      rw [repairerFor,hnone] at hused
      obtain ⟨handler,hhead,rfl⟩ := Option.map_eq_some_iff.mp hused
      exact henv'.repairs handler hhead
    subst hqe
    rw [← hhanded] at hreach
    exact hreach.repair f.toError
  returned := by
    rintro t env inputs spec ctx outputs node rfl hspec henv hreach hcall
    refine ⟨hreach,?_⟩
    simp only [t2Dos,List.mem_cons,List.not_mem_nil,or_false] at hspec
    have htool : spec.tool = "qe" := by rcases hspec with rfl | rfl | rfl | rfl <;> rfl
    obtain ⟨qe,hqe,hruns⟩ := henv.runs
    obtain ⟨a,ha⟩ := hruns node ctx
    rw [executeTool,htool,hqe] at hcall
    exact ⟨a,ha.symm.trans hcall⟩

end Reach

section Dense
variable {F : Type} {tool : QECalcTool F} {inputs params outputs : Dict} {a : Answers F}

/-- What the pw.x nodes were last compiled with: the inputs of both have meshes, the second no coarser. -/
def Dense (tool : QECalcTool F) (s : Sched) : Prop := ∃ i j,
  tool.compiler.nodeInput tool.target (s.run.nodes "scf").params = some i ∧
    tool.compiler.nodeInput tool.target (s.run.nodes "nscf").params = some j ∧ DenseMesh i j

/-- The scf node has no mesh among its parameters, or one within the doubled default of the material
or structure of the run. -/
def MeshKept (tool : QECalcTool F) (s : Sched) : Prop := ∃ kpoints tgt db atoms alat,
  givenMesh (s.run.nodes "scf").params = some kpoints ∧
    tool.target (s.run.inputs.get? "material") (s.run.inputs.get? "structure") none = some tgt ∧
      tool.compiler.resolve tgt.material tgt.atoms = some (db,atoms,alat) ∧
        tool.compiler.MeshWithin kpoints (defaultMesh db)

theorem MeshParams.textOr {id : NodeId} (hl : tool.Laws) (h : MeshParams inputs id params) :
    tool.compiler.textOr params "calc" "scf" = id := by
  rw [QECompiler.textOr,h.kind]
  exact hl.text id

theorem MeshParams.target {id : NodeId} (h : MeshParams inputs id params) :
    tool.target (params.get? "material") (params.get? "structure") (params.get? "prefix") =
      tool.target (inputs.get? "material") (inputs.get? "structure") none := by
  rw [h.source "material" (by decide),h.source "structure" (by decide),h.unset]

/-- A calculation that ran pw.x was compiled. -/
theorem execute_compiled (hkind : tool.compiler.textOr params "calc" "scf" ∈ ["scf","nscf"])
    (hok : tool.execute params a = .ok outputs) :
    ∃ i, tool.compiler.nodeInput tool.target params = some i := by
  unfold execute at hok
  split at hok
  · cases hok
  · have hpw : tool.compiler.textOr params "calc" "scf" ∈ ["vc-relax","scf","nscf"] :=
      List.mem_cons_of_mem _ hkind
    simp only [if_pos hpw] at hok
    split_ifs at hok with hsave
    cases hi : tool.compiler.nodeInput tool.target params with
    | none =>
      rw [hi] at hok
      cases hok
    | some i => exact ⟨i,rfl⟩

/-- The scf node was compiled with its mesh, or that of the profile. -/
theorem scf_mesh (hl : tool.Laws) (h : MeshParams inputs "scf" params) {i : Input}
    (hi : tool.compiler.nodeInput tool.target params = some i) : ∃ kpoints tgt db atoms alat row,
    givenMesh params = some kpoints ∧
      tool.target (inputs.get? "material") (inputs.get? "structure") none = some tgt ∧
      tool.compiler.resolve tgt.material tgt.atoms = some (db,atoms,alat) ∧
      tool.compiler.meshRow (mesh kpoints db) = some row ∧ i.card "K_POINTS automatic" = some [row] := by
  unfold nodeInput at hi
  rw [h.target,h.textOr hl] at hi
  simp only [Option.bind_eq_bind,Option.bind_eq_some_iff] at hi
  obtain ⟨tgt,htgt,hi⟩ := hi
  rw [if_neg (by decide),if_pos trivial,Option.bind_eq_some_iff] at hi
  obtain ⟨kpoints,hkpoints,hi⟩ := hi
  obtain ⟨convThr,_,hi⟩ := Option.bind_eq_some_iff.mp hi
  obtain ⟨db,atoms,alat,card,hresolve,hcard,hemitted⟩ := compileScf_kpoints hi
  obtain ⟨row,hrow,rfl⟩ := kpointsCard_scf (show ¬ "scf" = "nscf" by decide) hcard
  exact ⟨kpoints,tgt,db,atoms,alat,row,hkpoints,htgt,hresolve,hrow,hemitted⟩

/-- The nscf node was compiled with the doubled mesh of the profile. -/
theorem nscf_mesh (hl : tool.Laws) (h : MeshParams inputs "nscf" params) {j : Input}
    (hj : tool.compiler.nodeInput tool.target params = some j) : ∃ tgt db atoms alat row,
    tool.target (inputs.get? "material") (inputs.get? "structure") none = some tgt ∧
      tool.compiler.resolve tgt.material tgt.atoms = some (db,atoms,alat) ∧
      tool.compiler.meshRow ((doubledMesh (defaultMesh db)).map fun n : ℤ => Json.num n) = some row ∧
      j.card "K_POINTS automatic" = some [row] := by
  obtain ⟨hmode,hnone⟩ := h.mode rfl
  have hkmode : tool.compiler.textOr params "kmode" "path" = "uniform" := by
    rw [QECompiler.textOr,hmode]
    exact hl.text "uniform"
  have hgiven : givenMesh params = some none := by
    rw [givenMesh,hnone]
  unfold nodeInput at hj
  rw [h.target,h.textOr hl,hgiven] at hj
  simp only [Option.bind_eq_bind,Option.bind_eq_some_iff] at hj
  obtain ⟨tgt,htgt,hj⟩ := hj
  rw [if_neg (by decide),if_neg (by decide),if_pos trivial,Option.bind_some] at hj
  obtain ⟨convThr,_,hj⟩ := Option.bind_eq_some_iff.mp hj
  obtain ⟨points,_,hj⟩ := Option.bind_eq_some_iff.mp hj
  obtain ⟨db,atoms,alat,card,hresolve,hcard,hemitted⟩ := compileScf_kpoints hj
  obtain ⟨row,hrow,rfl⟩ := kpointsCard_uniform rfl (fun hpath => absurd (hkmode.symm.trans hpath) (by decide))
    rfl hcard
  exact ⟨tgt,db,atoms,alat,row,htgt,hresolve,hrow,hemitted⟩

variable {e : GraphEngine} {v : ValidTemplate} {st : Store} {runId : RunId} {s : Sched}
variable {entry : GraphEngine.EntryPoint} {input : ℕ → Tick}

/-- In every state of every call in which the nscf node has succeeded, its mesh is dense enough just
where the mesh of the scf node is within the doubled default. -/
theorem dense_iff (hl : tool.Laws) (hc : tool.compiler.WritesInts) (hst : History tool.Serves e st)
    (henter : e.call st runId entry = .enters v s) (ht : v.template = t2Dos)
    (hinput : ∀ n, tool.Serves (input n).env) (n : ℕ) :
    let s' := (e.scheduler.run v.template input s n).state
    (s'.run.nodes "nscf").state = .succeeded → (Dense tool s' ↔ MeshKept tool s') := by
  intro s' hs
  have hreach := hst.session mesh_rule.sessionRule henter ht hinput n
  have hrec := call_run_recorded hst.reachable.good henter input n
  have hids : ∀ id ∈ ["scf","nscf"], id ∈ v.template.ids := by
    rw [ht]
    decide
  have hdep : Runtime.DependsOn v.template "nscf" "scf" := by
    rw [ht]
    exact ⟨nscfMeshSpec,by simp [t2Dos],rfl,by simp [nscfMeshSpec]⟩
  have hscf : (s'.run.nodes "scf").state = .succeeded := hrec.succeeded_below (.single hdep) hs
  obtain ⟨hparams,a,hok⟩ := hreach.done "scf" (hids _ (by decide)) hscf
  obtain ⟨hparams',a',hok'⟩ := hreach.done "nscf" (hids _ (by decide)) hs
  obtain ⟨i,hi⟩ := execute_compiled (by rw [hparams.textOr hl]; decide) hok
  obtain ⟨j,hj⟩ := execute_compiled (by rw [hparams'.textOr hl]; decide) hok'
  obtain ⟨kpoints,tgt,db,atoms,alat,row,hkpoints,htgt,hresolve,hrow,hcard⟩ := scf_mesh hl hparams hi
  obtain ⟨tgt',db',atoms',alat',row',htgt',hresolve',hrow',hcard'⟩ := nscf_mesh hl hparams' hj
  obtain rfl := Option.some.inj (htgt.symm.trans htgt')
  obtain ⟨rfl,_⟩ := Prod.mk.inj (Option.some.inj (hresolve.symm.trans hresolve'))
  have hinputs : s'.run.inputs = s.run.inputs := hreach.given
  have hiff := denseMesh_iff hc hrow hrow' hcard hcard'
  constructor
  · rintro ⟨i',j',hi',hj',hdense⟩
    obtain rfl := Option.some.inj (hi.symm.trans hi')
    obtain rfl := Option.some.inj (hj.symm.trans hj')
    exact ⟨kpoints,tgt,db,atoms,alat,hkpoints,by rw [hinputs]; exact htgt,hresolve,hiff.mp hdense⟩
  · rintro ⟨kpoints',tgt',db',atoms'',alat'',hkpoints',htgt',hresolve'',hwithin⟩
    obtain rfl := Option.some.inj (hkpoints.symm.trans hkpoints')
    rw [hinputs] at htgt'
    obtain rfl := Option.some.inj (htgt.symm.trans htgt')
    obtain ⟨rfl,_⟩ := Prod.mk.inj (Option.some.inj (hresolve.symm.trans hresolve''))
    exact ⟨i,j,hi,hj,hiff.mpr hwithin⟩

/-- The runner never samples the density of states on a mesh; the graph does so densely just where the
mesh of the scf node is within the doubled default. -/
theorem dos_mesh_iff (hl : tool.Laws) (hc : tool.compiler.WritesInts) :
    (∀ material params fl, tool.compiler.runT2Dos material params = some fl → ¬ fl.Dense) ∧
    ∀ (e : GraphEngine) (v : ValidTemplate) (st : Store) (runId : RunId) (s : Sched)
      (entry : GraphEngine.EntryPoint) (input : ℕ → Tick), History tool.Serves e st →
      e.call st runId entry = .enters v s → v.template = t2Dos → (∀ n, tool.Serves (input n).env) → ∀ n,
        let s' := (e.scheduler.run v.template input s n).state
        (s'.run.nodes "nscf").state = .succeeded → (Dense tool s' ↔ MeshKept tool s') :=
  ⟨fun _ _ _ h => runT2Dos_not_dense h,
    fun _ _ _ _ _ _ _ hst henter ht hinput n => dense_iff hl hc hst henter ht hinput n⟩

end Dense

section Samples

theorem plotTool_writesInts : plotTool.compiler.WritesInts := fun n => by
  have hden : (n : ℚ).den = 1 := rfl
  have hshown : plotTool.compiler.shown (.num n) = intText n := rfl
  rw [hshown,intText,if_pos hden]
  rfl

def t2DosValid : ValidTemplate := ⟨t2Dos,none,rfl⟩

def dosInput : ℕ → Tick := fun _ => { env := plotEnv false, done := ["scf","nscf","dos","pdos"] }

/-- The state of the fresh run after so many iterations. -/
def dosState (n : ℕ) : Sched :=
  ((soleEngine t2DosValid false).scheduler.run t2Dos dosInput (firstStart t2DosValid) n).state

/-- The text of the material. -/
def materialText (params : Dict) : Option String :=
  match params.get? "material" with
  | some (.str m) => some m
  | _ => none

theorem get?_of_materialText {params : Dict} {m : String} (h : materialText params = some m) :
    params.get? "material" = some (.str m) := by
  unfold materialText at h
  split at h
  · next heq =>
    obtain rfl := Option.some.inj h
    exact heq
  · cases h

theorem dense_silicon : ((dosState 2).run.nodes "nscf").state = .succeeded ∧ Dense plotTool (dosState 2) := by
  have hrun : (((dosState 2).run.nodes "nscf").state,
      (givenMesh ((dosState 2).run.nodes "scf").params).map Option.isNone,
      materialText (dosState 2).run.inputs) =
        (.succeeded,some true,some "Si") := by decide +kernel
  obtain ⟨hs,hrest⟩ := Prod.mk.inj hrun
  obtain ⟨hmesh,hmaterial⟩ := Prod.mk.inj hrest
  obtain ⟨kpoints,hkpoints,hnone⟩ := Option.map_eq_some_iff.mp hmesh
  have hsome : (plotTool.compiler.resolve "Si" none).isSome = true := by decide +kernel
  obtain ⟨⟨db,atoms,alat⟩,hresolve⟩ := Option.isSome_iff_exists.mp hsome
  have hkept : MeshKept plotTool (dosState 2) := by
    refine ⟨kpoints,⟨"Si",lowerText "Si",none⟩,db,atoms,alat,hkpoints,?_,hresolve,.inl ?_⟩
    · rw [get?_of_materialText hmaterial]
      rfl
    · rw [Option.isNone_iff_eq_none.mp hnone]
      rfl
  have hst : History plotTool.Serves (soleEngine t2DosValid false) (createdStore t2DosValid) :=
    .create .empty rfl (createdStore_create t2DosValid false)
  have hiff := (dos_mesh_iff plotTool_laws plotTool_writesInts).2 _ _ _ _ _ _ dosInput hst
    (createdStore_start false) rfl (fun _ => plotEnv_serves false) 2
  exact ⟨hs,(hiff hs).mpr hkept⟩

/-- The runner on silicon. -/
theorem silicon_on_path : ¬ ∀ params fl, plotTool.compiler.runT2Dos "Si" params = some fl → fl.Dense := by
  intro h
  have hsome : (plotTool.compiler.runT2Dos "Si" [("nbnd",.num 16)]).isSome = true := by decide +kernel
  obtain ⟨fl,hfl⟩ := Option.isSome_iff_exists.mp hsome
  exact runT2Dos_not_dense hfl (h _ fl hfl)

end Samples

end QECalcTool
end DftForge.Compiler
