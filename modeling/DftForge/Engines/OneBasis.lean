import DftForge.Engines.Cutoffs
import DftForge.Runtime.Histories

/-! # One basis for chained pw.x nodes

An nscf attempt reuses the density of the scf attempt that succeeded, so both should
be compiled with the same cutoffs. Repairs move the cutoffs of one node at a time.
The records of both nodes stay within the reach of the inputs of the run, over every
call of the engine and every crash, and this decides when they agree.
-/
namespace DftForge.Engines
open DftForge.Library DftForge.Runtime DftForge.Catalog Relation

variable {nums : Numerals} {inputs : Dict} {g : GraphScheduler} {t : GraphTemplate}
variable {stale : Set NodeId} {s s' : Sched} {env : Env}

section Resolution

theorem resolveFields_get? {run : GraphRun} {known : NodeId → Bool} {fields params : Dict}
    (h : resolveFields run known fields = .ok params) (key : String) :
    match fields.get? key with
    | none => params.get? key = none
    | some v => ∃ w, resolveValue run known v = .ok w ∧ params.get? key = some w := by
  induction fields generalizing params with
  | nil =>
    obtain rfl := Except.ok.inj h
    rfl
  | cons field rest ih =>
    obtain ⟨k,v⟩ := field
    rw [resolveFields] at h
    cases hv : resolveValue run known v with
    | error e => simp [hv] at h
    | ok w =>
      cases hr : resolveFields run known rest with
      | error e => simp [hv, hr] at h
      | ok d =>
        simp only [hv, hr, ok_bind, pure_ok, Except.ok.injEq] at h
        subst h
        have hrest := ih hr
        unfold Dict.get? at hrest ⊢
        by_cases hk : key = k
        · subst hk
          simpa using hv
        · have hne : (key == k) = false := by simpa using hk
          simpa [List.lookup_cons, hne] using hrest

theorem resolved_input {run : GraphRun} {known : NodeId → Bool} {fields params : Dict}
    (h : resolveFields run known fields = .ok params) {key text : String}
    (hfield : fields.get? key = some (.str text))
    (hparse : parseParamRef (strip text.toList) = some ⟨.inputs,key,none⟩) :
    params.get? key = run.inputs.get? key := by
  have hget := resolveFields_get? h key
  simp only [hfield] at hget
  obtain ⟨w,hw,hparams⟩ := hget
  rw [resolveValue, hparse] at hw
  simp only [resolveRef] at hw
  cases hin : run.inputs.get? key with
  | none => simp [hin] at hw
  | some v =>
    simp only [hin, Except.ok.injEq] at hw
    rw [hparams, hw]

/-- The scf and nscf nodes of the T2 templates. -/
def PwSpec (spec : NodeSpec) : Prop := spec = scfSpec ∨ spec = nscfPathSpec ∨ spec = nscfMeshSpec

/-- The T2 templates. -/
def IsT2 (t : GraphTemplate) : Prop := t = t2Bands ∨ t = t2Dos

theorem IsT2.pwSpec (ht : IsT2 t) {spec : NodeSpec} (hspec : spec ∈ t.nodes) (hid : spec.id ∈ pwIds) :
    PwSpec spec := by
  rcases ht with rfl | rfl <;> simp only [t2Bands, t2Dos, List.mem_cons, List.not_mem_nil, or_false] at hspec
  · rcases hspec with rfl | rfl | rfl
    · exact Or.inl rfl
    · exact Or.inr (Or.inl rfl)
    · exact absurd hid (by decide)
  · rcases hspec with rfl | rfl | rfl | rfl
    · exact Or.inl rfl
    · exact Or.inr (Or.inr rfl)
    · exact absurd hid (by decide)
    · exact absurd hid (by decide)

theorem IsT2.mem_ids (ht : IsT2 t) : ∀ id ∈ pwIds, id ∈ t.ids := by
  rcases ht with rfl | rfl <;> decide

theorem PwSpec.repair {spec : NodeSpec} (h : PwSpec spec) : spec.repair = none := by
  rcases h with rfl | rfl | rfl <;> rfl

theorem PwSpec.nscf_dependsOn {spec : NodeSpec} (h : PwSpec spec) (hid : spec.id = "nscf") :
    spec.dependsOn = ["scf"] := by
  rcases h with rfl | rfl | rfl
  · exact absurd hid (by decide)
  · rfl
  · rfl

/-- Freshly resolved parameters have the cutoffs of the inputs. -/
theorem PwSpec.resolved {spec : NodeSpec} (h : PwSpec spec) {run : GraphRun} {params : Dict}
    (hres : resolveParams t run spec.params = .ok params) :
    PwParams nums run.inputs params ∧ ¬ CutoffRepaired params := by
  have hinput : ∀ key ∈ ["material","structure","ecutwfc"], params.get? key = run.inputs.get? key := by
    intro key hkey
    simp only [List.mem_cons, List.not_mem_nil, or_false] at hkey
    rcases h with rfl | rfl | rfl <;> rcases hkey with rfl | rfl | rfl <;>
      exact resolved_input hres rfl (by decide)
  have hrho : params.get? "ecutrho" = none := by
    rcases h with rfl | rfl | rfl <;> exact resolveFields_get? hres "ecutrho"
  refine ⟨⟨fun key hkey => hinput key (List.mem_of_mem_take (i := 2) hkey),Or.inl ⟨?_,hrho⟩⟩,fun hr => hr hrho⟩
  exact hinput "ecutwfc" (by decide)

end Resolution

section Session

/-- The default repair handler, where there is one, is that of the QE engine. -/
def RepairsQE (nums : Numerals) (env : Env) : Prop :=
  ∀ handler ∈ env.repairers.head?, handler.2 = QEParamRepairer.repair nums

/-- The records of the pw.x nodes, once they are resolved, and what is in flight. -/
structure PwNodes (nums : Numerals) (inputs : Dict) (s : Sched) : Prop where
  given : s.run.inputs = inputs
  resolved : ∀ id ∈ pwIds, (s.run.nodes id).paramsResolved = true ∨ (s.run.nodes id).state = .succeeded →
    PwParams nums inputs (s.run.nodes id).params
  flying : ∀ f ∈ s.futures, (s.run.nodes f.nodeId).paramsResolved = true

theorem PwNodes.set (h : PwNodes nums inputs s) (id : NodeId) {node : NodeRun}
    (hrun : s'.run = s.run.setNode id node)
    (hflag : (s.run.nodes id).paramsResolved = true → node.paramsResolved = true)
    (hfut : ∀ f ∈ s'.futures, f ∈ s.futures ∨ f.nodeId = id ∧ node.paramsResolved = true)
    (hnode : id ∈ pwIds → node.paramsResolved = true ∨ node.state = .succeeded →
      PwParams nums inputs node.params) : PwNodes nums inputs s' := by
  refine ⟨by rw [hrun]; exact h.given,fun other hother hres => ?_,fun f hf => ?_⟩
  · rw [hrun] at hres ⊢
    by_cases heq : other = id
    · subst heq
      rw [GraphRun.setNode_nodes_self] at hres ⊢
      exact hnode hother hres
    · rw [GraphRun.setNode_nodes_of_ne _ heq] at hres ⊢
      exact h.resolved other hother hres
  · rw [hrun]
    by_cases heq : f.nodeId = id
    · rw [heq, GraphRun.setNode_nodes_self]
      rcases hfut f hf with hold | ⟨_,hnew⟩
      · exact hflag (heq ▸ h.flying f hold)
      · exact hnew
    · rw [GraphRun.setNode_nodes_of_ne _ heq]
      exact h.flying f ((hfut f hf).resolve_right fun hnew => heq hnew.1)

/-- A finished call leaves the parameters of a pw.x node within the reach of the inputs. -/
theorem PwParams.finished (henv : RepairsQE nums env) {spec : NodeSpec} (hspec : PwSpec spec)
    {node : NodeRun} (h : PwParams nums inputs node.params) (result : ToolResult) :
    PwParams nums inputs (finishedNode env spec node result).params := by
  cases result with
  | ok outputs => exact h
  | error f =>
    simp only [finishedNode, failedNode]
    cases hused : usedRepairer env spec node f.toError with
    | none => exact h
    | some repairer =>
      have hqe : repairer = QEParamRepairer.repair nums := by
        unfold usedRepairer repairerFor at hused
        rw [hspec.repair] at hused
        split_ifs at hused
        obtain ⟨handler,hhead,rfl⟩ := Option.map_eq_some_iff.mp hused
        exact henv handler hhead
      subst hqe
      have hrepaired : ∀ node' : NodeRun, node'.params = node.params →
          PwParams nums inputs (QEParamRepairer.repair nums node' f.toError).params := by
        intro node' hp
        rw [← hp] at h
        exact h.repair f.toError
      simp only [repairedNode]
      split <;> exact hrepaired _ rfl

theorem Ready.not_succeeded {run : GraphRun} {spec : NodeSpec} (h : Ready run spec) :
    (run.nodes spec.id).state ≠ .succeeded := by
  intro heq
  have hstate := h.1
  rw [heq] at hstate
  revert hstate
  decide

/-- What a dispatch resolves is within the reach of the inputs, and new cutoffs are theirs. -/
theorem PwNodes.dispatched (h : PwNodes nums inputs s) (ht : IsT2 t) {spec : NodeSpec}
    (hspec : spec ∈ t.nodes) (hid : spec.id ∈ pwIds) {params : Dict}
    (hparams : nodeParams t s.run spec = .ok params) : PwParams nums inputs params ∧
      ((s.run.nodes spec.id).paramsResolved = false → ¬ CutoffRepaired params) := by
  unfold nodeParams at hparams
  cases hflag : (s.run.nodes spec.id).paramsResolved with
  | true =>
    rw [hflag, if_pos rfl] at hparams
    obtain rfl := Except.ok.inj hparams
    exact ⟨h.resolved spec.id hid (Or.inl hflag),fun hno => absurd hno (by decide)⟩
  | false =>
    rw [hflag, if_neg (by decide)] at hparams
    have hres : PwParams nums s.run.inputs params ∧ ¬ CutoffRepaired params :=
      (ht.pwSpec hspec hid).resolved hparams
    rw [h.given] at hres
    exact ⟨hres.1,fun _ => hres.2⟩

theorem pwNodes_stable (ht : IsT2 t) : Stable g t stale (RepairsQE nums) (PwNodes nums inputs) where
  block := by
    rintro s s' _ ⟨spec,_,⟨hwait,_⟩,rfl⟩ h
    refine h.set spec.id rfl id (fun f hf => Or.inl hf) fun hpw hres => ?_
    refine h.resolved spec.id hpw (Or.inl (hres.resolve_right ?_))
    exact nofun
  dispatch := by
    rintro env s s' _ _ ⟨spec,hspec,params,_,hparams,_,rfl⟩ h
    refine h.set spec.id (launched_run _ _ _) (fun _ => rfl) (fun f hf => ?_) fun hpw _ =>
      (h.dispatched ht hspec hpw hparams).1
    rw [launched_futures, List.mem_append, List.mem_singleton] at hf
    rcases hf with hf | rfl
    · exact Or.inl hf
    · exact Or.inr ⟨rfl,rfl⟩
  finish := by
    rintro env s s' henv _ ⟨spec,hspec,result,hfut,_,rfl⟩ h
    have hflag := finishedNode_paramsResolved env spec (s.run.nodes spec.id) result
    refine h.set spec.id (Sched.settled_run _ _ _ _) (fun hres => hflag.trans hres)
      (fun f hf => ?_) fun hpw _ => ?_
    · rw [Sched.settled_futures] at hf
      exact Or.inl (List.mem_of_mem_eraseP hf)
    · exact (h.resolved spec.id hpw (Or.inl (h.flying _ hfut))).finished henv (ht.pwSpec hspec hpw) result
  cancel := by
    rintro s s' ⟨spec,_,_,_,rfl⟩ h
    refine h.set spec.id rfl id (fun f hf => Or.inl hf) fun hpw hres => ?_
    refine h.resolved spec.id hpw (Or.inl (hres.resolve_right ?_))
    exact nofun
  save _ h := ⟨h.given,h.resolved,h.flying⟩

/-- The calls made for a node. -/
def callsOf (s : Sched) (id : NodeId) : List Call := s.calls.filter (·.nodeId = id)

/-- The attempts at the pw.x nodes and the records they were made from. -/
structure Attempts (nums : Numerals) (inputs : Dict) (s : Sched) : Prop where
  params : ∀ c ∈ s.calls, c.nodeId ∈ pwIds → PwParams nums inputs c.node.params
  after : callsOf s "nscf" ≠ [] → (s.run.nodes "scf").state = .succeeded
  first : ∀ c, (callsOf s "nscf").head? = some c → ¬ CutoffRepaired c.node.params
  fresh : callsOf s "nscf" = [] → (s.run.nodes "nscf").paramsResolved = false
  last : ∀ c, (callsOf s "scf").getLast? = some c →
    (s.run.nodes "scf").state ∈ [NodeState.running,.succeeded] → c.node.params = (s.run.nodes "scf").params

/-- One record changes that had not succeeded, without a call. -/
theorem Attempts.set (h : Attempts nums inputs s) (id : NodeId) {node : NodeRun}
    (hrun : s'.run = s.run.setNode id node) (hcalls : s'.calls = s.calls)
    (hold : (s.run.nodes id).state ≠ .succeeded)
    (hflag : node.paramsResolved = (s.run.nodes id).paramsResolved)
    (hlast : node.state ∈ [NodeState.running,.succeeded] →
      (s.run.nodes id).state = .running ∧ node.params = (s.run.nodes id).params) :
    Attempts nums inputs s' := by
  have hof : ∀ id, callsOf s' id = callsOf s id := fun id => by rw [callsOf, hcalls]; rfl
  refine ⟨by rw [hcalls]; exact h.params,fun hne => ?_,by rw [hof]; exact h.first,fun hnil => ?_,?_⟩
  · have hdone := h.after (by rwa [← hof])
    have hne' : "scf" ≠ id := by
      rintro rfl
      exact hold hdone
    rw [hrun, GraphRun.setNode_nodes_of_ne _ hne']
    exact hdone
  · have hfresh := h.fresh (by rwa [← hof])
    rw [hrun]
    by_cases heq : "nscf" = id
    · subst heq
      rw [GraphRun.setNode_nodes_self, hflag]
      exact hfresh
    · rw [GraphRun.setNode_nodes_of_ne _ heq]
      exact hfresh
  · intro c hc
    rw [hof] at hc
    rw [hrun]
    by_cases heq : "scf" = id
    · subst heq
      rw [GraphRun.setNode_nodes_self]
      intro hstate
      obtain ⟨hrunning,hsame⟩ := hlast hstate
      rw [hsame]
      exact h.last c hc (by rw [hrunning]; decide)
    · rw [GraphRun.setNode_nodes_of_ne _ heq]
      exact h.last c hc

theorem callsOf_launched (s : Sched) (spec : NodeSpec) (params : Dict) (id : NodeId) :
    callsOf (g.launched env s spec params) id = if spec.id = id then
      callsOf s id ++ [⟨spec.id,g.dispatched s.run spec.id params,g.context s.run spec⟩] else callsOf s id := by
  unfold callsOf
  by_cases heq : spec.id = id <;>
    simp [GraphScheduler.launched, Sched.setNode, Sched.saveNodeRun, List.filter_append, heq]

theorem Attempts.dispatch (ht : IsT2 t) (hn : PwNodes nums inputs s)
    (h : Attempts nums inputs s) (hstep : DispatchStep g t env s s') : Attempts nums inputs s' := by
  obtain ⟨spec,hspec,params,hready,hparams,_,rfl⟩ := hstep
  have hparams' := fun hid => hn.dispatched ht hspec hid hparams
  have hrun : (g.launched env s spec params).run =
      s.run.setNode spec.id (g.dispatched s.run spec.id params) := launched_run _ _ _
  have hscf : (s.run.nodes "scf").state = .succeeded → "scf" ≠ spec.id := by
    intro hdone heq
    rw [heq] at hdone
    exact Ready.not_succeeded hready hdone
  refine ⟨?_,?_,?_,?_,?_⟩
  · intro c hc hid
    have hc' : c ∈ s.calls ++ [⟨spec.id,g.dispatched s.run spec.id params,g.context s.run spec⟩] := hc
    rw [List.mem_append, List.mem_singleton] at hc'
    rcases hc' with hold | rfl
    · exact h.params c hold hid
    · exact (hparams' hid).1
  · intro hne
    have hdone : (s.run.nodes "scf").state = .succeeded := by
      rw [callsOf_launched] at hne
      split at hne
      · next heq =>
        have hpw : spec.id ∈ pwIds := by rw [heq]; decide
        exact hready.2 "scf" (by rw [(ht.pwSpec hspec hpw).nscf_dependsOn heq]; exact List.mem_singleton.mpr rfl)
      · exact h.after hne
    rw [hrun, GraphRun.setNode_nodes_of_ne _ (hscf hdone)]
    exact hdone
  · intro c hc
    rw [callsOf_launched] at hc
    split at hc
    · next heq =>
      cases hnil : callsOf s "nscf" with
      | nil =>
        rw [hnil] at hc
        obtain rfl := Option.some.inj hc
        have hpw : spec.id ∈ pwIds := by rw [heq]; decide
        exact (hparams' hpw).2 (by rw [heq]; exact h.fresh hnil)
      | cons first rest =>
        rw [hnil] at hc
        exact h.first c (by rw [hnil]; exact hc)
    · exact h.first c hc
  · intro hnil
    rw [callsOf_launched] at hnil
    split at hnil
    · simp at hnil
    · next hne =>
      rw [hrun, GraphRun.setNode_nodes_of_ne _ (Ne.symm hne)]
      exact h.fresh hnil
  · intro c hc
    rw [callsOf_launched] at hc
    rw [hrun]
    split at hc
    · next heq =>
      rw [List.getLast?_concat] at hc
      obtain rfl := Option.some.inj hc
      intro _
      rw [heq, GraphRun.setNode_nodes_self]
    · next hne =>
      rw [GraphRun.setNode_nodes_of_ne _ (Ne.symm hne)]
      exact h.last c hc

theorem attempts_stable (ht : IsT2 t) : Stable g t stale (RepairsQE nums)
    fun s => PwNodes nums inputs s ∧ Attempts nums inputs s where
  block := by
    intro s s' hi hstep h
    refine ⟨(pwNodes_stable ht).block hi hstep h.1,?_⟩
    obtain ⟨spec,_,⟨hwait,_⟩,rfl⟩ := hstep
    refine h.2.set spec.id rfl rfl (by rw [hwait]; decide) rfl ?_
    intro hstate
    exact absurd (show NodeState.blocked ∈ [NodeState.running,.succeeded] from hstate) (by decide)
  dispatch := fun henv hi hstep h =>
    ⟨(pwNodes_stable ht).dispatch henv hi hstep h.1,h.2.dispatch ht h.1 hstep⟩
  finish := by
    intro env s s' henv hi hstep h
    refine ⟨(pwNodes_stable ht).finish henv hi hstep h.1,?_⟩
    obtain ⟨spec,_,result,_,hrunning,rfl⟩ := hstep
    refine h.2.set spec.id (Sched.settled_run _ _ _ _) (Sched.settled_calls _ _ _ _)
      (by rw [hrunning]; decide) (finishedNode_paramsResolved _ _ _ _) ?_
    intro hstate
    refine ⟨hrunning,?_⟩
    rcases finishedNode_state env spec (s.run.nodes spec.id) result with ⟨_,outputs,rfl⟩ | ⟨hqueued,_⟩
    · rfl
    · have hno : (finishedNode env spec ((s.pop spec.id).run.nodes spec.id) result).state ∉
          [NodeState.running,.succeeded] := by
        rcases hqueued with heq | heq <;>
          (rw [show (s.pop spec.id).run = s.run from rfl, heq]; decide)
      exact absurd hstate hno
  cancel := by
    intro s s' hstep h
    have hnodes : Stable g t stale (RepairsQE nums) (PwNodes nums inputs) := pwNodes_stable ht
    refine ⟨hnodes.cancel hstep h.1,?_⟩
    obtain ⟨spec,_,hrunning,_,rfl⟩ := hstep
    refine h.2.set spec.id rfl rfl (by rw [hrunning]; decide) rfl ?_
    intro hstate
    exact absurd (show NodeState.cancelled ∈ [NodeState.running,.succeeded] from hstate) (by decide)
  save := by
    intro s state h
    have hnodes : Stable g t stale (RepairsQE nums) (PwNodes nums inputs) := pwNodes_stable ht
    exact ⟨hnodes.save state h.1,⟨h.2.params,h.2.after,h.2.first,h.2.fresh,h.2.last⟩⟩

end Session

section Histories
variable {e : GraphEngine} {v : ValidTemplate} {st st' : Store} {runId : RunId}
variable {entry : GraphEngine.EntryPoint} {input : ℕ → Tick}

/-- Histories in which every call repairs with the handler of the QE engine. -/
inductive HistoryQE (nums : Numerals) (e : GraphEngine) : Store → Prop
  | empty : HistoryQE nums e {}
  | create {st st' : Store} {templateId : String} {runId : RunId} {inputs : Dict} {run : GraphRun}
      (before : HistoryQE nums e st) (fresh : st.graphRuns runId = none)
      (created : e.create st templateId runId inputs = .ok (run,st')) : HistoryQE nums e st'
  | call {st st' : Store} {runId : RunId} {entry : GraphEngine.EntryPoint} {input : ℕ → Tick} {n : ℕ}
      (before : HistoryQE nums e st) (repairs : ∀ n, RepairsQE nums (input n).env)
      (admits : entry.Admits input) (saved : st' ∈ e.saved st runId entry input n) : HistoryQE nums e st'

/-- The rows of pw.x nodes that succeeded. -/
def PwRows (nums : Numerals) (e : GraphEngine) (st : Store) : Prop :=
  ∀ runId row v, st.graphRuns runId = some row → e.getTemplate row.templateId = .ok v → IsT2 v.template →
    ∀ id ∈ pwIds, ∀ node, st.nodeRuns (runId,id) = some node → node.status = .succeeded →
      PwParams nums row.inputs node.params

/-- The store of a scheduler, what it has saved, and the row of its run. -/
structure PwStore (nums : Numerals) (e : GraphEngine) (s : Sched) : Prop where
  rows : PwRows nums e s.store
  saves : ∀ st ∈ s.saves, PwRows nums e st
  row : ∃ row, s.store.graphRuns s.run.runId = some row ∧ row.templateId = s.run.templateId ∧
    row.inputs = s.run.inputs

/-- The store and the records of a call on a run of the template `v`. -/
structure PwSession (nums : Numerals) (e : GraphEngine) (v : ValidTemplate) (inputs : Dict) (s : Sched) :
    Prop where
  template : e.getTemplate s.run.templateId = .ok v
  given : s.run.inputs = inputs
  store : PwStore nums e s
  nodes : IsT2 v.template → PwNodes nums inputs s ∧ Attempts nums inputs s

/-- Of a succeeded pw.x node: its parameters are within the reach of the inputs. -/
def PwDone (nums : Numerals) : DoneNode := fun inputs id params _ => id ∈ pwIds → PwParams nums inputs params

theorem HistoryQE.history (h : HistoryQE nums e st) : History (RepairsQE nums) e st := by
  induction h with
  | empty => exact .empty
  | create _ fresh created ih => exact .create ih fresh created
  | call _ repairs admits saved ih => exact .call ih repairs admits saved

/-- A fresh scheduler has made no attempt, and its resolved records are succeeded rows. -/
theorem attempts_entry (ht : IsT2 t) (hfut : s.futures = []) (hcalls : s.calls = [])
    (hflag : ∀ id, (s.run.nodes id).paramsResolved = false)
    (hdone : DoneNodes t (PwDone nums) s.run.inputs s.run) :
    PwNodes nums s.run.inputs s ∧ Attempts nums s.run.inputs s := by
  have hof : ∀ id, callsOf s id = [] := fun id => by rw [callsOf, hcalls]; rfl
  refine ⟨⟨rfl,fun id hid hres => ?_,?_⟩,⟨?_,fun hne => absurd (hof _) hne,?_,fun _ => hflag _,?_⟩⟩
  · have hs := hres.resolve_left (by rw [hflag id]; decide)
    exact hdone id (ht.mem_ids id hid) hs hid
  · intro f hf
    rw [hfut] at hf
    cases hf
  · intro c hc
    rw [hcalls] at hc
    cases hc
  · intro c hc
    rw [hof] at hc
    cases hc
  · intro c hc
    rw [hof] at hc
    cases hc

theorem pwRule : SessionRule IsT2 (RepairsQE nums) (PwDone nums)
    fun _ inputs s => PwNodes nums inputs s ∧ Attempts nums inputs s where
  stable ht _ := attempts_stable ht
  done _ h id _ hs hpw := h.1.resolved id hpw (Or.inr hs)
  entry := attempts_entry

theorem pwRows_of_done (h : DoneRows IsT2 (PwDone nums) e st) : PwRows nums e st := by
  intro runId row v hrow hv ht id hid node hnode hs
  exact h runId row v hrow hv ht id (ht.mem_ids id hid) node hnode hs hid

theorem pwStore_of_done (h : DoneStore IsT2 (PwDone nums) e s) : PwStore nums e s :=
  ⟨pwRows_of_done h.rows,fun st hst => pwRows_of_done (h.saves st hst),h.row⟩

/-- What holds of the store and of the attempts in every state of every call. -/
theorem HistoryQE.pwSession (hst : HistoryQE nums e st) (henter : e.call st runId entry = .enters v s)
    (hinput : ∀ n, RepairsQE nums (input n).env) (n : ℕ) :
    PwSession nums e v s.run.inputs (e.scheduler.run v.template input s n).state := by
  have hsession := call_run_session pwRule hst.history.reachable.good
    (hst.history.doneRows pwRule) henter hinput n
  exact ⟨hsession.template,hsession.given,pwStore_of_done hsession.store,hsession.holds⟩

end Histories

section Agreement
variable {e : GraphEngine} {v : ValidTemplate} {st : Store} {runId : RunId}
variable {entry : GraphEngine.EntryPoint} {input : ℕ → Tick} {resolve : Resolve} {params : Dict}

/-- Every nscf attempt is compiled with the cutoffs of the scf attempt that succeeded:
those of the scf record, which are those of the last scf attempt. -/
def OneBasis (resolve : Resolve) (s : Sched) : Prop := ∀ c ∈ callsOf s "nscf",
  compiledCutoffs resolve c.node.params = compiledCutoffs resolve (s.run.nodes "scf").params ∧
    ∀ d, (callsOf s "scf").getLast? = some d → d.node.params = (s.run.nodes "scf").params

/-- No nscf attempt has a cutoff repair behind it, on either node. -/
def Unrepaired (s : Sched) : Prop := ∀ c ∈ callsOf s "nscf",
  ¬ CutoffRepaired (s.run.nodes "scf").params ∧ ¬ CutoffRepaired c.node.params

/-- The cutoffs that the inputs and the material entry give before any repair. -/
def startCutoffs (resolve : Resolve) (inputs : Dict) : Option (Json × Json) := do
  let m ← resolve ((inputs.get? "material").getD (.str "")) ((inputs.get? "structure").getD .null)
  let wfc ← cutoffOr inputs "ecutwfc" m.ecutwfcDefault
  let rho ← m.ecutrhoDefault.map Json.num
  return (wfc,rho)

/-- The inputs compile, and not by chance to cutoffs that a repair would set. -/
def Apart (nums : Numerals) (resolve : Resolve) (inputs : Dict) : Prop :=
  ∃ start, startCutoffs resolve inputs = some start ∧
    ∀ x, BumpedCutoff nums inputs x → start ≠ (.num x,.num (x * 8))

theorem PwParams.compiled_start (h : PwParams nums inputs params) (hr : ¬ CutoffRepaired params) :
    compiledCutoffs resolve params = startCutoffs resolve inputs := by
  obtain ⟨hwfc,hrho⟩ := h.fromInputs hr
  unfold compiledCutoffs startCutoffs
  rw [h.source "material" (by decide), h.source "structure" (by decide)]
  have hdefault : ∀ default, cutoffOr params "ecutrho" default = default.map Json.num := by
    intro default
    rw [cutoffOr, hrho]
  simp only [cutoffOr_congr hwfc, hdefault]

theorem PwParams.compiled_bumped (h : PwParams nums inputs params) (hr : CutoffRepaired params)
    {start : Json × Json} (hstart : startCutoffs resolve inputs = some start) :
    ∃ x, BumpedCutoff nums inputs x ∧ compiledCutoffs resolve params = some (.num x,.num (x * 8)) := by
  obtain ⟨x,hx,hwfc,hrho⟩ := h.bumped hr
  refine ⟨x,hx,?_⟩
  unfold startCutoffs at hstart
  obtain ⟨m,hm,_⟩ := Option.bind_eq_some_iff.mp hstart
  unfold compiledCutoffs
  rw [h.source "material" (by decide), h.source "structure" (by decide), hm]
  simp only [Option.bind_eq_bind, Option.bind_some, cutoffOr_num hwfc, cutoffOr_num hrho, Option.pure_def]

/-- Records on both sides of a repair compile apart. -/
theorem PwParams.repaired_iff {params' : Dict} (hapart : Apart nums resolve inputs)
    (h : PwParams nums inputs params) (h' : PwParams nums inputs params')
    (hsame : compiledCutoffs resolve params = compiledCutoffs resolve params')
    (hr : ¬ CutoffRepaired params) : ¬ CutoffRepaired params' := by
  intro hr'
  obtain ⟨start,hstart,hne⟩ := hapart
  obtain ⟨x,hx,hbumped⟩ := h'.compiled_bumped hr' hstart
  rw [h.compiled_start hr, hstart, hbumped] at hsame
  exact hne x hx (Option.some.inj hsame)

/-- In every state of every call, the attempts share one basis where no cutoff repair
lies behind them, and only there unless the repaired cutoffs are the old ones. -/
theorem one_basis_iff (hst : HistoryQE nums e st) (henter : e.call st runId entry = .enters v s)
    (ht : IsT2 v.template) (hinput : ∀ n, RepairsQE nums (input n).env) (resolve : Resolve) (n : ℕ) :
    let s' := (e.scheduler.run v.template input s n).state
    (Unrepaired s' → OneBasis resolve s') ∧
      (Apart nums resolve s.run.inputs → OneBasis resolve s' → Unrepaired s') := by
  intro s'
  obtain ⟨hnodes,hatt⟩ := (hst.pwSession henter hinput n).nodes ht
  have hscf : callsOf s' "nscf" ≠ [] → PwParams nums s.run.inputs (s'.run.nodes "scf").params :=
    fun hne => hnodes.resolved "scf" (by decide) (Or.inr (hatt.after hne))
  have hcall : ∀ c ∈ callsOf s' "nscf", PwParams nums s.run.inputs c.node.params := by
    intro c hc
    obtain ⟨hmem,hid⟩ := List.mem_filter.mp hc
    exact hatt.params c hmem (by rw [of_decide_eq_true hid]; decide)
  constructor
  · intro hun c hc
    have hne := List.ne_nil_of_mem hc
    obtain ⟨hs,hn⟩ := hun c hc
    refine ⟨?_,fun d hd => hatt.last d hd (by rw [hatt.after hne]; decide)⟩
    rw [(hcall c hc).compiled_start hn, (hscf hne).compiled_start hs]
  · intro hapart hone c hc
    have hne := List.ne_nil_of_mem hc
    -- the first attempt has just been resolved, so it tells what the scf attempt had
    obtain ⟨first,hfirst⟩ := Option.ne_none_iff_exists'.mp (mt List.head?_eq_none_iff.mp hne)
    have hmem := List.mem_of_head? hfirst
    have hs : ¬ CutoffRepaired (s'.run.nodes "scf").params :=
      (hcall first hmem).repaired_iff hapart (hscf hne) (hone first hmem).1 (hatt.first first hfirst)
    exact ⟨hs,(hscf hne).repaired_iff hapart (hcall c hc) (hone c hc).1.symm hs⟩

/-- Silicon as the compiler lists it. -/
def silicon : Material := {
  formula := "Si", structureType := "diamond", spaceGroup := "Fd-3m", ibrav := 2
  geometry := .primitive (543 / 100) 2, nspecies := 1, species := ["Si"], masses := [28086 / 1000]
  pseudos := [("Si","Si_r.upf")], occupations := "smearing", smearing := "mp", degauss := 5 / 1000
  isMetal := false, ecutwfcDefault := some 25, ecutrhoDefault := some 200
  kpointsDefault := some [4,4,4,1,1,1] }

/-- Numbers in parameters are not texts here. -/
def plainNumerals : Numerals where
  int _ := none
  float _ := none
  shown _ := ""
  crash _ := ""

def t2BandsValid : ValidTemplate := ⟨t2Bands,none,rfl⟩

/-- The first scf attempt does not converge, every other call succeeds. -/
def wobblyEnv : Env where
  tools := [("qe",fun node _ =>
    if node.nodeId = "scf" ∧ node.attempt = 1 then .error (.toolError {
      message := "scf verification failed: SCF did not converge", category := "scf_not_converged"
      repairable := true })
    else .ok [("stdout_file",.str "pw.out")])]
  repairers := [("qe_param_bump",QEParamRepairer.repair plainNumerals)]

def wobblyInput : ℕ → Tick := fun _ => { env := wobblyEnv, done := ["scf","nscf"] }

/-- The state of the fresh run after so many iterations. -/
def wobblyState (n : ℕ) : Sched :=
  ((soleEngine t2BandsValid false).scheduler.run t2Bands wobblyInput (firstStart t2BandsValid) n).state

/-- The compiled wavefunction cutoff, where it is a number. -/
def wavefunctionCutoff (cutoffs : Option (Json × Json)) : Option ℚ :=
  match cutoffs with
  | some (.num x,_) => some x
  | _ => none

theorem createdStore_historyQE (v : ValidTemplate) (useAsyncio : Bool) :
    HistoryQE nums (soleEngine v useAsyncio) (createdStore v) :=
  .create .empty rfl (createdStore_create v useAsyncio)

theorem wobbly_repairs (n : ℕ) : RepairsQE plainNumerals (wobblyInput n).env := by
  rintro _ ⟨⟩
  rfl

/-- Every call succeeds, and the repair handler is there. -/
def calmInput : ℕ → Tick := fun _ => {
  env := { constantEnv [("stdout_file",.str "pw.out")] with repairers := wobblyEnv.repairers }
  done := ["scf","nscf"] }

def calmState (n : ℕ) : Sched :=
  ((soleEngine t2BandsValid false).scheduler.run t2Bands calmInput (firstStart t2BandsValid) n).state

theorem calm_unrepaired : Unrepaired (calmState 2) := by
  have hmarks : ((callsOf (calmState 2) "nscf").all fun c =>
      (((calmState 2).run.nodes "scf").params.get? "ecutrho").isNone &&
        (c.node.params.get? "ecutrho").isNone) = true := by
    decide +kernel
  intro c hc
  have hmark := List.all_eq_true.mp hmarks c hc
  rw [Bool.and_eq_true, Option.isNone_iff_eq_none, Option.isNone_iff_eq_none] at hmark
  exact ⟨fun h => h hmark.1,fun h => h hmark.2⟩

theorem calm_repairs (n : ℕ) : RepairsQE plainNumerals (calmInput n).env := by
  rintro _ ⟨⟩
  rfl

/-- Without a cutoff in the inputs the repairs begin at 55. -/
theorem bumped_of_default {inputs : Dict} (h : getOr inputs "ecutwfc" 45 = .num 45) {x : ℚ}
    (hx : BumpedCutoff nums inputs x) : 55 ≤ x := by
  induction hx with
  | first hb _ =>
    rw [h] at hb
    obtain rfl := Except.ok.inj hb
    decide +kernel
  | @next x _ _ ih =>
    have hstart : startingCutoff x = x := if_neg (by linarith)
    rw [hstart]
    exact le_min (by rw [QEParamRepairer.cutoffBumpStep]; linarith) (by rw [QEParamRepairer.maxEcut]; norm_num)

/-- The cutoffs of silicon are none that a repair sets. -/
theorem silicon_apart : Apart nums (fun _ _ => some silicon) (firstStart t2BandsValid).run.inputs := by
  refine ⟨(.num 25,.num 200),rfl,fun x hx heq => ?_⟩
  have hle := bumped_of_default (by rfl) hx
  obtain rfl := Json.num.inj (Prod.mk.inj heq).1
  norm_num at hle

theorem wobbly_not_unrepaired : ¬Unrepaired (wobblyState 3) := by
  have hcalls : (callsOf (wobblyState 3) "nscf").length = 1 := by decide +kernel
  have hmark : (((wobblyState 3).run.nodes "scf").params.get? "ecutrho").isSome = true := by decide +kernel
  obtain ⟨c,hc⟩ := List.length_eq_one_iff.mp hcalls
  intro h
  have hmem : c ∈ callsOf (wobblyState 3) "nscf" := by
    rw [hc]
    exact List.mem_singleton_self c
  exact (h c hmem).1 (Option.isSome_iff_ne_none.mp hmark)

theorem one_basis_iff_calm : callsOf (calmState 2) "nscf" ≠ [] ∧
    OneBasis (fun _ _ => some silicon) (calmState 2) ∧
    ¬OneBasis (fun _ _ => some silicon) (wobblyState 3) := by
  have hcalls : (callsOf (calmState 2) "nscf").length = 1 := by decide +kernel
  have hcalm := one_basis_iff (createdStore_historyQE t2BandsValid false) (createdStore_start false)
    (Or.inl rfl) calm_repairs (fun _ _ => some silicon) 2
  have hwobbly := one_basis_iff (createdStore_historyQE t2BandsValid false) (createdStore_start false)
    (Or.inl rfl) wobbly_repairs (fun _ _ => some silicon) 3
  exact ⟨List.ne_nil_of_length_eq_add_one hcalls,hcalm.1 calm_unrepaired,
    fun hone => wobbly_not_unrepaired (hwobbly.2 silicon_apart hone)⟩

theorem basis_lost : HistoryQE plainNumerals (soleEngine t2BandsValid false) (createdStore t2BandsValid) ∧
    (soleEngine t2BandsValid false).call (createdStore t2BandsValid) "run_1" .start =
      .enters t2BandsValid (firstStart t2BandsValid) ∧
    (∀ n, RepairsQE plainNumerals (wobblyInput n).env) ∧
    ¬ ∀ n, OneBasis (fun _ _ => some silicon) (wobblyState n) := by
  refine ⟨createdStore_historyQE _ _,createdStore_start _,wobbly_repairs,fun h => ?_⟩
  have hcalls : ((callsOf (wobblyState 3) "nscf").map fun c =>
      wavefunctionCutoff (compiledCutoffs (fun _ _ => some silicon) c.node.params)) = [some 25] := by
    decide +kernel
  have hscf : wavefunctionCutoff (compiledCutoffs (fun _ _ => some silicon)
      ((wobblyState 3).run.nodes "scf").params) = some 55 := by
    decide +kernel
  have hmem : some 25 ∈ (callsOf (wobblyState 3) "nscf").map fun c =>
      wavefunctionCutoff (compiledCutoffs (fun _ _ => some silicon) c.node.params) := by
    rw [hcalls]
    exact List.mem_singleton.mpr rfl
  obtain ⟨c,hc,hcut⟩ := List.mem_map.mp hmem
  rw [(h 3 c hc).1, hscf] at hcut
  exact absurd (Option.some.inj hcut) (by norm_num)

end Agreement
end DftForge.Engines
