import DftForge.Runtime.Lifecycle

/-! # Rules for whole histories

What the sessions of a class of templates guarantee of the nodes that succeed holds of
every succeeded row that calls and crashes ever leave in the store, and so at the entry
of every later call. The induction over histories is done once here; a use of it states
an invariant of one session and what it says of succeeded nodes.
-/
namespace DftForge.Runtime
open Loop Relation

/-- Histories in which every call runs in environments of one class. -/
inductive History (E : Env → Prop) (e : GraphEngine) : Store → Prop
  | empty : History E e {}
  | create {st st' : Store} {templateId : String} {runId : RunId} {inputs : Dict} {run : GraphRun}
      (before : History E e st) (fresh : st.graphRuns runId = none)
      (created : e.create st templateId runId inputs = .ok (run,st')) : History E e st'
  | call {st st' : Store} {runId : RunId} {entry : GraphEngine.EntryPoint} {input : ℕ → Tick} {n : ℕ}
      (before : History E e st) (within : ∀ n, E (input n).env)
      (admits : entry.Admits input) (saved : st' ∈ e.saved st runId entry input n) : History E e st'

/-- A statement about a succeeded node: the inputs of its run, its id, its parameters and
its outputs. -/
abbrev DoneNode := Dict → NodeId → Dict → Dict → Prop

/-- The succeeded rows of the runs of a class of templates. -/
def DoneRows (T : GraphTemplate → Prop) (Done : DoneNode) (e : GraphEngine) (st : Store) : Prop :=
  ∀ runId row v, st.graphRuns runId = some row → e.getTemplate row.templateId = .ok v → T v.template →
    ∀ id ∈ v.template.ids, ∀ node, st.nodeRuns (runId,id) = some node → node.status = .succeeded →
      Done row.inputs id node.params node.outputs

/-- The succeeded nodes of a run. -/
def DoneNodes (t : GraphTemplate) (Done : DoneNode) (inputs : Dict) (run : GraphRun) : Prop :=
  ∀ id ∈ t.ids, (run.nodes id).state = .succeeded → Done inputs id (run.nodes id).params (run.nodes id).outputs

/-- An invariant `Q` of the sessions of a class of templates that tells what succeeded nodes are like
and holds at the entry of a call on succeeded nodes that are like that. -/
structure SessionRule (T : GraphTemplate → Prop) (E : Env → Prop) (Done : DoneNode)
    (Q : GraphTemplate → Dict → Sched → Prop) : Prop where
  stable : ∀ {g t stale inputs}, T t → t.WellFormed → Stable g t stale E (Q t inputs)
  done : ∀ {t : GraphTemplate} {inputs s}, T t → Q t inputs s → DoneNodes t Done inputs s.run
  entry : ∀ {t : GraphTemplate} {s : Sched}, T t → s.futures = [] → s.calls = [] →
    (∀ id, (s.run.nodes id).paramsResolved = false) → DoneNodes t Done s.run.inputs s.run → Q t s.run.inputs s

variable {T : GraphTemplate → Prop} {E : Env → Prop} {Done : DoneNode}
variable {Q : GraphTemplate → Dict → Sched → Prop}
variable {e : GraphEngine} {v : ValidTemplate} {st st' : Store} {runId : RunId}
variable {entry : GraphEngine.EntryPoint} {input : ℕ → Tick} {g : GraphScheduler} {stale : Set NodeId}
variable {s s' : Sched} {inputs : Dict}

theorem History.reachable (h : History E e st) : Reachable e st := by
  induction h with
  | empty => exact .refl
  | create _ fresh created ih => exact ih.tail (.create fresh created)
  | call _ _ admits saved ih => exact ih.tail (.call admits saved)

section Session

/-- The store of a scheduler, what it has saved, and the row of its run. -/
structure DoneStore (T : GraphTemplate → Prop) (Done : DoneNode) (e : GraphEngine) (s : Sched) : Prop where
  rows : DoneRows T Done e s.store
  saves : ∀ st ∈ s.saves, DoneRows T Done e st
  row : ∃ row, s.store.graphRuns s.run.runId = some row ∧ row.templateId = s.run.templateId ∧
    row.inputs = s.run.inputs

theorem DoneStore.put (h : DoneStore T Done e s) (id : NodeId) (node : NodeRun)
    (hnode : ∀ v, e.getTemplate s.run.templateId = .ok v → T v.template → id ∈ v.template.ids →
      node.state = .succeeded → Done s.run.inputs id node.params node.outputs) :
    DoneStore T Done e (s.put id node) := by
  obtain ⟨row,hrow,htid,hinputs⟩ := h.row
  have hrows : DoneRows T Done e (s.put id node).store := by
    intro runId row' v hrow' hv ht other hother record hrecord hs
    have hrow'' : s.store.graphRuns runId = some row' := hrow'
    rw [put_nodeRuns] at hrecord
    split at hrecord
    · next heq =>
      obtain ⟨rfl,rfl⟩ := Prod.mk.inj heq
      obtain rfl := Option.some.inj (hrow.symm.trans hrow'')
      obtain rfl := Option.some.inj hrecord
      rw [hinputs]
      exact hnode v (by rw [← htid]; exact hv) ht hother hs
    · exact h.rows runId row' v hrow'' hv ht other hother record hrecord hs
  refine ⟨hrows,?_,⟨row,hrow,htid,hinputs⟩⟩
  intro st hst
  rw [Sched.put_saves,List.mem_cons] at hst
  rcases hst with rfl | hst
  · exact hrows
  · exact h.saves st hst

theorem DoneStore.save (h : DoneStore T Done e s) (state : RunState) :
    DoneStore T Done e (s.setState state).saveRun := by
  obtain ⟨row,hrow,htid,hinputs⟩ := h.row
  have hrows : DoneRows T Done e (s.setState state).saveRun.store := by
    intro runId row' v hrow' hv ht id hid node hnode hs
    have hnode' : s.store.nodeRuns (runId,id) = some node := hnode
    by_cases heq : runId = s.run.runId
    · subst heq
      have hrow'' : row' = ⟨s.run.templateId,state,s.run.inputs⟩ := by
        simpa [Sched.saveRun,Sched.setState,Store.saveRun,eq_comm] using hrow'
      subst hrow''
      have hold := h.rows _ row v hrow (by rw [htid]; exact hv) ht id hid node hnode' hs
      rw [hinputs] at hold
      exact hold
    · have hrow'' : s.store.graphRuns runId = some row' := by
        simpa [Sched.saveRun,Sched.setState,Store.saveRun,heq] using hrow'
      exact h.rows runId row' v hrow'' hv ht id hid node hnode' hs
  refine ⟨hrows,?_,⟨⟨s.run.templateId,state,s.run.inputs⟩,?_,rfl,rfl⟩⟩
  · intro st hst
    have hst' : st ∈ (s.setState state).saveRun.store :: s.saves := hst
    rcases List.mem_cons.mp hst' with rfl | hst
    · exact hrows
    · exact h.saves st hst
  · simp [Sched.saveRun,Sched.setState,Store.saveRun]

theorem DoneStore.of_eq (h : DoneStore T Done e s) (hstore : s'.store = s.store) (hsaves : s'.saves = s.saves)
    (hrun : SameRun s.run s'.run) : DoneStore T Done e s' := by
  obtain ⟨hid,htid,hinputs⟩ := hrun
  obtain ⟨row,hrow,hrow'⟩ := h.row
  exact ⟨by rw [hstore]; exact h.rows,by rw [hsaves]; exact h.saves,row,
    by rw [hstore,hid]; exact hrow,by rw [htid,hinputs]; exact hrow'⟩

/-- The store and the invariant of a call on a run of the template `v`. -/
structure Session (T : GraphTemplate → Prop) (Done : DoneNode) (Q : GraphTemplate → Dict → Sched → Prop)
    (e : GraphEngine) (v : ValidTemplate) (inputs : Dict) (s : Sched) : Prop where
  template : e.getTemplate s.run.templateId = .ok v
  given : s.run.inputs = inputs
  store : DoneStore T Done e s
  holds : T v.template → Q v.template inputs s

theorem session_stable (rule : SessionRule T E Done Q) (inputs : Dict) :
    Stable g v.template stale E (Session T Done Q e v inputs) where
  block := by
    intro s s' hi hstep h
    refine ⟨?_,?_,?_,fun ht => (rule.stable ht v.wellFormed).block hi hstep (h.holds ht)⟩
    all_goals obtain ⟨spec,_,_,rfl⟩ := hstep
    · exact h.template
    · exact h.given
    · exact h.store.of_eq rfl rfl ⟨rfl,rfl,rfl⟩
  dispatch := by
    intro env s s' henv hi hstep h
    refine ⟨?_,?_,?_,fun ht => (rule.stable ht v.wellFormed).dispatch henv hi hstep (h.holds ht)⟩
    all_goals obtain ⟨spec,_,params,_,_,_,rfl⟩ := hstep
    · exact h.template
    · exact h.given
    · refine (h.store.put spec.id (g.dispatched s.run spec.id params) ?_).of_eq rfl rfl ⟨rfl,rfl,rfl⟩
      intro _ _ _ _ hs
      cases hs
  finish := by
    intro env s s' henv hi hstep h
    have hafter := fun ht => (rule.stable ht v.wellFormed).finish henv hi hstep (h.holds ht)
    obtain ⟨spec,_,result,_,_,rfl⟩ := hstep
    have hsame := Sched.settled_run env spec result (s := s.pop spec.id)
    refine ⟨by rw [hsame]; exact h.template,by rw [hsame]; exact h.given,?_,hafter⟩
    have hpop : DoneStore T Done e (s.pop spec.id) := h.store.of_eq rfl rfl ⟨rfl,rfl,rfl⟩
    have hfinished : ∀ v', e.getTemplate s.run.templateId = .ok v' → T v'.template → spec.id ∈ v'.template.ids →
        (finishedNode env spec (s.run.nodes spec.id) result).state = .succeeded →
          Done s.run.inputs spec.id (finishedNode env spec (s.run.nodes spec.id) result).params
            (finishedNode env spec (s.run.nodes spec.id) result).outputs := by
      intro v' hv' ht hid hs
      obtain rfl := Except.ok.inj (h.template.symm.trans hv')
      have hdone := rule.done ht (hafter ht) spec.id hid
      rw [hsame,GraphRun.setNode_nodes_self] at hdone
      rw [h.given]
      exact hdone hs
    simp only [Sched.settled]
    split
    · next repairing hrepairing =>
      refine (hpop.put spec.id repairing ?_).put spec.id _ hfinished
      intro _ _ _ _ hs
      cases result with
      | ok outputs => cases hrepairing
      | error f =>
        obtain ⟨_,_,rfl⟩ := Option.map_eq_some_iff.mp hrepairing
        cases hs
    · exact hpop.put spec.id _ hfinished
  cancel := by
    intro s s' hstep h
    have hstable : T v.template → Stable g v.template stale E (Q v.template inputs) :=
      fun ht => rule.stable ht v.wellFormed
    have hafter := fun ht => (hstable ht).cancel hstep (h.holds ht)
    obtain ⟨spec,_,_,_,rfl⟩ := hstep
    refine ⟨h.template,h.given,h.store.put spec.id _ ?_,hafter⟩
    intro _ _ _ _ hs
    cases hs
  save := by
    intro s state h
    have hstable : T v.template → Stable g v.template stale E (Q v.template inputs) :=
      fun ht => rule.stable ht v.wellFormed
    exact ⟨h.template,h.given,h.store.save state,fun ht => (hstable ht).save state (h.holds ht)⟩

end Session

section Entry

theorem loaded_doneStore (hst : DoneRows T Done e st) {row : RunRow} (hrow : st.graphRuns runId = some row)
    (t : GraphTemplate) (saves : List Store) (hsaves : ∀ st ∈ saves, DoneRows T Done e st) :
    DoneStore T Done e { run := st.loaded runId t row, store := st, saves } :=
  ⟨hst,hsaves,row,hrow,rfl,rfl⟩

/-- A reset record is pending, so resetting writes no succeeded row. -/
theorem resetTargets_doneStore (ids : List NodeId) (h : DoneStore T Done e s) :
    match GraphEngine.resetTargets v.template ids s with
    | .ok s' => DoneStore T Done e s'
    | .error r => DoneStore T Done e r.sched := by
  induction ids generalizing s with
  | nil => exact h
  | cons id rest ih =>
    by_cases hok : id ∈ v.template.ids ∧ canTransition (s.run.nodes id).state .pending = true
    · rw [resetTargets_cons hok.1 hok.2]
      exact ih (h.put id _ fun _ _ _ _ hs => by cases hs)
    · rw [not_and_or,Bool.not_eq_true] at hok
      obtain ⟨error,herr⟩ := resetTargets_cons_error hok rest
      rw [herr]
      exact h

theorem resumed_doneStore (hst : DoneRows T Done e st) {row : RunRow} (hrow : st.graphRuns runId = some row)
    (t : GraphTemplate) : DoneStore T Done e {
      run := st.resumed runId t row
      store := st.saveRun (st.resumed runId t row)
      saves := [st.saveRun (st.resumed runId t row)] } := by
  have hloaded : DoneStore T Done e { run := st.resumed runId t row, store := st } :=
    ⟨hst,by simp,row,hrow,rfl,rfl⟩
  exact hloaded.save .validated

theorem entry_doneRows (hst : DoneRows T Done e st) :
    ∀ st' ∈ (e.call st runId entry).saves, DoneRows T Done e st' := by
  have hspec := fun (v : ValidTemplate) row targets (hrow : st.graphRuns runId = some row) =>
    resetTargets_doneStore (v := v) targets (loaded_doneStore hst hrow v.template [] (by simp))
  refine saves_of ?_ ?_ ?_
  · intro v s hcall
    obtain ⟨row,hrow,_,_,rfl⟩ := resume_enters hcall
    exact (resumed_doneStore hst hrow v.template).saves
  · intro v row targets s hrow _ hr
    have hs := hspec v row targets hrow
    simp only [hr] at hs
    exact (hs.save .validated).saves
  · intro v row targets r hrow _ hr
    have hs := hspec v row targets hrow
    simp only [hr] at hs
    exact hs.saves

/-- Every call enters the scheduler with succeeded nodes as the rows have them. -/
theorem call_doneStore (hgood : st.Good e) (hst : DoneRows T Done e st)
    (h : e.call st runId entry = .enters v s) : DoneStore T Done e s := by
  cases entry with
  | start =>
    obtain ⟨row,hrow,_,_,rfl⟩ := start_enters h
    exact loaded_doneStore hst hrow v.template [] (by simp)
  | resume =>
    obtain ⟨row,hrow,_,_,rfl⟩ := resume_enters h
    exact resumed_doneStore hst hrow v.template
  | retry nodeIds =>
    obtain ⟨row,s₁,hrow,hv,hreset,rfl⟩ := retry_enters hgood h
    have hs₁ := resetTargets_doneStore (v := v)
      (GraphEngine.retryTargets v.template (st.loaded runId v.template row) nodeIds)
      (loaded_doneStore hst hrow v.template [] (by simp))
    have hspec := resetTargets_spec
      (GraphEngine.retryTargets v.template (st.loaded runId v.template row) nodeIds)
      (loaded_recorded hgood hrow hv (.refl st) (by simp)) (loaded_mirrored st runId _ row [])
    simp only [hreset] at hs₁ hspec
    have hsaved := hs₁.save .validated
    exact ⟨hsaved.rows,hsaved.saves,⟨_,saved_row hspec.2.2.1 .validated,rfl,rfl⟩⟩

theorem call_session (rule : SessionRule T E Done Q) (hgood : st.Good e) (hst : DoneRows T Done e st)
    (h : e.call st runId entry = .enters v s) : Session T Done Q e v s.run.inputs s := by
  have hstore := call_doneStore hgood hst h
  have hrec := call_recorded hgood h
  obtain ⟨hfut,hcalls,_⟩ := call_enters hgood h
  refine ⟨hrec.template,rfl,hstore,fun ht => rule.entry ht hfut hcalls (entry_unresolved hgood h) ?_⟩
  intro id hid hs
  obtain ⟨hrow,hdone⟩ := (hrec.known id hid _).mpr ⟨hs,rfl⟩
  obtain ⟨row,hrun,htid,hinputs⟩ := hstore.row
  rw [← hinputs]
  exact hstore.rows _ row v hrun (by rw [htid]; exact hrec.template) ht id hid _ hrow hdone

theorem call_run_session (rule : SessionRule T E Done Q) (hgood : st.Good e) (hst : DoneRows T Done e st)
    (h : e.call st runId entry = .enters v s) (hinput : ∀ n, E (input n).env) (n : ℕ) :
    Session T Done Q e v s.run.inputs (e.scheduler.run v.template input s n).state :=
  (session_stable rule s.run.inputs).run v.wellFormed input hinput (enter_inv (call_enters hgood h).1)
    (call_session rule hgood hst h) n

theorem create_doneRows (hgood : st.Good e) (hst : DoneRows T Done e st) {templateId : String} {given : Dict}
    {run : GraphRun} (fresh : st.graphRuns runId = none)
    (h : e.create st templateId runId given = .ok (run,st')) : DoneRows T Done e st' := by
  unfold GraphEngine.create at h
  cases hv : e.getTemplate templateId with
  | error err => simp [hv] at h
  | ok v =>
    cases hrun : createRun v.template runId given with
    | error err => simp [hv,hrun] at h
    | ok run' =>
      simp only [hv,hrun,ok_bind,pure_ok,Except.ok.injEq,Prod.mk.injEq] at h
      obtain ⟨rfl,rfl⟩ := h
      have hid : run'.runId = runId := by rw [createRun_ok hrun]
      intro other row v' hrow hv' ht id hmem node hnode hs
      have hnode' : st.nodeRuns (other,id) = some node := hnode
      by_cases hne : other = runId
      · rw [hne,hgood.orphan runId fresh] at hnode'
        cases hnode'
      · have hrow' : st.graphRuns other = some row := by
          simpa [Store.saveRun,hid,hne] using hrow
        exact hst other row v' hrow' hv' ht id hmem node hnode' hs

end Entry

/-- Every succeeded row of every history is as the rule says. -/
theorem History.doneRows (rule : SessionRule T E Done Q) (h : History E e st) : DoneRows T Done e st := by
  induction h with
  | empty => intro _ _ _ hrow; cases hrow
  | create before fresh created ih => exact create_doneRows before.reachable.good ih fresh created
  | @call st st' runId entry input n before within _ saved ih =>
    unfold GraphEngine.saved at saved
    have hentry : ∀ st' ∈ (e.call st runId entry).saves, DoneRows T Done e st' := entry_doneRows ih
    cases hcall : e.call st runId entry with
    | raised err st₁ saves =>
      rw [hcall] at saved hentry
      exact hentry st' saved
    | returned run st₁ saves =>
      rw [hcall] at saved hentry
      exact hentry st' saved
    | enters v s =>
      rw [hcall] at saved
      exact (call_run_session rule before.reachable.good ih hcall within n).store.saves st' saved

/-- In every state of every call after a history the invariant of the rule holds. -/
theorem History.session (rule : SessionRule T E Done Q) (hst : History E e st)
    (henter : e.call st runId entry = .enters v s) (ht : T v.template) (hinput : ∀ n, E (input n).env) (n : ℕ) :
    Q v.template s.run.inputs (e.scheduler.run v.template input s n).state :=
  (call_run_session rule hst.reachable.good (hst.doneRows rule) henter hinput n).holds ht

section Nodes

/-- What resolution, calls and repairs do to single nodes: parameters stay within the reach of
their node, and what a call returns from there is as told. -/
structure NodeRule (T : GraphTemplate → Prop) (E : Env → Prop) (Reach : Dict → NodeId → Dict → Prop)
    (Done : DoneNode) : Prop where
  resolved : ∀ {t run spec params}, T t → spec ∈ t.nodes → resolveParams t run spec.params = .ok params →
    Reach run.inputs spec.id params
  repaired : ∀ {t env env' inputs spec ctx f repairer} {node handed : NodeRun}, T t → spec ∈ t.nodes → E env →
    E env' → Reach inputs spec.id node.params → executeTool env spec node ctx = .error f →
    f.toError.repairable = true → repairerFor env' spec = some repairer → handed.params = node.params →
    Reach inputs spec.id (repairer handed f.toError).params
  returned : ∀ {t env inputs spec ctx outputs} {node : NodeRun}, T t → spec ∈ t.nodes → E env →
    Reach inputs spec.id node.params → executeTool env spec node ctx = .ok outputs →
    Done inputs spec.id node.params outputs

variable {Reach : Dict → NodeId → Dict → Prop} {t : GraphTemplate} {node : NodeRun}

/-- The future has what an environment of the class answers on the parameters of the record. -/
def Answered (E : Env → Prop) (t : GraphTemplate) (s : Sched) (f : Future) : Prop :=
  ∃ env, ∃ spec ∈ t.nodes, ∃ node ctx, E env ∧ spec.id = f.nodeId ∧
    node.params = (s.run.nodes f.nodeId).params ∧ f.result = executeTool env spec node ctx

structure NodesReach (Reach : Dict → NodeId → Dict → Prop) (E : Env → Prop) (Done : DoneNode)
    (t : GraphTemplate) (inputs : Dict) (s : Sched) : Prop where
  given : s.run.inputs = inputs
  reach : ∀ id ∈ t.ids, (s.run.nodes id).paramsResolved = true → Reach inputs id (s.run.nodes id).params
  flying : ∀ f ∈ s.futures, (s.run.nodes f.nodeId).paramsResolved = true ∧ Answered E t s f
  done : DoneNodes t Done inputs s.run

theorem Answered.frame {f : Future} (h : Answered E t s f)
    (hparams : (s'.run.nodes f.nodeId).params = (s.run.nodes f.nodeId).params) : Answered E t s' f := by
  obtain ⟨env,spec,hspec,node,ctx,henv,hid,hnode,hresult⟩ := h
  exact ⟨env,spec,hspec,node,ctx,henv,hid,hnode.trans hparams.symm,hresult⟩

theorem NodesReach.set (h : NodesReach Reach E Done t inputs s) (id : NodeId)
    (hrun : s'.run = s.run.setNode id node)
    (hflag : (s.run.nodes id).paramsResolved = true → node.paramsResolved = true)
    (hreach : id ∈ t.ids → node.paramsResolved = true → Reach inputs id node.params)
    (hfut : ∀ f ∈ s'.futures, (f ∈ s.futures ∧ (f.nodeId = id → node.params = (s.run.nodes id).params)) ∨
      (f.nodeId = id ∧ node.paramsResolved = true ∧ Answered E t s' f))
    (hdone : id ∈ t.ids → node.state = .succeeded → Done inputs id node.params node.outputs) :
    NodesReach Reach E Done t inputs s' := by
  refine ⟨by rw [hrun]; exact h.given,fun other hother hres => ?_,fun f hf => ?_,fun other hother hs => ?_⟩
  · rw [hrun] at hres ⊢
    by_cases heq : other = id
    · subst heq
      rw [GraphRun.setNode_nodes_self] at hres ⊢
      exact hreach hother hres
    · rw [GraphRun.setNode_nodes_of_ne _ heq] at hres ⊢
      exact h.reach other hother hres
  · rcases hfut f hf with ⟨hold,hparams⟩ | ⟨heq,hres,hnew⟩
    · obtain ⟨hres,hanswered⟩ := h.flying f hold
      by_cases heq : f.nodeId = id
      · refine ⟨?_,hanswered.frame ?_⟩
        · rw [hrun,heq,GraphRun.setNode_nodes_self]
          exact hflag (heq ▸ hres)
        · rw [hrun,heq,GraphRun.setNode_nodes_self]
          exact hparams heq
      · refine ⟨?_,hanswered.frame ?_⟩
        · rw [hrun,GraphRun.setNode_nodes_of_ne _ heq]
          exact hres
        · rw [hrun,GraphRun.setNode_nodes_of_ne _ heq]
    · refine ⟨?_,hnew⟩
      rw [hrun,heq,GraphRun.setNode_nodes_self]
      exact hres
  · rw [hrun] at hs ⊢
    by_cases heq : other = id
    · subst heq
      rw [GraphRun.setNode_nodes_self] at hs ⊢
      exact hdone hother hs
    · rw [GraphRun.setNode_nodes_of_ne _ heq] at hs ⊢
      exact h.done other hother hs

/-- A finished call leaves the parameters as they were, or a repair handler has seen them. -/
theorem finishedNode_repaired (env : Env) (spec : NodeSpec) (node : NodeRun) (result : ToolResult) :
    (finishedNode env spec node result).params = node.params ∨ ∃ f repairer handed, result = .error f ∧
      f.toError.repairable = true ∧ repairerFor env spec = some repairer ∧ handed.params = node.params ∧
      (finishedNode env spec node result).params = (repairer handed f.toError).params := by
  cases result with
  | ok outputs => exact .inl rfl
  | error f =>
    simp only [finishedNode,failedNode]
    cases hused : usedRepairer env spec node f.toError with
    | none => exact .inl rfl
    | some repairer =>
      unfold usedRepairer at hused
      split_ifs at hused with hrepairable
      refine .inr ⟨f,repairer,{ withError node f.toError with
        state := .repairing
        repairAttempts := node.repairAttempts + 1 },rfl,hrepairable.1,hused,rfl,?_⟩
      simp only [repairedNode]
      split <;> rfl

theorem nodesReach_stable (rule : NodeRule T E Reach Done) (ht : T t) (hwf : t.WellFormed) :
    Stable g t stale E (NodesReach Reach E Done t inputs) where
  block := by
    rintro s s' _ ⟨spec,_,_,rfl⟩ h
    refine h.set spec.id rfl id (h.reach spec.id) (fun f hf => .inl ⟨hf,fun _ => rfl⟩) ?_
    exact fun _ => nofun
  dispatch := by
    rintro env s s' henv hi ⟨spec,hspec,params,hready,hparams,_,rfl⟩ h
    have hparams' : Reach inputs spec.id params := by
      unfold nodeParams at hparams
      split_ifs at hparams with hres
      · obtain rfl := Except.ok.inj hparams
        exact h.reach spec.id (GraphTemplate.mem_ids_of_mem hspec) hres
      · rw [← h.given]
        exact rule.resolved ht hspec hparams
    refine h.set spec.id (launched_run _ _ _) (fun _ => rfl) (fun _ _ => hparams') (fun f hf => ?_)
      (fun _ => nofun)
    rw [launched_futures,List.mem_append,List.mem_singleton] at hf
    rcases hf with hf | rfl
    · refine .inl ⟨hf,fun heq => ?_⟩
      have hrunning := hi.running_of_mem hf
      have hstate := hready.1
      rw [← heq,hrunning] at hstate
      exact absurd hstate (by decide)
    · refine .inr ⟨rfl,rfl,env,spec,hspec,g.dispatched s.run spec.id params,_,henv,rfl,?_,rfl⟩
      rw [launched_run]
      exact (congrArg NodeRun.params (GraphRun.setNode_nodes_self _ _ _)).symm
  finish := by
    rintro env s s' henv hi ⟨spec,hspec,result,hfut,_,rfl⟩ h
    have hmem := GraphTemplate.mem_ids_of_mem hspec
    obtain ⟨hres,env',spec',hspec',node,ctx,henv',hid,hnode,hresult⟩ := h.flying _ hfut
    obtain rfl := hwf.eq_of_id hspec' hspec hid
    have hreach := h.reach spec'.id hmem hres
    have hflag := finishedNode_paramsResolved env spec' (s.run.nodes spec'.id) result
    refine h.set spec'.id (Sched.settled_run _ _ _ _) (fun hres => hflag.trans hres) (fun _ _ => ?_)
      (fun f hf => ?_) (fun _ hs => ?_)
    · rcases finishedNode_repaired env spec' (s.run.nodes spec'.id) result with
        hkept | ⟨f,repairer,handed,herr,hrepairable,hused,hhanded,hrepaired⟩
      · exact hkept ▸ hreach
      · rw [pop_run,hrepaired]
        exact rule.repaired ht hspec henv' henv (hnode ▸ hreach) (hresult.symm.trans herr) hrepairable hused
          (hhanded.trans hnode.symm)
    · rw [Sched.settled_futures] at hf
      refine .inl ⟨List.mem_of_mem_eraseP hf,fun heq => ?_⟩
      have hids : f.nodeId ∈ ((s.futures.map (·.nodeId)).erase spec'.id) := by
        rw [← map_eraseP_nodeId]
        exact List.mem_map_of_mem hf
      exact absurd heq (hi.nodup.mem_erase_iff.mp hids).1
    · rcases finishedNode_state env spec' (s.run.nodes spec'.id) result with ⟨_,outputs,rfl⟩ | ⟨hqueued,_⟩
      · have hdone := rule.returned ht hspec henv' (hnode ▸ hreach) hresult.symm
        rw [hnode] at hdone
        exact hdone
      · rw [pop_run] at hs
        rcases hqueued with heq | heq <;> (rw [heq] at hs; cases hs)
  cancel := by
    rintro s s' ⟨spec,_,_,_,rfl⟩ h
    refine h.set spec.id rfl id (h.reach spec.id) (fun f hf => .inl ⟨hf,fun _ => rfl⟩) ?_
    exact fun _ => nofun
  save _ h := ⟨h.given,h.reach,h.flying,h.done⟩

theorem NodeRule.sessionRule (rule : NodeRule T E Reach Done) :
    SessionRule T E Done (NodesReach Reach E Done) where
  stable := nodesReach_stable rule
  done _ h := h.done
  entry _ hfut _ hflag hdone := by
    refine ⟨rfl,fun id _ hres => ?_,fun f hf => ?_,hdone⟩
    · rw [hflag id] at hres
      cases hres
    · rw [hfut] at hf
      cases hf

end Nodes

end DftForge.Runtime
