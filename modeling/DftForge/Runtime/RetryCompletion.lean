import DftForge.Runtime.Lifecycle
import DftForge.Runtime.SmoothRuns

/-! # Retrying a finished run

`retry` without node ids puts the failed and blocked nodes back to Pending, in the
store, and starts the run again. With tools that succeed it completes: what had
succeeded is kept, everything else is called once.
-/
namespace DftForge.Runtime
open Loop Relation

variable {g : GraphScheduler} {t : GraphTemplate} {stale : Set NodeId}
variable {e : GraphEngine} {v : ValidTemplate} {st : Store} {runId : RunId} {s s' : Sched}
variable {run₀ : GraphRun} {spec : NodeSpec}

section Reset

/-- Failed, blocked and cancelled nodes can be reset in any order. -/
theorem resetTargets_ok (ids : List NodeId) (hnodup : ids.Nodup) (hm : Mirrored t s)
    (hids : ∀ id ∈ ids, id ∈ t.ids ∧ canTransition (s.run.nodes id).state .pending = true) :
    ∃ s', GraphEngine.resetTargets t ids s = .ok s' ∧ Mirrored t s' ∧ SameRun s.run s'.run ∧
      ∀ id, s'.run.nodes id =
        if id ∈ ids then GraphEngine.resetNode (s.run.nodes id) else s.run.nodes id := by
  induction ids generalizing s with
  | nil => exact ⟨s,rfl,hm,⟨rfl,rfl,rfl⟩,by simp⟩
  | cons id rest ih =>
    obtain ⟨hid,hcan⟩ := hids id List.mem_cons_self
    obtain ⟨hnot,hnodup'⟩ := List.nodup_cons.mp hnodup
    rw [resetTargets_cons hid hcan]
    obtain ⟨s',hok,hm',hsame,hnodes⟩ := ih hnodup' (hm.put id (GraphEngine.resetNode (s.run.nodes id)))
      fun id' hid' => by
        have hne : id' ≠ id := fun heq => hnot (heq ▸ hid')
        simpa [hne] using hids id' (List.mem_cons_of_mem _ hid')
    refine ⟨s',hok,hm',hsame,fun id' => ?_⟩
    rw [hnodes id']
    by_cases heq : id' = id
    · subst heq
      simp [hnot]
    · simp [heq]

/-- The records with which `retry` enters the scheduler: failed and blocked nodes are
reset, the others are as stored. -/
theorem retry_all_enters {row : RunRow} (hrow : st.graphRuns runId = some row)
    (hv : e.getTemplate row.templateId = .ok v) :
    ∃ s, e.call st runId (.retry []) = .enters v s ∧ s.futures = [] ∧ s.calls = [] ∧
      ∀ id ∈ v.template.ids, (s.run.nodes id).paramsResolved = false ∧ (s.run.nodes id).row =
        let node := st.loadNode runId v.template id
        if node.state ∈ [NodeState.failed,.blocked] then (GraphEngine.resetNode node).row else node.row := by
  have hload : e.load st runId = .ok (v,st.loaded runId v.template row) := by
    simp [GraphEngine.load,Store.templateIdFor,hrow,hv,Store.loadRun,Store.loaded]
  set targets := GraphEngine.retryTargets v.template (st.loaded runId v.template row) [] with htargets
  have hmem : ∀ id, id ∈ targets ↔ id ∈ v.template.ids ∧
      (st.loadNode runId v.template id).state ∈ [NodeState.failed,.blocked] := by
    intro id
    simp only [htargets,GraphEngine.retryTargets,if_true,List.mem_map,List.mem_filter,
      decide_eq_true_eq,GraphTemplate.mem_ids]
    constructor
    · rintro ⟨spec,⟨hspec,hstate⟩,rfl⟩
      exact ⟨⟨spec,hspec,rfl⟩,hstate⟩
    · rintro ⟨⟨spec,hspec,rfl⟩,hstate⟩
      exact ⟨spec,⟨hspec,hstate⟩,rfl⟩
  have hnodup : targets.Nodup := by
    simp only [htargets,GraphEngine.retryTargets,if_true]
    exact v.wellFormed.nodup.sublist (List.filter_sublist.map _)
  obtain ⟨s₁,hok,hm,⟨hid,htid,hinputs⟩,hnodes⟩ := resetTargets_ok targets hnodup
    (loaded_mirrored st runId v.template row []) fun id hid => by
      obtain ⟨hids,hstate⟩ := (hmem id).mp hid
      refine ⟨hids,?_⟩
      simp only [Store.loaded]
      revert hstate
      cases (st.loadNode runId v.template id).state <;> decide
  have hid' : s₁.run.runId = runId := hid
  have htid' : s₁.run.templateId = row.templateId := htid
  have hload' : e.load (s₁.setState .validated).saveRun.store runId =
      .ok (v,s₁.store.loaded runId v.template ⟨row.templateId,.validated,s₁.run.inputs⟩) := by
    simp [GraphEngine.load,Store.templateIdFor,Sched.saveRun,Sched.setState,Store.saveRun,← hid',htid',hv,
      Store.loadRun,Store.loaded]
    rfl
  have hcall : e.call st runId (.retry []) = .enters v {
      run := s₁.store.loaded runId v.template ⟨row.templateId,.validated,s₁.run.inputs⟩
      store := (s₁.setState .validated).saveRun.store
      saves := (s₁.setState .validated).saveRun.saves } := by
    simp only [GraphEngine.call,GraphEngine.retry,hload,← htargets,hok,GraphEngine.start,hload']
    rw [if_neg (by simp only [Store.loaded]; decide)]
  refine ⟨_,hcall,rfl,rfl,fun id hids => ⟨loadNode_paramsResolved _ _ _ _,?_⟩⟩
  have hmir := hm id hids
  rw [hid',hnodes id] at hmir
  have hmem' := hmem id
  simp only [hids,true_and] at hmem'
  simp only [Store.loaded,hmem'] at hmir ⊢
  rw [hmir]
  split_ifs <;> rfl

end Reset

section Run

/-- How far a node has come since the run `run₀` was entered: it had succeeded, it
waits for its first call, or it was called once with fresh parameters. -/
inductive Retried (t : GraphTemplate) (run₀ : GraphRun) (s : Sched) (spec : NodeSpec) : Prop
  | kept (old : (run₀.nodes spec.id).state = .succeeded) (same : s.run.nodes spec.id = run₀.nodes spec.id)
      (uncalled : s.calls.filter (·.nodeId = spec.id) = [])
  | waiting (new : (run₀.nodes spec.id).state ≠ .succeeded)
      (state : (s.run.nodes spec.id).state ∈ [NodeState.pending,.ready])
      (unresolved : (s.run.nodes spec.id).paramsResolved = false)
      (uncalled : s.calls.filter (·.nodeId = spec.id) = [])
  | called (new : (run₀.nodes spec.id).state ≠ .succeeded)
      (state : (s.run.nodes spec.id).state ∈ [NodeState.running,.succeeded])
      (deps : ∀ d ∈ spec.dependsOn, (s.run.nodes d).state = .succeeded) {params : Dict}
      (once : (s.calls.filter (·.nodeId = spec.id)).map (·.node.params) = [params])
      (fresh : resolveParams t s.run spec.params = .ok params)

theorem Retried.state_mem (h : Retried t run₀ s spec) :
    (s.run.nodes spec.id).state ∈ [NodeState.pending,.ready,.running,.succeeded] := by
  cases h with
  | kept old same _ => simp [same,old]
  | waiting _ state _ _ =>
    revert state
    cases (s.run.nodes spec.id).state <;> decide
  | called _ state _ _ _ =>
    revert state
    cases (s.run.nodes spec.id).state <;> decide

/-- A step on another node that had not succeeded. -/
theorem Retried.frame (h : Retried t run₀ s spec) (ht : t.WellFormed) (hspec : spec ∈ t.nodes)
    {id : NodeId} {node : NodeRun} (hne : spec.id ≠ id) (hold : (s.run.nodes id).state ≠ .succeeded)
    (hrun : s'.run = s.run.setNode id node)
    (hcalls : s'.calls.filter (·.nodeId = spec.id) = s.calls.filter (·.nodeId = spec.id)) :
    Retried t run₀ s' spec := by
  have hsame : s'.run.nodes spec.id = s.run.nodes spec.id := by
    rw [hrun,GraphRun.setNode_nodes_of_ne _ hne]
  cases h with
  | kept old same uncalled => exact .kept old (hsame.trans same) (hcalls.trans uncalled)
  | waiting new state unresolved uncalled =>
    exact .waiting new (hsame ▸ state) (hsame ▸ unresolved) (hcalls.trans uncalled)
  | @called new state deps params once fresh =>
    have hdep : ∀ d ∈ spec.dependsOn, s'.run.nodes d = s.run.nodes d := by
      intro d hd
      have hd' : d ≠ id := fun heq => hold (heq ▸ deps d hd)
      rw [hrun,GraphRun.setNode_nodes_of_ne _ hd']
    refine .called new (hsame ▸ state) (fun d hd => by rw [hdep d hd]; exact deps d hd) (hcalls ▸ once) ?_
    rw [← fresh]
    exact resolveParams_congr ht hspec (by rw [hrun]; rfl) fun d hd => by simp [hdep d hd]

/-- Every call in flight has succeeded, and every node is on its way. -/
structure Retrying (t : GraphTemplate) (run₀ : GraphRun) (s : Sched) : Prop where
  results : ∀ f ∈ s.futures, ∃ outputs, f.result = .ok outputs
  nodes : ∀ spec ∈ t.nodes, Retried t run₀ s spec

theorem Retrying.not_dead (h : Retrying t run₀ s) {id : NodeId} (hid : id ∈ t.ids) :
    (s.run.nodes id).state ∉ deadStates := by
  obtain ⟨spec,hspec,rfl⟩ := GraphTemplate.mem_ids.mp hid
  have hstate := (h.nodes spec hspec).state_mem
  revert hstate
  cases (s.run.nodes spec.id).state <;> decide

theorem Retrying.alive (h : Retrying t run₀ s) (ht : t.WellFormed) : Alive t s.run := by
  intro spec hspec
  refine ⟨?_,fun _ d hd => h.not_dead (ht.known spec hspec d hd)⟩
  have hstate := (h.nodes spec hspec).state_mem
  revert hstate
  cases (s.run.nodes spec.id).state <;> decide

theorem retrying_preserved (ht : t.WellFormed) :
    Preserved g t stale (Env.Succeeds t) (Retrying t run₀) where
  block _ hstep h := by
    obtain ⟨spec,hspec,⟨_,d,hd,hdead⟩,_⟩ := hstep
    exact absurd hdead (h.not_dead (ht.known spec hspec d hd))
  dispatch := by
    intro env s s' he _ hstep h
    obtain ⟨spec,hspec,params,⟨hstate,hdeps⟩,hparams,_,rfl⟩ := hstep
    have hnot : (s.run.nodes spec.id).state ≠ .succeeded := by
      intro heq
      simp [heq] at hstate
    refine ⟨?_,fun other hother => ?_⟩
    · intro f hf
      rcases List.mem_append.mp hf with hf | hf
      · exact h.results f hf
      · rw [List.mem_singleton.mp hf]
        exact he spec hspec _ _
    · by_cases hid : other.id = spec.id
      · obtain rfl := ht.eq_of_id hother hspec hid
        cases h.nodes other hother with
        | kept old same _ => exact absurd (same ▸ old) hnot
        | waiting new _ unresolved uncalled =>
          have hdep : ∀ d ∈ other.dependsOn,
              (g.launched env s other params).run.nodes d = s.run.nodes d := by
            intro d hd
            have hne : d ≠ other.id := fun heq => hnot (heq ▸ hdeps d hd)
            rw [launched_run,GraphRun.setNode_nodes_of_ne _ hne]
          have honce : ((g.launched env s other params).calls.filter (·.nodeId = other.id)).map
              (·.node.params) = [params] := by
            simp [GraphScheduler.launched,Sched.saveNodeRun,Sched.setNode,uncalled,
              GraphScheduler.dispatched]
          refine .called new (by simp [GraphScheduler.dispatched])
            (fun d hd => by rw [hdep d hd]; exact hdeps d hd) honce ?_
          · simp only [nodeParams,unresolved,Bool.false_eq_true,if_false] at hparams
            rw [← hparams]
            exact resolveParams_congr ht hother rfl fun d hd => by rw [hdep d hd]; exact ⟨rfl,rfl⟩
        | called _ state _ _ _ =>
          exfalso
          revert hstate state
          cases (s.run.nodes other.id).state <;> decide
      · refine (h.nodes other hother).frame ht hother hid hnot (launched_run _ _ _) ?_
        simp [GraphScheduler.launched,Sched.saveNodeRun,Sched.setNode,Ne.symm hid]
  finish := by
    intro env s s' _ _ hstep h
    obtain ⟨spec,hspec,result,hmem,hrun,rfl⟩ := hstep
    obtain ⟨outputs,hok⟩ := h.results _ hmem
    simp only at hok
    subst hok
    refine ⟨?_,fun other hother => ?_⟩
    · intro f hf
      rw [Sched.settled_futures] at hf
      exact h.results f (List.mem_of_mem_eraseP hf)
    · have hcalls : ((s.pop spec.id).settled env spec (.ok outputs)).calls = s.calls :=
        Sched.settled_calls _ _ _ _
      by_cases hid : other.id = spec.id
      · obtain rfl := ht.eq_of_id hother hspec hid
        cases h.nodes other hother with
        | kept old same _ => rw [same,old] at hrun; cases hrun
        | waiting _ state _ _ => simp [hrun] at state
        | @called new _ deps params once fresh =>
          have hdep : ∀ d ∈ other.dependsOn,
              ((s.pop other.id).settled env other (.ok outputs)).run.nodes d = s.run.nodes d := by
            intro d hd
            have hne : d ≠ other.id := by
              rintro rfl
              rw [deps _ hd] at hrun
              cases hrun
            simp [hne]
          have hdeps : ∀ d ∈ other.dependsOn,
              (((s.pop other.id).settled env other (.ok outputs)).run.nodes d).state = .succeeded := by
            intro d hd
            rw [hdep d hd]
            exact deps d hd
          refine .called new (by simp [finishedNode]) hdeps (hcalls ▸ once) ?_
          rw [← fresh]
          exact resolveParams_congr ht hother (by simp) fun d hd => by rw [hdep d hd]; exact ⟨rfl,rfl⟩
      · exact (h.nodes other hother).frame ht hother hid (by simp [hrun]) (Sched.settled_run _ _ _ _)
          (by rw [hcalls])

end Run

section Retry

/-- A stored run none of whose nodes is cancelled, skipped or on its way is completed by
`retry`: everything that had not succeeded is called once, with fresh parameters. -/
theorem retry_completes {row : RunRow} (hrow : st.graphRuns runId = some row)
    (hv : e.getTemplate row.templateId = .ok v)
    (hstored : ∀ id ∈ v.template.ids, ∀ node, st.nodeRuns (runId,id) = some node →
      node.status ∉ [NodeState.cancelled,.skipped,.running,.repairing]) :
    ∃ s, e.call st runId (.retry []) = .enters v s ∧
      ∀ input, (∀ n, (input n).cancelled = false) → (∀ n, (input n).env.Succeeds v.template) →
        Fair e.scheduler v.template input s → Resolving e.scheduler v.template input s →
        ∃ n s', e.scheduler.run v.template input s n = .returned s' ∧ s'.run.state = .succeeded ∧
          ∀ spec ∈ v.template.nodes, (s'.run.nodes spec.id).state = .succeeded ∧
            if (st.loadNode runId v.template spec.id).state = .succeeded then
              s'.calls.filter (·.nodeId = spec.id) = [] ∧
                (s'.run.nodes spec.id).outputs = (st.loadNode runId v.template spec.id).outputs
            else ∃ params, resolveParams v.template s'.run spec.params = .ok params ∧
              (s'.calls.filter (·.nodeId = spec.id)).map (·.node.params) = [params] := by
  have ht := v.wellFormed
  obtain ⟨s,hcall,hfut,hnocalls,hnodes⟩ := retry_all_enters hrow hv
  refine ⟨s,hcall,fun input hc hok hfair hres => ?_⟩
  have hloaded : ∀ id ∈ v.template.ids, (st.loadNode runId v.template id).state ∉
      [NodeState.cancelled,.skipped,.running,.repairing] := by
    intro id hid hbad
    have hne : (st.loadNode runId v.template id).state ≠ .pending := by
      intro heq
      simp [heq] at hbad
    obtain ⟨node,hnode,hload⟩ := row_of_loadNode hid hne
    rw [hload] at hbad
    exact hstored id hid node hnode hbad
  -- a node is entered Pending, Ready or Succeeded, and Succeeded only if it was stored so
  have hentry : ∀ id ∈ v.template.ids,
      (s.run.nodes id).state ∈ [NodeState.pending,.ready,.succeeded] ∧
      ((s.run.nodes id).state = .succeeded ↔ (st.loadNode runId v.template id).state = .succeeded) := by
    intro id hid
    have hstate := congrArg NodeRow.status (hnodes id hid).2
    have hstate' : (s.run.nodes id).state = if (st.loadNode runId v.template id).state ∈
        [NodeState.failed,.blocked] then .pending else (st.loadNode runId v.template id).state := by
      refine hstate.trans ?_
      simp only
      split_ifs <;> rfl
    rw [hstate']
    have hnot := hloaded id hid
    revert hnot
    cases (st.loadNode runId v.template id).state <;> decide
  have hstart : Retrying v.template s.run (GraphScheduler.enter s) := by
    have hcalls : (GraphScheduler.enter s).calls = [] := hnocalls
    refine ⟨fun f hf => ?_,fun spec hspec => ?_⟩
    · have hf' : f ∈ s.futures := hf
      simp [hfut] at hf'
    · have hid := GraphTemplate.mem_ids_of_mem hspec
      by_cases hs : (s.run.nodes spec.id).state = .succeeded
      · exact .kept hs rfl (by simp [hcalls])
      · refine .waiting hs ?_ (hnodes spec.id hid).1 (by simp [hcalls])
        have hstate : (s.run.nodes spec.id).state ∈ [NodeState.pending,.ready] := by
          have hmem := (hentry spec.id hid).1
          revert hmem hs
          cases (s.run.nodes spec.id).state <;> decide
        exact hstate
  have hi : Inv e.scheduler v.template ∅ (GraphScheduler.enter s) := by
    refine enter_inv_idle hfut fun id hid hrun => ?_
    have hmem := (hentry id hid).1
    simp [hrun] at hmem
  obtain ⟨n,s₃,hret,hover,hend⟩ := live_returns ht hc hi
    (fun n s' hn => ((retrying_preserved ht).loop ht hok hi hstart hn).2.alive ht) hfair hres
    (retrying_preserved ht) hok hstart
  have hdone : ∀ spec ∈ v.template.nodes, (s₃.run.nodes spec.id).state = .succeeded := by
    intro spec hspec
    have hterm := hover.2.2 spec hspec
    have hmem := (hend.nodes spec hspec).state_mem
    revert hterm hmem
    cases (s₃.run.nodes spec.id).state <;> decide
  refine ⟨n,conclude v.template s₃,hret,?_,fun spec hspec => ⟨hdone spec hspec,?_⟩⟩
  · refine determineRunStatus_eq_succeeded.mpr ⟨by simpa [GraphRun.nodeStates] using ht.nonempty,?_⟩
    intro state hstate
    obtain ⟨spec,hspec,rfl⟩ := List.mem_map.mp hstate
    exact hdone spec hspec
  · have hid := GraphTemplate.mem_ids_of_mem hspec
    have hiff := (hentry spec.id hid).2
    split_ifs with hs
    · cases hend.nodes spec hspec with
      | kept _ same uncalled =>
        refine ⟨uncalled,?_⟩
        have hroweq := (hnodes spec.id hid).2
        simp only [hs] at hroweq
        have hout := congrArg NodeRow.outputs hroweq
        exact (congrArg NodeRun.outputs same).trans hout
      | waiting new _ _ _ => exact absurd (hiff.mpr hs) new
      | called new _ _ _ _ => exact absurd (hiff.mpr hs) new
    · cases hend.nodes spec hspec with
      | kept old _ _ => exact absurd (hiff.mp old) hs
      | waiting _ state _ _ => simp [hdone spec hspec] at state
      | @called _ _ _ params once fresh =>
        refine ⟨params,?_,once⟩
        rw [← fresh]
        exact resolveParams_congr ht hspec rfl fun _ _ => ⟨rfl,rfl⟩

/-- What is left of a run whose first node failed. -/
def failedStore : Store :=
  ((soleEngine pair false).scheduler.run pair.template (fun _ => { env := failingEnv, done := ["scf"] })
    (firstStart pair) 2).state.store

theorem failedStore_reachable : Reachable (soleEngine pair false) failedStore := by
  have hsaved : failedStore ∈ (soleEngine pair false).saved (createdStore pair) "run_1" .start
      (fun _ => { env := failingEnv, done := ["scf"] }) 2 := by
    rw [GraphEngine.saved,createdStore_start]
    exact List.mem_cons_self
  exact (createdStore_reachable false).tail
    (.call (show GraphEngine.EntryPoint.start.Admits _ from trivial) hsaved)

theorem retry_completes_pair : ∃ s,
    (soleEngine pair false).call failedStore "run_1" (.retry []) = .enters pair s ∧
    ∃ n s', (soleEngine pair false).scheduler.run pair.template smoothInput s n = .returned s' ∧
      s'.run.state = .succeeded := by
  have hstored : ∀ id ∈ pair.template.ids, ∀ node, failedStore.nodeRuns ("run_1",id) = some node →
      node.status ∉ [NodeState.cancelled,.skipped,.running,.repairing] := by
    have hstatus : ∀ id ∈ pair.template.ids, (failedStore.nodeRuns ("run_1",id)).map (·.status) ∈
        [none,some NodeState.failed] := by decide +kernel
    intro id hid node hnode
    have h := hstatus id hid
    simp only [hnode,Option.map_some,List.mem_cons,reduceCtorEq,Option.some.injEq,List.not_mem_nil,
      or_false,false_or] at h
    rw [h]
    decide
  obtain ⟨s,hcall,hall⟩ := retry_completes (e := soleEngine pair false) (v := pair) rfl rfl hstored
  have hfut := (call_enters failedStore_reachable.good hcall).1
  obtain ⟨n,s',hret,hstate,_⟩ := hall smoothInput (fun _ => rfl) (fun _ => constantEnv_succeeds [])
    (pair_fair hfut) fun _ s' _ _ hspec _ => pair_resolves hspec s'.run
  exact ⟨s,hcall,n,s',hret,hstate⟩

end Retry

end DftForge.Runtime
