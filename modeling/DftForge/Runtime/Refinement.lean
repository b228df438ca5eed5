import DftForge.Runtime.Reference

/-! # Executions compute the reference semantics

In every state of an execution each node is on its way to what the evaluator gives
it. So the state in which every node is terminal is the evaluator's.
-/
namespace DftForge.Runtime
open Loop Relation

variable {g : GraphScheduler} {t : GraphTemplate} {env : Env} {stale : Set NodeId} {s s' : Sched}

/-- Every node is on its way to the evaluator's record of it. -/
structure Tracks (g : GraphScheduler) (t : GraphTemplate) (env : Env) (run₀ : GraphRun) (s : Sched) :
    Prop where
  same : SameRun run₀ s.run
  supported : Supported t s.run
  terminal : ∀ spec ∈ t.nodes, (s.run.nodes spec.id).state.Terminal →
    s.run.nodes spec.id = g.evaluate t env run₀ spec.id
  waiting : ∀ spec ∈ t.nodes, (s.run.nodes spec.id).state ∈ [NodeState.pending,.ready] →
    g.verdict t env (g.reference t env run₀) spec (s.run.nodes spec.id) = g.evaluate t env run₀ spec.id
  running : ∀ spec ∈ t.nodes, ∀ result, ⟨spec.id,result⟩ ∈ s.futures →
    g.proceed t env (g.reference t env run₀) spec
      (finishedNode env spec (s.run.nodes spec.id) result) = g.evaluate t env run₀ spec.id

namespace Tracks
variable {run₀ : GraphRun}

theorem sameContext (h : Tracks g t env run₀ s) (ht : t.WellFormed) {spec : NodeSpec}
    (hspec : spec ∈ t.nodes) (hdeps : ∀ d ∈ spec.dependsOn, (s.run.nodes d).state = .succeeded) :
    SameContext spec (g.reference t env run₀) s.run := by
  refine ⟨h.same.1.symm,h.same.2.2.symm,fun d hd => ?_⟩
  obtain ⟨dep,hdep,rfl⟩ := GraphTemplate.mem_ids.mp (ht.known spec hspec d hd)
  exact (h.terminal dep hdep (by rw [hdeps _ hd]; decide)).symm

theorem verdict_eq_settle (h : Tracks g t env run₀ s) (ht : t.WellFormed) {spec : NodeSpec}
    (hspec : spec ∈ t.nodes) (hdeps : ∀ d ∈ spec.dependsOn, (s.run.nodes d).state = .succeeded)
    {node : NodeRun} (hnode : ¬ node.state.Terminal) :
    g.verdict t env (g.reference t env run₀) spec node =
      g.settle t env (g.reference t env run₀) spec node := by
  have hctx := h.sameContext ht hspec hdeps
  have hall : ∀ d ∈ spec.dependsOn, ((g.reference t env run₀).nodes d).state = .succeeded :=
    fun d hd => by rw [hctx.deps d hd]; exact hdeps d hd
  rw [GraphScheduler.verdict,if_neg hnode,if_pos hall]

/-- The waiting nodes keep their verdict when another record changes. -/
theorem of_setNode (h : Tracks g t env run₀ s) (ht : t.WellFormed) {spec : NodeSpec}
    (hspec : spec ∈ t.nodes) {node : NodeRun} (hrun : s'.run = s.run.setNode spec.id node)
    (hsup : Supported t s'.run)
    (hfut : ∀ f ∈ s'.futures, f.nodeId ≠ spec.id → f ∈ s.futures)
    (hterm : node.state.Terminal → node = g.evaluate t env run₀ spec.id)
    (hwait : node.state ∈ [NodeState.pending,.ready] →
      g.verdict t env (g.reference t env run₀) spec node = g.evaluate t env run₀ spec.id)
    (hrunning : ∀ result, ⟨spec.id,result⟩ ∈ s'.futures →
      g.proceed t env (g.reference t env run₀) spec (finishedNode env spec node result) =
        g.evaluate t env run₀ spec.id) : Tracks g t env run₀ s' := by
  refine ⟨by rw [hrun]; exact h.same,hsup,?_,?_,?_⟩
  · intro other hother hstate
    by_cases hid : other.id = spec.id
    · rw [hrun,hid,GraphRun.setNode_nodes_self] at hstate ⊢
      exact hterm hstate
    · rw [hrun,GraphRun.setNode_nodes_of_ne _ hid] at hstate ⊢
      exact h.terminal other hother hstate
  · intro other hother hstate
    by_cases hid : other.id = spec.id
    · have hsame := ht.eq_of_id hother hspec hid
      subst hsame
      rw [hrun,GraphRun.setNode_nodes_self] at hstate ⊢
      exact hwait hstate
    · rw [hrun,GraphRun.setNode_nodes_of_ne _ hid] at hstate ⊢
      exact h.waiting other hother hstate
  · intro other hother result hmem
    by_cases hid : other.id = spec.id
    · have hsame := ht.eq_of_id hother hspec hid
      subst hsame
      rw [hrun,GraphRun.setNode_nodes_self]
      exact hrunning result hmem
    · rw [hrun,GraphRun.setNode_nodes_of_ne _ hid]
      exact h.running other hother result (hfut _ hmem hid)

theorem block (h : Tracks g t env run₀ s) (ht : t.WellFormed) (hi : Inv g t stale s)
    (hstep : BlockStep t s s') : Tracks g t env run₀ s' := by
  have hsup := (supported_stable (g := g) ht fun _ => True).block hi hstep h.supported
  obtain ⟨spec,hspec,⟨hpending,d,hd,hdead⟩,rfl⟩ := hstep
  refine h.of_setNode ht hspec rfl hsup (fun f hf _ => hf) ?_ (by simp [blockedNode]) ?_
  · intro _
    obtain ⟨dep,hdep,rfl⟩ := GraphTemplate.mem_ids.mp (ht.known spec hspec d hd)
    have hterm : (s.run.nodes dep.id).state.Terminal ∧ (s.run.nodes dep.id).state ≠ .succeeded := by
      revert hdead
      cases (s.run.nodes dep.id).state <;> decide
    have hval := h.terminal dep hdep hterm.1
    have hnot : ¬ ∀ d ∈ spec.dependsOn, ((g.reference t env run₀).nodes d).state = .succeeded :=
      fun hall => hterm.2 (by rw [hval]; exact hall dep.id hd)
    rw [← h.waiting spec hspec (by simp [hpending]),GraphScheduler.verdict,if_neg hnot,
      if_neg (by rw [hpending]; decide)]
  · intro result hmem
    have hrunning := hi.running_of_mem hmem
    rw [hpending] at hrunning
    cases hrunning

theorem dispatch (h : Tracks g t env run₀ s) (ht : t.WellFormed) (hi : Inv g t stale s)
    (hstep : DispatchStep g t env s s') : Tracks g t env run₀ s' := by
  have hsup := (supported_stable (g := g) ht fun _ => True).dispatch trivial hi hstep h.supported
  obtain ⟨spec,hspec,params,hready,hparams,_,rfl⟩ := hstep
  have hctx := h.sameContext ht hspec hready.2
  have hrunless : ∀ f ∈ s.futures, f.nodeId ≠ spec.id := by
    intro f hf hid
    have hrunning := hi.running_of_mem hf
    rw [hid] at hrunning
    have := hready.1
    simp [hrunning] at this
  refine h.of_setNode ht hspec rfl hsup ?_ (by simp [GraphScheduler.dispatched,NodeState.Terminal,
    terminalNodeStates]) (by simp [GraphScheduler.dispatched]) ?_
  · intro f hf hid
    rcases List.mem_append.mp hf with hf | hf
    · exact hf
    · rw [List.mem_singleton.mp hf] at hid
      exact absurd rfl hid
  · intro result hmem
    have hresult : result = executeTool env spec (g.dispatched s.run spec.id params)
        (g.context s.run spec) := by
      rcases List.mem_append.mp hmem with hmem | hmem
      · exact absurd rfl (hrunless _ hmem)
      · exact congrArg Future.result (List.mem_singleton.mp hmem)
    have hterm : ¬ (s.run.nodes spec.id).state.Terminal := by
      have := hready.1
      revert this
      cases (s.run.nodes spec.id).state <;> decide
    have hparams' : nodeParams t ((g.reference t env run₀).setNode spec.id (s.run.nodes spec.id)) spec =
        .ok params := by
      rw [← hparams]
      refine nodeParams_congr ht hspec hctx.inputs (by simp) fun d hd => ?_
      have hne : d ≠ spec.id := fun heq => not_mem_dependsOn ht hspec (heq ▸ hd)
      simpa [hne] using hctx.deps d hd
    have hdispatched : g.dispatched ((g.reference t env run₀).setNode spec.id (s.run.nodes spec.id))
        spec.id params = g.dispatched s.run spec.id params := by
      simp [GraphScheduler.dispatched,GraphScheduler.ctxBase,hctx.runId]
    have hcontext : g.context (g.reference t env run₀) spec = g.context s.run spec := by
      simp only [GraphScheduler.context,GraphScheduler.ctxBase,hctx.runId]
      congr 1
      exact List.map_congr_left fun d hd => by rw [hctx.deps d hd]
    rw [← h.waiting spec hspec hready.1,h.verdict_eq_settle ht hspec hready.2 hterm,
      settle_eq_proceed hparams']
    simp only [hdispatched,hcontext,hresult]

theorem finish (h : Tracks g t env run₀ s) (ht : t.WellFormed) (hi : Inv g t stale s)
    (hstep : FinishStep t env s s') : Tracks g t env run₀ s' := by
  have hsup := (supported_stable (g := g) ht fun _ => True).finish trivial hi hstep h.supported
  obtain ⟨spec,hspec,result,hmem,hrun,rfl⟩ := hstep
  have hdeps := h.supported spec hspec (by simp [hrun])
  have hval := h.running spec hspec result hmem
  refine h.of_setNode ht hspec (Sched.settled_run (s.pop spec.id) env spec result) hsup ?_ ?_ ?_ ?_
  · intro f hf _
    simp only [Sched.settled_futures] at hf
    exact List.mem_of_mem_eraseP hf
  · intro hterm
    rw [GraphScheduler.proceed,if_neg] at hval
    · exact hval
    · intro heq
      simp only [pop_run] at hterm
      rw [heq] at hterm
      revert hterm
      decide
  · intro hwait
    simp only [pop_run] at hwait ⊢
    have hready : (finishedNode env spec (s.run.nodes spec.id) result).state = .ready := by
      rcases finishedNode_state env spec (s.run.nodes spec.id) result with ⟨h,_⟩ | ⟨h | h,_⟩
      · simp [h] at hwait
      · exact h
      · simp [h] at hwait
    rw [GraphScheduler.proceed,if_pos hready] at hval
    rw [h.verdict_eq_settle ht hspec hdeps (by rw [hready]; decide)]
    exact hval
  · intro result' hmem'
    simp only [Sched.settled_futures] at hmem'
    have hgone : spec.id ∉ (s.pop spec.id).futures.map (·.nodeId) := by
      rw [Sched.pop,map_eraseP_nodeId]
      exact hi.nodup.not_mem_erase
    exact absurd (List.mem_map_of_mem hmem') hgone

end Tracks

/-- What is not terminal at the entry is on its way to its verdict. -/
theorem tracks_enter (ht : t.WellFormed) (h : Idle t s) :
    Tracks g t env s.run (GraphScheduler.enter s) := by
  refine ⟨⟨rfl,rfl,rfl⟩,h.supported,?_,?_,?_⟩
  · intro spec hspec hterm
    have hterm' : (s.run.nodes spec.id).state.Terminal := hterm
    rw [evaluate_eq ht s.run hspec,GraphScheduler.verdict,if_pos hterm']
    rfl
  · intro spec hspec _
    exact (evaluate_eq ht s.run hspec).symm
  · intro spec _ result hmem
    have hnil : (GraphScheduler.enter s).futures = [] := h.futures
    rw [hnil] at hmem
    cases hmem

theorem tracks_preserved (ht : t.WellFormed) (run₀ : GraphRun) :
    Preserved g t stale (· = env) (Tracks g t env run₀) where
  block hi hstep h := h.block ht hi hstep
  dispatch := by
    rintro _ _ _ rfl hi hstep h
    exact h.dispatch ht hi hstep
  finish := by
    rintro _ _ _ rfl hi hstep h
    exact h.finish ht hi hstep

/-- Every binding resolves in the reference semantics. -/
def GraphScheduler.Binds (g : GraphScheduler) (t : GraphTemplate) (env : Env) (run : GraphRun) : Prop :=
  ∀ spec ∈ t.nodes, (∀ d ∈ spec.dependsOn, (g.evaluate t env run d).state = .succeeded) →
    ∃ params, resolveParams t (g.reference t env run) spec.params = .ok params

theorem Tracks.resolves {run₀ : GraphRun} (h : Tracks g t env run₀ s) (ht : t.WellFormed)
    (hbind : g.Binds t env run₀) {spec : NodeSpec} (hspec : spec ∈ t.nodes) (hready : Ready s.run spec) :
    ∃ params, nodeParams t s.run spec = .ok params := by
  have hctx := h.sameContext ht hspec hready.2
  obtain ⟨params,hparams⟩ := hbind spec hspec fun d hd => by
    have := hctx.deps d hd
    rw [GraphScheduler.reference] at this
    simp only at this
    rw [this]
    exact hready.2 d hd
  unfold nodeParams
  split_ifs
  · exact ⟨_,rfl⟩
  · exact ⟨params,by
      rw [← hparams]
      exact resolveParams_congr ht hspec hctx.inputs.symm fun d hd => by rw [hctx.deps d hd]; simp⟩

variable {input : ℕ → Tick}

/-- A run entered idle ends with the evaluator's record of every node. -/
theorem Idle.evaluates (h : Idle t s) (ht : t.WellFormed) (henv : ∀ n, (input n).env = env)
    (hc : ∀ n, (input n).cancelled = false) (hfair : Fair g t input s) (hres : Resolving g t input s) :
    ∃ n s₃, g.run t input s n = .returned (conclude t s₃) ∧ Over t s₃ ∧
      ∀ id ∈ t.ids, s₃.run.nodes id = g.evaluate t env s.run id := by
  obtain ⟨n,s₃,hn,hover,hfinal⟩ := h.returns ht hc hfair hres (tracks_preserved ht s.run) henv
    (tracks_enter ht h)
  refine ⟨n,s₃,hn,hover,fun id hid => ?_⟩
  obtain ⟨spec,hspec,rfl⟩ := GraphTemplate.mem_ids.mp hid
  exact hfinal.terminal spec hspec (hover.2.2 spec hspec)

theorem Idle.reference (h : Idle t s) (ht : t.WellFormed) (henv : ∀ n, (input n).env = env)
    (hc : ∀ n, (input n).cancelled = false) (hfair : Fair g t input s) (hbind : g.Binds t env s.run) :
    ∃ n s₃, g.run t input s n = .returned (conclude t s₃) ∧ Over t s₃ ∧
      ∀ id ∈ t.ids, s₃.run.nodes id = g.evaluate t env s.run id := by
  have htracks : Preserved g t ∅ (· = env) (Tracks g t env s.run) := tracks_preserved ht s.run
  refine h.evaluates ht henv hc hfair fun n s' hn spec hspec hready => ?_
  exact (htracks.loop ht henv h.inv (tracks_enter ht h) hn).2.resolves ht hbind hspec hready

section Fresh

theorem createRun_idle {t : GraphTemplate} {runId : RunId} {inputs : Dict} {run : GraphRun}
    (h : createRun t runId inputs = .ok run) (store : Store) : Idle t { run, store } := by
  have hnodes : ∀ id, (run.nodes id).state = .pending := by
    rw [createRun_ok h]
    exact fun _ => rfl
  refine ⟨rfl,?_,?_,?_⟩
  · intro id _
    simp [hnodes id]
  · intro id _
    simp [hnodes id]
  · intro spec _ hstate
    simp [hnodes spec.id] at hstate

/-- A fresh node whose dependencies do not all succeed is Blocked without an attempt. -/
theorem evaluate_blocked (ht : t.WellFormed) {run : GraphRun} {spec : NodeSpec} (hspec : spec ∈ t.nodes)
    (hfresh : run.nodes spec.id = { nodeId := spec.id })
    (hdead : ∃ d ∈ spec.dependsOn, (g.evaluate t env run d).state ≠ .succeeded) :
    (g.evaluate t env run spec.id).state = .blocked ∧ (g.evaluate t env run spec.id).attempt = 0 := by
  obtain ⟨d,hd,hne⟩ := hdead
  have hnot : ¬ ∀ d ∈ spec.dependsOn, ((g.reference t env run).nodes d).state = .succeeded :=
    fun hall => hne (hall d hd)
  have hpending : ¬ (run.nodes spec.id).state.Terminal := by
    rw [hfresh]
    exact (by decide : ¬ NodeState.pending.Terminal)
  rw [evaluate_eq ht run hspec,GraphScheduler.verdict,if_neg hpending,if_neg hnot,hfresh]
  exact ⟨rfl,rfl⟩

variable {v : ValidTemplate} {runId : RunId} {inputs : Dict} {run : GraphRun} {store : Store}

/-- Whatever the order of completions, and in both modes, a fresh run ends with the
records the evaluator computes. -/
theorem fresh_run_evaluates {input : ℕ → Tick} (hcreate : createRun v.template runId inputs = .ok run)
    (henv : ∀ n, (input n).env = env) (hc : ∀ n, (input n).cancelled = false)
    (hfair : Fair g v.template input { run, store }) (hbind : g.Binds v.template env run) :
    ∃ n s', g.run v.template input { run, store } n = .returned s' ∧
      (∀ spec ∈ v.template.nodes,
        let node := s'.run.nodes spec.id
        let ref := g.evaluate v.template env run spec.id
        node.state.Terminal ∧ node.state = ref.state ∧ node.outputs = ref.outputs ∧
          node.attempt = ref.attempt ∧ node.repairAttempts = ref.repairAttempts ∧
          node.params = ref.params ∧
          ((∃ d ∈ spec.dependsOn, (g.evaluate v.template env run d).state ≠ .succeeded) →
            node.state = .blocked ∧ node.attempt = 0)) ∧
      s'.run.state = determineRunStatus
        (v.template.nodes.map fun spec => (g.evaluate v.template env run spec.id).state) := by
  have ht := v.wellFormed
  have hidle := createRun_idle hcreate store
  obtain ⟨n,s₃,hn,hover,hfinal⟩ := hidle.reference ht henv hc hfair hbind
  refine ⟨n,conclude v.template s₃,hn,?_,?_⟩
  · intro spec hspec
    have heq : (conclude v.template s₃).run.nodes spec.id = g.evaluate v.template env run spec.id :=
      hfinal spec.id (GraphTemplate.mem_ids_of_mem hspec)
    have hfresh : run.nodes spec.id = { nodeId := spec.id } := by rw [createRun_ok hcreate]
    simp only [heq,true_and]
    exact ⟨heq ▸ hover.2.2 spec hspec,evaluate_blocked ht hspec hfresh⟩
  · show determineRunStatus (s₃.run.nodeStates v.template) = _
    congr 1
    exact List.map_congr_left fun spec hspec => by
      rw [hfinal spec.id (GraphTemplate.mem_ids_of_mem hspec)]

theorem fresh_run_evaluates_pair : ∃ n s', (GraphScheduler.new 2 "/work" true).run pair.template
    (fun _ => { env := constantEnv [], done := ["bands","scf"] })
    { run := freshRun pair.template, store := {} } n = .returned s' ∧
    (s'.run.nodes "bands").state.Terminal := by
  have hfair : Fair (.new 2 "/work" true) pair.template
      (fun _ => { env := constantEnv [], done := ["bands","scf"] })
      { run := freshRun pair.template, store := {} } :=
    fair_of_done pair.wellFormed rfl fun _ => by decide
  have hcreate : createRun pair.template "run_1" [] = .ok (freshRun pair.template) := rfl
  obtain ⟨n,s',hn,hnodes,_⟩ := fresh_run_evaluates (v := pair) hcreate (fun _ => rfl)
    (fun _ => rfl) hfair fun spec hspec _ => by
      have hparams : spec.params = [] := by
        rcases List.mem_cons.mp hspec with rfl | hspec
        · rfl
        · rw [List.mem_singleton.mp hspec]
      exact ⟨[],by rw [hparams]; rfl⟩
  exact ⟨n,s',hn,(hnodes { id := "bands", tool := "qe", dependsOn := ["scf"] }
    (List.mem_cons_of_mem _ List.mem_cons_self)).1⟩

end Fresh

end DftForge.Runtime
