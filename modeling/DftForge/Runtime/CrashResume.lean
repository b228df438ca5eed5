import DftForge.Runtime.EntryLiveness
import DftForge.Runtime.Outcomes

/-! # Resuming what a dead process left behind

The parameters of a node are persisted, the flag that they are resolved is not. So a
resumed run resolves them again from the template, and what a repair handler changed
is lost, while the repair itself stays counted.
-/
namespace DftForge.Runtime
open Loop Relation

variable {g : GraphScheduler} {t : GraphTemplate} {env : Env} {stale : Set NodeId}
variable {spec : NodeSpec} {run₀ : GraphRun} {st₀ : Store} {s s' : Sched}

section Charted

/-- A row that is on its way to what the evaluator gives the node. -/
structure Destined (g : GraphScheduler) (t : GraphTemplate) (env : Env) (run₀ : GraphRun)
    (spec : NodeSpec) (row : NodeRow) : Prop where
  deps : ∀ d ∈ spec.dependsOn, (g.evaluate t env run₀ d).state = .succeeded
  terminal : row.status.Terminal → Result.mk row.status row.outputs row.params =
    (g.evaluate t env run₀ spec.id).result
  waiting : ¬ row.status.Terminal → row.status ∈ Store.inFlightStates ∧
    outcome env spec ((g.reference t env run₀).upstream spec) row.outputs row.params row.repairAttempts =
      (g.evaluate t env run₀ spec.id).result
  unrepaired : row.repairAttempts = 0 →
    resolveParams t (g.reference t env run₀) spec.params = .ok row.params

/-- A store content: each node's row is the one from the beginning or on its way. -/
structure Saved (g : GraphScheduler) (t : GraphTemplate) (env : Env) (run₀ : GraphRun) (st₀ st : Store) :
    Prop where
  inputs : ∃ row, st.graphRuns run₀.runId = some row ∧ row.inputs = run₀.inputs
  nodes : ∀ spec ∈ t.nodes, st.nodeRuns (run₀.runId,spec.id) = st₀.nodeRuns (run₀.runId,spec.id) ∨
    ∃ row, st.nodeRuns (run₀.runId,spec.id) = some row ∧ Destined g t env run₀ spec row

/-- Whatever has been resolved, called or saved is on its way to the evaluator's record. -/
structure Charted (g : GraphScheduler) (t : GraphTemplate) (env : Env) (run₀ : GraphRun) (st₀ : Store)
    (s : Sched) : Prop where
  tracks : Tracks g t env run₀ s
  futures : ∀ spec ∈ t.nodes, ∀ result, ⟨spec.id,result⟩ ∈ s.futures →
    result = callTool env spec ((g.reference t env run₀).upstream spec) (s.run.nodes spec.id).params ∧
      (s.run.nodes spec.id).paramsResolved = true
  resolved : ∀ spec ∈ t.nodes, (s.run.nodes spec.id).paramsResolved = true →
    Destined g t env run₀ spec (s.run.nodes spec.id).row
  unresolved : ∀ spec ∈ t.nodes, (s.run.nodes spec.id).paramsResolved = false →
    (s.run.nodes spec.id).state = .blocked ∨ s.run.nodes spec.id = run₀.nodes spec.id
  saved : ∀ st ∈ s.store :: s.saves, Saved g t env run₀ st₀ st

theorem Saved.of_put (h : Saved g t env run₀ st₀ s.store) (ht : t.WellFormed)
    (hrunId : s.run.runId = run₀.runId) (hspec : spec ∈ t.nodes) {node : NodeRun}
    (hnode : Destined g t env run₀ spec node.row) : Saved g t env run₀ st₀ (s.put spec.id node).store := by
  refine ⟨h.inputs,fun other hother => ?_⟩
  rw [put_nodeRuns,hrunId]
  by_cases hid : other.id = spec.id
  · obtain rfl := ht.eq_of_id hother hspec hid
    exact Or.inr ⟨_,if_pos rfl,hnode⟩
  · rw [if_neg fun h => hid (Prod.mk.inj h).2]
    exact h.nodes other hother

theorem Charted.saved_put (h : ∀ st ∈ s.store :: s.saves, Saved g t env run₀ st₀ st) (ht : t.WellFormed)
    (hrunId : s.run.runId = run₀.runId) (hspec : spec ∈ t.nodes) {node : NodeRun}
    (hnode : Destined g t env run₀ spec node.row) :
    ∀ st ∈ (s.put spec.id node).store :: (s.put spec.id node).saves, Saved g t env run₀ st₀ st := by
  have hnew := (h _ List.mem_cons_self).of_put ht hrunId hspec hnode
  intro st hst
  rw [Sched.put_saves] at hst
  rcases List.mem_cons.mp hst with rfl | hst
  · exact hnew
  · rcases List.mem_cons.mp hst with rfl | hst
    · exact hnew
    · exact h st (List.mem_cons_of_mem _ hst)

namespace Charted

theorem of_setNode (h : Charted g t env run₀ st₀ s) (ht : t.WellFormed) (hspec : spec ∈ t.nodes)
    {node : NodeRun} (htracks : Tracks g t env run₀ s') (hrun : s'.run = s.run.setNode spec.id node)
    (hfut : ∀ f ∈ s'.futures, f.nodeId ≠ spec.id → f ∈ s.futures)
    (hown : ∀ result, ⟨spec.id,result⟩ ∈ s'.futures →
      result = callTool env spec ((g.reference t env run₀).upstream spec) node.params ∧
        node.paramsResolved = true)
    (hresolved : node.paramsResolved = true → Destined g t env run₀ spec node.row)
    (hunresolved : node.paramsResolved = false → node.state = .blocked)
    (hsaved : ∀ st ∈ s'.store :: s'.saves, Saved g t env run₀ st₀ st) : Charted g t env run₀ st₀ s' := by
  have hother : ∀ other ∈ t.nodes, other = spec ∧ s'.run.nodes other.id = node ∨
      other.id ≠ spec.id ∧ s'.run.nodes other.id = s.run.nodes other.id := by
    intro other hmem
    by_cases hid : other.id = spec.id
    · exact Or.inl ⟨ht.eq_of_id hmem hspec hid,by rw [hrun,hid,GraphRun.setNode_nodes_self]⟩
    · exact Or.inr ⟨hid,by rw [hrun,GraphRun.setNode_nodes_of_ne _ hid]⟩
  refine ⟨htracks,?_,?_,?_,hsaved⟩
  · intro other hmem result hf
    rcases hother other hmem with ⟨rfl,heq⟩ | ⟨hne,heq⟩
    · rw [heq]
      exact hown result hf
    · rw [heq]
      exact h.futures other hmem result (hfut _ hf hne)
  · intro other hmem
    rcases hother other hmem with ⟨rfl,heq⟩ | ⟨_,heq⟩
    · rw [heq]
      exact hresolved
    · rw [heq]
      exact h.resolved other hmem
  · intro other hmem hflag
    rcases hother other hmem with ⟨rfl,heq⟩ | ⟨_,heq⟩
    · rw [heq] at hflag ⊢
      exact Or.inl (hunresolved hflag)
    · rw [heq] at hflag ⊢
      exact h.unresolved other hmem hflag

theorem block (h : Charted g t env run₀ st₀ s) (ht : t.WellFormed) (hi : Inv g t stale s)
    (hstep : BlockStep t s s') : Charted g t env run₀ st₀ s' := by
  have htracks := h.tracks.block ht hi hstep
  obtain ⟨spec,hspec,⟨hpending,_⟩,rfl⟩ := hstep
  refine h.of_setNode ht hspec htracks rfl (fun f hf _ => hf) ?_ ?_ (fun _ => rfl) h.saved
  · intro result hmem
    have hrunning := hi.running_of_mem hmem
    rw [hpending] at hrunning
    cases hrunning
  · intro hflag
    -- a node that was resolved is on its way, and so not Pending
    have hdest := (h.resolved spec hspec hflag).waiting (by
      show ¬ (s.run.nodes spec.id).state.Terminal
      rw [hpending]
      decide)
    have hstatus : (s.run.nodes spec.id).state ∈ Store.inFlightStates := hdest.1
    rw [hpending] at hstatus
    exact absurd hstatus (by decide)

theorem dispatch (h : Charted g t env run₀ st₀ s) (ht : t.WellFormed) (hpure : env.Functional t)
    (hi : Inv g t stale s) (hstep : DispatchStep g t env s s') : Charted g t env run₀ st₀ s' := by
  have htracks := h.tracks.dispatch ht hi hstep
  obtain ⟨spec,hspec,params,hready,hparams,_,rfl⟩ := hstep
  have hctx := h.tracks.sameContext ht hspec hready.2
  have hdeps : ∀ d ∈ spec.dependsOn, (g.evaluate t env run₀ d).state = .succeeded := fun d hd =>
    (congrArg NodeRun.state (hctx.deps d hd)).trans (hready.2 d hd)
  have hupstream : s.run.upstream spec = (g.reference t env run₀).upstream spec :=
    List.map_congr_left fun d hd => by rw [hctx.deps d hd]
  have hopen : ¬ (s.run.nodes spec.id).state.Terminal := by
    have := hready.1
    revert this
    cases (s.run.nodes spec.id).state <;> decide
  have hresolve : resolveParams t s.run spec.params =
      resolveParams t (g.reference t env run₀) spec.params :=
    resolveParams_congr ht hspec hctx.inputs.symm fun d hd => by rw [hctx.deps d hd]; exact ⟨rfl,rfl⟩
  -- what the call comes to, and that it is made with resolved parameters
  have hgoal : outcome env spec ((g.reference t env run₀).upstream spec) (s.run.nodes spec.id).outputs params
        (s.run.nodes spec.id).repairAttempts = (g.evaluate t env run₀ spec.id).result ∧
      ((s.run.nodes spec.id).repairAttempts = 0 →
        resolveParams t (g.reference t env run₀) spec.params = .ok params) := by
    unfold nodeParams at hparams
    split_ifs at hparams with hflag
    · cases hparams
      have hdest := h.resolved spec hspec hflag
      exact ⟨(hdest.waiting hopen).2,hdest.unrepaired⟩
    · rw [hresolve] at hparams
      refine ⟨?_,fun _ => hparams⟩
      rw [← h.tracks.waiting spec hspec hready.1,h.tracks.verdict_eq_settle ht hspec hready.2 hopen]
      refine (settle_result hpure hspec ?_).symm
      have hflag' : (s.run.nodes spec.id).paramsResolved = false := by simpa using hflag
      have hne : ∀ d ∈ spec.dependsOn, d ≠ spec.id := fun d hd heq =>
        not_mem_dependsOn ht hspec (heq ▸ hd)
      simp only [nodeParams,GraphRun.setNode_nodes_self,hflag',Bool.false_eq_true,if_false]
      rw [← hparams]
      exact resolveParams_congr ht hspec rfl fun d hd => by simp [hne d hd]
  have hdest : Destined g t env run₀ spec (g.dispatched s.run spec.id params).row := by
    refine ⟨hdeps,fun hterm => ?_,fun _ => ⟨?_,hgoal.1⟩,hgoal.2⟩
    · exact absurd hterm (by simp only [GraphScheduler.dispatched,NodeRun.row]; decide)
    · simp only [GraphScheduler.dispatched,NodeRun.row]; decide
  refine h.of_setNode ht hspec htracks rfl ?_ ?_ (fun _ => hdest) (by simp [GraphScheduler.dispatched])
    (saved_put h.saved ht h.tracks.same.1 hspec hdest)
  · intro f hf hid
    rcases List.mem_append.mp hf with hf | hf
    · exact hf
    · rw [List.mem_singleton.mp hf] at hid
      exact absurd rfl hid
  · intro result hmem
    refine ⟨?_,rfl⟩
    rcases List.mem_append.mp hmem with hmem | hmem
    · have hrunning := hi.running_of_mem hmem
      have := hready.1
      simp [hrunning] at this
    · refine (congrArg Future.result (List.mem_singleton.mp hmem)).trans ?_
      exact hpure.tools spec hspec _ _ _ _ rfl hupstream

theorem finish (h : Charted g t env run₀ st₀ s) (ht : t.WellFormed) (hpure : env.Functional t)
    (hi : Inv g t stale s) (hstep : FinishStep t env s s') : Charted g t env run₀ st₀ s' := by
  have htracks := h.tracks.finish ht hi hstep
  obtain ⟨spec,hspec,result,hmem,hrun,rfl⟩ := hstep
  obtain ⟨hresult,hflag⟩ := h.futures spec hspec result hmem
  have hdest := h.resolved spec hspec hflag
  have hopen : ¬ (s.run.nodes spec.id).row.status.Terminal := by
    show ¬ (s.run.nodes spec.id).state.Terminal
    rw [hrun]
    decide
  have hfinished := finished_of_call hpure hspec hresult
  have hgoal : outcome env spec ((g.reference t env run₀).upstream spec) (s.run.nodes spec.id).outputs
      (s.run.nodes spec.id).params (s.run.nodes spec.id).repairAttempts =
      (g.evaluate t env run₀ spec.id).result := (hdest.waiting hopen).2
  rw [hgoal] at hfinished
  have hnew : Destined g t env run₀ spec (finishedNode env spec (s.run.nodes spec.id) result).row := by
    refine ⟨hdest.deps,fun hterm => ?_,fun hwait => ?_,fun hzero => ?_⟩
    · cases hfinished with
      | done _ heq => exact heq
      | queued hready _ =>
        have hterm' : (finishedNode env spec (s.run.nodes spec.id) result).state.Terminal := hterm
        rw [hready] at hterm'
        exact absurd hterm' (by decide)
    · have hstate := finishedNode_state env spec (s.run.nodes spec.id) result
      cases hfinished with
      | done hne _ =>
        have hwait' : ¬ (finishedNode env spec (s.run.nodes spec.id) result).state.Terminal := hwait
        rcases hstate with ⟨hs,_⟩ | ⟨hs | hs,_⟩
        · rw [hs] at hwait'
          exact absurd (by decide) hwait'
        · exact absurd hs hne
        · rw [hs] at hwait'
          exact absurd (by decide) hwait'
      | queued hready heq =>
        refine ⟨?_,heq⟩
        show (finishedNode env spec (s.run.nodes spec.id) result).state ∈ Store.inFlightStates
        rw [hready]
        decide
    · obtain ⟨hparams,hzero'⟩ := finishedNode_params hzero
      exact (hdest.unrepaired hzero').trans (congrArg Except.ok hparams.symm)
  have hpop : ∀ st ∈ (s.pop spec.id).store :: (s.pop spec.id).saves, Saved g t env run₀ st₀ st := h.saved
  have hsaved : ∀ st ∈ ((s.pop spec.id).settled env spec result).store ::
      ((s.pop spec.id).settled env spec result).saves, Saved g t env run₀ st₀ st := by
    simp only [Sched.settled]
    cases hrepairing : repairingNode env spec ((s.pop spec.id).run.nodes spec.id) result with
    | none => exact saved_put hpop ht h.tracks.same.1 hspec hnew
    | some repairing =>
      have hfirst : Destined g t env run₀ spec repairing.row := by
        cases result with
        | ok outputs => simp [repairingNode] at hrepairing
        | error f =>
          simp only [repairingNode,Option.map_eq_some_iff] at hrepairing
          obtain ⟨_,_,rfl⟩ := hrepairing
          refine ⟨hdest.deps,fun hterm => ?_,fun _ => ⟨?_,hgoal⟩,hdest.unrepaired⟩
          · exact absurd hterm (by simp only [NodeRun.row]; decide)
          · simp only [NodeRun.row]; decide
      exact saved_put (saved_put hpop ht h.tracks.same.1 hspec hfirst) ht h.tracks.same.1 hspec hnew
  refine h.of_setNode ht hspec htracks (Sched.settled_run _ _ _ _) ?_ ?_ (fun _ => hnew) ?_ hsaved
  · intro f hf _
    rw [Sched.settled_futures] at hf
    exact List.mem_of_mem_eraseP hf
  · intro result' hmem'
    rw [Sched.settled_futures] at hmem'
    have hgone : spec.id ∉ (s.pop spec.id).futures.map (·.nodeId) := by
      rw [Sched.pop,map_eraseP_nodeId]
      exact hi.nodup.not_mem_erase
    exact absurd (List.mem_map_of_mem hmem') hgone
  · intro hunresolved
    rw [finishedNode_paramsResolved,pop_run,hflag] at hunresolved
    cases hunresolved

theorem save (h : Charted g t env run₀ st₀ s) (state : RunState) :
    Charted g t env run₀ st₀ (s.setState state).saveRun := by
  have hnew : Saved g t env run₀ st₀ (s.setState state).saveRun.store := by
    refine ⟨?_,(h.saved _ List.mem_cons_self).nodes⟩
    obtain ⟨hrunId,_,hinputs⟩ := h.tracks.same
    rw [← hrunId,← hinputs]
    exact ⟨⟨s.run.templateId,state,s.run.inputs⟩,by simp [Sched.saveRun,Sched.setState,Store.saveRun],rfl⟩
  refine ⟨⟨h.tracks.same,h.tracks.supported,h.tracks.terminal,h.tracks.waiting,h.tracks.running⟩,
    h.futures,h.resolved,h.unresolved,fun st hst => ?_⟩
  rcases List.mem_cons.mp hst with rfl | hst
  · exact hnew
  · rcases List.mem_cons.mp hst with rfl | hst
    · exact hnew
    · exact h.saved st (List.mem_cons_of_mem _ hst)

end Charted

theorem charted_preserved (ht : t.WellFormed) (hpure : env.Functional t) :
    Preserved g t stale (· = env) (Charted g t env run₀ st₀) where
  block hi hstep h := h.block ht hi hstep
  dispatch := by
    rintro _ _ _ rfl hi hstep h
    exact h.dispatch ht hpure hi hstep
  finish := by
    rintro _ _ _ rfl hi hstep h
    exact h.finish ht hpure hi hstep

end Charted

section Agreement
variable {run run' : GraphRun}

/-- How a node of the resumed run `run'` relates to the run `run` that was entered. -/
inductive Resumed (g : GraphScheduler) (t : GraphTemplate) (env : Env) (run run' : GraphRun)
    (spec : NodeSpec) : Prop
  | kept (same : run'.nodes spec.id = Store.resetInFlight (run.nodes spec.id))
  | ended (terminal : (run'.nodes spec.id).state.Terminal)
      (eq : (run'.nodes spec.id).result = (g.evaluate t env run spec.id).result)
  | restarted (pending : (run'.nodes spec.id).state = .pending)
      (deps : ∀ d ∈ spec.dependsOn, (g.evaluate t env run d).state = .succeeded) {params : Dict}
      (resolves : resolveParams t (g.reference t env run) spec.params = .ok params)
      (eq : outcome env spec ((g.reference t env run).upstream spec) (run'.nodes spec.id).outputs params
        (run'.nodes spec.id).repairAttempts = (g.evaluate t env run spec.id).result)

theorem resetInFlight_of_terminal {node : NodeRun} (h : node.state.Terminal) :
    Store.resetInFlight node = node := by
  refine resetInFlight_eq ?_
  revert h
  cases node.state <;> decide

theorem resetInFlight_terminal {node : NodeRun} :
    (Store.resetInFlight node).state.Terminal ↔ node.state.Terminal ∧ Store.resetInFlight node = node := by
  unfold Store.resetInFlight
  split_ifs with h
  · refine iff_of_false (show ¬ NodeState.pending.Terminal by decide) fun hterm => ?_
    revert h
    have hterm' := hterm.1
    revert hterm'
    cases node.state <;> decide
  · simp

/-- Nodes that agree with the evaluator on their dependencies resolve and call alike. -/
theorem agree_context (ht : t.WellFormed) (hspec : spec ∈ t.nodes) (hinputs : run'.inputs = run.inputs)
    (hdeps : ∀ d ∈ spec.dependsOn,
      (g.evaluate t env run' d).result = (g.evaluate t env run d).result) :
    resolveParams t (g.reference t env run') spec.params =
        resolveParams t (g.reference t env run) spec.params ∧
      (g.reference t env run').upstream spec = (g.reference t env run).upstream spec := by
  refine ⟨resolveParams_congr ht hspec hinputs fun d hd => ?_,List.map_congr_left fun d hd => ?_⟩
  · exact ⟨congrArg Result.state (hdeps d hd),congrArg Result.outputs (hdeps d hd)⟩
  · exact Prod.ext rfl (congrArg Result.outputs (hdeps d hd))

/-- Settling an open node whose parameters are unresolved. -/
theorem evaluate_open (ht : t.WellFormed) (hpure : env.Functional t) (hspec : spec ∈ t.nodes)
    (hopen : ¬ (run.nodes spec.id).state.Terminal) (hflag : (run.nodes spec.id).paramsResolved = false)
    (hdeps : ∀ d ∈ spec.dependsOn, (g.evaluate t env run d).state = .succeeded) {params : Dict}
    (hparams : resolveParams t (g.reference t env run) spec.params = .ok params) :
    (g.evaluate t env run spec.id).result = outcome env spec ((g.reference t env run).upstream spec)
      (run.nodes spec.id).outputs params (run.nodes spec.id).repairAttempts := by
  have hdeps' : ∀ d ∈ spec.dependsOn, ((g.reference t env run).nodes d).state = .succeeded := hdeps
  rw [evaluate_eq ht run hspec,GraphScheduler.verdict,if_neg hopen,if_pos hdeps']
  refine settle_result hpure hspec ?_
  have hne : ∀ d ∈ spec.dependsOn, d ≠ spec.id := fun d hd heq => not_mem_dependsOn ht hspec (heq ▸ hd)
  simp only [nodeParams,GraphRun.setNode_nodes_self,hflag,Bool.false_eq_true,if_false]
  rw [← hparams]
  exact resolveParams_congr ht hspec rfl fun d hd => by simp [hne d hd]

/-- A node that comes to a terminal record was terminal or found its parameters. -/
theorem resolves_of_terminal (ht : t.WellFormed) (hspec : spec ∈ t.nodes)
    (hopen : ¬ (run.nodes spec.id).state.Terminal) (hflag : (run.nodes spec.id).paramsResolved = false)
    (hdeps : ∀ d ∈ spec.dependsOn, (g.evaluate t env run d).state = .succeeded)
    (hterm : (g.evaluate t env run spec.id).state.Terminal) :
    ∃ params, resolveParams t (g.reference t env run) spec.params = .ok params := by
  have hdeps' : ∀ d ∈ spec.dependsOn, ((g.reference t env run).nodes d).state = .succeeded := hdeps
  have hne : ∀ d ∈ spec.dependsOn, d ≠ spec.id := fun d hd heq => not_mem_dependsOn ht hspec (heq ▸ hd)
  have hsame : nodeParams t ((g.reference t env run).setNode spec.id (run.nodes spec.id)) spec =
      resolveParams t (g.reference t env run) spec.params := by
    simp only [nodeParams,GraphRun.setNode_nodes_self,hflag,Bool.false_eq_true,if_false]
    exact resolveParams_congr ht hspec rfl fun d hd => by simp [hne d hd]
  cases hres : resolveParams t (g.reference t env run) spec.params with
  | ok params => exact ⟨params,rfl⟩
  | error err =>
    rw [hres] at hsame
    rw [evaluate_eq ht run hspec,GraphScheduler.verdict,if_neg hopen,if_pos hdeps',g.settle_eq,
      GraphScheduler.attempt,hsame] at hterm
    exact absurd hterm hopen

/-- The resumed run evaluates to the results of the run it resumes. -/
theorem results_agree (ht : t.WellFormed) (hpure : env.Functional t) (hinputs : run'.inputs = run.inputs)
    (hflag : ∀ id, (run.nodes id).paramsResolved = false)
    (hflag' : ∀ id, (run'.nodes id).paramsResolved = false)
    (hterm : ∀ spec ∈ t.nodes, (g.evaluate t env run spec.id).state.Terminal)
    (hrel : ∀ spec ∈ t.nodes, Resumed g t env run run' spec) :
    ∀ spec ∈ t.nodes, (g.evaluate t env run' spec.id).result = (g.evaluate t env run spec.id).result := by
  refine ht.induction (P := fun id =>
    (g.evaluate t env run' id).result = (g.evaluate t env run id).result) ?_
  intro spec hspec ih
  obtain ⟨hresolve,hupstream⟩ := agree_context ht hspec hinputs ih
  have hstates : ∀ d ∈ spec.dependsOn,
      (g.evaluate t env run' d).state = (g.evaluate t env run d).state := fun d hd =>
    congrArg Result.state (ih d hd)
  cases hrel spec hspec with
  | ended hend heq =>
    rw [evaluate_eq ht run' hspec,GraphScheduler.verdict,if_pos hend]
    exact heq
  | @restarted hpending hdeps params hres heq =>
    have hdeps' : ∀ d ∈ spec.dependsOn, (g.evaluate t env run' d).state = .succeeded := fun d hd =>
      (hstates d hd).trans (hdeps d hd)
    rw [evaluate_open ht hpure hspec (by rw [hpending]; decide) (hflag' _) hdeps' (hresolve.trans hres),
      hupstream]
    exact heq
  | kept hsame =>
    by_cases hopen' : (run'.nodes spec.id).state.Terminal
    · have hboth := resetInFlight_terminal.mp (hsame ▸ hopen')
      rw [hboth.2] at hsame
      rw [evaluate_eq ht run' hspec,evaluate_eq ht run hspec,GraphScheduler.verdict,
        GraphScheduler.verdict,if_pos hopen',if_pos hboth.1,hsame]
    · have hopen : ¬ (run.nodes spec.id).state.Terminal := by
        intro hbad
        refine hopen' ?_
        rw [hsame,resetInFlight_of_terminal hbad]
        exact hbad
      have hdata : (run'.nodes spec.id).outputs = (run.nodes spec.id).outputs ∧
          (run'.nodes spec.id).params = (run.nodes spec.id).params ∧
          (run'.nodes spec.id).repairAttempts = (run.nodes spec.id).repairAttempts := by
        rw [hsame]
        unfold Store.resetInFlight
        split_ifs <;> exact ⟨rfl,rfl,rfl⟩
      by_cases hdeps : ∀ d ∈ spec.dependsOn, (g.evaluate t env run d).state = .succeeded
      · obtain ⟨params,hparams⟩ := resolves_of_terminal ht hspec hopen (hflag _) hdeps (hterm spec hspec)
        have hdeps' : ∀ d ∈ spec.dependsOn, (g.evaluate t env run' d).state = .succeeded := fun d hd =>
          (hstates d hd).trans (hdeps d hd)
        rw [evaluate_open ht hpure hspec hopen' (hflag' _) hdeps' (hresolve.trans hparams),
          evaluate_open ht hpure hspec hopen (hflag _) hdeps hparams,hupstream,hdata.1,hdata.2.2]
      · have hnot : ¬ ∀ d ∈ spec.dependsOn, ((g.reference t env run).nodes d).state = .succeeded := hdeps
        have hnot' : ¬ ∀ d ∈ spec.dependsOn, ((g.reference t env run').nodes d).state = .succeeded :=
          fun hall => hdeps fun d hd => (hstates d hd).symm.trans (hall d hd)
        rw [evaluate_eq ht run' hspec,evaluate_eq ht run hspec,GraphScheduler.verdict,
          GraphScheduler.verdict,if_neg hopen',if_neg hopen,if_neg hnot,if_neg hnot']
        simp only [NodeRun.result,blockedNode,hdata.1,hdata.2.1]

/-- An open node whose dependencies succeed finds its parameters in the resumed run. -/
theorem resumed_resolves (ht : t.WellFormed) (hpure : env.Functional t) (hinputs : run'.inputs = run.inputs)
    (hflag : ∀ id, (run.nodes id).paramsResolved = false)
    (hflag' : ∀ id, (run'.nodes id).paramsResolved = false)
    (hterm : ∀ spec ∈ t.nodes, (g.evaluate t env run spec.id).state.Terminal)
    (hrel : ∀ spec ∈ t.nodes, Resumed g t env run run' spec) (hspec : spec ∈ t.nodes)
    (hopen : ¬ (run'.nodes spec.id).state.Terminal)
    (hdeps : ∀ d ∈ spec.dependsOn, (g.evaluate t env run' d).state = .succeeded) :
    ∃ params, resolveParams t (g.reference t env run') spec.params = .ok params := by
  have hall := results_agree ht hpure hinputs hflag hflag' hterm hrel
  have hterm' : (g.evaluate t env run' spec.id).state.Terminal := by
    rw [show (g.evaluate t env run' spec.id).state = _ from congrArg Result.state (hall spec hspec)]
    exact hterm spec hspec
  exact resolves_of_terminal ht hspec hopen (hflag' _) hdeps hterm'

end Agreement

section FirstCall
variable {run : GraphRun}

/-- The parameters a node is first called with. -/
def Sched.firstParams (s : Sched) (id : NodeId) : Option Dict :=
  (s.calls.filter (·.nodeId = id)).head?.map (·.node.params)

/-- The first call of a node is made with the parameters the entered run resolves to. -/
def FirstCall (t : GraphTemplate) (run : GraphRun) (spec : NodeSpec) (s : Sched) : Prop :=
  s.run.inputs = run.inputs ∧ (∀ d ∈ spec.dependsOn, s.run.nodes d = run.nodes d) ∧
  (s.run.nodes spec.id = run.nodes spec.id ∧ s.calls.filter (·.nodeId = spec.id) = [] ∨
    ∃ params, s.firstParams spec.id = some params ∧ resolveParams t run spec.params = .ok params)

/-- A step on another node that had not succeeded. -/
theorem FirstCall.frame (h : FirstCall t run spec s) (hdeps : ∀ d ∈ spec.dependsOn,
      (run.nodes d).state = .succeeded) {id : NodeId} {node : NodeRun} (hne : spec.id ≠ id)
    (hold : (s.run.nodes id).state ≠ .succeeded) (hrun : s'.run = s.run.setNode id node)
    (hcalls : s'.calls.filter (·.nodeId = spec.id) = s.calls.filter (·.nodeId = spec.id)) :
    FirstCall t run spec s' := by
  obtain ⟨hinputs,hsame,hfirst⟩ := h
  refine ⟨by rw [hrun]; exact hinputs,fun d hd => ?_,?_⟩
  · have hne' : d ≠ id := by
      rintro rfl
      rw [hsame _ hd,hdeps _ hd] at hold
      exact hold rfl
    rw [hrun,GraphRun.setNode_nodes_of_ne _ hne']
    exact hsame d hd
  · rw [Sched.firstParams,hcalls,hrun,GraphRun.setNode_nodes_of_ne _ hne]
    exact hfirst

/-- A step on the node itself, after its first call or making it. -/
theorem FirstCall.own (h : FirstCall t run spec s) (ht : t.WellFormed) (hspec : spec ∈ t.nodes)
    {node : NodeRun} (hrun : s'.run = s.run.setNode spec.id node) {params : Dict}
    (hfirst : s'.firstParams spec.id = some params)
    (hresolves : resolveParams t run spec.params = .ok params) : FirstCall t run spec s' := by
  obtain ⟨hinputs,hsame,_⟩ := h
  refine ⟨by rw [hrun]; exact hinputs,fun d hd => ?_,Or.inr ⟨params,hfirst,hresolves⟩⟩
  have hne : d ≠ spec.id := fun heq => not_mem_dependsOn ht hspec (heq ▸ hd)
  rw [hrun,GraphRun.setNode_nodes_of_ne _ hne]
  exact hsame d hd

theorem firstCall_preserved (ht : t.WellFormed) (hspec : spec ∈ t.nodes)
    (hpending : (run.nodes spec.id).state = .pending) (hflag : (run.nodes spec.id).paramsResolved = false)
    (hdeps : ∀ d ∈ spec.dependsOn, (run.nodes d).state = .succeeded) (E : Env → Prop) :
    Preserved g t stale E (FirstCall t run spec) where
  block _ hstep h := by
    obtain ⟨other,hother,⟨hwait,d,hd,hdead⟩,rfl⟩ := hstep
    by_cases hid : spec.id = other.id
    · obtain rfl := ht.eq_of_id hspec hother hid
      rw [h.2.1 d hd,hdeps d hd] at hdead
      exact absurd hdead (by decide)
    · exact h.frame hdeps hid (by simp [hwait]) rfl rfl
  dispatch := by
    rintro env s s' _ _ hstep h
    obtain ⟨other,hother,params,hready,hparams,_,rfl⟩ := hstep
    by_cases hid : spec.id = other.id
    · obtain rfl := ht.eq_of_id hspec hother hid
      obtain ⟨hinputs,hsame,⟨hnode,hnil⟩ | ⟨params',hfirst,hres⟩⟩ := h
      · have hres : resolveParams t run spec.params = .ok params := by
          simp only [nodeParams,hnode,hflag,Bool.false_eq_true,if_false] at hparams
          rw [← hparams]
          exact resolveParams_congr ht hspec hinputs.symm fun d hd => by rw [hsame d hd]; exact ⟨rfl,rfl⟩
        refine FirstCall.own ⟨hinputs,hsame,Or.inl ⟨hnode,hnil⟩⟩ ht hspec rfl ?_ hres
        simp [Sched.firstParams,GraphScheduler.launched,Sched.saveNodeRun,Sched.setNode,hnil,
          GraphScheduler.dispatched]
      · refine FirstCall.own ⟨hinputs,hsame,Or.inr ⟨params',hfirst,hres⟩⟩ ht hspec rfl ?_ hres
        obtain ⟨c,hc,rfl⟩ := Option.map_eq_some_iff.mp hfirst
        simp [Sched.firstParams,GraphScheduler.launched,Sched.saveNodeRun,Sched.setNode,
          List.filter_append,List.head?_append,hc]
    · refine h.frame hdeps hid ?_ (launched_run _ _ _) ?_
      · intro heq
        have := hready.1
        simp [heq] at this
      · simp [GraphScheduler.launched,Sched.saveNodeRun,Sched.setNode,Ne.symm hid]
  finish := by
    rintro env s s' _ _ hstep h
    obtain ⟨other,hother,result,_,hrun,rfl⟩ := hstep
    have hcalls : ((s.pop other.id).settled env other result).calls = s.calls :=
      Sched.settled_calls _ _ _ _
    by_cases hid : spec.id = other.id
    · obtain rfl := ht.eq_of_id hspec hother hid
      obtain ⟨hinputs,hsame,⟨hnode,_⟩ | ⟨params',hfirst,hres⟩⟩ := h
      · rw [hnode,hpending] at hrun
        cases hrun
      · exact FirstCall.own ⟨hinputs,hsame,Or.inr ⟨params',hfirst,hres⟩⟩ ht hspec
          (Sched.settled_run _ _ _ _) (by rw [Sched.firstParams,hcalls]; exact hfirst) hres
    · exact h.frame hdeps hid (by simp [hrun]) (Sched.settled_run _ _ _ _) (by rw [hcalls])

end FirstCall

section Crash
variable {e : GraphEngine} {v : ValidTemplate} {st st' : Store} {runId : RunId}
variable {entry : GraphEngine.EntryPoint} {input : ℕ → Tick}

theorem resetInFlight_idem (node : NodeRun) :
    Store.resetInFlight (Store.resetInFlight node) = Store.resetInFlight node := by
  refine resetInFlight_eq ?_
  rw [resetInFlight_state]
  cases node.state <;> decide

/-- Up to what a resume resets, a call enters with the rows it leaves in the store. -/
theorem entry_rows (hgood : st.Good e) (h : e.call st runId entry = .enters v s) (id : NodeId) :
    Store.resetInFlight (s.store.loadNode runId v.template id) =
      Store.resetInFlight (s.run.nodes id) := by
  cases entry with
  | start =>
    obtain ⟨row,_,_,_,rfl⟩ := start_enters h
    rfl
  | resume =>
    obtain ⟨row,_,_,_,rfl⟩ := resume_enters h
    exact (resetInFlight_idem _).symm
  | retry nodeIds =>
    obtain ⟨row,s₁,_,_,_,rfl⟩ := retry_enters hgood h
    rfl

theorem entry_inputs (hgood : st.Good e) (h : e.call st runId entry = .enters v s) :
    ∃ row, s.store.graphRuns runId = some row ∧ row.inputs = s.run.inputs := by
  cases entry with
  | start =>
    obtain ⟨row,hrow,_,_,rfl⟩ := start_enters h
    exact ⟨row,hrow,rfl⟩
  | resume =>
    obtain ⟨row,_,_,_,rfl⟩ := resume_enters h
    exact ⟨_,Store.saveRun_graphRuns_self st (st.resumed runId v.template row),rfl⟩
  | retry nodeIds =>
    obtain ⟨row,s₁,hrow,hv,hreset,rfl⟩ := retry_enters hgood h
    have hspec := resetTargets_spec
      (GraphEngine.retryTargets v.template (st.loaded runId v.template row) nodeIds)
      (loaded_recorded hgood hrow hv (.refl st) (by simp)) (loaded_mirrored st runId _ row [])
    simp only [hreset] at hspec
    exact ⟨_,saved_row hspec.2.2.1 .validated,rfl⟩

/-- The entry as a beginning: of what the store held before, only the last content is
kept. -/
def Sched.logged (s : Sched) : Sched := { s with saves := [s.store] }

theorem charted_enter (hgood : st.Good e) (h : e.call st runId entry = .enters v s)
    (hidle : Idle v.template s) :
    Charted g v.template env s.run s.store (GraphScheduler.enter s.logged) := by
  obtain ⟨hfut,_,hrunId⟩ := call_enters hgood h
  have hlogged : Idle v.template s.logged :=
    ⟨hidle.futures,hidle.notRunning,hidle.repaired,hidle.supported⟩
  have htracks : Tracks g v.template env s.run (GraphScheduler.enter s.logged) :=
    tracks_enter v.wellFormed hlogged
  have hflag := entry_unresolved hgood h
  have hsaved : Saved g v.template env s.run s.store s.store :=
    ⟨by rw [hrunId]; exact entry_inputs hgood h,fun _ _ => Or.inl rfl⟩
  have hcharted : Charted g v.template env s.run s.store s.logged := by
    refine ⟨⟨⟨rfl,rfl,rfl⟩,htracks.supported,htracks.terminal,htracks.waiting,htracks.running⟩,?_,?_,?_,?_⟩
    · intro spec _ result hmem
      have hmem' : (⟨spec.id,result⟩ : Future) ∈ s.futures := hmem
      rw [hfut] at hmem'
      cases hmem'
    · intro spec _ hres
      have hres' : (s.run.nodes spec.id).paramsResolved = true := hres
      rw [hflag] at hres'
      cases hres'
    · exact fun _ _ _ => Or.inr rfl
    · intro st hst
      have heq : st = s.store := by simpa [Sched.logged] using hst
      rw [heq]
      exact hsaved
  exact hcharted.save .running

/-- The row of a node that is on its way again after it was repaired. -/
def NodeRow.Requeued (row : NodeRow) : Prop :=
  row.status ∈ Store.inFlightStates ∧ 0 < row.repairAttempts

namespace Saved
variable {row : NodeRow}

/-- What has ended in a saved content has ended as in the evaluator. -/
theorem terminal_row (h : Saved g t env run₀ st₀ st) (ht : t.WellFormed)
    (hrows : ∀ id, Store.resetInFlight (st₀.loadNode run₀.runId t id) = Store.resetInFlight (run₀.nodes id))
    (hspec : spec ∈ t.nodes) (hrow : st.nodeRuns (run₀.runId,spec.id) = some row)
    (hterm : row.status.Terminal) :
    Result.mk row.status row.outputs row.params = (g.evaluate t env run₀ spec.id).result := by
  rcases h.nodes spec hspec with hold | ⟨row',hrow',hdest⟩
  · have hload : st₀.loadNode run₀.runId t spec.id = row.load spec.id :=
      loadNode_some (GraphTemplate.mem_ids_of_mem hspec) (hold.symm.trans hrow)
    have hentered := hrows spec.id
    have hloaded : (row.load spec.id).state.Terminal := hterm
    rw [hload,resetInFlight_of_terminal hloaded] at hentered
    rw [hentered] at hloaded
    obtain ⟨hterm',hsame⟩ := resetInFlight_terminal.mp hloaded
    rw [evaluate_eq ht run₀ hspec,GraphScheduler.verdict,if_pos hterm',← hsame,← hentered]
    rfl
  · obtain rfl := Option.some.inj (hrow'.symm.trans hrow)
    exact hdest.terminal hterm

/-- What a resumed run knows of a succeeded node is what the evaluator gives it. -/
theorem dep_result (h : Saved g t env run₀ st₀ st) (ht : t.WellFormed)
    (hrows : ∀ id, Store.resetInFlight (st₀.loadNode run₀.runId t id) = Store.resetInFlight (run₀.nodes id))
    {id : NodeId} (hid : id ∈ t.ids) (hrow : st.nodeRuns (run₀.runId,id) = some row)
    (hs : row.status = .succeeded) :
    (Store.resetInFlight (st.loadNode run₀.runId t id)).result = (g.evaluate t env run₀ id).result := by
  obtain ⟨spec,hspec,rfl⟩ := GraphTemplate.mem_ids.mp hid
  have hterm : row.status.Terminal := by rw [hs]; decide
  have hloaded : (row.load spec.id).state.Terminal := hterm
  rw [loadNode_some hid hrow,resetInFlight_of_terminal hloaded]
  exact h.terminal_row ht hrows hspec hrow hterm

/-- Each node of the resumed run continues what the entered run began. -/
theorem resumed (h : Saved g t env run₀ st₀ st)
    (hrows : ∀ id, Store.resetInFlight (st₀.loadNode run₀.runId t id) = Store.resetInFlight (run₀.nodes id))
    (hspec : spec ∈ t.nodes) (hcond : ∀ row, st.nodeRuns (run₀.runId,spec.id) = some row → row.Requeued →
      resolveParams t (g.reference t env run₀) spec.params = .ok row.params) (run : RunRow) :
    Resumed g t env run₀ (st.resumed run₀.runId t run) spec := by
  have hid := GraphTemplate.mem_ids_of_mem hspec
  have hnode : (st.resumed run₀.runId t run).nodes spec.id =
    Store.resetInFlight (st.loadNode run₀.runId t spec.id) := rfl
  rcases h.nodes spec hspec with hold | ⟨row,hrow,hdest⟩
  · refine .kept (hnode.trans ?_)
    rw [← hrows spec.id]
    simp only [Store.loadNode,hold]
  · rw [loadNode_some hid hrow] at hnode
    by_cases hterm : row.status.Terminal
    · have hloaded : (row.load spec.id).state.Terminal := hterm
      rw [resetInFlight_of_terminal hloaded] at hnode
      exact .ended (by rw [hnode]; exact hterm) (by rw [hnode]; exact hdest.terminal hterm)
    · obtain ⟨hwait,hgoal⟩ := hdest.waiting hterm
      have hwait' : (row.load spec.id).state ∈ Store.inFlightStates := hwait
      have hres : resolveParams t (g.reference t env run₀) spec.params = .ok row.params := by
        rcases Nat.eq_zero_or_pos row.repairAttempts with hzero | hpos
        · exact hdest.unrepaired hzero
        · exact hcond row hrow ⟨hwait,hpos⟩
      rw [Store.resetInFlight,if_pos hwait'] at hnode
      exact .restarted (by rw [hnode]) hdest.deps hres (by rw [hnode]; exact hgoal)

end Saved

theorem Idle.logged (h : Idle t s) : Idle t s.logged :=
  ⟨h.futures,h.notRunning,h.repaired,h.supported⟩

/-- What returns uncancelled ends with the evaluator's records. -/
theorem Idle.returned_evaluates (h : Idle t s) (ht : t.WellFormed) (henv : ∀ n, (input n).env = env)
    (hc : ∀ n, (input n).cancelled = false) {n : ℕ} (hn : g.run t input s n = .returned s') :
    ∀ spec ∈ t.nodes, (s'.run.nodes spec.id).state.Terminal ∧
      s'.run.nodes spec.id = g.evaluate t env s.run spec.id := by
  rcases (tracks_preserved ht s.run).returned ht henv h.inv (tracks_enter ht h) hn with
    ⟨s₃,rfl,hover,_,htracks⟩ | ⟨m,_,_,_,hcancel,_⟩
  · exact fun spec hspec => ⟨hover.2.2 spec hspec,htracks.terminal spec hspec (hover.2.2 spec hspec)⟩
  · rw [hc m] at hcancel
    cases hcancel

theorem saved_of_crash (hgood : st.Good e) (henter : e.call st runId entry = .enters v s)
    (hpure : env.Functional v.template) (henv : ∀ n, (input n).env = env)
    (hc : ∀ n, (input n).cancelled = false) (hidle : Idle v.template s) {n : ℕ}
    (hcrash : st' ∈ (e.scheduler.run v.template input s.logged n).state.saves) :
    Saved e.scheduler v.template env s.run s.store st' ∧ st'.Good e := by
  have hcharted : Charted e.scheduler v.template env s.run s.store
      (e.scheduler.run v.template input s.logged n).state :=
    (charted_preserved v.wellFormed hpure).state v.wellFormed henv hc (fun state h => h.save state)
      hidle.logged.inv (charted_enter hgood henter hidle) n
  have hrec := call_recorded hgood henter
  have hlogged : Recorded e v st s.logged := by
    refine ⟨hrec.template,hrec.inputs,hrec.present,hrec.supported,hrec.known,hrec.good,hrec.kept,?_⟩
    intro st₁ hst₁
    have heq : st₁ = s.store := by simpa [Sched.logged] using hst₁
    rw [heq]
    exact ⟨hrec.good,hrec.kept⟩
  have hend : Recorded e v st (e.scheduler.run v.template input s.logged n).state :=
    (recorded_stable fun _ => True).run v.wellFormed input (fun _ => trivial) hidle.logged.inv hlogged n
  exact ⟨hcharted.saved st' (List.mem_cons_of_mem _ hcrash),(hend.saves st' hcrash).1⟩

variable {s₁ : Sched}

/-- The resumed run, and that a node with a row resolves its parameters as the evaluator
of the entered run does. -/
theorem resume_context (hgood : st.Good e) (henter : e.call st runId entry = .enters v s)
    (hsaved : Saved g v.template env s.run s.store st') (hgood' : st'.Good e)
    (hresume : e.call st' runId .resume = .enters v s₁) :
    (∃ row, s₁.run = st'.resumed s.run.runId v.template row) ∧ s₁.run.inputs = s.run.inputs ∧
    ∀ spec ∈ v.template.nodes, ∀ row, st'.nodeRuns (s.run.runId,spec.id) = some row →
      (∀ d ∈ spec.dependsOn, (s₁.run.nodes d).state = .succeeded) ∧
      resolveParams v.template s₁.run spec.params =
        resolveParams v.template (g.reference v.template env s.run) spec.params := by
  have hrunId := (call_enters hgood henter).2.2
  obtain ⟨row₁,hrow₁,hv,_,rfl⟩ := resume_enters hresume
  obtain ⟨row₂,hrow₂,hinputs⟩ := hsaved.inputs
  rw [hrunId] at hrow₂
  cases hrow₁.symm.trans hrow₂
  refine ⟨⟨row₁,by rw [hrunId]⟩,hinputs,fun spec hspec row hrow => ?_⟩
  rw [hrunId] at hrow
  have hdeps : ∀ d ∈ spec.dependsOn, (Store.resetInFlight (st'.loadNode runId v.template d)).result =
      (g.evaluate v.template env s.run d).result ∧
      (Store.resetInFlight (st'.loadNode runId v.template d)).state = .succeeded := by
    intro d hd
    have hid := v.wellFormed.known spec hspec d hd
    obtain ⟨dep,hdep,hs⟩ := hgood'.deps runId row₁ v hrow₁ hv spec hspec row hrow d hd
    have hrows : ∀ id, Store.resetInFlight (s.store.loadNode s.run.runId v.template id) =
        Store.resetInFlight (s.run.nodes id) := by
      rw [hrunId]
      exact entry_rows hgood henter
    have hresult := hsaved.dep_result v.wellFormed hrows hid (by rw [hrunId]; exact hdep) hs
    rw [hrunId] at hresult
    refine ⟨hresult,?_⟩
    rw [resetInFlight_succeeded,loadNode_some hid hdep]
    exact hs
  refine ⟨fun d hd => (hdeps d hd).2,resolveParams_congr v.wellFormed hspec hinputs fun d hd => ?_⟩
  exact ⟨congrArg Result.state (hdeps d hd).1,congrArg Result.outputs (hdeps d hd).1⟩

/-- A node that was on its way is resumed Pending. -/
theorem requeued_pending (hresume : e.call st' runId .resume = .enters v s₁)
    (hspec : spec ∈ v.template.nodes) {row : NodeRow} (hrow : st'.nodeRuns (runId,spec.id) = some row)
    (hwait : row.status ∈ Store.inFlightStates) : (s₁.run.nodes spec.id).state = .pending := by
  obtain ⟨row₁,_,_,_,rfl⟩ := resume_enters hresume
  show (Store.resetInFlight (st'.loadNode runId v.template spec.id)).state = .pending
  rw [loadNode_some (GraphTemplate.mem_ids_of_mem hspec) hrow,resetInFlight_state]
  exact if_pos hwait

/-- In the resumed run, the first call of a node that was repaired. -/
theorem requeued_firstCall (hgood' : st'.Good e) (hresume : e.call st' runId .resume = .enters v s₁)
    (hspec : spec ∈ v.template.nodes) {row : NodeRow} (hrow : st'.nodeRuns (runId,spec.id) = some row)
    (hreq : row.Requeued) (hdeps : ∀ d ∈ spec.dependsOn, (s₁.run.nodes d).state = .succeeded)
    (hc : ∀ n, (input n).cancelled = false) (n : ℕ) :
    FirstCall v.template s₁.run spec (e.scheduler.run v.template input s₁ n).state := by
  have hflag := entry_unresolved hgood' hresume spec.id
  have hidle := resume_idle hgood' hresume
  have hcalls := (call_enters hgood' hresume).2.1
  have hpending := requeued_pending hresume hspec hrow hreq.1
  have hpreserved : Preserved e.scheduler v.template ∅ (fun _ => True) (FirstCall v.template s₁.run spec) :=
    firstCall_preserved v.wellFormed hspec hpending hflag hdeps fun _ => True
  refine hpreserved.state v.wellFormed (fun _ => trivial) hc (fun _ h => h) hidle.inv ?_ n
  exact ⟨rfl,fun _ _ => rfl,Or.inl ⟨rfl,by simp [GraphScheduler.enter,Sched.saveRun,Sched.setState,hcalls]⟩⟩

/-- A resumed run finds the parameters of every node it comes to. -/
theorem resumed_resolving (ht : t.WellFormed) (hpure : env.Functional t) (hidle : Idle t s₁)
    (hinputs : s₁.run.inputs = s.run.inputs) (hflag : ∀ id, (s.run.nodes id).paramsResolved = false)
    (hflag' : ∀ id, (s₁.run.nodes id).paramsResolved = false)
    (hterm : ∀ spec ∈ t.nodes, (g.evaluate t env s.run spec.id).state.Terminal)
    (hrel : ∀ spec ∈ t.nodes, Resumed g t env s.run s₁.run spec) (henv : ∀ n, (input n).env = env) :
    Resolving g t input s₁ := by
  intro n s₂ hn spec hspec hready
  have htracks := ((tracks_preserved ht s₁.run).loop ht henv hidle.inv (tracks_enter ht hidle) hn).2
  have hctx := htracks.sameContext ht hspec hready.2
  have hopen : ¬ (s₁.run.nodes spec.id).state.Terminal := by
    intro hdone
    have hfinal := ((final_stable spec.id (s₁.run.nodes spec.id) fun _ => True).toPreserved.loop ht
      (fun _ => trivial) hidle.inv ⟨rfl,hdone⟩ hn).2
    have hwait := hready.1
    rw [hfinal.1] at hwait
    revert hwait hdone
    cases (s₁.run.nodes spec.id).state <;> decide
  obtain ⟨params,hparams⟩ := resumed_resolves ht hpure hinputs hflag hflag' hterm hrel hspec hopen
    fun d hd => (congrArg NodeRun.state (hctx.deps d hd)).trans (hready.2 d hd)
  unfold nodeParams
  split_ifs
  · exact ⟨_,rfl⟩
  · refine ⟨params,?_⟩
    rw [← hparams]
    exact resolveParams_congr ht hspec hctx.inputs.symm fun d hd => by
      rw [hctx.deps d hd]
      exact ⟨rfl,rfl⟩

/-- Tools and repair handlers depending on parameters and upstream outputs only, a run that
died at any save and is resumed calls every repaired node with its repaired parameters, and
ends like the run that did not die, exactly if the repaired parameters are what the template
gives anyway. -/
theorem crash_resume_iff (hst : Reachable e st) (henter : e.call st runId entry = .enters v s)
    (hpure : env.Functional v.template) (henv : ∀ n, (input n).env = env)
    (hc : ∀ n, (input n).cancelled = false) {k : ℕ} {ended : Sched}
    (hret : e.scheduler.run v.template input s.logged k = .returned ended) {n : ℕ}
    (hcrash : st' ∈ (e.scheduler.run v.template input s.logged n).state.saves)
    (hresume : e.call st' runId .resume = .enters v s₁) {input' : ℕ → Tick}
    (henv' : ∀ n, (input' n).env = env) (hc' : ∀ n, (input' n).cancelled = false)
    (hfair : Fair e.scheduler v.template input' s₁) :
    (∃ m s', e.scheduler.run v.template input' s₁ m = .returned s' ∧
      (∀ spec ∈ v.template.nodes, (s'.run.nodes spec.id).result = (ended.run.nodes spec.id).result) ∧
      ∀ spec ∈ v.template.nodes, ∀ row, st'.nodeRuns (runId,spec.id) = some row → row.Requeued →
        s'.firstParams spec.id = some row.params) ↔
    ∀ spec ∈ v.template.nodes, ∀ row, st'.nodeRuns (runId,spec.id) = some row → row.Requeued →
      resolveParams v.template s₁.run spec.params = .ok row.params := by
  have ht := v.wellFormed
  have hgood := hst.good
  obtain ⟨hfut,_,hrunId⟩ := call_enters hgood henter
  have hidle : Idle v.template s := by
    have hlogged := idle_of_returned (s := s.logged) ht hfut (call_recorded hgood henter).supported hc hret
    exact ⟨hlogged.futures,hlogged.notRunning,hlogged.repaired,hlogged.supported⟩
  obtain ⟨hsaved,hgood'⟩ := saved_of_crash hgood henter hpure henv hc hidle hcrash
  have hend := hidle.logged.returned_evaluates ht henv hc hret
  have hidle₁ := resume_idle hgood' hresume
  obtain ⟨⟨row₁,hrun₁⟩,hinputs,hcontext⟩ := resume_context hgood henter hsaved hgood' hresume
  rw [hrunId] at hcontext hrun₁
  have hfirst : ∀ spec ∈ v.template.nodes, ∀ row, st'.nodeRuns (runId,spec.id) = some row →
      row.Requeued → ∀ n, FirstCall v.template s₁.run spec
        (e.scheduler.run v.template input' s₁ n).state := by
    intro spec hspec row hrow hreq n
    exact requeued_firstCall hgood' hresume hspec hrow hreq (hcontext spec hspec row hrow).1 hc' n
  constructor
  · rintro ⟨m,s',hret',_,hparams⟩ spec hspec row hrow hreq
    have hcall := hfirst spec hspec row hrow hreq m
    have hused := hparams spec hspec row hrow hreq
    rw [hret'] at hcall
    obtain ⟨_,_,⟨_,hnil⟩ | ⟨params,hsome,hres⟩⟩ := hcall
    · have hnil' : s'.calls.filter (·.nodeId = spec.id) = [] := hnil
      rw [Sched.firstParams,hnil'] at hused
      cases hused
    · cases hsome.symm.trans hused
      exact hres
  · intro hcond
    have hflag := entry_unresolved hgood henter
    have hflag' := entry_unresolved hgood' hresume
    have hterm : ∀ spec ∈ v.template.nodes,
        (e.scheduler.evaluate v.template env s.run spec.id).state.Terminal := by
      intro spec hspec
      obtain ⟨hdone,heq⟩ := hend spec hspec
      exact (congrArg (fun node => node.state.Terminal) heq).mp hdone
    have hrel : ∀ spec ∈ v.template.nodes, Resumed e.scheduler v.template env s.run s₁.run spec := by
      intro spec hspec
      have hwaiting : ∀ row, st'.nodeRuns (s.run.runId,spec.id) = some row → row.Requeued →
          resolveParams v.template (e.scheduler.reference v.template env s.run) spec.params =
            .ok row.params := by
        intro row hrow hreq
        rw [hrunId] at hrow
        exact (hcontext spec hspec row hrow).2.symm.trans (hcond spec hspec row hrow hreq)
      have hresumed := hsaved.resumed (by rw [hrunId]; exact entry_rows hgood henter) hspec hwaiting row₁
      rw [hrunId] at hresumed
      rw [hrun₁]
      exact hresumed
    obtain ⟨m,s₃,hret',hover,heval⟩ := hidle₁.evaluates ht henv' hc' hfair
      (resumed_resolving ht hpure hidle₁ hinputs hflag hflag' hterm hrel henv')
    refine ⟨m,conclude v.template s₃,hret',fun spec hspec => ?_,fun spec hspec row hrow hreq => ?_⟩
    · have hagree := results_agree ht hpure hinputs hflag hflag' hterm hrel spec hspec
      have hlast : (conclude v.template s₃).run.nodes spec.id =
          e.scheduler.evaluate v.template env s₁.run spec.id :=
        heval spec.id (GraphTemplate.mem_ids_of_mem hspec)
      rw [hlast,hagree]
      exact congrArg NodeRun.result (hend spec hspec).2.symm
    · have hcall := hfirst spec hspec row hrow hreq m
      rw [hret'] at hcall
      obtain ⟨_,_,⟨hnode,_⟩ | ⟨params,hsome,hres⟩⟩ := hcall
      · -- a node that was never called is still Pending, and so the run is not over
        have hdone : (s₃.run.nodes spec.id).state.Terminal := hover.2.2 spec hspec
        have hsame : s₃.run.nodes spec.id = s₁.run.nodes spec.id := hnode
        rw [hsame,requeued_pending hresume hspec hrow hreq.1] at hdone
        exact absurd hdone (by decide)
      · cases hres.symm.trans (hcond spec hspec row hrow hreq)
        exact hsome

end Crash

section Repaired

def single : ValidTemplate :=
  ⟨{ templateId := "scf", nodes := [{ id := "scf", tool := "qe", maxRepairAttempts := 1 }] },none,rfl⟩

/-- Calls converge only if the densities are mixed; the repair handler makes this of the parameters. -/
def repairingEnv (repaired : Dict → Dict) : Env where
  tools := [("qe",fun node _ => if node.params.contains "mixing_beta" then .ok [] else
    .error (.toolError { message := "no convergence", category := "convergence", repairable := true }))]
  repairers := [("mixing",fun node _ => ⟨repaired node.params,"scf did not converge",.ok true⟩)]

/-- The repair handler mixes the densities. -/
def mixed (params : Dict) : Dict := params.set "mixing_beta" (.num (3 / 10))

def repairingInput (repaired : Dict → Dict) : ℕ → Tick := fun _ => { env := repairingEnv repaired, done := ["scf"] }

theorem repairingEnv_functional (repaired : Dict → Dict) (t : GraphTemplate) :
    (repairingEnv repaired).Functional t where
  tools spec _ node node' ctx ctx' hparams _ := by
    unfold executeTool repairingEnv
    by_cases htool : spec.tool = "qe"
    · simp [htool,hparams]
    · have hne : (spec.tool == "qe") = false := by simpa using htool
      simp [List.lookup_cons,hne]
  repairers spec _ repairer h node node' e hparams := by
    have hmem : repairer = fun node _ => ⟨repaired node.params,"scf did not converge",.ok true⟩ := by
      unfold repairerFor repairingEnv at h
      split at h
      · cases h
      · next name _ _ =>
        by_cases hname : name = "mixing"
        · simpa [hname] using h.symm
        · have hne : (name == "mixing") = false := by simpa using hname
          simp [List.lookup_cons,hne] at h
      · simpa using h.symm
    subst hmem
    exact ⟨congrArg repaired hparams,rfl⟩

/-- What is left when the process dies after the node was repaired and queued again. -/
def repairedStore (repaired : Dict → Dict) : Store :=
  ((soleEngine single true).scheduler.run single.template (repairingInput repaired) (firstStart single).logged
    1).state.store

def resumedSingle (repaired : Dict → Dict) : Sched :=
  let left := repairedStore repaired
  let resumed := left.resumed "run_1" single.template ⟨"scf",.running,[]⟩
  { run := resumed, store := left.saveRun resumed, saves := [left.saveRun resumed] }

/-- A node that has spent its repair on the parameters that it had is called with them again. -/
theorem crash_resume_repaired : ∃ row ended m s',
    (soleEngine single true).scheduler.run single.template (repairingInput id) (firstStart single).logged 3 =
      .returned ended ∧
    (repairedStore id).nodeRuns ("run_1","scf") = some row ∧ row.Requeued ∧
    (soleEngine single true).scheduler.run single.template (repairingInput id) (resumedSingle id) m =
      .returned s' ∧
    (s'.run.nodes "scf").result = (ended.run.nodes "scf").result ∧ s'.firstParams "scf" = some row.params := by
  have hresume : (soleEngine single true).call (repairedStore id) "run_1" .resume =
      .enters single (resumedSingle id) := rfl
  have hcrash : repairedStore id ∈ ((soleEngine single true).scheduler.run single.template (repairingInput id)
      (firstStart single).logged 1).state.saves := List.mem_cons_self
  have hfair : Fair (soleEngine single true).scheduler single.template (repairingInput id) (resumedSingle id) :=
    fair_of_done single.wellFormed rfl fun _ _ hid => hid
  have hmem : { id := "scf", tool := "qe", maxRepairAttempts := 1 } ∈ single.template.nodes :=
    List.mem_singleton_self _
  have hiff := crash_resume_iff (n := 1) (k := 3) (createdStore_reachable true) (createdStore_start true)
    (repairingEnv_functional id single.template) (fun _ => rfl) (fun _ => rfl) rfl hcrash hresume
    (fun _ => rfl) (fun _ => rfl) hfair
  have hrow : ∃ row, (repairedStore id).nodeRuns ("run_1","scf") = some row ∧ row.Requeued ∧ row.params = [] :=
    ⟨_,rfl,⟨by decide,by decide⟩,rfl⟩
  obtain ⟨row,hrow,hreq,hparams⟩ := hrow
  obtain ⟨m,s',hret,hsame,hfirst⟩ := hiff.mpr fun spec hspec row' hrow' _ => by
    obtain rfl := List.mem_singleton.mp hspec
    obtain rfl := Option.some.inj (hrow.symm.trans hrow')
    rw [hparams]
    rfl
  exact ⟨row,_,m,s',rfl,hrow,hreq,hret,hsame _ hmem,hfirst _ hmem row hrow hreq⟩

/-- Without a crash the repaired node succeeds. Resumed, it is called with the parameters
it failed with before, and fails for good. -/
theorem repair_lost : ∃ row ended s',
    (repairingEnv mixed).Functional single.template ∧
    (soleEngine single true).call (createdStore single) "run_1" .start = .enters single (firstStart single) ∧
    (soleEngine single true).scheduler.run single.template (repairingInput mixed) (firstStart single).logged 3 =
      .returned ended ∧ (ended.run.nodes "scf").state = .succeeded ∧
    repairedStore mixed ∈ ((soleEngine single true).scheduler.run single.template (repairingInput mixed)
      (firstStart single).logged 1).state.saves ∧
    (repairedStore mixed).nodeRuns ("run_1","scf") = some row ∧ row.Requeued ∧
    row.params.contains "mixing_beta" = true ∧
    (soleEngine single true).call (repairedStore mixed) "run_1" .resume =
      .enters single (resumedSingle mixed) ∧
    (soleEngine single true).scheduler.run single.template (repairingInput mixed) (resumedSingle mixed) 2 =
      .returned s' ∧
    s'.firstParams "scf" = some [] ∧ (s'.run.nodes "scf").state = .failed := by
  refine ⟨_,_,_,repairingEnv_functional _ _,createdStore_start true,rfl,rfl,List.mem_cons_self,rfl,?_,rfl,rfl,
    rfl,rfl,rfl⟩
  exact ⟨by decide,by decide⟩

end Repaired

end DftForge.Runtime
