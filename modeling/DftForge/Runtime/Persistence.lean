import DftForge.Runtime.Lifecycle

/-! # When the store mirrors memory

Dispatching, finishing and cancelling a node save it; blocking a node does not. So
a returned run is mirrored exactly if no iteration had a node to block.
-/
namespace DftForge.Runtime
open Loop Relation

variable {g : GraphScheduler} {t : GraphTemplate} {stale : Set NodeId}
variable {e : GraphEngine} {v : ValidTemplate} {st : Store} {runId : RunId} {s s' : Sched}
variable {entry : GraphEngine.EntryPoint} {input : ℕ → Tick}

/-- The fields of a node that are compared. -/
def SameRecord (a b : NodeRun) : Prop :=
  a.state = b.state ∧ a.attempt = b.attempt ∧ a.repairAttempts = b.repairAttempts ∧
    a.params = b.params ∧ a.outputs = b.outputs ∧ a.error = b.error

theorem sameRecord_of_row {a b : NodeRun} (h : a.row = b.row) : SameRecord a b :=
  ⟨congrArg NodeRow.status h,congrArg NodeRow.attempt h,congrArg NodeRow.repairAttempts h,
    congrArg NodeRow.params h,congrArg NodeRow.outputs h,congrArg NodeRow.error h⟩

/-- Memory and store agree on every node, up to nodes that were reset when the run was
resumed and still wait to be dispatched. -/
def MirroredUpTo (reset : Prop) (t : GraphTemplate) (s : Sched) : Prop :=
  ∀ id ∈ t.ids, (s.store.loadNode s.run.runId t id).row = (s.run.nodes id).row ∨
    reset ∧ (s.run.nodes id).state = .pending

section Steps
variable {reset : Prop}

theorem MirroredUpTo.put (h : MirroredUpTo reset t s) (id : NodeId) (node : NodeRun) :
    MirroredUpTo reset t (s.put id node) := by
  intro id' hid'
  rw [loadNode_put s id node hid']
  by_cases heq : id' = id
  · subst heq; simp
  · simpa [heq] using h id' hid'

theorem MirroredUpTo.dispatch {env : Env} (h : MirroredUpTo reset t s)
    (hstep : DispatchStep g t env s s') : MirroredUpTo reset t s' := by
  obtain ⟨spec,_,params,_,_,_,rfl⟩ := hstep
  exact h.put spec.id (g.dispatched s.run spec.id params)

theorem MirroredUpTo.finish {env : Env} (h : MirroredUpTo reset t s) (hstep : FinishStep t env s s') :
    MirroredUpTo reset t s' := by
  obtain ⟨spec,_,result,_,_,rfl⟩ := hstep
  have hpop : MirroredUpTo reset t (s.pop spec.id) := h
  simp only [Sched.settled]
  split
  · exact (hpop.put _ _).put _ _
  · exact hpop.put _ _

theorem MirroredUpTo.cancel (h : MirroredUpTo reset t s) (hstep : CancelStep t s s') :
    MirroredUpTo reset t s' := by
  obtain ⟨spec,_,_,_,rfl⟩ := hstep
  exact h.put _ _

/-- An iteration that finds nothing to block keeps memory mirrored. -/
theorem MirroredUpTo.iterated {i : Tick} {s₁ s₂ s₃ : Sched} (h : MirroredUpTo reset t s)
    (hiter : Iterated g t i s s₁ s₂ s₃) (hnone : ∀ spec ∈ t.nodes, ¬ Blockable s.run spec) :
    MirroredUpTo reset t s₃ := by
  have hs₁ : s₁ = s := by
    rcases hiter.blocks.cases_head with heq | ⟨_,⟨spec,hspec,hblock,_⟩,_⟩
    · exact heq.symm
    · exact absurd hblock (hnone spec hspec)
  subst hs₁
  have h₂ : MirroredUpTo reset t s₂ :=
    chain_invariant (fun _ _ hstep h => h.dispatch hstep) hiter.dispatches h
  exact chain_invariant (fun _ _ hstep h => h.finish hstep) hiter.finishes h₂

/-- Whatever an uncancelled iteration finds to block is Blocked after it. -/
theorem blocked_of_tick (ht : t.WellFormed) (hi : Inv g t stale s) {i : Tick} (hc : i.cancelled = false)
    {spec : NodeSpec} (hspec : spec ∈ t.nodes) (hb : Blockable s.run spec) :
    ((g.tick t i s).state.run.nodes spec.id).state = .blocked := by
  have hkept : ∀ {s₁ s₂ : Sched}, Launch g t i.env s s₁ s₂ →
      Inv g t stale s₂ ∧ Final spec.id (s₁.run.nodes spec.id) s₂.run ∧
        (s₁.run.nodes spec.id).state = .blocked := by
    intro s₁ s₂ hlaunch
    have hblocked := hlaunch.blocked spec hspec hb
    have hfinal : Final spec.id (s₁.run.nodes spec.id) s₁.run := ⟨rfl,by rw [hblocked]; decide⟩
    have hi₁ := hlaunch.blocks.inv hi
    have hdispatches : Steps g t i.env s₁ s₂ :=
      ReflTransGen.mono (fun _ _ h => Or.inr (Or.inl h)) _ _ hlaunch.dispatches
    exact ⟨hdispatches.inv hi₁,(final_stable spec.id _ fun _ => True).toPreserved.steps trivial
      hdispatches hi₁ hfinal,hblocked⟩
  have hdone : ∀ {s₁ s₂ s₃ : Sched}, Iterated g t i s s₁ s₂ s₃ →
      (s₃.run.nodes spec.id).state = .blocked := by
    intro s₁ s₂ s₃ hiter
    obtain ⟨hi₂,hfinal,hblocked⟩ := hkept hiter.toLaunch
    have hfinishes : Steps g t i.env s₂ s₃ :=
      ReflTransGen.mono (fun _ _ h => Or.inr (Or.inr h)) _ _ hiter.finishes
    rw [((final_stable spec.id _ fun _ => True).toPreserved.steps trivial hfinishes hi₂ hfinal).1]
    exact hblocked
  have htick := tick_spec ht hi hc
  generalize g.tick t i s = outcome at htick
  cases htick with
  | raised hlaunch _ _ _ =>
    obtain ⟨_,hfinal,hblocked⟩ := hkept hlaunch
    rw [Outcome.state_raised,hfinal.1]
    exact hblocked
  | loop hiter _ => exact hdone hiter
  | returned hiter _ =>
    have hblocked := hdone hiter
    exact hblocked

end Steps

section Returned

/-- After the run was saved, a mirrored memory is what a load gives back. -/
theorem load_of_mirrored (state : RunState) (h : MirroredUpTo False t s) :
    ∃ run, (s.setState state).saveRun.store.loadRun s.run.runId t = some run ∧ run.state = state ∧
      ∀ id ∈ t.ids, SameRecord (run.nodes id) (s.run.nodes id) := by
  have hrow : (s.setState state).saveRun.store.graphRuns s.run.runId =
      some ⟨s.run.templateId,state,s.run.inputs⟩ := by
    simp [Sched.saveRun,Sched.setState,Store.saveRun]
  refine ⟨_,by rw [Store.loadRun,hrow]; rfl,rfl,fun id hid => ?_⟩
  exact sameRecord_of_row ((h id hid).resolve_right fun h => h.1)

theorem entry_mirrored (hgood : st.Good e) (h : e.call st runId entry = .enters v s) :
    MirroredUpTo (entry = .resume) v.template s := by
  cases entry with
  | start =>
    obtain ⟨row,_,_,_,rfl⟩ := start_enters h
    exact fun _ _ => Or.inl rfl
  | resume =>
    obtain ⟨row,_,_,_,rfl⟩ := resume_enters h
    intro id _
    by_cases hreset : (st.loadNode runId v.template id).state ∈ Store.inFlightStates
    · right
      refine ⟨rfl,?_⟩
      show (Store.resetInFlight (st.loadNode runId v.template id)).state = .pending
      rw [resetInFlight_state,if_pos hreset]
    · left
      show (st.loadNode runId v.template id).row =
        (Store.resetInFlight (st.loadNode runId v.template id)).row
      rw [resetInFlight_eq hreset]
  | retry nodeIds =>
    obtain ⟨row,s₁,_,_,_,rfl⟩ := retry_enters hgood h
    exact fun _ _ => Or.inl rfl

/-- A call of the engine that returns leaves a store that mirrors the run in memory
exactly if no iteration found a Pending node with a dead dependency. -/
theorem mirror_iff (hst : Reachable e st) (henter : e.call st runId entry = .enters v s)
    (hadmits : entry.Admits input) {n : ℕ}
    (hret : e.scheduler.run v.template input s n = .returned s') :
    (∃ run, s'.store.loadRun runId v.template = some run ∧ run.state = s'.run.state ∧
      ∀ id ∈ v.template.ids, SameRecord (run.nodes id) (s'.run.nodes id)) ↔
    ∀ m s₀, e.scheduler.run v.template input s m = .loop s₀ → (input m).cancelled = false →
      ∀ spec ∈ v.template.nodes, ¬ Blockable s₀.run spec := by
  have hgood := hst.good
  have ht := v.wellFormed
  obtain ⟨hfut,_,hrunId⟩ := call_enters hgood henter
  have hinv : Inv e.scheduler v.template (staleNodes v.template s) (GraphScheduler.enter s) :=
    enter_inv hfut
  constructor
  · rintro ⟨run,hload,_,hsame⟩ m s₀ hm hc spec hspec hblock
    have hspecid := GraphTemplate.mem_ids_of_mem hspec
    have hmn : m + 1 ≤ n := by
      by_contra hlt
      obtain ⟨u,hu⟩ := exec_loop_of_le hm (show n ≤ m by omega)
      rw [GraphScheduler.run,hu] at hret
      cases hret
    have hnext := blocked_of_tick ht (loop_inv ht hinv hm) hc hspec hblock
    have hsucc : e.scheduler.run v.template input s (m + 1) = e.scheduler.tick v.template (input m) s₀ :=
      exec_succ hm
    have hfinal : Final spec.id ((e.scheduler.run v.template input s (m + 1)).state.run.nodes spec.id)
        (e.scheduler.run v.template input s (m + 1)).state.run :=
      ⟨rfl,by rw [hsucc,hnext]; decide⟩
    have hend := (final_stable spec.id _ fun _ => True).later ht input (fun _ => trivial) hinv hfinal hmn
    rw [hret] at hend
    have hblocked : (s'.run.nodes spec.id).state = .blocked := by
      rw [show s'.run.nodes spec.id = _ from hend.1,hsucc]
      exact hnext
    -- the loaded node is Blocked as well, but no row ever says so
    have hrec : Recorded e v st s' := by
      have := call_run_recorded hgood henter input n
      rwa [hret] at this
    have hrunId' : s'.run.runId = runId := by
      have := call_run_runId hgood henter input n
      rwa [hret] at this
    have hloaded : (s'.store.loadNode runId v.template spec.id).state = .blocked := by
      have hstate := (hsame spec.id hspecid).1
      rw [hblocked] at hstate
      unfold Store.loadRun at hload
      obtain ⟨row,_,rfl⟩ := Option.map_eq_some_iff.mp hload
      exact hstate
    obtain ⟨node,hnode,heq⟩ := row_of_loadNode hspecid (by rw [hloaded]; decide)
    obtain ⟨row,hrow,htid⟩ := hrec.present
    rw [hrunId'] at hrow
    have hstatus := hrec.good.status runId row v hrow (htid ▸ hrec.template) spec hspec node hnode
    rw [heq,load_state] at hloaded
    simp [hloaded] at hstatus
  · intro hnone
    have hentered : MirroredUpTo (entry = .resume) v.template s := entry_mirrored hgood henter
    have hloop : ∀ m s₀, e.scheduler.run v.template input s m = .loop s₀ →
        MirroredUpTo (entry = .resume) v.template s₀ := by
      intro m s₀ hm
      refine (exec_invariant (s := GraphScheduler.enter s)
        (P := fun a => Inv e.scheduler v.template (staleNodes v.template s) a ∧
          MirroredUpTo (entry = .resume) v.template a) ⟨hinv,hentered⟩ ?_ hm).2
      rintro k a b hk ⟨hia,hma⟩ htick
      have hi_b := loop_inv ht hinv ((exec_succ hk).trans htick)
      refine ⟨hi_b,?_⟩
      obtain ⟨hc,_,_,hiter⟩ := tick_loop ht hia htick
      exact hma.iterated hiter (hnone k a hk hc)
    obtain ⟨m,_,s₀,hm,htick⟩ := exec_returned hret
    have hi₀ := loop_inv ht hinv hm
    have hrunId' : s'.run.runId = runId := by
      have := call_run_runId hgood henter input n
      rwa [hret] at this
    cases hc : (input m).cancelled with
    | true =>
      obtain ⟨s₁,hcancel,hchain,_⟩ := tick_cancelled (g := e.scheduler) hi₀ hc
      rw [hcancel] at htick
      cases htick
      have hmir : MirroredUpTo (entry = .resume) v.template s₁ :=
        chain_invariant (fun _ _ hstep h => h.cancel hstep) hchain (hloop m s₀ hm)
      have hmir' : MirroredUpTo False v.template s₁ := by
        intro id hid
        refine (hmir id hid).imp_right fun h => ?_
        obtain ⟨rfl,_⟩ := h
        exact absurd hc (by rw [hadmits m]; decide)
      have hload := load_of_mirrored .paused hmir'
      rw [show s₁.run.runId = runId from hrunId'] at hload
      exact hload
    | false =>
      have hspec := tick_spec ht hi₀ hc
      rw [htick] at hspec
      cases hspec with
      | @returned s₁ s₂ s₃ hiter hover =>
        have hmir := (hloop m s₀ hm).iterated hiter (hnone m s₀ hm hc)
        have hmir' : MirroredUpTo False v.template s₃ := by
          intro id hid
          refine (hmir id hid).imp_right fun h => ?_
          obtain ⟨spec,hspec,rfl⟩ := GraphTemplate.mem_ids.mp hid
          have hterm := hover.2.2 spec hspec
          rw [h.2] at hterm
          exact absurd hterm (by decide)
        have hload := load_of_mirrored (determineRunStatus (s₃.run.nodeStates v.template)) hmir'
        rw [show s₃.run.runId = runId from hrunId'] at hload
        exact hload

theorem mirror_iff_pair : ∃ s',
    (soleEngine pair false).scheduler.run pair.template smoothInput (firstStart pair) 2 = .returned s' ∧
    ((∃ run, s'.store.loadRun "run_1" pair.template = some run ∧ run.state = s'.run.state ∧
        ∀ id ∈ pair.template.ids, SameRecord (run.nodes id) (s'.run.nodes id)) ↔
      ∀ m s₀, (soleEngine pair false).scheduler.run pair.template smoothInput (firstStart pair) m =
        .loop s₀ → (smoothInput m).cancelled = false →
        ∀ spec ∈ pair.template.nodes, ¬ Blockable s₀.run spec) :=
  ⟨_,rfl,mirror_iff (createdStore_reachable false) (createdStore_start false)
    trivial (n := 2) rfl⟩

/-- The first node fails, the second is Blocked in memory; loaded from the store it is
Pending. -/
theorem blocked_not_mirrored : ∃ s' run,
    (soleEngine pair false).scheduler.run pair.template (fun _ => { env := failingEnv, done := ["scf"] })
      (firstStart pair) 2 = .returned s' ∧
    s'.store.loadRun "run_1" pair.template = some run ∧
    (s'.run.nodes "bands").state = .blocked ∧ (run.nodes "bands").state = .pending :=
  ⟨_,_,rfl,rfl,rfl,rfl⟩

end Returned

end DftForge.Runtime
