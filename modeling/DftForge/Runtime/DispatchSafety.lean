import DftForge.Runtime.Lifecycle

/-! # Dispatch safety over whole histories

In every iteration of a scheduler that was entered idle the calls in flight are the
running nodes, within the bound. A node that has succeeded is never dispatched
again, by this call of the engine or by any later one.
-/
namespace DftForge.Runtime
open Loop Relation

variable {g : GraphScheduler} {t : GraphTemplate} {stale : Set NodeId}
variable {e : GraphEngine} {v : ValidTemplate} {st : Store} {runId : RunId} {s s' : Sched}
variable {entry : GraphEngine.EntryPoint} {input : ℕ → Tick}

section Entry

/-- A call that enters the scheduler with no node Running or Repairing enters it idle. -/
theorem call_idle (hgood : st.Good e) (h : e.call st runId entry = .enters v s)
    (hidle : ∀ id ∈ v.template.ids, (s.run.nodes id).state ∉ [NodeState.running,.repairing]) :
    Idle v.template s := by
  refine ⟨(call_enters hgood h).1,?_,?_,(call_recorded hgood h).supported⟩
  · intro id hid heq
    simpa [heq] using hidle id hid
  · intro id hid heq
    simpa [heq] using hidle id hid

end Entry

section Calls

/-- The node is terminal, and these are the calls made for it. -/
def Called (id : NodeId) (node : NodeRun) (calls : List Call) (s : Sched) : Prop :=
  Final id node s.run ∧ s.calls.filter (·.nodeId = id) = calls

theorem called_stable (id : NodeId) (node : NodeRun) (calls : List Call) (E : Env → Prop) :
    Stable g t stale E (Called id node calls) where
  block hi hstep h := by
    refine ⟨(final_stable (g := g) id node E).block hi hstep h.1,?_⟩
    obtain ⟨_,_,_,rfl⟩ := hstep
    exact h.2
  dispatch he hi hstep h := by
    refine ⟨(final_stable id node E).dispatch he hi hstep h.1,?_⟩
    obtain ⟨spec,_,params,⟨hstate,_⟩,_,_,rfl⟩ := hstep
    have hne : spec.id ≠ id := by
      rintro rfl
      have hterm := h.1.2
      rw [← h.1.1] at hterm
      revert hstate hterm
      generalize (Sched.run _).nodes spec.id = node
      cases node.state <;> decide
    simp [GraphScheduler.launched,Sched.setNode,Sched.saveNodeRun,List.filter_append,hne,h.2]
  finish he hi hstep h := by
    refine ⟨(final_stable (g := g) id node E).finish he hi hstep h.1,?_⟩
    obtain ⟨spec,_,result,_,_,rfl⟩ := hstep
    rw [Sched.settled_calls]
    exact h.2
  cancel hstep h := by
    refine ⟨h.1.of_changes hstep.changes,?_⟩
    obtain ⟨_,_,_,_,rfl⟩ := hstep
    exact h.2
  save _ h := h

end Calls

/-- A call on a store that records a node as succeeded keeps its record throughout and
never dispatches it. -/
theorem succeeded_untouched (hgood : st.Good e) {id : NodeId} {row : NodeRow}
    (hrow : st.nodeRuns (runId,id) = some row) (hs : row.status = .succeeded)
    (h : e.call st runId entry = .enters v s) (hid : id ∈ v.template.ids) (n : ℕ) :
    let s' := (e.scheduler.run v.template input s n).state
    (s'.run.nodes id).state = .succeeded ∧ (s'.run.nodes id).outputs = row.outputs ∧
      ∀ c ∈ s'.calls, c.nodeId ≠ id := by
  obtain ⟨hfut,hcalls,hrunId⟩ := call_enters hgood h
  have hrec := call_recorded hgood h
  -- the row the call began with is still the one in the store
  have hknown := (hrec.known id hid row).mp ⟨by rw [hrunId]; exact hrec.kept _ row hrow hs,hs⟩
  have hstart : Called id (s.run.nodes id) [] s := by
    refine ⟨⟨rfl,by rw [hknown.1]; decide⟩,by simp [hcalls]⟩
  have hend := (called_stable (g := e.scheduler) (t := v.template)
    id (s.run.nodes id) [] fun _ => True).run v.wellFormed input (fun _ => trivial)
    (enter_inv hfut) hstart n
  refine ⟨by rw [hend.1.1]; exact hknown.1,by rw [hend.1.1,← hknown.2]; rfl,?_⟩
  intro c hc heq
  have := List.filter_eq_nil_iff.mp hend.2 c hc
  simp [heq] at this

/-- Every transition the scheduler makes from Running is allowed. -/
theorem running_transitions {run : GraphRun} {id : NodeId} (h : (run.nodes id).state = .running)
    {target : NodeState} (htarget : target ∈ [NodeState.succeeded,.failed,.repairing,.ready,.cancelled]) :
    ∃ run', run.transition id target = .ok run' := by
  refine ⟨_,GraphRun.transition_ok ?_⟩
  rw [h]
  revert htarget
  cases target <;> decide

/-- Dispatch safety: the joint invariant at every iteration of a scheduler entered
with nothing Running or Repairing, no exception from a transition, and the
permanence of success within the call and over every history that follows. -/
theorem dispatch_safety (hst : Reachable e st) (henter : e.call st runId entry = .enters v s) :
    ((∀ id ∈ v.template.ids, (s.run.nodes id).state ∉ [NodeState.running,.repairing]) →
      ∀ n s', e.scheduler.run v.template input s n = .loop s' →
        (s'.futures.map (·.nodeId)).Nodup ∧
        (∀ id, id ∈ s'.futures.map (·.nodeId) ↔
          id ∈ v.template.ids ∧ (s'.run.nodes id).state = .running) ∧
        0 ≤ e.scheduler.maxConcurrency - s'.futures.length ∧
        (∀ spec ∈ v.template.nodes, (s'.run.nodes spec.id).state ∈ [NodeState.ready,.running] →
          ∀ d ∈ spec.dependsOn, (s'.run.nodes d).state = .succeeded) ∧
        ∀ f ∈ s'.futures, ∀ target ∈ [NodeState.succeeded,.failed,.repairing,.ready,.cancelled],
          ∃ run', s'.run.transition f.nodeId target = .ok run') ∧
    (∀ n error s', e.scheduler.run v.template input s n = .raised error s' →
      ∃ err, error = .resolve err) ∧
    (∀ n, let s' := (e.scheduler.run v.template input s n).state
      ∀ id ∈ v.template.ids, (s'.run.nodes id).state = .succeeded →
        s'.store.nodeRuns (runId,id) = some (s'.run.nodes id).row ∧
        ∀ m ≥ n, let s'' := (e.scheduler.run v.template input s m).state
          s''.run.nodes id = s'.run.nodes id ∧
            s''.calls.filter (·.nodeId = id) = s'.calls.filter (·.nodeId = id)) ∧
    ∀ key row, st.nodeRuns key = some row → row.status = .succeeded → ∀ st', Life e st st' →
      st'.nodeRuns key = some row ∧
      ∀ entry' v' s₀ input' m, e.call st' key.1 entry' = .enters v' s₀ → key.2 ∈ v'.template.ids →
        let s' := (e.scheduler.run v'.template input' s₀ m).state
        (s'.run.nodes key.2).state = .succeeded ∧ (s'.run.nodes key.2).outputs = row.outputs ∧
          ∀ c ∈ s'.calls, c.nodeId ≠ key.2 := by
  have hgood := hst.good
  have hinv : Inv e.scheduler v.template (staleNodes v.template s) (GraphScheduler.enter s) :=
    enter_inv (call_enters hgood henter).1
  refine ⟨?_,?_,?_,?_⟩
  · intro hidle n s' hn
    obtain ⟨hi,hsup,_⟩ := (call_idle hgood henter hidle).loop v.wellFormed hn
    refine ⟨hi.nodup,?_,by have := hi.slots; omega,hsup,?_⟩
    · intro id
      constructor
      · intro hmem
        obtain ⟨f,hf,rfl⟩ := List.mem_map.mp hmem
        exact ⟨hi.known f hf,hi.running_of_mem hf⟩
      · rintro ⟨hid,hrun⟩
        simpa using (hi.running id hid).mp hrun
    · intro f hf target htarget
      exact running_transitions (hi.running_of_mem hf) htarget
  · intro n error s' hn
    obtain ⟨_,_,_,_,_,err,herr,_⟩ := unresolved_of_raised v.wellFormed hinv hn
    exact ⟨err,herr⟩
  · intro n s' id hid hs
    have hrunId : s'.run.runId = runId := call_run_runId hgood henter input n
    have hrec : Recorded e v st s' := call_run_recorded hgood henter input n
    refine ⟨?_,?_⟩
    · rw [← hrunId]
      exact ((hrec.known id hid _).mpr ⟨hs,rfl⟩).1
    · intro m hm
      have hcalled : Called id (s'.run.nodes id) (s'.calls.filter (·.nodeId = id)) s' :=
        ⟨⟨rfl,by rw [hs]; decide⟩,rfl⟩
      have hend := (called_stable _ _ _ fun _ => True).later v.wellFormed input (fun _ => trivial)
        hinv hcalled hm
      exact ⟨hend.1.1,hend.2⟩
  · rintro ⟨runId',id⟩ row hrow hs st' hlife
    obtain ⟨hgood',hkeeps⟩ := life_good hlife hgood
    have hrow' := hkeeps _ row hrow hs
    refine ⟨hrow',?_⟩
    intro entry' v' s₀ input' m henter' hid'
    exact succeeded_untouched hgood' hrow' hs henter' hid' m

theorem dispatch_safety_pair : Reachable (soleEngine pair true) (createdStore pair) ∧
    ∀ n s', (soleEngine pair true).scheduler.run pair.template
      (fun _ => { env := constantEnv [], done := ["bands"] }) (firstStart pair) n = .loop s' →
    (s'.futures.map (·.nodeId)).Nodup ∧ ∀ id, id ∈ s'.futures.map (·.nodeId) ↔
      id ∈ pair.template.ids ∧ (s'.run.nodes id).state = .running := by
  refine ⟨createdStore_reachable true,fun n s' hn => ?_⟩
  obtain ⟨hnodup,hrunning,_⟩ := (dispatch_safety (createdStore_reachable true)
    (createdStore_start (v := pair) true)).1 (by decide) n s' hn
  exact ⟨hnodup,hrunning⟩

end DftForge.Runtime
