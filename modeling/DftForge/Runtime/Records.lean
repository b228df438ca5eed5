import DftForge.Runtime.Safety

/-! # What the store records of a run

A node has a row only after its dependencies succeeded, a succeeded row is never
written again, and a row never says Blocked or Skipped. Every save of a scheduler
keeps this, so it holds of whatever a dying process leaves behind.
-/
namespace DftForge.Runtime
open Loop Relation

/-- The invariant of the store contents an engine produces. -/
structure Store.Good (e : GraphEngine) (st : Store) : Prop where
  orphan : ∀ runId, st.graphRuns runId = none → ∀ id, st.nodeRuns (runId,id) = none
  inputs : ∀ runId row v, st.graphRuns runId = some row → e.getTemplate row.templateId = .ok v →
    ∀ key, v.template.inputs.contains key = true → row.inputs.contains key = true
  status : ∀ runId row v, st.graphRuns runId = some row → e.getTemplate row.templateId = .ok v →
    ∀ spec ∈ v.template.nodes, ∀ node, st.nodeRuns (runId,spec.id) = some node →
      node.status ∉ [NodeState.blocked,.skipped]
  deps : ∀ runId row v, st.graphRuns runId = some row → e.getTemplate row.templateId = .ok v →
    ∀ spec ∈ v.template.nodes, ∀ node, st.nodeRuns (runId,spec.id) = some node →
      ∀ d ∈ spec.dependsOn, ∃ dep, st.nodeRuns (runId,d) = some dep ∧ dep.status = .succeeded

/-- Every succeeded row is still there. -/
def Store.Keeps (st₀ st : Store) : Prop :=
  ∀ key row, st₀.nodeRuns key = some row → row.status = .succeeded → st.nodeRuns key = some row

theorem Store.Keeps.refl (st : Store) : st.Keeps st := fun _ _ h _ => h

theorem Store.Keeps.trans {a b c : Store} (hab : a.Keeps b) (hbc : b.Keeps c) : a.Keeps c :=
  fun key row h hs => hbc key row (hab key row h hs) hs

theorem Store.good_empty (e : GraphEngine) : Store.Good e {} := by
  refine ⟨fun _ _ _ => rfl,?_,?_,?_⟩ <;> intro _ _ _ h <;> cases h

/-- The state of a call on a run of the template `v`, with the store as it was when
the call began. -/
structure Recorded (e : GraphEngine) (v : ValidTemplate) (st₀ : Store) (s : Sched) : Prop where
  template : e.getTemplate s.run.templateId = .ok v
  inputs : ∀ key, v.template.inputs.contains key = true → s.run.inputs.contains key = true
  present : ∃ row, s.store.graphRuns s.run.runId = some row ∧ row.templateId = s.run.templateId
  supported : Supported v.template s.run
  known : ∀ id ∈ v.template.ids, ∀ row,
    s.store.nodeRuns (s.run.runId,id) = some row ∧ row.status = .succeeded ↔
      (s.run.nodes id).state = .succeeded ∧ (s.run.nodes id).row = row
  good : s.store.Good e
  kept : st₀.Keeps s.store
  saves : ∀ st ∈ s.saves, st.Good e ∧ st₀.Keeps st

theorem put_nodeRuns (s : Sched) (id : NodeId) (node : NodeRun) (key : RunId × NodeId) :
    (s.put id node).store.nodeRuns key =
      if key = (s.run.runId,id) then some node.row else s.store.nodeRuns key := by
  simp [Store.saveNodeRun,Function.update_apply]

namespace Recorded
variable {e : GraphEngine} {v : ValidTemplate} {st₀ : Store} {s s' : Sched}

theorem of_eq (h : Recorded e v st₀ s) (hrun : s'.run = s.run) (hstore : s'.store = s.store)
    (hsaves : s'.saves = s.saves) : Recorded e v st₀ s' := by
  obtain ⟨h₁,h₂,h₃,h₄,h₅,h₆,h₇,h₈⟩ := h
  exact ⟨hrun ▸ h₁,hrun ▸ h₂,by rw [hstore,hrun]; exact h₃,hrun ▸ h₄,by rw [hstore,hrun]; exact h₅,
    hstore ▸ h₆,hstore ▸ h₇,hsaves ▸ h₈⟩

/-- A dependency that succeeded has a succeeded row. -/
theorem succeeded_row (h : Recorded e v st₀ s) {id : NodeId} (hid : id ∈ v.template.ids)
    (hs : (s.run.nodes id).state = .succeeded) :
    ∃ row, s.store.nodeRuns (s.run.runId,id) = some row ∧ row.status = .succeeded :=
  ⟨_,(h.known id hid _).mpr ⟨hs,rfl⟩⟩

theorem state_of_row (h : Recorded e v st₀ s) {id : NodeId} (hid : id ∈ v.template.ids) {row : NodeRow}
    (hrow : s.store.nodeRuns (s.run.runId,id) = some row) (hs : row.status = .succeeded) :
    (s.run.nodes id).state = .succeeded := ((h.known id hid row).mp ⟨hrow,hs⟩).1

/-- Writing the record of a node that had not succeeded, once its dependencies have. -/
theorem put (h : Recorded e v st₀ s) {spec : NodeSpec} (hspec : spec ∈ v.template.nodes)
    {node : NodeRun} (hold : (s.run.nodes spec.id).state ≠ .succeeded)
    (hdeps : ∀ d ∈ spec.dependsOn, (s.run.nodes d).state = .succeeded)
    (hnew : node.state ∉ [NodeState.blocked,.skipped]) : Recorded e v st₀ (s.put spec.id node) := by
  have hspecid := GraphTemplate.mem_ids_of_mem hspec
  have hnotrow : ∀ row, s.store.nodeRuns (s.run.runId,spec.id) = some row → row.status ≠ .succeeded :=
    fun row hrow hs => hold (h.state_of_row hspecid hrow hs)
  have hrows := put_nodeRuns s spec.id node
  have hkept : st₀.Keeps (s.put spec.id node).store := by
    intro key row hrow hs
    rw [hrows]
    have hkey := h.kept key row hrow hs
    split_ifs with heq
    · subst heq
      exact absurd hs (hnotrow row hkey)
    · exact hkey
  have hgood : (s.put spec.id node).store.Good e := by
    obtain ⟨row₀,hrow₀,htid⟩ := h.present
    refine ⟨?_,h.good.inputs,?_,?_⟩
    · intro runId hnone id
      have hnone' : s.store.graphRuns runId = none := hnone
      rw [hrows,if_neg]
      · exact h.good.orphan runId hnone' id
      · intro heq
        rw [(Prod.mk.inj heq).1,hrow₀] at hnone'
        cases hnone'
    · intro runId row v' hrow hv' spec' hspec' node' hnode'
      rw [hrows] at hnode'
      split_ifs at hnode' with heq
      · cases hnode'
        exact hnew
      · exact h.good.status runId row v' hrow hv' spec' hspec' node' hnode'
    · intro runId row v' hrow hv' spec' hspec' node' hnode' d hd
      rw [hrows] at hnode'
      -- the dependency's row is an older one, since this node had not succeeded
      have hdep : ∃ dep, s.store.nodeRuns (runId,d) = some dep ∧ dep.status = .succeeded := by
        split_ifs at hnode' with heq
        · obtain ⟨rfl,hid⟩ := Prod.mk.inj heq
          have hrow' : s.store.graphRuns s.run.runId = some row := hrow
          rw [hrow₀] at hrow'
          cases hrow'
          rw [htid,h.template] at hv'
          cases hv'
          have hsame := v.wellFormed.eq_of_id hspec' hspec hid
          subst hsame
          exact h.succeeded_row (v.wellFormed.known _ hspec d hd) (hdeps d hd)
        · exact h.good.deps runId row v' hrow hv' spec' hspec' node' hnode' d hd
      obtain ⟨dep,hdeprow,hs⟩ := hdep
      refine ⟨dep,?_,hs⟩
      rw [hrows,if_neg]
      · exact hdeprow
      · intro heq
        rw [heq] at hdeprow
        exact hnotrow dep hdeprow hs
  refine ⟨h.template,h.inputs,h.present,?_,?_,hgood,hkept,?_⟩
  · exact h.supported.setNode v.wellFormed hspec hold fun _ => hdeps
  · intro id hid row
    by_cases heq : id = spec.id
    · subst heq
      have hrow : (s.put spec.id node).store.nodeRuns ((s.put spec.id node).run.runId,spec.id) =
          some node.row := (hrows _).trans (if_pos rfl)
      rw [hrow]
      simp only [Sched.put_run,Option.some.injEq,GraphRun.setNode_nodes_self]
      constructor
      · rintro ⟨rfl,hs⟩
        exact ⟨hs,rfl⟩
      · rintro ⟨hs,rfl⟩
        exact ⟨rfl,hs⟩
    · have hrow : (s.put spec.id node).store.nodeRuns ((s.put spec.id node).run.runId,id) =
          s.store.nodeRuns (s.run.runId,id) := (hrows _).trans (if_neg fun h => heq (Prod.mk.inj h).2)
      rw [hrow]
      simp only [Sched.put_run,GraphRun.setNode_nodes_of_ne _ heq]
      exact h.known id hid row
  · intro st hst
    rw [Sched.put_saves] at hst
    rcases List.mem_cons.mp hst with rfl | hst
    · exact ⟨hgood,hkept⟩
    · exact h.saves st hst

theorem save (h : Recorded e v st₀ s) (state : RunState) :
    Recorded e v st₀ (s.setState state).saveRun := by
  obtain ⟨row₀,hrow₀,htid⟩ := h.present
  have hruns : ∀ runId, (s.setState state).saveRun.store.graphRuns runId =
      if runId = s.run.runId then some ⟨s.run.templateId,state,s.run.inputs⟩
      else s.store.graphRuns runId := by
    intro runId
    simp [Sched.saveRun,Sched.setState,Store.saveRun,Function.update_apply]
  have hnodes : (s.setState state).saveRun.store.nodeRuns = s.store.nodeRuns := rfl
  -- the run's row keeps its template and inputs, every other row is an old one
  have hold : ∀ runId row, (s.setState state).saveRun.store.graphRuns runId = some row →
      ∃ row', s.store.graphRuns runId = some row' ∧ row'.templateId = row.templateId ∧
        (row' = row ∨ runId = s.run.runId ∧ row.inputs = s.run.inputs) := by
    intro runId row hrow
    rw [hruns] at hrow
    split_ifs at hrow with heq
    · cases hrow
      exact ⟨row₀,heq ▸ hrow₀,htid,Or.inr ⟨heq,rfl⟩⟩
    · exact ⟨row,hrow,rfl,Or.inl rfl⟩
  have hgood : (s.setState state).saveRun.store.Good e := by
    refine ⟨?_,?_,?_,?_⟩
    · intro runId hnone id
      rw [hruns] at hnone
      split_ifs at hnone
      exact h.good.orphan runId hnone id
    · intro runId row v' hrow hv' key hkey
      obtain ⟨row',hrow',htid',rfl | ⟨rfl,hinputs⟩⟩ := hold runId row hrow
      · exact h.good.inputs runId row' v' hrow' hv' key hkey
      · rw [hrow₀] at hrow'
        cases hrow'
        rw [← htid',htid,h.template] at hv'
        cases hv'
        rw [hinputs]
        exact h.inputs key hkey
    · intro runId row v' hrow hv' spec hspec node hnode
      obtain ⟨row',hrow',htid',_⟩ := hold runId row hrow
      exact h.good.status runId row' v' hrow' (htid' ▸ hv') spec hspec node (hnodes ▸ hnode)
    · intro runId row v' hrow hv' spec hspec node hnode d hd
      obtain ⟨row',hrow',htid',_⟩ := hold runId row hrow
      exact h.good.deps runId row' v' hrow' (htid' ▸ hv') spec hspec node (hnodes ▸ hnode) d hd
  refine ⟨h.template,h.inputs,⟨_,by rw [hruns]; exact if_pos rfl,rfl⟩,h.supported,h.known,hgood,
    h.kept,?_⟩
  intro st hst
  rcases List.mem_cons.mp hst with rfl | hst
  · exact ⟨hgood,h.kept⟩
  · exact h.saves st hst

end Recorded

section Stable
variable {g : GraphScheduler} {e : GraphEngine} {v : ValidTemplate} {st₀ : Store}
variable {stale : Set NodeId}

theorem Recorded.block {s s' : Sched} (h : Recorded e v st₀ s) (hi : Inv g v.template stale s)
    (hstep : BlockStep v.template s s') : Recorded e v st₀ s' := by
  have hsup := (supported_stable (g := g) v.wellFormed fun _ => True).block hi hstep h.supported
  obtain ⟨spec,hspec,⟨hpending,_⟩,rfl⟩ := hstep
  refine ⟨h.template,h.inputs,h.present,hsup,?_,h.good,h.kept,h.saves⟩
  intro id hid row
  by_cases heq : id = spec.id
  · subst heq
    have hknown := h.known spec.id hid row
    simp only [hpending,reduceCtorEq,false_and,iff_false] at hknown
    simpa [Sched.setNode,blockedNode] using hknown
  · simpa [Sched.setNode,heq] using h.known id hid row

theorem Recorded.dispatch {env : Env} {s s' : Sched} (h : Recorded e v st₀ s)
    (hstep : DispatchStep g v.template env s s') : Recorded e v st₀ s' := by
  obtain ⟨spec,hspec,params,⟨hstate,hdeps⟩,_,_,rfl⟩ := hstep
  have hput : Recorded e v st₀ (s.put spec.id (g.dispatched s.run spec.id params)) := by
    refine h.put hspec ?_ hdeps (by simp [GraphScheduler.dispatched])
    intro heq
    simp [heq] at hstate
  exact hput.of_eq rfl rfl rfl

theorem Recorded.finish {env : Env} {s s' : Sched} (h : Recorded e v st₀ s)
    (hstep : FinishStep v.template env s s') : Recorded e v st₀ s' := by
  obtain ⟨spec,hspec,result,_,hrun,rfl⟩ := hstep
  have hpop : Recorded e v st₀ (s.pop spec.id) := h.of_eq rfl rfl rfl
  have hdeps : ∀ d ∈ spec.dependsOn, ((s.pop spec.id).run.nodes d).state = .succeeded :=
    h.supported spec hspec (by simp [hrun])
  have hdone : (finishedNode env spec ((s.pop spec.id).run.nodes spec.id) result).state ∉
      [NodeState.blocked,.skipped] := by
    rcases finishedNode_state env spec (s.run.nodes spec.id) result with ⟨h,_⟩ | ⟨h | h,_⟩ <;>
      simp [h]
  have hold : ((s.pop spec.id).run.nodes spec.id).state ≠ .succeeded := by simp [hrun]
  simp only [Sched.settled]
  cases hrepairing : repairingNode env spec ((s.pop spec.id).run.nodes spec.id) result with
  | none => exact hpop.put hspec hold hdeps hdone
  | some repairing =>
    have hstate : repairing.state = .repairing := by
      cases result with
      | ok outputs => simp [repairingNode] at hrepairing
      | error f =>
        simp only [repairingNode,Option.map_eq_some_iff] at hrepairing
        obtain ⟨_,_,rfl⟩ := hrepairing
        rfl
    have hfirst : Recorded e v st₀ ((s.pop spec.id).put spec.id repairing) :=
      hpop.put hspec hold hdeps (by simp [hstate])
    refine hfirst.put hspec (by simp [hstate]) ?_ hdone
    intro d hd
    have hne : d ≠ spec.id := fun heq => hold (heq ▸ hdeps d hd)
    simpa [hne] using hdeps d hd

theorem Recorded.cancel {s s' : Sched} (h : Recorded e v st₀ s) (hstep : CancelStep v.template s s') :
    Recorded e v st₀ s' := by
  obtain ⟨spec,hspec,hrun,_,rfl⟩ := hstep
  exact h.put hspec (by simp [hrun]) (h.supported spec hspec (by simp [hrun])) (by simp [cancelledNode])

theorem recorded_stable (E : Env → Prop) : Stable g v.template stale E (Recorded e v st₀) where
  block hi hstep h := h.block hi hstep
  dispatch _ _ hstep h := h.dispatch hstep
  finish _ _ hstep h := h.finish hstep
  cancel hstep h := h.cancel hstep
  save state h := h.save state

end Stable

end DftForge.Runtime
