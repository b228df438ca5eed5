import DftForge.Runtime.RetryCompletion

/-! # What a rejected retry leaves behind

`retry` checks and saves its targets one after the other. A target that may not return
to Pending stops the loop, and the rows of the targets before it are reset by then.
-/
namespace DftForge.Runtime

/-- The exceptions that name a listed node: it does not exist, or its state forbids the reset. -/
def PyError.OfTarget : PyError → Prop
  | .unknownNode _ => True
  | .transition _ => True
  | _ => False

namespace GraphEngine
variable {e : GraphEngine} {t : GraphTemplate} {st : Store} {runId : RunId} {s : Sched}

def MayReturn (t : GraphTemplate) (run : GraphRun) (id : NodeId) : Prop :=
  id ∈ t.ids ∧ canTransition (run.nodes id).state .pending = true

/-- A retry rejected for one of its nodes changes no stored row. -/
def RetryAtomic (e : GraphEngine) (st : Store) (runId : RunId) (nodeIds : List NodeId) : Prop :=
  ∀ error store saves, e.retry st runId nodeIds = .raised error store saves → error.OfTarget →
    store.graphRuns = st.graphRuns ∧ store.nodeRuns = st.nodeRuns

/-- The row of this node says Pending. -/
def SavedPending (st : Store) (runId : RunId) (id : NodeId) : Prop :=
  ∃ row, st.nodeRuns (runId,id) = some row ∧ row.status = .pending

theorem resetTargets_cons_rejected {id : NodeId} (h : ¬ MayReturn t s.run id) (rest : List NodeId) :
    ∃ error, resetTargets t (id :: rest) s = .error ⟨error,s⟩ ∧ error.OfTarget := by
  by_cases hid : id ∈ t.ids
  · have hcan : canTransition (s.run.nodes id).state .pending = false := by
      rw [← Bool.not_eq_true]
      exact fun hcan => h ⟨hid,hcan⟩
    refine ⟨.transition ⟨(s.run.nodes id).nodeId,(s.run.nodes id).state,.pending⟩,?_,trivial⟩
    rw [resetTargets,if_neg (not_not.mpr hid)]
    simp [Sched.transition,GraphRun.transition,hcan]
  · refine ⟨.unknownNode id,?_,trivial⟩
    rw [resetTargets,if_pos hid]

theorem savedPending_put (id : NodeId) {node : NodeRun} (hnode : node.state = .pending) :
    SavedPending (s.put id node).store s.run.runId id := by
  refine ⟨node.row,?_,hnode⟩
  simp [Sched.put,Sched.saveNodeRun,Sched.setNode,Store.saveNodeRun]

theorem SavedPending.put {id id' : NodeId} (h : SavedPending s.store s.run.runId id)
    {node : NodeRun} (hnode : node.state = .pending) :
    SavedPending (s.put id' node).store s.run.runId id := by
  by_cases hid : id = id'
  · subst hid
    exact savedPending_put id hnode
  · obtain ⟨row,hrow,hstatus⟩ := h
    refine ⟨row,?_,hstatus⟩
    rw [← hrow]
    exact Store.saveNodeRun_of_ne _ _ _ hid _

/-- A loop that stops does so at a target, and keeps what it had reset. -/
theorem resetTargets_error (ids : List NodeId) {r : Raised} (h : resetTargets t ids s = .error r) :
    r.error.OfTarget ∧ ∀ id, SavedPending s.store s.run.runId id →
      SavedPending r.sched.store s.run.runId id := by
  induction ids generalizing s with
  | nil => cases h
  | cons id rest ih =>
    by_cases hid : MayReturn t s.run id
    · rw [resetTargets_cons hid.1 hid.2] at h
      obtain ⟨htarget,hkeep⟩ := ih h
      refine ⟨htarget,?_⟩
      intro id' hsaved
      exact hkeep id' (hsaved.put rfl)
    · obtain ⟨error,herror,htarget⟩ := resetTargets_cons_rejected hid rest
      rw [herror] at h
      cases h
      exact ⟨htarget,fun _ hsaved => hsaved⟩

/-- A loop that ends has found every target resettable, and none twice. -/
theorem resetTargets_targets (ids : List NodeId) {s' : Sched} (h : resetTargets t ids s = .ok s') :
    ids.Nodup ∧ ∀ id ∈ ids, MayReturn t s.run id := by
  induction ids generalizing s with
  | nil => exact ⟨List.nodup_nil,by simp⟩
  | cons id rest ih =>
    by_cases hid : MayReturn t s.run id
    · rw [resetTargets_cons hid.1 hid.2] at h
      obtain ⟨hnodup,hrest⟩ := ih h
      -- once reset, the node is Pending, and Pending is not reached from Pending
      have hnot : id ∉ rest := by
        intro hmem
        have hagain := (hrest id hmem).2
        simp [Sched.put,Sched.setNode,Sched.saveNodeRun,resetNode,canTransition,
          allowedNodeTransitions] at hagain
      refine ⟨List.nodup_cons.mpr ⟨hnot,hnodup⟩,?_⟩
      intro id' hmem
      rcases List.mem_cons.mp hmem with rfl | hmem
      · exact hid
      · have hne : id' ≠ id := fun heq => hnot (heq ▸ hmem)
        have hmay := hrest id' hmem
        simpa [MayReturn,Sched.put,Sched.setNode,Sched.saveNodeRun,hne] using hmay
    · obtain ⟨error,herror,_⟩ := resetTargets_cons_rejected hid rest
      rw [herror] at h
      cases h

theorem load_error {error : PyError} (h : e.load st runId = .error error) : ¬ error.OfTarget := by
  unfold load getTemplate at h
  intro htarget
  cases hid : st.templateIdFor runId with
  | none =>
    simp only [hid] at h
    cases h
    exact htarget
  | some templateId =>
    simp only [hid] at h
    cases hv : e.templates.lookup templateId with
    | none =>
      simp only [hv] at h
      cases h
      exact htarget
    | some v =>
      simp only [hv,ok_bind] at h
      cases hrun : st.loadRun runId v.template with
      | none =>
        simp only [hrun] at h
        cases h
        exact htarget
      | some run =>
        simp only [hrun] at h
        cases h

theorem start_raised {saves saves' : List Store} {error : PyError} {store : Store}
    (h : e.start st runId saves = .raised error store saves') : ¬ error.OfTarget := by
  unfold start at h
  cases hload : e.load st runId with
  | error err =>
    simp only [hload] at h
    cases h
    exact load_error hload
  | ok loaded =>
    simp only [hload] at h
    split at h <;> cases h

/-- A node that may return is not Pending in the store. -/
theorem MayReturn.not_savedPending {row : RunRow} {id : NodeId}
    (h : MayReturn t (st.loaded runId t row) id) : ¬ SavedPending st runId id := by
  rintro ⟨node,hnode,hstatus⟩
  have hcan := h.2
  have hstate : ((st.loaded runId t row).nodes id).state = .pending := by
    rw [← hstatus]
    exact congrArg NodeRun.state (loadNode_some h.1 hnode)
  rw [hstate] at hcan
  cases hcan

/-- Without node ids the targets are distinct and may all return. -/
theorem retryTargets_mayReturn (v : ValidTemplate) (row : RunRow) {nodeIds : List NodeId}
    (h : nodeIds.Nodup ∧ ∀ id ∈ nodeIds, MayReturn v.template (st.loaded runId v.template row) id) :
    let targets := retryTargets v.template (st.loaded runId v.template row) nodeIds
    targets.Nodup ∧ ∀ id ∈ targets, MayReturn v.template (st.loaded runId v.template row) id := by
  by_cases hnil : nodeIds = []
  · simp only [retryTargets,if_pos hnil]
    refine ⟨v.wellFormed.nodup.sublist (List.filter_sublist.map _),?_⟩
    intro id hid
    obtain ⟨spec,hspec,rfl⟩ := List.mem_map.mp hid
    obtain ⟨hmem,hstate⟩ := List.mem_filter.mp hspec
    refine ⟨GraphTemplate.mem_ids_of_mem hmem,?_⟩
    revert hstate
    cases ((st.loaded runId v.template row).nodes spec.id).state <;> decide
  · simpa only [retryTargets,if_neg hnil] using h

/-- With a first target that was reset, a later rejection comes too late. -/
theorem not_atomic_of_reset {v : ValidTemplate} {run : GraphRun} (hload : e.load st runId = .ok (v,run))
    {first : NodeId} {rest : List NodeId} (hfirst : MayReturn v.template run first)
    (hreject : ¬ ((first :: rest).Nodup ∧ ∀ id ∈ first :: rest, MayReturn v.template run id)) :
    ¬ RetryAtomic e st runId (first :: rest) := by
  intro hatomic
  obtain ⟨row,hrow,hv,rfl⟩ := load_ok hload
  cases hreset : resetTargets v.template (first :: rest)
      { run := st.loaded runId v.template row, store := st } with
  | ok s => exact hreject (resetTargets_targets _ hreset)
  | error r =>
    have hraise : e.retry st runId (first :: rest) = .raised r.error r.sched.store r.sched.saves := by
      simp [retry,hload,retryTargets,hreset]
    rw [resetTargets_cons hfirst.1 hfirst.2] at hreset
    obtain ⟨htarget,hkeep⟩ := resetTargets_error _ hreset
    have hrows := (hatomic _ _ _ hraise htarget).2
    obtain ⟨node,hnode,hstatus⟩ := hkeep first (savedPending_put first rfl)
    rw [hrows] at hnode
    exact hfirst.not_savedPending ⟨node,hnode,hstatus⟩

/-- `retry` is atomic exactly when nothing is rejected, or the first listed node is. -/
theorem retry_atomic_iff (e : GraphEngine) (st : Store) (runId : RunId) (nodeIds : List NodeId) :
    RetryAtomic e st runId nodeIds ↔ ∀ v run, e.load st runId = .ok (v,run) →
      (nodeIds.Nodup ∧ ∀ id ∈ nodeIds, MayReturn v.template run id) ∨
        ∃ id ∈ nodeIds.head?, ¬ MayReturn v.template run id := by
  constructor
  · intro hatomic v run hload
    cases nodeIds with
    | nil => exact .inl ⟨List.nodup_nil,by simp⟩
    | cons first rest =>
      by_cases hfirst : MayReturn v.template run first
      · exact .inl (not_not.mp fun hreject => not_atomic_of_reset hload hfirst hreject hatomic)
      · exact .inr ⟨first,rfl,hfirst⟩
  · intro hall error store saves hraise htarget
    cases hload : e.load st runId with
    | error err =>
      simp only [retry,hload] at hraise
      cases hraise
      exact ⟨rfl,rfl⟩
    | ok loaded =>
      obtain ⟨v,run⟩ := loaded
      obtain ⟨row,hrow,hv,rfl⟩ := load_ok hload
      rcases hall v _ hload with hok | ⟨first,hhead,hfirst⟩
      · obtain ⟨hnodup,hids⟩ := retryTargets_mayReturn v row hok
        obtain ⟨s,hreset,_⟩ := resetTargets_ok _ hnodup (loaded_mirrored st runId v.template row []) hids
        simp only [retry,hload,hreset] at hraise
        exact absurd htarget (start_raised hraise)
      · obtain ⟨rest,rfl⟩ := List.head?_eq_some_iff.mp hhead
        obtain ⟨err,herr,_⟩ := resetTargets_cons_rejected
          (s := { run := st.loaded runId v.template row, store := st }) hfirst rest
        simp only [retry,hload,retryTargets,reduceCtorEq,if_false,herr] at hraise
        cases hraise
        exact ⟨rfl,rfl⟩

/-- After a run whose first node failed, that node is Pending once a retry with an unknown
second node has been rejected. -/
theorem retry_unknown_second :
    ¬ RetryAtomic (soleEngine pair false) failedStore "run_1" ["scf","relax"] := by
  have hload : ∃ run, (soleEngine pair false).load failedStore "run_1" = .ok (pair,run) ∧
      (run.nodes "scf").state = .failed := ⟨_,rfl,by decide +kernel⟩
  obtain ⟨run,hload,hstate⟩ := hload
  have hfirst : MayReturn pair.template run "scf" := ⟨by decide,by rw [hstate]; rfl⟩
  apply not_atomic_of_reset hload hfirst
  rintro ⟨-,hall⟩
  exact absurd (hall "relax" (by simp)).1 (by decide)

end GraphEngine
end DftForge.Runtime
