import DftForge.Runtime.Records

/-! # Whole histories: calls of the engine and crashes between saves

A call leaves behind some store content it has saved: the last one if it ends, any
of them if the process dies. Everything reachable this way satisfies the invariant
of the store, and no succeeded row is ever lost.
-/
namespace DftForge.Runtime
open Loop Relation

/-- Only `start` is given a cancel event. -/
def GraphEngine.EntryPoint.Admits : GraphEngine.EntryPoint → (ℕ → Tick) → Prop
  | .start, _ => True
  | .resume, input => ∀ n, (input n).cancelled = false
  | .retry _, input => ∀ n, (input n).cancelled = false

theorem GraphEngine.EntryPoint.Admits.start_of_cancelled {entry : GraphEngine.EntryPoint}
    {input : ℕ → Tick} (h : entry.Admits input) {n : ℕ} (hc : (input n).cancelled = true) :
    entry = .start := by
  cases entry with
  | start => rfl
  | resume => exact absurd hc (by rw [h n]; decide)
  | retry nodeIds => exact absurd hc (by rw [h n]; decide)

/-- Every store content the call has saved when it has ended, or after its `n`-th
iteration. -/
def GraphEngine.saved (e : GraphEngine) (st : Store) (runId : RunId) (entry : GraphEngine.EntryPoint)
    (input : ℕ → Tick) (n : ℕ) : List Store :=
  match e.call st runId entry with
  | .raised _ _ saves => saves
  | .returned _ _ saves => saves
  | .enters v s => (e.scheduler.run v.template input s n).state.saves

/-- One call, or as much of it as happened before the process died. A new run gets
an id that is not in use. -/
inductive LifeStep (e : GraphEngine) : Store → Store → Prop
  | create {st st' : Store} {templateId : String} {runId : RunId} {inputs : Dict} {run : GraphRun}
      (fresh : st.graphRuns runId = none) (created : e.create st templateId runId inputs = .ok (run,st')) :
      LifeStep e st st'
  | call {st st' : Store} {runId : RunId} {entry : GraphEngine.EntryPoint} {input : ℕ → Tick} {n : ℕ}
      (admits : entry.Admits input) (saved : st' ∈ e.saved st runId entry input n) : LifeStep e st st'

/-- Any sequence of calls and crashes. -/
abbrev Life (e : GraphEngine) := ReflTransGen (LifeStep e)

variable {e : GraphEngine} {v : ValidTemplate} {st st₀ : Store} {runId : RunId} {s : Sched}

section Load

/-- The run `load_run` builds from this row. -/
def Store.loaded (st : Store) (runId : RunId) (t : GraphTemplate) (row : RunRow) : GraphRun where
  runId
  templateId := row.templateId
  state := row.status
  nodes := st.loadNode runId t
  inputs := row.inputs

theorem load_ok {run : GraphRun} (h : e.load st runId = .ok (v,run)) :
    ∃ row, st.graphRuns runId = some row ∧ e.getTemplate row.templateId = .ok v ∧
      run = st.loaded runId v.template row := by
  unfold GraphEngine.load Store.templateIdFor at h
  cases hrow : st.graphRuns runId with
  | none => simp [hrow] at h
  | some row =>
    simp only [hrow,Option.map_some] at h
    cases hv : e.getTemplate row.templateId with
    | error err => simp [hv] at h
    | ok v' =>
      simp only [hv,ok_bind,Store.loadRun,hrow,Option.map_some,pure_ok,Except.ok.injEq,
        Prod.mk.injEq] at h
      obtain ⟨rfl,rfl⟩ := h
      exact ⟨row,rfl,hv,rfl⟩

theorem loadNode_some {t : GraphTemplate} {id : NodeId} (hid : id ∈ t.ids) {row : NodeRow}
    (h : st.nodeRuns (runId,id) = some row) : st.loadNode runId t id = row.load id := by
  simp [Store.loadNode,hid,h]

theorem loadNode_none {t : GraphTemplate} {id : NodeId} (h : st.nodeRuns (runId,id) = none) :
    st.loadNode runId t id = { nodeId := id } := by
  simp [Store.loadNode,h]

@[simp] theorem load_row (row : NodeRow) (id : NodeId) : (row.load id).row = row := rfl
@[simp] theorem load_state (row : NodeRow) (id : NodeId) : (row.load id).state = row.status := rfl

theorem row_of_loadNode {t : GraphTemplate} {id : NodeId} (hid : id ∈ t.ids)
    (h : (st.loadNode runId t id).state ≠ .pending) :
    ∃ row, st.nodeRuns (runId,id) = some row ∧ st.loadNode runId t id = row.load id := by
  cases hrow : st.nodeRuns (runId,id) with
  | none =>
    rw [loadNode_none hrow] at h
    exact absurd rfl h
  | some row => exact ⟨row,rfl,loadNode_some hid hrow⟩

theorem loadNode_paramsResolved (st : Store) (runId : RunId) (t : GraphTemplate) (id : NodeId) :
    (st.loadNode runId t id).paramsResolved = false := by
  unfold Store.loadNode
  split_ifs
  · cases st.nodeRuns (runId,id) <;> rfl
  · rfl

/-- A run loaded from a good store is recorded there. -/
theorem loaded_recorded (hgood : st.Good e) {row : RunRow} (hrow : st.graphRuns runId = some row)
    (hv : e.getTemplate row.templateId = .ok v) (hkept : st₀.Keeps st) {saves : List Store}
    (hsaves : ∀ st ∈ saves, st.Good e ∧ st₀.Keeps st) :
    Recorded e v st₀ { run := st.loaded runId v.template row, store := st, saves } := by
  have hdone : ∀ id ∈ v.template.ids, ∀ dep, st.nodeRuns (runId,id) = some dep →
      dep.status = .succeeded → (st.loadNode runId v.template id).state = .succeeded := by
    intro id hid dep hdep hs
    rw [loadNode_some hid hdep]
    exact hs
  refine ⟨hv,hgood.inputs runId row v hrow hv,⟨row,hrow,rfl⟩,?_,?_,hgood,hkept,hsaves⟩
  · intro spec hspec hstate d hd
    have hpending : (st.loadNode runId v.template spec.id).state ≠ .pending := by
      intro heq
      have hstate' : (st.loadNode runId v.template spec.id).state ∈ [NodeState.ready,.running] := hstate
      simp [heq] at hstate'
    obtain ⟨node,hnode,_⟩ := row_of_loadNode (GraphTemplate.mem_ids_of_mem hspec) hpending
    obtain ⟨dep,hdep,hs⟩ := hgood.deps runId row v hrow hv spec hspec node hnode d hd
    exact hdone d (v.wellFormed.known spec hspec d hd) dep hdep hs
  · intro id hid node
    constructor
    · rintro ⟨hnode,hs⟩
      have hload : st.loadNode runId v.template id = node.load id := loadNode_some hid hnode
      refine ⟨hdone id hid node hnode hs,?_⟩
      exact (congrArg NodeRun.row hload).trans (load_row node id)
    · rintro ⟨hs,rfl⟩
      have hs' : (st.loadNode runId v.template id).state = .succeeded := hs
      obtain ⟨dep,hdep,hload⟩ := row_of_loadNode hid (by rw [hs']; decide)
      have hload' : ((st.loaded runId v.template row).nodes id) = dep.load id := hload
      rw [hload']
      refine ⟨hdep,?_⟩
      rw [hload] at hs'
      exact hs'

end Load

section Start

theorem start_enters {saves : List Store} (h : e.start st runId saves = .enters v s) :
    ∃ row, st.graphRuns runId = some row ∧ e.getTemplate row.templateId = .ok v ∧
      ¬ row.status.Terminal ∧ s = { run := st.loaded runId v.template row, store := st, saves } := by
  unfold GraphEngine.start at h
  cases hload : e.load st runId with
  | error err => simp [hload] at h
  | ok p =>
    obtain ⟨v',run⟩ := p
    obtain ⟨row,hrow,hv,rfl⟩ := load_ok hload
    simp only [hload] at h
    split_ifs at h with hterm
    cases h
    exact ⟨row,hrow,hv,hterm,rfl⟩

/-- A `start` that does not enter the scheduler writes nothing. -/
theorem start_saves {saves : List Store} : (e.start st runId saves).saves = saves := by
  unfold GraphEngine.start
  cases e.load st runId with
  | error err => rfl
  | ok p =>
    obtain ⟨v,run⟩ := p
    simp only []
    split_ifs <;> rfl

end Start

section Resume

/-- The run `resume_run` continues with. -/
def Store.resumed (st : Store) (runId : RunId) (t : GraphTemplate) (row : RunRow) : GraphRun where
  runId
  templateId := row.templateId
  state := .validated
  nodes := fun id => Store.resetInFlight (st.loadNode runId t id)
  inputs := row.inputs

theorem resume_enters (h : e.resume st runId = .enters v s) :
    ∃ row, st.graphRuns runId = some row ∧ e.getTemplate row.templateId = .ok v ∧
      ¬ row.status.Terminal ∧
      s = { run := st.resumed runId v.template row
            store := st.saveRun (st.resumed runId v.template row)
            saves := [st.saveRun (st.resumed runId v.template row)] } := by
  unfold GraphEngine.resume Store.templateIdFor at h
  cases hrow : st.graphRuns runId with
  | none => simp [hrow] at h
  | some row =>
    simp only [hrow,Option.map_some] at h
    cases hv : e.getTemplate row.templateId with
    | error err => simp [hv] at h
    | ok v' =>
      simp only [hv,Store.resumeRun,Store.loadRun,hrow,Option.map_some] at h
      by_cases hterm : row.status.Terminal
      · simp [hterm] at h
      · simp only [if_neg hterm] at h
        rw [if_neg (by decide)] at h
        cases h
        exact ⟨row,rfl,hv,hterm,rfl⟩

theorem resetInFlight_state (node : NodeRun) :
    (Store.resetInFlight node).state =
      if node.state ∈ Store.inFlightStates then .pending else node.state := by
  unfold Store.resetInFlight
  split_ifs <;> rfl

theorem resetInFlight_succeeded {node : NodeRun} :
    (Store.resetInFlight node).state = .succeeded ↔ node.state = .succeeded := by
  rw [resetInFlight_state]
  cases node.state <;> decide

theorem resetInFlight_paramsResolved (node : NodeRun) :
    (Store.resetInFlight node).paramsResolved = node.paramsResolved := by
  unfold Store.resetInFlight
  split_ifs <;> rfl

theorem resetInFlight_eq {node : NodeRun} (h : node.state ∉ Store.inFlightStates) :
    Store.resetInFlight node = node := if_neg h

/-- Resetting the nodes in flight changes memory only. -/
theorem Recorded.resetInFlight (h : Recorded e v st₀ s) : Recorded e v st₀
    { s with run := { s.run with nodes := fun id => Store.resetInFlight (s.run.nodes id) } } := by
  refine ⟨h.template,h.inputs,h.present,?_,?_,h.good,h.kept,h.saves⟩
  · intro spec _ hstate
    have hstate' : (Store.resetInFlight (s.run.nodes spec.id)).state ∈ [NodeState.ready,.running] := hstate
    rw [resetInFlight_state] at hstate'
    revert hstate'
    cases (s.run.nodes spec.id).state <;> simp [Store.inFlightStates]
  · intro id hid row
    refine (h.known id hid row).trans ?_
    simp only [resetInFlight_succeeded]
    constructor
    · rintro ⟨hs,hrow⟩
      exact ⟨hs,by rw [resetInFlight_eq (by rw [hs]; decide),hrow]⟩
    · rintro ⟨hs,hrow⟩
      exact ⟨hs,by rw [← hrow,resetInFlight_eq (by rw [hs]; decide)]⟩

theorem resume_recorded (hgood : st.Good e) (h : e.resume st runId = .enters v s) :
    Recorded e v st s := by
  obtain ⟨row,hrow,hv,_,rfl⟩ := resume_enters h
  have hloaded : Recorded e v st { run := st.loaded runId v.template row, store := st } :=
    loaded_recorded hgood hrow hv (.refl st) (by simp)
  exact hloaded.resetInFlight.save .validated

theorem resume_of_row {row : RunRow} (hrow : st.graphRuns runId = some row)
    (hv : e.getTemplate row.templateId = .ok v) (hterm : ¬ row.status.Terminal) :
    e.resume st runId = .enters v {
      run := st.resumed runId v.template row
      store := st.saveRun (st.resumed runId v.template row)
      saves := [st.saveRun (st.resumed runId v.template row)] } := by
  unfold GraphEngine.resume Store.templateIdFor
  simp only [hrow,Option.map_some,hv,Store.resumeRun,Store.loadRun,if_neg hterm]
  rw [if_neg (by decide)]
  rfl

theorem resume_idle (hgood : st.Good e) (h : e.resume st runId = .enters v s) : Idle v.template s := by
  have hsup := (resume_recorded hgood h).supported
  obtain ⟨row,_,_,_,rfl⟩ := resume_enters h
  have hstate : ∀ id, (Store.resetInFlight (st.loadNode runId v.template id)).state ≠ .running ∧
      (Store.resetInFlight (st.loadNode runId v.template id)).state ≠ .repairing := by
    intro id
    rw [resetInFlight_state]
    cases (st.loadNode runId v.template id).state <;> decide
  exact ⟨rfl,fun id _ => (hstate id).1,fun id _ => (hstate id).2,hsup⟩

end Resume

section Retry

/-- Memory and store agree on every node of the template. -/
def Mirrored (t : GraphTemplate) (s : Sched) : Prop :=
  ∀ id ∈ t.ids, (s.store.loadNode s.run.runId t id).row = (s.run.nodes id).row

theorem loadNode_put {t : GraphTemplate} (s : Sched) (id : NodeId) (node : NodeRun) {id' : NodeId}
    (hid : id' ∈ t.ids) : (((s.put id node).store.loadNode (s.put id node).run.runId t id').row) =
      if id' = id then node.row else (s.store.loadNode s.run.runId t id').row := by
  have hrows := put_nodeRuns s id node (s.run.runId,id')
  unfold Store.loadNode
  simp only [if_pos hid]
  by_cases heq : id' = id
  · subst heq
    rw [if_pos rfl] at hrows
    simp only [Sched.put_run,GraphRun.setNode_runId]
    rw [hrows]
    simp
  · rw [if_neg fun h => heq (Prod.mk.inj h).2] at hrows
    simp only [Sched.put_run,GraphRun.setNode_runId]
    rw [hrows,if_neg heq]

/-- Writing a record keeps memory and store in agreement. -/
theorem Mirrored.put {t : GraphTemplate} {s : Sched} (h : Mirrored t s) (id : NodeId) (node : NodeRun) :
    Mirrored t (s.put id node) := by
  intro id' hid'
  rw [loadNode_put s id node hid']
  by_cases heq : id' = id
  · subst heq; simp
  · simpa [heq] using h id' hid'

theorem loaded_mirrored (st : Store) (runId : RunId) (t : GraphTemplate) (row : RunRow) (saves : List Store) :
    Mirrored t { run := st.loaded runId t row, store := st, saves } := fun _ _ => rfl

/-- A node that is not Pending in memory has a row with its state. -/
theorem Mirrored.row {t : GraphTemplate} {s : Sched} (h : Mirrored t s) {id : NodeId} (hid : id ∈ t.ids)
    (hstate : (s.run.nodes id).state ≠ .pending) :
    s.store.nodeRuns (s.run.runId,id) = some (s.run.nodes id).row := by
  have hrow := h id hid
  have hload : (s.store.loadNode s.run.runId t id).state ≠ .pending := fun heq =>
    hstate ((congrArg NodeRow.status hrow).symm.trans heq)
  obtain ⟨row,hnode,heq⟩ := row_of_loadNode hid hload
  rw [hnode,← hrow,heq,load_row]

theorem resetTargets_cons {t : GraphTemplate} {id : NodeId} (hid : id ∈ t.ids)
    (hcan : canTransition (s.run.nodes id).state .pending = true) (rest : List NodeId) :
    GraphEngine.resetTargets t (id :: rest) s =
      GraphEngine.resetTargets t rest (s.put id (GraphEngine.resetNode (s.run.nodes id))) := by
  rw [GraphEngine.resetTargets,if_neg (not_not.mpr hid)]
  simp [Sched.transition,GraphRun.transition,hcan,Sched.put,Sched.setNode,GraphEngine.resetNode]

theorem resetTargets_cons_error {t : GraphTemplate} {id : NodeId}
    (h : id ∉ t.ids ∨ canTransition (s.run.nodes id).state .pending = false) (rest : List NodeId) :
    ∃ error, GraphEngine.resetTargets t (id :: rest) s = .error ⟨error,s⟩ := by
  by_cases hid : id ∈ t.ids
  · have hcan := h.resolve_left (not_not.mpr hid)
    simp [GraphEngine.resetTargets,hid,Sched.transition,GraphRun.transition,hcan]
  · simp [GraphEngine.resetTargets,hid]

/-- The loop of `retry` resets nodes that failed or were cancelled, and saves them. -/
theorem resetTargets_spec (ids : List NodeId) (hs : Recorded e v st₀ s) (hm : Mirrored v.template s) :
    match GraphEngine.resetTargets v.template ids s with
    | .ok s' => Recorded e v st₀ s' ∧ Mirrored v.template s' ∧ SameRun s.run s'.run ∧
        (∀ id ∈ ids, id ∈ v.template.ids ∧ (s.run.nodes id).state ∈ [NodeState.failed,.cancelled]) ∧
        ∀ id, s'.run.nodes id =
          if id ∈ ids then GraphEngine.resetNode (s.run.nodes id) else s.run.nodes id
    | .error r => Recorded e v st₀ r.sched := by
  induction ids generalizing s with
  | nil => exact ⟨hs,hm,⟨rfl,rfl,rfl⟩,by simp,by simp⟩
  | cons id rest ih =>
    by_cases hok : id ∈ v.template.ids ∧ canTransition (s.run.nodes id).state .pending = true
    · obtain ⟨hid,hcan⟩ := hok
      rw [resetTargets_cons hid hcan]
      obtain ⟨spec,hspec,rfl⟩ := GraphTemplate.mem_ids.mp hid
      have hstate : (s.run.nodes spec.id).state ∈ [NodeState.failed,.blocked,.cancelled] := by
        revert hcan
        cases (s.run.nodes spec.id).state <;> decide
      have hnode := hm.row hid (by intro heq; simp [heq] at hstate)
      obtain ⟨row,hrow,htid⟩ := hs.present
      have hv : e.getTemplate row.templateId = .ok v := by rw [htid]; exact hs.template
      have hstate' : (s.run.nodes spec.id).state ∈ [NodeState.failed,.cancelled] := by
        have hstatus : (s.run.nodes spec.id).state ∉ [NodeState.blocked,.skipped] :=
          hs.good.status _ row v hrow hv spec hspec _ hnode
        revert hstate hstatus
        cases (s.run.nodes spec.id).state <;> decide
      have hdeps : ∀ d ∈ spec.dependsOn, (s.run.nodes d).state = .succeeded := by
        intro d hd
        obtain ⟨dep,hdep,hdone⟩ := hs.good.deps _ row v hrow hv spec hspec _ hnode d hd
        exact hs.state_of_row (v.wellFormed.known spec hspec d hd) hdep hdone
      have hput : Recorded e v st₀ (s.put spec.id (GraphEngine.resetNode (s.run.nodes spec.id))) :=
        hs.put hspec (by intro heq; simp [heq] at hstate') hdeps (by simp [GraphEngine.resetNode])
      have hrest := ih hput (hm.put spec.id _)
      cases hgo : GraphEngine.resetTargets v.template rest
          (s.put spec.id (GraphEngine.resetNode (s.run.nodes spec.id))) with
      | error r => simpa [hgo] using hrest
      | ok s' =>
        simp only [hgo] at hrest
        obtain ⟨hr,hmir,hsame,hall,hnodes⟩ := hrest
        -- a second reset of the same node would be an illegal transition
        have hfresh : spec.id ∉ rest := fun hmem => by
          have := (hall spec.id hmem).2
          simp [GraphEngine.resetNode] at this
        refine ⟨hr,hmir,hsame,?_,?_⟩
        · intro id hmem
          rcases List.mem_cons.mp hmem with rfl | hmem
          · exact ⟨hid,hstate'⟩
          · have hne : id ≠ spec.id := fun heq => hfresh (heq ▸ hmem)
            simpa [hne] using hall id hmem
        · intro id
          rw [hnodes id]
          by_cases heq : id = spec.id
          · subst heq
            simp [hfresh]
          · simp [heq]
    · rw [not_and_or,Bool.not_eq_true] at hok
      obtain ⟨error,herr⟩ := resetTargets_cons_error hok rest
      rw [herr]
      exact hs

theorem saved_row {run : GraphRun} (h : SameRun run s.run) (state : RunState) :
    (s.setState state).saveRun.store.graphRuns run.runId = some ⟨run.templateId,state,run.inputs⟩ := by
  obtain ⟨hid,htid,hinputs⟩ := h
  simp [Sched.saveRun,Sched.setState,Store.saveRun,← hid,← htid,← hinputs]

theorem retry_enters (hgood : st.Good e) {nodeIds : List NodeId}
    (h : e.retry st runId nodeIds = .enters v s) :
    ∃ row s₁, st.graphRuns runId = some row ∧ e.getTemplate row.templateId = .ok v ∧
      GraphEngine.resetTargets v.template
        (GraphEngine.retryTargets v.template (st.loaded runId v.template row) nodeIds)
        { run := st.loaded runId v.template row, store := st } = .ok s₁ ∧
      s = { run := s₁.store.loaded runId v.template ⟨row.templateId,.validated,row.inputs⟩
            store := (s₁.setState .validated).saveRun.store
            saves := (s₁.setState .validated).saveRun.saves } := by
  unfold GraphEngine.retry at h
  cases hload : e.load st runId with
  | error err => simp [hload] at h
  | ok p =>
    obtain ⟨v',run⟩ := p
    obtain ⟨row,hrow,hv,rfl⟩ := load_ok hload
    simp only [hload] at h
    have hspec := resetTargets_spec
      (GraphEngine.retryTargets v'.template (st.loaded runId v'.template row) nodeIds)
      (loaded_recorded hgood hrow hv (.refl st) (by simp)) (loaded_mirrored st runId _ row [])
    cases hreset : GraphEngine.resetTargets v'.template
        (GraphEngine.retryTargets v'.template (st.loaded runId v'.template row) nodeIds)
        { run := st.loaded runId v'.template row, store := st } with
    | error r => simp [hreset] at h
    | ok s₁ =>
      simp only [hreset] at h hspec
      obtain ⟨_,_,hsame,_,_⟩ := hspec
      obtain ⟨row',hrow',hv',_,rfl⟩ := start_enters h
      cases (saved_row hsame .validated).symm.trans hrow'
      cases hv.symm.trans hv'
      exact ⟨row,s₁,hrow,hv,hreset,rfl⟩

end Retry

section Call
variable {entry : GraphEngine.EntryPoint} {input : ℕ → Tick}

theorem retry_recorded (hgood : st.Good e) {nodeIds : List NodeId}
    (h : e.retry st runId nodeIds = .enters v s) : Recorded e v st s := by
  obtain ⟨row,s₁,hrow,hv,hreset,rfl⟩ := retry_enters hgood h
  have hspec := resetTargets_spec
    (GraphEngine.retryTargets v.template (st.loaded runId v.template row) nodeIds)
    (loaded_recorded hgood hrow hv (.refl st) (by simp)) (loaded_mirrored st runId _ row [])
  simp only [hreset] at hspec
  obtain ⟨hr,_,hsame,_,_⟩ := hspec
  have hsaved := hr.save .validated
  exact loaded_recorded hsaved.good (saved_row hsame .validated) hv hsaved.kept hsaved.saves

/-- Every call enters the scheduler with the invariant of the store. -/
theorem call_recorded (hgood : st.Good e) (h : e.call st runId entry = .enters v s) :
    Recorded e v st s := by
  cases entry with
  | start =>
    obtain ⟨row,hrow,hv,_,rfl⟩ := start_enters h
    exact loaded_recorded hgood hrow hv (.refl st) (by simp)
  | resume => exact resume_recorded hgood h
  | retry nodeIds => exact retry_recorded hgood h

/-- Every call enters the scheduler with nothing in flight and no call made. -/
theorem call_enters (hgood : st.Good e) (h : e.call st runId entry = .enters v s) :
    s.futures = [] ∧ s.calls = [] ∧ s.run.runId = runId := by
  cases entry with
  | start =>
    obtain ⟨row,_,_,_,rfl⟩ := start_enters h
    exact ⟨rfl,rfl,rfl⟩
  | resume =>
    obtain ⟨row,_,_,_,rfl⟩ := resume_enters h
    exact ⟨rfl,rfl,rfl⟩
  | retry nodeIds =>
    obtain ⟨row,s₁,_,_,_,rfl⟩ := retry_enters hgood h
    exact ⟨rfl,rfl,rfl⟩

theorem entry_unresolved (hgood : st.Good e) (h : e.call st runId entry = .enters v s) (id : NodeId) :
    (s.run.nodes id).paramsResolved = false := by
  cases entry with
  | start =>
    obtain ⟨row,_,_,_,rfl⟩ := start_enters h
    exact loadNode_paramsResolved st _ _ _
  | resume =>
    obtain ⟨row,_,_,_,rfl⟩ := resume_enters h
    exact (resetInFlight_paramsResolved _).trans (loadNode_paramsResolved st _ _ _)
  | retry nodeIds =>
    obtain ⟨row,s₁,_,_,_,rfl⟩ := retry_enters hgood h
    exact loadNode_paramsResolved s₁.store _ _ _

/-- A `resume` that does not enter the scheduler writes nothing. -/
theorem resume_saves (e : GraphEngine) (st : Store) (runId : RunId) :
    (∃ v s, e.resume st runId = .enters v s) ∨ (e.resume st runId).saves = [] := by
  cases hcall : e.resume st runId with
  | enters v s => exact Or.inl ⟨v,s,rfl⟩
  | raised err st' saves =>
    right
    unfold GraphEngine.resume at hcall
    split at hcall
    · cases hcall; rfl
    · split at hcall
      · cases hcall; rfl
      · split at hcall
        · cases hcall; rfl
        · split at hcall <;> cases hcall
  | returned run st' saves =>
    right
    unfold GraphEngine.resume at hcall
    split at hcall
    · cases hcall
    · split at hcall
      · cases hcall
      · split at hcall
        · cases hcall
        · split at hcall <;> cases hcall
          rfl

/-- What a call saves before it enters the scheduler or instead: the resumed run, or the
targets that were reset and the run after them. -/
theorem saves_of {P : Store → Prop}
    (hresume : ∀ v s, e.resume st runId = .enters v s → ∀ st' ∈ s.saves, P st')
    (hreset : ∀ (v : ValidTemplate) row targets s, st.graphRuns runId = some row →
      e.getTemplate row.templateId = .ok v → GraphEngine.resetTargets v.template targets
        { run := st.loaded runId v.template row, store := st } = .ok s →
          ∀ st' ∈ (s.setState .validated).saveRun.saves, P st')
    (hstop : ∀ (v : ValidTemplate) row targets r, st.graphRuns runId = some row →
      e.getTemplate row.templateId = .ok v → GraphEngine.resetTargets v.template targets
        { run := st.loaded runId v.template row, store := st } = .error r → ∀ st' ∈ r.sched.saves, P st') :
    ∀ st' ∈ (e.call st runId entry).saves, P st' := by
  cases entry with
  | start =>
    intro st' hst'
    rw [GraphEngine.call,start_saves] at hst'
    cases hst'
  | resume =>
    rcases resume_saves e st runId with ⟨v,s,hcall⟩ | hnil
    · simp only [GraphEngine.call,hcall]
      exact hresume v s hcall
    · intro st' hst'
      rw [GraphEngine.call,hnil] at hst'
      cases hst'
  | retry nodeIds =>
    simp only [GraphEngine.call,GraphEngine.retry]
    cases hload : e.load st runId with
    | error err => simp [Opened.saves]
    | ok p =>
      obtain ⟨v,run⟩ := p
      obtain ⟨row,hrow,hv,rfl⟩ := load_ok hload
      simp only []
      cases hr : GraphEngine.resetTargets v.template
          (GraphEngine.retryTargets v.template (st.loaded runId v.template row) nodeIds)
          { run := st.loaded runId v.template row, store := st } with
      | error r => exact hstop v row _ r hrow hv hr
      | ok s =>
        simp only [start_saves]
        exact hreset v row _ s hrow hv hr

theorem call_saves (hgood : st.Good e) :
    ∀ st' ∈ (e.call st runId entry).saves, st'.Good e ∧ st.Keeps st' := by
  have hspec := fun (v : ValidTemplate) row targets (hrow : st.graphRuns runId = some row)
      (hv : e.getTemplate row.templateId = .ok v) => resetTargets_spec targets
    (loaded_recorded hgood hrow hv (.refl st) (by simp)) (loaded_mirrored st runId v.template row [])
  refine saves_of (fun v s hcall => (resume_recorded hgood hcall).saves) ?_ ?_
  · intro v row targets s hrow hv hr
    have hs := hspec v row targets hrow hv
    simp only [hr] at hs
    exact (hs.1.save .validated).saves
  · intro v row targets r hrow hv hr
    have hs := hspec v row targets hrow hv
    simp only [hr] at hs
    exact hs.saves

theorem call_run_recorded (hgood : st.Good e) (h : e.call st runId entry = .enters v s)
    (input : ℕ → Tick) (n : ℕ) : Recorded e v st (e.scheduler.run v.template input s n).state :=
  (recorded_stable fun _ => True).run v.wellFormed input (fun _ => trivial)
    (enter_inv (call_enters hgood h).1) (call_recorded hgood h) n

theorem call_run_runId (hgood : st.Good e) (h : e.call st runId entry = .enters v s)
    (input : ℕ → Tick) (n : ℕ) : (e.scheduler.run v.template input s n).state.run.runId = runId := by
  obtain ⟨hfut,_,hrunId⟩ := call_enters hgood h
  have hsame := (sameRun_stable s.run fun _ => True).run (g := e.scheduler) v.wellFormed input
    (fun _ => trivial) (enter_inv hfut) ⟨rfl,rfl,rfl⟩ n
  exact hsame.1.trans hrunId

/-- Whatever a call leaves behind is good and keeps the succeeded rows. -/
theorem saved_good (hgood : st.Good e) {st' : Store} {n : ℕ}
    (h : st' ∈ e.saved st runId entry input n) : st'.Good e ∧ st.Keeps st' := by
  unfold GraphEngine.saved at h
  cases hcall : e.call st runId entry with
  | raised err st₁ saves =>
    rw [hcall] at h
    exact call_saves hgood st' (by rw [hcall]; exact h)
  | returned run st₁ saves =>
    rw [hcall] at h
    exact call_saves hgood st' (by rw [hcall]; exact h)
  | enters v s =>
    rw [hcall] at h
    exact (call_run_recorded hgood hcall input n).saves st' h

end Call

section Life

theorem create_good (hgood : st.Good e) {templateId : String} {inputs : Dict} {run : GraphRun}
    {st' : Store} (fresh : st.graphRuns runId = none)
    (h : e.create st templateId runId inputs = .ok (run,st')) : st'.Good e ∧ st.Keeps st' := by
  unfold GraphEngine.create at h
  cases hv : e.getTemplate templateId with
  | error err => simp [hv] at h
  | ok v =>
    cases hrun : createRun v.template runId inputs with
    | error err => simp [hv,hrun] at h
    | ok run' =>
      simp only [hv,hrun,ok_bind,pure_ok,Except.ok.injEq,Prod.mk.injEq] at h
      obtain ⟨rfl,rfl⟩ := h
      have hnorow := hgood.orphan runId fresh
      have hid : run'.runId = runId := by rw [createRun_ok hrun]
      have htid : run'.templateId = v.template.templateId := by rw [createRun_ok hrun]
      have hinputs : run'.inputs = v.template.inputs.update inputs := by rw [createRun_ok hrun]
      have hold : ∀ id row, (st.saveRun run').graphRuns id = some row → id ≠ runId →
          st.graphRuns id = some row := by
        intro id row hrow hne
        simpa [Store.saveRun,hid,hne] using hrow
      refine ⟨⟨?_,?_,?_,?_⟩,fun _ _ h _ => h⟩
      · intro id hnone
        by_cases hne : id = runId
        · simp [Store.saveRun,hid,hne] at hnone
        · exact hgood.orphan id (by simpa [Store.saveRun,hid,hne] using hnone)
      · intro id row v' hrow hv' key hkey
        by_cases hne : id = runId
        · subst hne
          simp only [Store.saveRun,hid,Function.update_self,Option.some.injEq] at hrow
          subst hrow
          have hreg : e.getTemplate v.template.templateId = .ok v := by
            unfold GraphEngine.getTemplate at hv ⊢
            cases hl : e.templates.lookup templateId with
            | none => simp [hl] at hv
            | some v'' =>
              simp only [hl,Except.ok.injEq] at hv
              subst hv
              rw [e.registered templateId v'' hl]
          rw [htid,hreg] at hv'
          cases hv'
          show run'.inputs.contains key = true
          rw [hinputs]
          exact Dict.contains_update hkey
        · exact hgood.inputs id row v' (hold id row hrow hne) hv' key hkey
      · intro id row v' hrow hv' spec hspec node hnode
        by_cases hne : id = runId
        · subst hne
          have hnode' : st.nodeRuns (id,spec.id) = some node := hnode
          rw [hnorow] at hnode'
          cases hnode'
        · exact hgood.status id row v' (hold id row hrow hne) hv' spec hspec node hnode
      · intro id row v' hrow hv' spec hspec node hnode
        by_cases hne : id = runId
        · subst hne
          have hnode' : st.nodeRuns (id,spec.id) = some node := hnode
          rw [hnorow] at hnode'
          cases hnode'
        · exact hgood.deps id row v' (hold id row hrow hne) hv' spec hspec node hnode

/-- Histories keep the invariant of the store and every succeeded row. -/
theorem life_good {st st' : Store} (h : Life e st st') (hgood : st.Good e) :
    st'.Good e ∧ st.Keeps st' := by
  induction h with
  | refl => exact ⟨hgood,.refl st⟩
  | tail _ hstep ih =>
    obtain ⟨hmid,hkeeps⟩ := ih
    cases hstep with
    | create fresh created =>
      obtain ⟨hg,hk⟩ := create_good hmid fresh created
      exact ⟨hg,hkeeps.trans hk⟩
    | call _ saved =>
      obtain ⟨hg,hk⟩ := saved_good hmid saved
      exact ⟨hg,hkeeps.trans hk⟩

/-- Reachable from the empty store. -/
def Reachable (e : GraphEngine) (st : Store) : Prop := Life e {} st

theorem Reachable.good {st : Store} (h : Reachable e st) : st.Good e :=
  (life_good h (Store.good_empty e)).1

theorem createdStore_create (v : ValidTemplate) (useAsyncio : Bool) :
    (soleEngine v useAsyncio).create {} v.template.templateId "run_1" [] =
      .ok (freshRun v.template,createdStore v) := by
  simp [GraphEngine.create,GraphEngine.getTemplate,soleEngine,createRun,createdStore,freshRun,
    Dict.update]

theorem createdStore_reachable {v : ValidTemplate} (useAsyncio : Bool) :
    Reachable (soleEngine v useAsyncio) (createdStore v) :=
  .single (.create rfl (createdStore_create v useAsyncio))

/-- The state in which `start` then enters the scheduler. -/
def firstStart (v : ValidTemplate) : Sched where
  run := (createdStore v).loaded "run_1" v.template ⟨v.template.templateId,.created,v.template.inputs⟩
  store := createdStore v

theorem createdStore_start {v : ValidTemplate} (useAsyncio : Bool) :
    (soleEngine v useAsyncio).call (createdStore v) "run_1" .start = .enters v (firstStart v) := by
  have hrow : (createdStore v).graphRuns "run_1" =
      some ⟨v.template.templateId,.created,v.template.inputs⟩ := by
    simp [createdStore,freshRun,Store.saveRun]
  simp only [GraphEngine.call,GraphEngine.start,GraphEngine.load,Store.templateIdFor,hrow,Option.map_some,
    Store.loadRun]
  simp [GraphEngine.getTemplate,soleEngine,Store.loaded,firstStart]
  decide

end Life

end DftForge.Runtime
