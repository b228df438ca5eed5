import DftForge.Runtime.Lifecycle
import DftForge.Runtime.SmoothRuns

/-! # Which entries into the scheduler are live

`resume` puts the nodes in flight back to Pending, `start` and `retry` load them as
they are. A node loaded as Running has no call that will ever complete it.
-/
namespace DftForge.Runtime
open Loop Relation

variable {g : GraphScheduler} {t : GraphTemplate} {stale : Set NodeId}
variable {e : GraphEngine} {v : ValidTemplate} {st : Store} {runId : RunId} {s s' : Sched}
variable {entry : GraphEngine.EntryPoint} {input : ℕ → Tick}

/-- The states in which a node waits for a call or a handler that is gone. -/
def orphanedStates : List NodeState := [.running,.repairing]

theorem loadNode_orphaned {t : GraphTemplate} {id : NodeId} (hid : id ∈ t.ids) :
    (st.loadNode runId t id).state ∈ orphanedStates ↔
      ∃ row, st.nodeRuns (runId,id) = some row ∧ row.status ∈ orphanedStates := by
  constructor
  · intro h
    have hne : (st.loadNode runId t id).state ≠ .pending := by
      intro heq
      simp [heq,orphanedStates] at h
    obtain ⟨row,hrow,hload⟩ := row_of_loadNode hid hne
    exact ⟨row,hrow,by rw [hload] at h; exact h⟩
  · rintro ⟨row,hrow,hs⟩
    rw [loadNode_some hid hrow]
    exact hs

/-- `retry` leaves the running and repairing nodes alone. -/
theorem retry_orphaned (hgood : st.Good e) {nodeIds : List NodeId}
    (h : e.retry st runId nodeIds = .enters v s) {id : NodeId} (hid : id ∈ v.template.ids) :
    (s.run.nodes id).state ∈ orphanedStates ↔ (st.loadNode runId v.template id).state ∈ orphanedStates := by
  obtain ⟨row,s₁,hrow,hv,hreset,rfl⟩ := retry_enters hgood h
  have hspec := resetTargets_spec
    (GraphEngine.retryTargets v.template (st.loaded runId v.template row) nodeIds)
    (loaded_recorded hgood hrow hv (.refl st) (by simp)) (loaded_mirrored st runId _ row [])
  simp only [hreset] at hspec
  obtain ⟨_,hmir,⟨hrunId,_,_⟩,htargets,hnodes⟩ := hspec
  have hrunId' : s₁.run.runId = runId := hrunId
  have hstate : (s₁.store.loadNode runId v.template id).state = (s₁.run.nodes id).state := by
    have hrow := hmir id hid
    rw [hrunId'] at hrow
    exact congrArg NodeRow.status hrow
  show (s₁.store.loadNode runId v.template id).state ∈ orphanedStates ↔ _
  rw [hstate,hnodes id]
  split_ifs with hmem
  · have hfailed : (st.loadNode runId v.template id).state ∈ [NodeState.failed,.cancelled] :=
      (htargets id hmem).2
    revert hfailed
    cases (st.loadNode runId v.template id).state <;> simp [GraphEngine.resetNode,orphanedStates]
  · rfl

/-- The nodes with which a call enters the scheduler Running or Repairing. -/
theorem entry_orphaned (hgood : st.Good e) (h : e.call st runId entry = .enters v s) {id : NodeId}
    (hid : id ∈ v.template.ids) : (s.run.nodes id).state ∈ orphanedStates ↔
      entry ≠ .resume ∧ ∃ row, st.nodeRuns (runId,id) = some row ∧ row.status ∈ orphanedStates := by
  rw [← loadNode_orphaned hid]
  cases entry with
  | start =>
    obtain ⟨row,_,_,_,rfl⟩ := start_enters h
    simp [Store.loaded]
  | resume =>
    obtain ⟨row,_,_,_,rfl⟩ := resume_enters h
    simp only [Store.resumed,resetInFlight_state]
    cases (st.loadNode runId v.template id).state <;> simp [Store.inFlightStates,orphanedStates]
  | retry nodeIds =>
    rw [retry_orphaned hgood h hid]
    simp

/-- A scheduler entered with a Running node never returns unless it is cancelled: that
node stays Running. -/
theorem stale_never_returns (ht : t.WellFormed) (hfut : s.futures = []) {id : NodeId} (hid : id ∈ t.ids)
    (hrun : (s.run.nodes id).state = .running) (hc : ∀ n, (input n).cancelled = false) (n : ℕ) :
    g.run t input s n ≠ .returned s' := by
  intro hn
  rcases preserved_true.returned ht (fun _ => trivial) (enter_inv hfut) trivial hn with
    ⟨s₃,_,hover,hi,_⟩ | ⟨m,_,_,_,hcancel,_⟩
  · obtain ⟨spec,hspec,rfl⟩ := GraphTemplate.mem_ids.mp hid
    have hrunning := (hi.running spec.id hid).mpr (Or.inr ⟨hid,hrun⟩)
    have hterm := hover.2.2 spec hspec
    rw [hrunning] at hterm
    revert hterm
    decide
  · rw [hc m] at hcancel
    cases hcancel

theorem repairing_preserved (id : NodeId) (E : Env → Prop) :
    Preserved g t stale E fun s => (s.run.nodes id).state = .repairing := by
  have hkept : ∀ {env : Env} {s s' : Sched}, Step g t env s s' → (s.run.nodes id).state = .repairing →
      (s'.run.nodes id).state = .repairing := by
    intro env s s' hstep hs
    obtain ⟨spec,_,node,hrun,hstate⟩ := hstep.changes
    have hne : id ≠ spec.id := by
      rintro rfl
      rw [hs] at hstate
      exact absurd hstate (by decide)
    rw [hrun,GraphRun.setNode_nodes_of_ne _ hne]
    exact hs
  exact ⟨fun _ h => hkept (show Step g t {} _ _ from Or.inl h),fun _ _ h => hkept (Or.inr (Or.inl h)),
    fun _ _ h => hkept (Or.inr (Or.inr h))⟩

theorem idle_of_returned (ht : t.WellFormed) (hfut : s.futures = []) (hsup : Supported t s.run)
    (hc : ∀ n, (input n).cancelled = false) {n : ℕ} (hn : g.run t input s n = .returned s') :
    Idle t s := by
  refine ⟨hfut,fun id hid hrun => stale_never_returns ht hfut hid hrun hc n hn,fun id hid hrep => ?_,hsup⟩
  rcases (repairing_preserved id fun _ => True).returned ht (fun _ => trivial) (enter_inv hfut) hrep hn with
    ⟨s₃,_,hover,_,hstate⟩ | ⟨m,_,_,_,hcancel,_⟩
  · obtain ⟨spec,hspec,rfl⟩ := GraphTemplate.mem_ids.mp hid
    have hterm := hover.2.2 spec hspec
    rw [hstate] at hterm
    exact absurd hterm (by decide)
  · rw [hc m] at hcancel
    cases hcancel

/-- A call enters the scheduler live (nothing Running or Repairing, and every fair
schedule ends) exactly if it is `resume`, or the store has no row that says Running
or Repairing. -/
theorem entry_live_iff (hst : Reachable e st) (henter : e.call st runId entry = .enters v s) :
    ((∀ id ∈ v.template.ids, (s.run.nodes id).state ∉ [NodeState.running,.repairing]) ∧
      ∀ input, Fair e.scheduler v.template input s →
        ∃ n, ∀ s', e.scheduler.run v.template input s n ≠ .loop s') ↔
    entry = .resume ∨ ∀ id ∈ v.template.ids, ∀ row, st.nodeRuns (runId,id) = some row →
      row.status ∉ [NodeState.running,.repairing] := by
  have hgood := hst.good
  constructor
  · rintro ⟨hidle,_⟩
    by_cases hresume : entry = .resume
    · exact Or.inl hresume
    · right
      intro id hid row hrow hstatus
      exact hidle id hid ((entry_orphaned hgood henter hid).mpr ⟨hresume,row,hrow,hstatus⟩)
  · intro hcond
    have hidle : ∀ id ∈ v.template.ids, (s.run.nodes id).state ∉ [NodeState.running,.repairing] := by
      intro id hid hstate
      obtain ⟨hne,row,hrow,hstatus⟩ := (entry_orphaned hgood henter hid).mp hstate
      exact hcond.elim hne fun h => h id hid row hrow hstatus
    have hsup := (call_recorded hgood henter).supported
    refine ⟨hidle,fun input hfair => ?_⟩
    have hentered : Idle v.template s :=
      ⟨(call_enters hgood henter).1,fun id hid heq => hidle id hid (by simp [heq]),
        fun id hid heq => hidle id hid (by simp [heq]),hsup⟩
    exact hentered.ends v.wellFormed hfair

section Crash

/-- A process that starts the run and never sees a call finish. -/
def stuckInput : ℕ → Tick := fun _ => { env := constantEnv [] }

/-- What is left when that process dies after its first iteration: the first node is
Running. -/
def crashedStore : Store :=
  ((soleEngine pair true).scheduler.run pair.template stuckInput (firstStart pair) 1).state.store

theorem crashedStore_reachable : Reachable (soleEngine pair true) crashedStore := by
  have hsaved : crashedStore ∈
      (soleEngine pair true).saved (createdStore pair) "run_1" .start stuckInput 1 := by
    rw [GraphEngine.saved,createdStore_start]
    exact List.mem_cons_self
  exact (createdStore_reachable true).tail
    (.call (show GraphEngine.EntryPoint.start.Admits _ from trivial) hsaved)

example : (crashedStore.nodeRuns ("run_1","scf")).map (·.status) = some .running := by rfl

def crashedStart : Sched where
  run := crashedStore.loaded "run_1" pair.template ⟨"pair",.running,[]⟩
  store := crashedStore

/-- `start` on what the dead process left enters the scheduler with a Running node and
goes round for ever, even when every call is seen finished at once. -/
theorem crashed_start_spins :
    Reachable (soleEngine pair true) crashedStore ∧
    (soleEngine pair true).call crashedStore "run_1" .start = .enters pair crashedStart ∧
    (crashedStart.run.nodes "scf").state = .running ∧
    ∀ n, ∃ s', (soleEngine pair true).scheduler.run pair.template
      (fun _ => { env := constantEnv [], done := ["scf","bands"] }) crashedStart n = .loop s' := by
  refine ⟨crashedStore_reachable,rfl,rfl,fun n => ?_⟩
  cases hn : (soleEngine pair true).scheduler.run pair.template
      (fun _ => { env := constantEnv [], done := ["scf","bands"] }) crashedStart n with
  | loop s' => exact ⟨s',rfl⟩
  | returned s' =>
    have hid : "scf" ∈ pair.template.ids := by decide
    exact absurd hn (stale_never_returns pair.wellFormed rfl hid rfl (fun _ => rfl) n)
  | raised error s' =>
    obtain ⟨_,s₀,_,spec,hspec,_,_,_,hparams⟩ := unresolved_of_raised pair.wellFormed (enter_inv rfl) hn
    obtain ⟨params,hok⟩ := pair_resolves hspec s₀.run
    rw [hok] at hparams
    cases hparams

/-- `resume` on the same store is live. -/
theorem entry_live_iff_resume : ∃ s, (soleEngine pair true).call crashedStore "run_1" .resume =
    .enters pair s ∧ ∀ id ∈ pair.template.ids, (s.run.nodes id).state ∉ [NodeState.running,.repairing] := by
  have henter : (soleEngine pair true).call crashedStore "run_1" .resume = .enters pair
      { run := crashedStore.resumed "run_1" pair.template ⟨"pair",.running,[]⟩
        store := crashedStore.saveRun (crashedStore.resumed "run_1" pair.template ⟨"pair",.running,[]⟩)
        saves := [crashedStore.saveRun
          (crashedStore.resumed "run_1" pair.template ⟨"pair",.running,[]⟩)] } := rfl
  exact ⟨_,henter,((entry_live_iff crashedStore_reachable henter).mpr (Or.inl rfl)).1⟩

end Crash

end DftForge.Runtime
