import DftForge.Runtime.Lifecycle
import DftForge.Runtime.SmoothRuns

/-! # Resuming a cancelled run

A cancel marks the calls in flight Cancelled, and `resume` does not reset such nodes.
So a resumed run completes exactly if the cancel found nothing in flight and no
Cancelled node.
-/
namespace DftForge.Runtime
open Loop Relation

variable {g : GraphScheduler} {t : GraphTemplate} {stale : Set NodeId}
variable {e : GraphEngine} {v : ValidTemplate} {st st₀ : Store} {runId : RunId} {s s' : Sched}
variable {entry : GraphEngine.EntryPoint} {input : ℕ → Tick}

section Mirror

/-- Memory and store agree on a node, or it was blocked in memory and is stored as
Pending. -/
def MirroredUnlessBlocked (t : GraphTemplate) (s : Sched) : Prop :=
  ∀ id ∈ t.ids, (s.store.loadNode s.run.runId t id).row = (s.run.nodes id).row ∨
    (s.run.nodes id).state = .blocked ∧ (s.store.loadNode s.run.runId t id).state = .pending

theorem MirroredUnlessBlocked.put (h : MirroredUnlessBlocked t s) {id : NodeId} {node : NodeRun} :
    MirroredUnlessBlocked t (s.put id node) := by
  intro id' hid'
  have hload := loadNode_put s id node hid'
  by_cases heq : id' = id
  · subst heq
    left
    rw [hload]
    simp
  · rw [if_neg heq] at hload
    have hstate := congrArg NodeRow.status hload
    rcases h id' hid' with hsame | ⟨hblocked,hpending⟩
    · left
      rw [hload]
      simpa [heq] using hsame
    · right
      exact ⟨by simpa [heq] using hblocked,hstate.trans hpending⟩

theorem mirroredUnlessBlocked_stable (E : Env → Prop) :
    Stable g t stale E (MirroredUnlessBlocked t) where
  block _ hstep h := by
    obtain ⟨spec,_,⟨hpending,_⟩,rfl⟩ := hstep
    intro id hid
    by_cases heq : id = spec.id
    · subst heq
      right
      refine ⟨by simp [Sched.setNode,blockedNode],?_⟩
      rcases h spec.id hid with hsame | ⟨hblocked,_⟩
      · exact (congrArg NodeRow.status hsame).trans hpending
      · rw [hblocked] at hpending
        cases hpending
    · have hsame := h id hid
      rw [← GraphRun.setNode_nodes_of_ne _ heq] at hsame
      exact hsame
  dispatch _ _ hstep h := by
    obtain ⟨spec,_,params,_,_,_,rfl⟩ := hstep
    exact h.put
  finish _ _ hstep h := by
    obtain ⟨spec,_,result,_,_,rfl⟩ := hstep
    have hpop : MirroredUnlessBlocked t (Sched.pop _ spec.id) := h
    simp only [Sched.settled]
    split
    · exact hpop.put.put
    · exact hpop.put
  cancel hstep h := by
    obtain ⟨spec,_,_,_,rfl⟩ := hstep
    exact h.put
  save _ h := h

end Mirror

section Doomed

/-- What a succeeded node depends on has succeeded. -/
theorem Recorded.succeeded_below (h : Recorded e v st₀ s) {a b : NodeId}
    (hab : ReflTransGen (DependsOn v.template) a b) (ha : (s.run.nodes a).state = .succeeded) :
    (s.run.nodes b).state = .succeeded := by
  induction hab with
  | refl => exact ha
  | tail _ hdep ih =>
    obtain ⟨spec,hspec,rfl,hd⟩ := hdep
    obtain ⟨node,hnode,_⟩ := h.succeeded_row (GraphTemplate.mem_ids_of_mem hspec) ih
    obtain ⟨row,hrow,htid⟩ := h.present
    obtain ⟨dep,hdeprow,hs⟩ := h.good.deps _ row v hrow (htid ▸ h.template) spec hspec node hnode _ hd
    exact h.state_of_row (v.wellFormed.known spec hspec _ hd) hdeprow hs

/-- Failed or Blocked, or dependent on such a node. -/
def Doomed (t : GraphTemplate) (run : GraphRun) (id : NodeId) : Prop :=
  ∃ id', ReflTransGen (DependsOn t) id id' ∧ (run.nodes id').state ∈ [NodeState.failed,.blocked]

/-- A node whose dependencies have succeeded is not doomed unless it is dead itself. -/
theorem Recorded.not_doomed (h : Recorded e v st₀ s) {spec : NodeSpec} (hspec : spec ∈ v.template.nodes)
    (hstate : (s.run.nodes spec.id).state ∉ [NodeState.failed,.blocked])
    (hdeps : ∀ d ∈ spec.dependsOn, (s.run.nodes d).state = .succeeded) :
    ¬ Doomed v.template s.run spec.id := by
  rintro ⟨id,hpath,hdead⟩
  rcases hpath.cases_head with rfl | ⟨d,⟨other,hother,hid,hd⟩,hrest⟩
  · exact hstate hdead
  · have hsame := v.wellFormed.eq_of_id hother hspec hid
    subst hsame
    rw [h.succeeded_below hrest (hdeps d hd)] at hdead
    exact absurd hdead (by decide)

end Doomed

section Resumed

/-- The resumed run completed: every node that was not doomed has succeeded, and the
run has if nothing had failed. -/
def Completes (g : GraphScheduler) (t : GraphTemplate) (input : ℕ → Tick) (before : GraphRun)
    (s : Sched) : Prop :=
  ∃ n s', g.run t input s n = .returned s' ∧
    (∀ spec ∈ t.nodes, ¬ Doomed t before spec.id → (s'.run.nodes spec.id).state = .succeeded) ∧
    ((∀ id ∈ t.ids, (before.nodes id).state ≠ .failed) → s'.run.state = .succeeded)

/-- What `resume` makes of the nodes of the paused run. -/
theorem resumed_state (hrec : Recorded e v st s) (hmir : MirroredUnlessBlocked v.template s)
    {spec : NodeSpec} (hspec : spec ∈ v.template.nodes) :
    let state := (Store.resetInFlight (s.store.loadNode s.run.runId v.template spec.id)).state
    (state = .cancelled ↔ (s.run.nodes spec.id).state = .cancelled) ∧
    (state = .failed → (s.run.nodes spec.id).state = .failed) ∧
    state ∉ [NodeState.blocked,.skipped] := by
  have hid := GraphTemplate.mem_ids_of_mem hspec
  have hstatus : (s.store.loadNode s.run.runId v.template spec.id).state ∉
      [NodeState.blocked,.skipped] := by
    intro hbad
    have hne : (s.store.loadNode s.run.runId v.template spec.id).state ≠ .pending := by
      intro heq
      simp [heq] at hbad
    obtain ⟨node,hnode,hload⟩ := row_of_loadNode hid hne
    obtain ⟨row,hrow,htid⟩ := hrec.present
    refine hrec.good.status _ row v hrow (htid ▸ hrec.template) spec hspec node hnode ?_
    rw [hload] at hbad
    exact hbad
  have hsame : (s.store.loadNode s.run.runId v.template spec.id).state = (s.run.nodes spec.id).state ∨
      (s.run.nodes spec.id).state = .blocked ∧
        (s.store.loadNode s.run.runId v.template spec.id).state = .pending :=
    (hmir spec.id hid).imp_left fun h => congrArg NodeRow.status h
  simp only [resetInFlight_state]
  revert hstatus hsame
  generalize (s.store.loadNode s.run.runId v.template spec.id).state = stored
  generalize (s.run.nodes spec.id).state = memory
  cases stored <;> cases memory <;> decide

/-- A call is cancelled at some iteration, and the run resumed with tools that succeed:
it completes exactly if nothing was in flight and no node was Cancelled already. -/
theorem cancel_resume_iff (hst : Reachable e st) (henter : e.call st runId entry = .enters v s)
    (hadmits : entry.Admits input) {n : ℕ} {s₀ : Sched}
    (hloop : e.scheduler.run v.template input s n = .loop s₀) (hcancel : (input n).cancelled = true) :
    ∃ s' s₁, e.scheduler.run v.template input s (n + 1) = .returned s' ∧ s'.run.state = .paused ∧
      e.call s'.store runId .resume = .enters v s₁ ∧
      ∀ input', (∀ n, (input' n).cancelled = false) → (∀ n, (input' n).env.Succeeds v.template) →
        Fair e.scheduler v.template input' s₁ → Resolving e.scheduler v.template input' s₁ →
        (Completes e.scheduler v.template input' s₀.run s₁ ↔
          s₀.futures = [] ∧ ∀ id ∈ v.template.ids, (s₀.run.nodes id).state ≠ .cancelled) := by
  have hgood := hst.good
  have ht := v.wellFormed
  obtain rfl := hadmits.start_of_cancelled hcancel
  obtain ⟨hfut,_,hrunId⟩ := call_enters hgood henter
  have hinv : Inv e.scheduler v.template (staleNodes v.template s) (GraphScheduler.enter s) :=
    enter_inv hfut
  have hmirror : ∀ m, MirroredUnlessBlocked v.template (e.scheduler.run v.template input s m).state := by
    have hentry : MirroredUnlessBlocked v.template s := by
      obtain ⟨row,_,_,_,rfl⟩ := start_enters henter
      exact fun _ _ => Or.inl rfl
    exact (mirroredUnlessBlocked_stable fun _ => True).run ht input (fun _ => trivial) hinv hentry
  have hrecorded : ∀ m, Recorded e v st (e.scheduler.run v.template input s m).state :=
    call_run_recorded hgood henter input
  have hi₀ := loop_inv ht hinv hloop
  obtain ⟨sc,htick,_,_,hnodes⟩ := tick_cancelled (g := e.scheduler) hi₀ hcancel
  have hret : e.scheduler.run v.template input s (n + 1) = .returned (paused sc) :=
    (exec_succ hloop).trans htick
  have hrec₀ : Recorded e v st s₀ := by have := hrecorded n; rwa [hloop] at this
  have hrec' : Recorded e v st (paused sc) := by have := hrecorded (n + 1); rwa [hret] at this
  have hmir₀ : MirroredUnlessBlocked v.template s₀ := by have := hmirror n; rwa [hloop] at this
  have hmir' : MirroredUnlessBlocked v.template (paused sc) := by
    have := hmirror (n + 1)
    rwa [hret] at this
  have hrunId' : (paused sc).run.runId = runId := by
    have := call_run_runId hgood henter input (n + 1)
    rwa [hret] at this
  have hrow : (paused sc).store.graphRuns runId = some ⟨sc.run.templateId,.paused,sc.run.inputs⟩ := by
    rw [← hrunId']
    simp [paused,Sched.saveRun,Sched.setState,Store.saveRun]
  have hresume := resume_of_row (e := e) (v := v) hrow hrec'.template
    (show ¬ RunState.paused.Terminal by decide)
  have hidle := resume_idle hrec'.good hresume
  refine ⟨paused sc,_,hret,rfl,hresume,?_⟩
  intro input' hc' hok hfair hres
  -- the states of the nodes with which the resumed run begins
  have hbegin : ∀ spec ∈ v.template.nodes, _ := fun spec hspec => resumed_state hrec' hmir' hspec
  simp only [hrunId'] at hbegin
  constructor
  · rintro ⟨m,s'',hdone,hall,_⟩
    -- a node that is Cancelled when the run is resumed stays Cancelled
    have hstuck : ∀ spec ∈ v.template.nodes, ((paused sc).run.nodes spec.id).state = .cancelled →
        (s''.run.nodes spec.id).state = .cancelled := by
      intro spec hspec hcancelled
      have hstate := (hbegin spec hspec).1.mpr hcancelled
      have hfinal := (final_stable (g := e.scheduler) (t := v.template) spec.id
        (Store.resetInFlight ((paused sc).store.loadNode runId v.template spec.id))
        fun _ => True).run ht input' (fun _ => trivial) hidle.inv
        ⟨rfl,by rw [hstate]; decide⟩ m
      rw [hdone] at hfinal
      rw [show s''.run.nodes spec.id = _ from hfinal.1]
      exact hstate
    have hnot : ∀ spec ∈ v.template.nodes, ¬ Doomed v.template s₀.run spec.id →
        ((paused sc).run.nodes spec.id).state ≠ .cancelled := by
      intro spec hspec hdoomed hcancelled
      have hs := hall spec hspec hdoomed
      rw [hstuck spec hspec hcancelled] at hs
      cases hs
    constructor
    · by_contra hne
      obtain ⟨f,hf⟩ := List.exists_mem_of_ne_nil _ hne
      obtain ⟨spec,hspec,hid⟩ := GraphTemplate.mem_ids.mp (hi₀.known f hf)
      have hrun := hi₀.running_of_mem hf
      rw [← hid] at hrun
      refine hnot spec hspec (hrec₀.not_doomed hspec (by simp [hrun])
        (hrec₀.supported spec hspec (by simp [hrun]))) ?_
      show (sc.run.nodes spec.id).state = .cancelled
      rw [hnodes,if_pos (by rw [hid]; exact List.mem_map_of_mem hf)]
      rfl
    · intro id hid hcancelled
      obtain ⟨spec,hspec,rfl⟩ := GraphTemplate.mem_ids.mp hid
      have hdeps : ∀ d ∈ spec.dependsOn, (s₀.run.nodes d).state = .succeeded := by
        intro d hd
        have hload : (s₀.store.loadNode s₀.run.runId v.template spec.id).state = .cancelled := by
          rcases hmir₀ spec.id hid with hsame | ⟨hblocked,_⟩
          · exact (congrArg NodeRow.status hsame).trans hcancelled
          · rw [hblocked] at hcancelled
            cases hcancelled
        obtain ⟨node,hnode,_⟩ := row_of_loadNode hid (by rw [hload]; decide)
        obtain ⟨row,hrow,htid⟩ := hrec₀.present
        obtain ⟨dep,hdep,hs⟩ := hrec₀.good.deps _ row v hrow (htid ▸ hrec₀.template) spec hspec node
          hnode d hd
        exact hrec₀.state_of_row (ht.known spec hspec d hd) hdep hs
      refine hnot spec hspec (hrec₀.not_doomed hspec (by simp [hcancelled]) hdeps) ?_
      show (sc.run.nodes spec.id).state = .cancelled
      rw [hnodes]
      split_ifs
      · rfl
      · exact hcancelled
  · rintro ⟨hnil,hnone⟩
    have hsame : ∀ id, (paused sc).run.nodes id = s₀.run.nodes id := by
      intro id
      show sc.run.nodes id = _
      rw [hnodes,hnil]
      simp
    have hsmooth : Smooth v.template {id | (s₀.run.nodes id).state = .failed} (GraphScheduler.enter
        { run := (paused sc).store.resumed runId v.template
            ⟨sc.run.templateId,.paused,sc.run.inputs⟩
          store := (paused sc).store.saveRun ((paused sc).store.resumed runId v.template
            ⟨sc.run.templateId,.paused,sc.run.inputs⟩)
          saves := [(paused sc).store.saveRun ((paused sc).store.resumed runId v.template
            ⟨sc.run.templateId,.paused,sc.run.inputs⟩)] }) := by
      refine ⟨by simp [GraphScheduler.enter,Sched.saveRun,Sched.setState],?_,?_,?_⟩
      · intro spec hspec hfailed
        have := (hbegin spec hspec).2.1 hfailed
        rwa [hsame] at this
      · intro spec hspec hbad
        rcases List.mem_cons.mp hbad with hcancelled | hskipped
        · have := (hbegin spec hspec).1.mp hcancelled
          rw [hsame] at this
          exact hnone spec.id (GraphTemplate.mem_ids_of_mem hspec) this
        · exact (hbegin spec hspec).2.2 (List.mem_cons_of_mem _ hskipped)
      · intro spec hspec hblocked
        exact absurd (List.mem_cons.mpr (Or.inl hblocked)) (hbegin spec hspec).2.2
    obtain ⟨m,s₃,hdone,hover,hend⟩ := hidle.returns ht hc' hfair hres (smooth_preserved ht _) hok hsmooth
    have hall := hend.succeeded ht hover.2.2
    refine ⟨m,conclude v.template s₃,hdone,?_,?_⟩
    · intro spec hspec hdoomed
      refine hall spec hspec fun id hpath hfailed => hdoomed ⟨id,hpath,?_⟩
      rw [show (s₀.run.nodes id).state = .failed from hfailed]
      decide
    · intro hnofail
      refine determineRunStatus_eq_succeeded.mpr ⟨by simpa [GraphRun.nodeStates] using ht.nonempty,?_⟩
      intro state hstate
      obtain ⟨spec,hspec,rfl⟩ := List.mem_map.mp hstate
      refine hall spec hspec fun id hpath hfailed => ?_
      have hid : id ∈ v.template.ids := by
        rcases hpath.cases_tail with rfl | ⟨_,_,other,hother,_,hd⟩
        · exact GraphTemplate.mem_ids_of_mem hspec
        · exact ht.known other hother id hd
      exact hnofail id hid hfailed

/-- The cancel arrives before anything was dispatched; the resumed run completes. -/
theorem cancel_resume_iff_pair : ∃ s' s₁,
    (soleEngine pair false).scheduler.run pair.template (fun _ => { cancelled := true })
      (firstStart pair) 1 = .returned s' ∧
    (soleEngine pair false).call s'.store "run_1" .resume = .enters pair s₁ ∧
    Completes (soleEngine pair false).scheduler pair.template smoothInput
      (GraphScheduler.enter (firstStart pair)).run s₁ := by
  have hloop : (soleEngine pair false).scheduler.run pair.template (fun _ => { cancelled := true })
      (firstStart pair) 0 = .loop (GraphScheduler.enter (firstStart pair)) := rfl
  obtain ⟨s',s₁,hret,_,hresume,hiff⟩ := cancel_resume_iff (createdStore_reachable false)
    (createdStore_start (v := pair) false) trivial hloop rfl
  have hfut : s₁.futures = [] := by
    obtain ⟨_,_,_,_,rfl⟩ := resume_enters hresume
    rfl
  refine ⟨s',s₁,hret,hresume,(hiff smoothInput (fun _ => rfl) (fun _ => constantEnv_succeeds [])
    (pair_fair hfut) fun _ s₂ _ _ hspec _ => pair_resolves hspec s₂.run).mpr ⟨rfl,by decide⟩⟩

/-- The first node is dispatched, then the cancel arrives. -/
def interruptingInput : ℕ → Tick := fun n => { env := constantEnv [], cancelled := n = 1 }

/-- The interrupted node stays Cancelled when the run is resumed, and the node behind
it is Blocked. -/
theorem interrupted_stays_cancelled : ∃ s₀ s' s₁ s₂,
    (soleEngine pair false).scheduler.run pair.template interruptingInput (firstStart pair) 1 = .loop s₀ ∧
    (s₀.run.nodes "scf").state = .running ∧ (s₀.run.nodes "bands").state = .pending ∧
    (soleEngine pair false).scheduler.run pair.template interruptingInput (firstStart pair) 2 =
      .returned s' ∧
    (soleEngine pair false).call s'.store "run_1" .resume = .enters pair s₁ ∧
    (soleEngine pair false).scheduler.run pair.template smoothInput s₁ 1 = .returned s₂ ∧
    (s₂.run.nodes "scf").state = .cancelled ∧ (s₂.run.nodes "bands").state = .blocked ∧
    ¬ Completes (soleEngine pair false).scheduler pair.template smoothInput s₀.run s₁ := by
  refine ⟨_,_,_,_,rfl,rfl,rfl,rfl,rfl,rfl,rfl,rfl,?_⟩
  rintro ⟨n,s₃,hret,_,hrun⟩
  have hstate := hrun (by decide)
  rw [← exec_returned_unique (n := 1) rfl hret] at hstate
  revert hstate
  decide

end Resumed

end DftForge.Runtime
