import DftForge.Runtime.Lifecycle

/-! # When a failing node is contained

Tool failures, crashes and repair handlers are caught; the resolution of bindings at
dispatch is not. So an execution is contained exactly if every node that becomes
ready finds the output keys it binds.
-/
namespace DftForge.Runtime
open Loop Relation

variable {g : GraphScheduler} {t : GraphTemplate} {stale : Set NodeId}
variable {e : GraphEngine} {v : ValidTemplate} {st : Store} {runId : RunId} {s s' : Sched}
variable {entry : GraphEngine.EntryPoint} {input : ℕ → Tick}

section Stuck

/-- A ready node whose parameters do not resolve. -/
def Stuck (t : GraphTemplate) (spec : NodeSpec) (err : ResolveError) (run : GraphRun) : Prop :=
  Ready run spec ∧ nodeParams t run spec = .error err

/-- Replacing the record of another node that had not succeeded changes nothing for a
ready node. -/
theorem Stuck.setNode (ht : t.WellFormed) {spec : NodeSpec} (hspec : spec ∈ t.nodes) {err : ResolveError}
    {run : GraphRun} (h : Stuck t spec err run) {id : NodeId} (hid : id ≠ spec.id)
    (hold : (run.nodes id).state ≠ .succeeded) (node : NodeRun) : Stuck t spec err (run.setNode id node) := by
  obtain ⟨⟨hstate,hdeps⟩,hparams⟩ := h
  have hne : ∀ d ∈ spec.dependsOn, d ≠ id := fun d hd heq => hold (heq ▸ hdeps d hd)
  refine ⟨⟨by simpa [hid.symm] using hstate,fun d hd => by simpa [hne d hd] using hdeps d hd⟩,?_⟩
  rw [← hparams]
  exact nodeParams_congr ht hspec rfl (by simp [hid.symm]) fun d hd => by simp [hne d hd]

/-- A stuck node stays stuck: it is neither blocked nor in flight, and a dispatch of it
raises. -/
theorem stuck_stable (ht : t.WellFormed) {spec : NodeSpec} (hspec : spec ∈ t.nodes) (err : ResolveError)
    (E : Env → Prop) : Stable g t stale E fun s => Stuck t spec err s.run where
  block _ hstep h := by
    obtain ⟨other,_,⟨hpending,d,hd,hdead⟩,rfl⟩ := hstep
    refine h.setNode ht hspec ?_ (by simp [hpending]) _
    intro heq
    have hsame := ht.eq_of_id ‹_› hspec heq
    subst hsame
    rw [h.1.2 d hd] at hdead
    revert hdead
    decide
  dispatch _ _ hstep h := by
    obtain ⟨other,hother,params,hready,hparams,_,rfl⟩ := hstep
    refine h.setNode ht hspec ?_ ?_ _
    · intro heq
      have hsame := ht.eq_of_id hother hspec heq
      subst hsame
      rw [h.2] at hparams
      cases hparams
    · intro heq
      have := hready.1
      simp [heq] at this
  finish _ _ hstep h := by
    obtain ⟨other,_,result,_,hrun,rfl⟩ := hstep
    simp only [Sched.settled_run]
    refine h.setNode ht hspec ?_ (by simp [hrun]) _
    intro heq
    have := h.1.1
    rw [← heq] at this
    simp [hrun] at this
  cancel hstep h := by
    obtain ⟨other,_,hrun,_,rfl⟩ := hstep
    refine h.setNode ht hspec ?_ (by simp [hrun]) _
    intro heq
    have := h.1.1
    rw [← heq] at this
    simp [hrun] at this
  save _ h := by
    refine ⟨h.1,?_⟩
    rw [← h.2]
    exact nodeParams_congr ht hspec rfl rfl fun _ _ => rfl

end Stuck

section Resolved

/-- A node whose parameters were resolved had its dependencies succeeded and every key
it binds produced. -/
def ResolvedProvided (t : GraphTemplate) (run : GraphRun) : Prop :=
  ∀ spec ∈ t.nodes, (run.nodes spec.id).paramsResolved = true →
    (∀ d ∈ spec.dependsOn, (run.nodes d).state = .succeeded) ∧ Provided run spec

/-- The keys a node binds are among its dependencies' outputs. -/
theorem Provided.congr (ht : t.WellFormed) {spec : NodeSpec} (hspec : spec ∈ t.nodes)
    {run run' : GraphRun} (hdeps : ∀ d ∈ spec.dependsOn, run.nodes d = run'.nodes d)
    (h : Provided run spec) : Provided run' spec := by
  rintro ⟨key,outKey⟩ hb
  have hdep : key ∈ spec.dependsOn := by
    obtain ⟨raw,hraw,hmatch⟩ := List.mem_filterMap.mp hb
    cases hp : parseParamRef raw with
    | none => simp [hp] at hmatch
    | some ref =>
      obtain ⟨scope,key',outputKey⟩ := ref
      cases scope <;> cases outputKey <;> simp [hp] at hmatch
      obtain ⟨rfl,rfl⟩ := hmatch
      rcases ht.ref hspec hraw hp with ⟨hscope,_⟩ | ⟨_,_,hdep,_⟩
      · cases hscope
      · exact hdep
  have hkey := h _ hb
  simp only [← hdeps key hdep]
  exact hkey

theorem ResolvedProvided.setNode (ht : t.WellFormed) {run : GraphRun} (h : ResolvedProvided t run)
    {spec : NodeSpec} (hspec : spec ∈ t.nodes) (hold : (run.nodes spec.id).state ≠ .succeeded)
    {node : NodeRun} (hnew : node.paramsResolved = true →
      (∀ d ∈ spec.dependsOn, (run.nodes d).state = .succeeded) ∧ Provided run spec) :
    ResolvedProvided t (run.setNode spec.id node) := by
  intro other hother hres
  have hboth : (∀ d ∈ other.dependsOn, (run.nodes d).state = .succeeded) ∧ Provided run other := by
    by_cases hid : other.id = spec.id
    · have hsame := ht.eq_of_id hother hspec hid
      subst hsame
      exact hnew (by simpa using hres)
    · exact h other hother (by simpa [hid] using hres)
  have hne : ∀ d ∈ other.dependsOn, d ≠ spec.id := fun d hd heq => hold (heq ▸ hboth.1 d hd)
  exact ⟨fun d hd => by simpa [hne d hd] using hboth.1 d hd,
    hboth.2.congr ht hother fun d hd => by simp [hne d hd]⟩

theorem resolvedProvided_stable (ht : t.WellFormed) (E : Env → Prop) :
    Stable g t stale E fun s => ResolvedProvided t s.run ∧
      ∀ key, t.inputs.contains key = true → s.run.inputs.contains key = true where
  block _ hstep h := by
    obtain ⟨spec,hspec,⟨hpending,_⟩,rfl⟩ := hstep
    exact ⟨h.1.setNode ht hspec (by simp [hpending]) fun hres => h.1 spec hspec hres,h.2⟩
  dispatch _ _ hstep h := by
    obtain ⟨spec,hspec,params,hready,hparams,_,rfl⟩ := hstep
    refine ⟨h.1.setNode ht hspec ?_ fun _ => ⟨hready.2,?_⟩,h.2⟩
    · intro heq
      have := hready.1
      simp [heq] at this
    · unfold nodeParams at hparams
      split_ifs at hparams with hres
      · exact (h.1 spec hspec hres).2
      · exact (resolveParams_ok_iff ht hspec h.2 hready.2).mp ⟨params,hparams⟩
  finish _ _ hstep h := by
    obtain ⟨spec,hspec,result,_,hrun,rfl⟩ := hstep
    simp only [Sched.settled_run]
    refine ⟨h.1.setNode ht hspec (by simp [hrun]) fun hres => h.1 spec hspec ?_,h.2⟩
    rwa [finishedNode_paramsResolved] at hres
  cancel hstep h := by
    obtain ⟨spec,hspec,hrun,_,rfl⟩ := hstep
    exact ⟨h.1.setNode ht hspec (by simp [hrun]) fun hres => h.1 spec hspec hres,h.2⟩
  save _ h := h

end Resolved

section Contained

/-- No exception leaves the scheduler: it returns with every node and the stored run
terminal, and a ready node whose bindings do not resolve has failed. -/
def Contained (g : GraphScheduler) (t : GraphTemplate) (input : ℕ → Tick) (s : Sched) : Prop :=
  ∃ n s', g.run t input s n = .returned s' ∧
    (∀ spec ∈ t.nodes, (s'.run.nodes spec.id).state.Terminal) ∧
    (∃ row, s'.store.graphRuns s.run.runId = some row ∧ row.status.Terminal) ∧
    ∀ m s₀, g.run t input s m = .loop s₀ → ∀ spec ∈ t.nodes, Ready s₀.run spec →
      (∀ params, nodeParams t s₀.run spec ≠ .ok params) → (s'.run.nodes spec.id).state = .failed

/-- A fair, uncancelled call that enters with nothing Running or Repairing is contained
exactly if every node that becomes ready finds every output key it binds. -/
theorem contained_iff (hst : Reachable e st) (henter : e.call st runId entry = .enters v s)
    (hidle : ∀ id ∈ v.template.ids, (s.run.nodes id).state ∉ [NodeState.running,.repairing])
    (hc : ∀ n, (input n).cancelled = false) (hfair : Fair e.scheduler v.template input s) :
    Contained e.scheduler v.template input s ↔
      ∀ m s₀, e.scheduler.run v.template input s m = .loop s₀ → ∀ spec ∈ v.template.nodes,
        Ready s₀.run spec → Provided s₀.run spec := by
  have hgood := hst.good
  have ht := v.wellFormed
  have hentered : Idle v.template s :=
    ⟨(call_enters hgood henter).1,fun id hid heq => hidle id hid (by simp [heq]),
      fun id hid heq => hidle id hid (by simp [heq]),(call_recorded hgood henter).supported⟩
  have hstart : ResolvedProvided v.template s.run ∧
      ∀ key, v.template.inputs.contains key = true → s.run.inputs.contains key = true := by
    refine ⟨fun spec _ hres => ?_,(call_recorded hgood henter).inputs⟩
    rw [entry_unresolved hgood henter spec.id] at hres
    cases hres
  have hprovided : ∀ m s₀, e.scheduler.run v.template input s m = .loop s₀ →
      ResolvedProvided v.template s₀.run ∧
      ∀ key, v.template.inputs.contains key = true → s₀.run.inputs.contains key = true := by
    intro m s₀ hm
    have hall := (resolvedProvided_stable (g := e.scheduler) ht fun _ => True).run ht input
      (fun _ => trivial) hentered.inv hstart m
    rw [hm] at hall
    exact hall
  constructor
  · rintro ⟨n,s',hret,hterm,_,_⟩ m s₀ hm spec hspec hready
    by_contra hnot
    obtain ⟨hres,hinputs⟩ := hprovided m s₀ hm
    have hmn : m ≤ n := by
      by_contra hlt
      obtain ⟨u,hu⟩ := exec_loop_of_le hm (show n ≤ m by omega)
      rw [GraphScheduler.run,hu] at hret
      cases hret
    -- the node is stuck from this iteration on, so it never becomes terminal
    obtain ⟨err,hstuck⟩ : ∃ err, Stuck v.template spec err s₀.run := by
      cases hparams : nodeParams v.template s₀.run spec with
      | error err => exact ⟨err,hready,hparams⟩
      | ok params =>
        unfold nodeParams at hparams
        split_ifs at hparams with hflag
        · exact absurd (hres spec hspec hflag).2 hnot
        · exact absurd ((resolveParams_ok_iff ht hspec hinputs hready.2).mp ⟨params,hparams⟩) hnot
    have hend := (stuck_stable ht hspec err fun _ => True).later ht input (fun _ => trivial)
      hentered.inv (n := m) (by rw [hm]; exact hstuck) hmn
    rw [hret] at hend
    have hstate := hend.1.1
    have hdone := hterm spec hspec
    revert hstate hdone
    simp only [Outcome.state_returned]
    cases (s'.run.nodes spec.id).state <;> decide
  · intro hcond
    have hresolving : Resolving e.scheduler v.template input s := by
      intro m s₀ hm spec hspec hready
      unfold nodeParams
      split_ifs
      · exact ⟨_,rfl⟩
      · exact (resolveParams_ok_iff ht hspec (hprovided m s₀ hm).2 hready.2).mpr
          (hcond m s₀ hm spec hspec hready)
    obtain ⟨n,s₃,hret,hover,_⟩ := hentered.returns ht hc hfair hresolving preserved_true
      (fun _ => trivial) trivial
    have hrunId : s₃.run.runId = s.run.runId := by
      have := call_run_runId hgood henter input n
      rw [hret] at this
      exact this.trans (call_enters hgood henter).2.2.symm
    have hrow : (conclude v.template s₃).store.graphRuns s.run.runId =
        some ⟨s₃.run.templateId,determineRunStatus (s₃.run.nodeStates v.template),s₃.run.inputs⟩ := by
      simp [conclude,Sched.saveRun,Sched.setState,Store.saveRun,← hrunId]
    refine ⟨n,_,hret,hover.2.2,⟨_,hrow,determineRunStatus_terminal _⟩,?_⟩
    · intro m s₀ hm spec hspec hready hnone
      obtain ⟨params,hok⟩ := hresolving m s₀ hm spec hspec hready
      exact absurd hok (hnone params)

/-- The second node binds an output of the first. -/
def boundPair : ValidTemplate where
  template := pairTemplate [("energy",.str "${nodes.scf.outputs.energy_ry}")]
  knownTools := none
  valid := rfl

def boundPairRun (n : ℕ) : Outcome Sched PyError :=
  (soleEngine boundPair false).scheduler.run boundPair.template
    (fun _ => { env := constantEnv [], done := ["scf","bands"] }) (firstStart boundPair) n

/-- The first node succeeds without the output the second one binds: the exception
leaves the scheduler, the stored run stays Running and the second node Pending. -/
theorem missing_output_escapes : ∃ error, boundPairRun 2 = .raised error (boundPairRun 2).state ∧
    ((boundPairRun 2).state.store.graphRuns "run_1").map (·.status) = some .running ∧
    ((boundPairRun 2).state.run.nodes "bands").state = .pending := by
  have hraised : (boundPairRun 2).isRaised = true := by decide +kernel
  obtain ⟨error,herr⟩ := Outcome.eq_raised hraised
  exact ⟨error,herr,by decide +kernel,by decide +kernel⟩

theorem contained_iff_pair : Contained (soleEngine pair false).scheduler pair.template
      (fun _ => { env := constantEnv [], done := ["scf","bands"] }) (firstStart pair) := by
  refine (contained_iff (createdStore_reachable false) (createdStore_start false) (by decide)
    (fun _ => rfl) (fair_of_done pair.wellFormed rfl fun _ => by decide)).mpr ?_
  intro m s₀ _ spec hspec _
  have hnone : bindings spec = [] := by
    rcases List.mem_cons.mp hspec with rfl | hspec
    · rfl
    · rw [List.mem_singleton.mp hspec]
      rfl
  intro b hb
  rw [hnone] at hb
  cases hb

end Contained

end DftForge.Runtime
