import DftForge.Runtime.Bindings
import DftForge.Runtime.Progress

/-! # What the steps keep

Terminal records are final, the run keeps its identity and its inputs, and a node
that is Ready or Running has all its dependencies succeeded.
-/
namespace DftForge.Runtime
open Loop Relation

variable {g : GraphScheduler} {t : GraphTemplate} {env : Env} {stale : Set NodeId} {s s' : Sched}

section Frame

/-- A step replaces one record that was Pending, Ready or Running. -/
theorem Step.changes (h : Step g t env s s') : ∃ spec ∈ t.nodes, ∃ node,
    s'.run = s.run.setNode spec.id node ∧
      (s.run.nodes spec.id).state ∈ [NodeState.pending,.ready,.running] := by
  rcases h with ⟨spec,hspec,⟨hpending,_⟩,rfl⟩ | ⟨spec,hspec,params,⟨hstate,_⟩,_,_,rfl⟩ |
    ⟨spec,hspec,result,_,hrun,rfl⟩
  · exact ⟨spec,hspec,_,rfl,by simp [hpending]⟩
  · refine ⟨spec,hspec,_,rfl,?_⟩
    simp only [List.mem_cons,List.not_mem_nil,or_false] at hstate ⊢
    exact hstate.elim Or.inl fun h => Or.inr (Or.inl h)
  · exact ⟨spec,hspec,_,by rw [Sched.settled_run]; rfl,by simp [hrun]⟩

theorem CancelStep.changes (h : CancelStep t s s') : ∃ spec ∈ t.nodes, ∃ node,
    s'.run = s.run.setNode spec.id node ∧
      (s.run.nodes spec.id).state ∈ [NodeState.pending,.ready,.running] := by
  obtain ⟨spec,hspec,hrun,_,rfl⟩ := h
  exact ⟨spec,hspec,_,rfl,by simp [hrun]⟩

/-- The record of a terminal node. -/
def Final (id : NodeId) (node : NodeRun) (run : GraphRun) : Prop :=
  run.nodes id = node ∧ node.state.Terminal

theorem Final.of_changes {run run' : GraphRun} {id : NodeId} {node : NodeRun} (h : Final id node run)
    (hchange : ∃ spec ∈ t.nodes, ∃ node, run' = run.setNode spec.id node ∧
      (run.nodes spec.id).state ∈ [NodeState.pending,.ready,.running]) : Final id node run' := by
  obtain ⟨spec,_,new,rfl,hstate⟩ := hchange
  obtain ⟨hnode,hterm⟩ := h
  have hne : id ≠ spec.id := by
    rintro rfl
    rw [hnode] at hstate
    revert hstate hterm
    cases node.state <;> decide
  exact ⟨by simpa [hne] using hnode,hterm⟩

theorem final_stable (id : NodeId) (node : NodeRun) (E : Env → Prop) :
    Stable g t stale E fun s => Final id node s.run where
  block _ h hs := hs.of_changes (t := t) (Step.changes (show Step g t {} _ _ from Or.inl h))
  dispatch _ _ h hs := hs.of_changes (t := t) (Step.changes (Or.inr (Or.inl h)))
  finish _ _ h hs := hs.of_changes (t := t) (Step.changes (g := g) (Or.inr (Or.inr h)))
  cancel h hs := hs.of_changes h.changes
  save _ hs := hs

/-- Run id, template id and inputs. -/
def SameRun (run run' : GraphRun) : Prop :=
  run'.runId = run.runId ∧ run'.templateId = run.templateId ∧ run'.inputs = run.inputs

theorem SameRun.of_changes {run₀ run run' : GraphRun} (h : SameRun run₀ run)
    (hchange : ∃ spec ∈ t.nodes, ∃ node, run' = run.setNode spec.id node ∧
      (run.nodes spec.id).state ∈ [NodeState.pending,.ready,.running]) : SameRun run₀ run' := by
  obtain ⟨spec,_,new,rfl,_⟩ := hchange
  exact h

theorem sameRun_stable (run : GraphRun) (E : Env → Prop) :
    Stable g t stale E fun s => SameRun run s.run where
  block _ h hs := hs.of_changes (t := t) (Step.changes (show Step g t {} _ _ from Or.inl h))
  dispatch _ _ h hs := hs.of_changes (t := t) (Step.changes (Or.inr (Or.inl h)))
  finish _ _ h hs := hs.of_changes (t := t) (Step.changes (g := g) (Or.inr (Or.inr h)))
  cancel h hs := hs.of_changes h.changes
  save _ hs := hs

end Frame

section Ready

theorem nodeParams_congr (ht : t.WellFormed) {spec : NodeSpec} (hspec : spec ∈ t.nodes)
    {run run' : GraphRun} (hinputs : run.inputs = run'.inputs)
    (hnode : run.nodes spec.id = run'.nodes spec.id)
    (hdeps : ∀ d ∈ spec.dependsOn, run.nodes d = run'.nodes d) :
    nodeParams t run spec = nodeParams t run' spec := by
  have hres : resolveParams t run spec.params = resolveParams t run' spec.params :=
    resolveParams_congr ht hspec hinputs fun d hd => by simp [hdeps d hd]
  simp [nodeParams,hnode,hres]

/-- Replacing a record by one that is neither waiting nor succeeded makes no node
ready. -/
theorem Ready.of_setNode (ht : t.WellFormed) {spec other : NodeSpec} (hspec : spec ∈ t.nodes)
    {run : GraphRun} {node : NodeRun} (hnode : node.state ∉ [NodeState.pending,.ready,.succeeded])
    (hr : Ready (run.setNode other.id node) spec) :
    Ready run spec ∧ nodeParams t run spec = nodeParams t (run.setNode other.id node) spec := by
  have hid : spec.id ≠ other.id := by
    intro heq
    have := hr.1
    rw [heq,GraphRun.setNode_nodes_self] at this
    revert this hnode
    cases node.state <;> decide
  have hdep : ∀ d ∈ spec.dependsOn, d ≠ other.id := by
    rintro d hd rfl
    have := hr.2 _ hd
    rw [GraphRun.setNode_nodes_self] at this
    simp [this] at hnode
  refine ⟨⟨by simpa [hid] using hr.1,fun d hd => by simpa [hdep d hd] using hr.2 d hd⟩,?_⟩
  exact nodeParams_congr ht hspec rfl (by simp [hid]) fun d hd => by simp [hdep d hd]

/-- What is ready after the dispatches of an iteration was ready before it. -/
theorem Launch.ready_before {s₁ s₂ : Sched} (ht : t.WellFormed) (h : Launch g t env s s₁ s₂)
    {spec : NodeSpec} (hspec : spec ∈ t.nodes) (hr : Ready s₂.run spec) :
    Ready s.run spec ∧ nodeParams t s.run spec = nodeParams t s₂.run spec := by
  obtain ⟨hblocks,-,hchain⟩ := h
  have hdispatch : Ready s₁.run spec ∧ nodeParams t s₁.run spec = nodeParams t s₂.run spec := by
    clear hblocks
    induction hchain using ReflTransGen.head_induction_on with
    | refl => exact ⟨hr,rfl⟩
    | head hd _ ih =>
      obtain ⟨other,_,params,_,_,_,rfl⟩ := hd
      obtain ⟨hready,hsame⟩ := Ready.of_setNode ht hspec
        (by simp [GraphScheduler.dispatched]) ih.1
      exact ⟨hready,hsame.trans ih.2⟩
  clear hchain
  induction hblocks using ReflTransGen.head_induction_on with
  | refl => exact hdispatch
  | head hb _ ih =>
    obtain ⟨other,_,_,rfl⟩ := hb
    obtain ⟨hready,hsame⟩ := Ready.of_setNode ht hspec (by simp [blockedNode]) ih.1
    exact ⟨hready,hsame.trans ih.2⟩

end Ready

section Supported

/-- A node that is Ready or Running has all its dependencies succeeded. -/
def Supported (t : GraphTemplate) (run : GraphRun) : Prop :=
  ∀ spec ∈ t.nodes, (run.nodes spec.id).state ∈ [NodeState.ready,.running] →
    ∀ d ∈ spec.dependsOn, (run.nodes d).state = .succeeded

/-- Replacing a record that had not succeeded keeps the others supported. -/
theorem Supported.setNode (ht : t.WellFormed) {run : GraphRun} (h : Supported t run) {spec : NodeSpec}
    (hspec : spec ∈ t.nodes) (hold : (run.nodes spec.id).state ≠ .succeeded) {node : NodeRun}
    (hnew : node.state ∈ [NodeState.ready,.running] →
      ∀ d ∈ spec.dependsOn, (run.nodes d).state = .succeeded) :
    Supported t (run.setNode spec.id node) := by
  intro other hother hstate d hd
  have hdep : (run.nodes d).state = .succeeded := by
    by_cases hid : other.id = spec.id
    · have hsame := ht.eq_of_id hother hspec hid
      subst hsame
      exact hnew (by simpa using hstate) d hd
    · exact h other hother (by simpa [hid] using hstate) d hd
  have hne : d ≠ spec.id := fun heq => hold (heq ▸ hdep)
  simpa [hne] using hdep

theorem supported_stable (ht : t.WellFormed) (E : Env → Prop) :
    Stable g t stale E fun s => Supported t s.run where
  block _ h hs := by
    obtain ⟨spec,hspec,⟨hpending,_⟩,rfl⟩ := h
    exact hs.setNode ht hspec (by simp [hpending]) (by simp [blockedNode])
  dispatch _ _ h hs := by
    obtain ⟨spec,hspec,params,⟨hstate,hdeps⟩,_,_,rfl⟩ := h
    refine hs.setNode ht hspec ?_ fun _ => hdeps
    intro heq
    simp [heq] at hstate
  finish _ _ h hs := by
    obtain ⟨spec,hspec,result,_,hrun,rfl⟩ := h
    simp only [Sched.settled_run]
    exact hs.setNode ht hspec (by simp [hrun]) fun _ => hs spec hspec (by simp [hrun])
  cancel h hs := by
    obtain ⟨spec,hspec,hrun,_,rfl⟩ := h
    exact hs.setNode ht hspec (by simp [hrun]) (by simp [cancelledNode])
  save _ hs := hs

/-- No node is Repairing. -/
def Repaired (t : GraphTemplate) (run : GraphRun) : Prop :=
  ∀ id ∈ t.ids, (run.nodes id).state ≠ .repairing

theorem Repaired.setNode {run : GraphRun} (h : Repaired t run) {id : NodeId} {node : NodeRun}
    (hnew : node.state ≠ .repairing) : Repaired t (run.setNode id node) := by
  intro id' hid'
  by_cases heq : id' = id
  · subst heq; simpa using hnew
  · simpa [heq] using h id' hid'

theorem finishedNode_ne_repairing (env : Env) (spec : NodeSpec) (node : NodeRun) (result : ToolResult) :
    (finishedNode env spec node result).state ≠ .repairing := by
  rcases finishedNode_state env spec node result with ⟨h,_⟩ | ⟨h | h,_⟩ <;> simp [h]

theorem repaired_stable (E : Env → Prop) : Stable g t stale E fun s => Repaired t s.run where
  block _ h hs := by
    obtain ⟨spec,_,_,rfl⟩ := h
    exact hs.setNode (by simp [blockedNode])
  dispatch _ _ h hs := by
    obtain ⟨spec,_,params,_,_,_,rfl⟩ := h
    exact hs.setNode (by simp [GraphScheduler.dispatched])
  finish _ _ h hs := by
    obtain ⟨spec,_,result,_,_,rfl⟩ := h
    simp only [Sched.settled_run]
    exact Repaired.setNode hs (finishedNode_ne_repairing _ _ _ _)
  cancel h hs := by
    obtain ⟨spec,_,_,_,rfl⟩ := h
    exact hs.setNode (by simp [cancelledNode])
  save _ hs := hs

theorem Supported.alive (h : Supported t s.run) (hr : Repaired t s.run) : Alive t s.run := by
  intro spec hspec
  refine ⟨hr spec.id (GraphTemplate.mem_ids_of_mem hspec),fun hready d hd => ?_⟩
  rw [h spec hspec (by simp [hready]) d hd]
  decide

end Supported

section Idle

/-- The state of a scheduler about to be entered with nothing on its way: no node
is Running or Repairing, and what is Ready may be dispatched. -/
structure Idle (t : GraphTemplate) (s : Sched) : Prop where
  futures : s.futures = []
  notRunning : ∀ id ∈ t.ids, (s.run.nodes id).state ≠ .running
  repaired : Repaired t s.run
  supported : Supported t s.run

/-- Entered without futures and without running nodes, a scheduler has no stale node. -/
theorem enter_inv_idle (hfut : s.futures = [])
    (hrun : ∀ id ∈ t.ids, (s.run.nodes id).state ≠ .running) : Inv g t ∅ (GraphScheduler.enter s) := by
  have hi : Inv g t (staleNodes t s) (GraphScheduler.enter s) := enter_inv hfut
  have hstale : staleNodes t s = ∅ := by
    ext id
    simp only [staleNodes,Set.mem_ofPred_eq,Set.mem_empty_iff_false,iff_false,not_and]
    exact hrun id
  rwa [hstale] at hi

theorem Idle.inv (h : Idle t s) : Inv g t ∅ (GraphScheduler.enter s) :=
  enter_inv_idle h.futures h.notRunning

variable {input : ℕ → Tick}

/-- At every iteration of a scheduler that was entered idle. -/
theorem Idle.loop (h : Idle t s) (ht : t.WellFormed) {n : ℕ} (hn : g.run t input s n = .loop s') :
    Inv g t ∅ s' ∧ Supported t s'.run ∧ Repaired t s'.run := by
  obtain ⟨hi,hs⟩ := (supported_stable ht fun _ => True).toPreserved.loop ht (fun _ => trivial) h.inv
    h.supported hn
  obtain ⟨_,hr⟩ := (repaired_stable fun _ => True).toPreserved.loop ht (fun _ => trivial) h.inv
    h.repaired hn
  exact ⟨hi,hs,hr⟩

/-- A scheduler that was entered idle ends, whether or not it is cancelled. -/
theorem Idle.ends (h : Idle t s) (ht : t.WellFormed) (hfair : Fair g t input s) :
    ∃ n, ∀ s', g.run t input s n ≠ .loop s' := by
  by_cases hc : ∀ n, (input n).cancelled = false
  · refine run_terminates ht hc ?_ hfair
    intro n s' hn
    obtain ⟨hi,hs,hr⟩ := h.loop ht hn
    exact ⟨hi,hs.alive hr⟩
  · push Not at hc
    obtain ⟨n,hn⟩ := hc
    by_cases hloop : ∃ s₀, g.run t input s n = .loop s₀
    · obtain ⟨s₀,hs₀⟩ := hloop
      obtain ⟨s₁,hcancel,_⟩ := tick_cancelled (h.loop ht hs₀).1 (by simpa using hn)
      refine ⟨n + 1,fun s' hs' => ?_⟩
      rw [GraphScheduler.run,exec_succ hs₀,hcancel] at hs'
      cases hs'
    · exact ⟨n,fun s' hs' => hloop ⟨s',hs'⟩⟩

/-- At every iteration, every ready node's parameters resolve. -/
def Resolving (g : GraphScheduler) (t : GraphTemplate) (input : ℕ → Tick) (s : Sched) : Prop :=
  ∀ n s', g.run t input s n = .loop s' → ∀ spec ∈ t.nodes, Ready s'.run spec →
    ∃ params, nodeParams t s'.run spec = .ok params

/-- The exception that left an execution was waiting in the iteration before. -/
theorem unresolved_of_raised (ht : t.WellFormed) (hi : Inv g t stale (GraphScheduler.enter s)) {n : ℕ}
    {error : PyError} (hn : g.run t input s n = .raised error s') :
    ∃ m s₀, g.run t input s m = .loop s₀ ∧ ∃ spec ∈ t.nodes, ∃ e, error = .resolve e ∧
      Ready s₀.run spec ∧ nodeParams t s₀.run spec = .error e := by
  obtain ⟨m,_,s₀,hloop,htick⟩ := exec_raised hn
  have hi₀ := loop_inv ht hi hloop
  obtain ⟨_,hlaunch,spec,hmem,e,herror,hready,hparams⟩ := tick_raised ht hi₀ htick
  obtain ⟨hready₀,hsame⟩ := hlaunch.ready_before ht hmem hready
  exact ⟨m,s₀,hloop,spec,hmem,e,herror,hready₀,hsame.trans hparams⟩

/-- Uncancelled, fair and with resolving bindings, a scheduler that stays live returns
with every node terminal, and with whatever its steps preserve. -/
theorem live_returns {E : Env → Prop} {P : Sched → Prop} (ht : t.WellFormed)
    (hc : ∀ n, (input n).cancelled = false) (hi : Inv g t ∅ (GraphScheduler.enter s))
    (hlive : ∀ n s', g.run t input s n = .loop s' → Alive t s'.run) (hfair : Fair g t input s)
    (hres : Resolving g t input s) (hkept : Preserved g t ∅ E P) (he : ∀ n, E (input n).env)
    (hs : P (GraphScheduler.enter s)) :
    ∃ n s₃, g.run t input s n = .returned (conclude t s₃) ∧ Over t s₃ ∧ P s₃ := by
  obtain ⟨n,hn⟩ := run_terminates ht hc (fun n s' hn => ⟨loop_inv ht hi hn,hlive n s' hn⟩) hfair
  cases hout : g.run t input s n with
  | loop s' => exact absurd hout (hn s')
  | raised e s' =>
    obtain ⟨m,s₀,hloop,spec,hspec,e',_,hready,hparams⟩ := unresolved_of_raised ht hi hout
    obtain ⟨params,hok⟩ := hres m s₀ hloop spec hspec hready
    rw [hok] at hparams
    cases hparams
  | returned s' =>
    rcases hkept.returned ht he hi hs hout with ⟨s₃,rfl,hover,_,hp⟩ | ⟨m,_,_,_,hcancel,_⟩
    · exact ⟨n,s₃,hout,hover,hp⟩
    · rw [hc m] at hcancel
      cases hcancel

theorem Idle.returns {E : Env → Prop} {P : Sched → Prop} (h : Idle t s) (ht : t.WellFormed)
    (hc : ∀ n, (input n).cancelled = false) (hfair : Fair g t input s) (hres : Resolving g t input s)
    (hkept : Preserved g t ∅ E P) (he : ∀ n, E (input n).env) (hs : P (GraphScheduler.enter s)) :
    ∃ n s₃, g.run t input s n = .returned (conclude t s₃) ∧ Over t s₃ ∧ P s₃ := by
  refine live_returns ht hc h.inv (fun n s' hn => ?_) hfair hres hkept he hs
  obtain ⟨_,hsup,hrep⟩ := h.loop ht hn
  exact hsup.alive hrep

end Idle

end DftForge.Runtime
