import DftForge.Runtime.Safety

/-! # Runs in which every tool call succeeds

No node fails, so only nodes that depend on an earlier failure are blocked, and all
others have succeeded when the run is over.
-/
namespace DftForge.Runtime
open Loop Relation

variable {g : GraphScheduler} {t : GraphTemplate} {stale : Set NodeId} {s s' : Sched}

/-- Every tool call of the template's nodes succeeds. -/
def Env.Succeeds (t : GraphTemplate) (env : Env) : Prop :=
  ∀ spec ∈ t.nodes, ∀ node ctx, ∃ outputs, executeTool env spec node ctx = .ok outputs

/-- `a` names `b` among its dependencies. -/
def DependsOn (t : GraphTemplate) (a b : NodeId) : Prop :=
  ∃ spec ∈ t.nodes, spec.id = a ∧ b ∈ spec.dependsOn

/-- No node outside `failed₀` has failed, and a blocked node has a dead dependency. -/
structure Smooth (t : GraphTemplate) (failed₀ : Set NodeId) (s : Sched) : Prop where
  results : ∀ f ∈ s.futures, ∃ outputs, f.result = .ok outputs
  failed : ∀ spec ∈ t.nodes, (s.run.nodes spec.id).state = .failed → spec.id ∈ failed₀
  going : ∀ spec ∈ t.nodes, (s.run.nodes spec.id).state ∉ [NodeState.cancelled,.skipped]
  blocked : ∀ spec ∈ t.nodes, (s.run.nodes spec.id).state = .blocked →
    ∃ d ∈ spec.dependsOn, (s.run.nodes d).state ∈ deadStates

namespace Smooth
variable {failed₀ : Set NodeId}

/-- Replacing a record that was not dead by one that did not fail. -/
theorem setNode (h : Smooth t failed₀ s) (ht : t.WellFormed) {spec : NodeSpec} (hspec : spec ∈ t.nodes)
    {node : NodeRun} (hrun : s'.run = s.run.setNode spec.id node)
    (hfut : ∀ f ∈ s'.futures, ∃ outputs, f.result = .ok outputs)
    (hold : (s.run.nodes spec.id).state ∉ deadStates)
    (hnew : node.state ∉ [NodeState.failed,.cancelled,.skipped])
    (hblocked : node.state = .blocked → ∃ d ∈ spec.dependsOn, (s.run.nodes d).state ∈ deadStates) :
    Smooth t failed₀ s' := by
  have hkeeps : ∀ d, (s.run.nodes d).state ∈ deadStates → (s'.run.nodes d).state ∈ deadStates := by
    intro d hd
    have hne : d ≠ spec.id := fun heq => hold (heq ▸ hd)
    rw [hrun,GraphRun.setNode_nodes_of_ne _ hne]
    exact hd
  have hother : ∀ other ∈ t.nodes, other = spec ∧ s'.run.nodes other.id = node ∨
      s'.run.nodes other.id = s.run.nodes other.id := by
    intro other hmem
    by_cases hid : other.id = spec.id
    · exact Or.inl ⟨ht.eq_of_id hmem hspec hid,by rw [hrun,hid,GraphRun.setNode_nodes_self]⟩
    · exact Or.inr (by rw [hrun,GraphRun.setNode_nodes_of_ne _ hid])
  refine ⟨hfut,?_,?_,?_⟩
  · intro other hmem hstate
    rcases hother other hmem with ⟨rfl,heq⟩ | heq
    · simp [← heq,hstate] at hnew
    · exact h.failed other hmem (heq ▸ hstate)
  · intro other hmem hstate
    rcases hother other hmem with ⟨rfl,heq⟩ | heq
    · rw [heq] at hstate
      exact hnew (List.mem_cons_of_mem _ hstate)
    · exact h.going other hmem (heq ▸ hstate)
  · intro other hmem hstate
    have hdead : ∃ d ∈ other.dependsOn, (s.run.nodes d).state ∈ deadStates := by
      rcases hother other hmem with ⟨rfl,heq⟩ | heq
      · exact hblocked (heq ▸ hstate)
      · exact h.blocked other hmem (heq ▸ hstate)
    obtain ⟨d,hd,hstate⟩ := hdead
    exact ⟨d,hd,hkeeps d hstate⟩

/-- When every node is terminal, a node that depends on no failure has succeeded. -/
theorem succeeded (h : Smooth t failed₀ s) (ht : t.WellFormed)
    (hterm : ∀ spec ∈ t.nodes, (s.run.nodes spec.id).state.Terminal) :
    ∀ spec ∈ t.nodes, (∀ id, ReflTransGen (DependsOn t) spec.id id → id ∉ failed₀) →
      (s.run.nodes spec.id).state = .succeeded := by
  refine ht.induction (P := fun id => (∀ id', ReflTransGen (DependsOn t) id id' → id' ∉ failed₀) →
    (s.run.nodes id).state = .succeeded) ?_
  intro spec hspec ih hclear
  have hfailed : (s.run.nodes spec.id).state ≠ .failed :=
    fun heq => hclear spec.id .refl (h.failed spec hspec heq)
  have hblocked : (s.run.nodes spec.id).state ≠ .blocked := by
    intro heq
    obtain ⟨d,hd,hdead⟩ := h.blocked spec hspec heq
    have hdep : DependsOn t spec.id d := ⟨spec,hspec,rfl,hd⟩
    have hs := ih d hd fun id' hid' => hclear id' (.head hdep hid')
    rw [hs] at hdead
    exact absurd hdead (by decide)
  have hgoing := h.going spec hspec
  have hdone := hterm spec hspec
  revert hfailed hblocked hgoing hdone
  cases (s.run.nodes spec.id).state <;> decide

end Smooth

theorem smooth_preserved (ht : t.WellFormed) (failed₀ : Set NodeId) :
    Preserved g t stale (Env.Succeeds t) (Smooth t failed₀) where
  block _ hstep h := by
    obtain ⟨spec,hspec,⟨hpending,hdead⟩,rfl⟩ := hstep
    exact h.setNode ht hspec rfl h.results (by rw [hpending]; decide) (by simp [blockedNode])
      fun _ => hdead
  dispatch := by
    intro env s s' he hi hstep h
    obtain ⟨spec,hspec,params,⟨hstate,_⟩,_,_,rfl⟩ := hstep
    refine h.setNode ht hspec rfl ?_ ?_ (by simp [GraphScheduler.dispatched])
      (by simp [GraphScheduler.dispatched])
    · intro f hf
      rcases List.mem_append.mp hf with hf | hf
      · exact h.results f hf
      · rw [List.mem_singleton.mp hf]
        exact he spec hspec _ _
    · revert hstate
      cases (s.run.nodes spec.id).state <;> decide
  finish := by
    intro env s s' _ hi hstep h
    obtain ⟨spec,hspec,result,hmem,hrun,rfl⟩ := hstep
    obtain ⟨outputs,hok⟩ := h.results _ hmem
    simp only at hok
    subst hok
    have hdone : (finishedNode env spec ((s.pop spec.id).run.nodes spec.id) (.ok outputs)).state =
        .succeeded := rfl
    refine h.setNode ht hspec (Sched.settled_run _ _ _ _) ?_ (by rw [hrun]; decide)
      (by rw [hdone]; decide) (by rw [hdone]; simp)
    intro f hf
    rw [Sched.settled_futures] at hf
    exact h.results f (List.mem_of_mem_eraseP hf)

section Pair

theorem constantEnv_succeeds (outputs : Dict) : (constantEnv outputs).Succeeds pair.template := by
  intro spec hspec node ctx
  have htool : spec.tool = "qe" := by
    rcases List.mem_cons.mp hspec with rfl | hspec
    · rfl
    · rw [List.mem_singleton.mp hspec]
  exact ⟨outputs,by simp [executeTool,constantEnv,htool]⟩

/-- Without parameters there is nothing to resolve. -/
theorem pair_resolves {spec : NodeSpec} (hspec : spec ∈ pair.template.nodes) (run : GraphRun) :
    ∃ params, nodeParams pair.template run spec = .ok params := by
  have hparams : spec.params = [] := by
    rcases List.mem_cons.mp hspec with rfl | hspec
    · rfl
    · rw [List.mem_singleton.mp hspec]
  unfold nodeParams
  split_ifs
  · exact ⟨_,rfl⟩
  · exact ⟨[],by rw [hparams]; rfl⟩

theorem pair_fair (hfut : s.futures = []) : Fair g pair.template smoothInput s :=
  fair_of_done pair.wellFormed hfut fun _ _ hid => hid

end Pair

end DftForge.Runtime
