import DftForge.Runtime.Executions

/-! # Termination of a live scheduler

The measure counts, for every node, the repairs and attempts it has left. Every
step decreases it, and an iteration without a step has a call in flight.
-/
namespace DftForge.Runtime
open Loop Relation

variable {g : GraphScheduler} {t : GraphTemplate} {env : Env} {s s' : Sched}

/-- The repairs and plain retries a node has left after `attempt` attempts. -/
def remaining (spec : NodeSpec) (node : NodeRun) (attempt : ℤ) : ℕ :=
  (spec.maxRepairAttempts - node.repairAttempts).toNat + (spec.maxAttempts - attempt).toNat

/-- What a node contributes to the measure; a running node has spent its attempt. -/
def weight (spec : NodeSpec) (node : NodeRun) : ℕ :=
  match node.state with
  | .pending => 2 * remaining spec node node.attempt + 2
  | .ready => 2 * remaining spec node node.attempt + 2
  | .running => 2 * remaining spec node (node.attempt - 1) + 1
  | _ => 0

def work (t : GraphTemplate) (run : GraphRun) : ℕ :=
  (t.nodes.map fun spec => weight spec (run.nodes spec.id)).sum

/-- Replacing one record by a lighter one decreases the measure. -/
theorem work_setNode_lt (ht : t.WellFormed) {spec : NodeSpec} (hspec : spec ∈ t.nodes) {run : GraphRun}
    {node : NodeRun} (h : weight spec node < weight spec (run.nodes spec.id)) :
    work t (run.setNode spec.id node) < work t run := by
  refine List.sum_lt_sum _ _ ?_ ⟨spec,hspec,by simpa using h⟩
  intro other hother
  by_cases heq : other = spec
  · subst heq; simpa using h.le
  · have hid : other.id ≠ spec.id := fun h => heq (ht.eq_of_id hother hspec h)
    simp [hid]

theorem weight_failedNode {spec : NodeSpec} {node : NodeRun} (hrun : node.state = .running)
    (e : ToolError) : weight spec (failedNode env spec node e) < weight spec node := by
  unfold failedNode
  cases hused : usedRepairer env spec node e with
  | none =>
    simp only [weight,hrun,remaining,withError]
    split_ifs with h
    · simp only []; omega
    · simp
  | some repairer =>
    have hbudget : (node.repairAttempts : ℤ) < spec.maxRepairAttempts := by
      unfold usedRepairer at hused
      split_ifs at hused with h
      exact h.2
    simp only [repairedNode]
    split
    · next answer _ =>
      cases answer
      · simp [weight,hrun]
      · simp only [weight,hrun,remaining,withError,if_true]
        push_cast
        omega
    · simp [weight,hrun]

theorem weight_finishedNode {spec : NodeSpec} {node : NodeRun} (hrun : node.state = .running)
    (result : ToolResult) : weight spec (finishedNode env spec node result) < weight spec node := by
  cases result with
  | ok outputs => simp [finishedNode,weight,hrun]
  | error f => exact weight_failedNode hrun f.toError

theorem weight_dispatched {spec : NodeSpec} {run : GraphRun} (hready : Ready run spec) (params : Dict) :
    weight spec (g.dispatched run spec.id params) < weight spec (run.nodes spec.id) := by
  have hstate : (run.nodes spec.id).state = .pending ∨ (run.nodes spec.id).state = .ready := by
    simpa using hready.1
  rcases hstate with h | h <;> simp [weight,h,GraphScheduler.dispatched,remaining]

theorem BlockStep.work_lt (ht : t.WellFormed) (h : BlockStep t s s') : work t s'.run < work t s.run := by
  obtain ⟨spec,hspec,⟨hpending,_⟩,rfl⟩ := h
  exact work_setNode_lt ht hspec (by simp [weight,blockedNode,hpending])

theorem DispatchStep.work_lt (ht : t.WellFormed) (h : DispatchStep g t env s s') :
    work t s'.run < work t s.run := by
  obtain ⟨spec,hspec,params,hready,_,_,rfl⟩ := h
  exact work_setNode_lt ht hspec (weight_dispatched hready params)

theorem FinishStep.work_lt (ht : t.WellFormed) (h : FinishStep t env s s') :
    work t s'.run < work t s.run := by
  obtain ⟨spec,hspec,result,_,hrun,rfl⟩ := h
  simp only [Sched.settled_run,pop_run]
  exact work_setNode_lt ht hspec (weight_finishedNode hrun result)

/-- A chain of decreasing steps is empty or decreases the measure. -/
theorem chain_work {R : Sched → Sched → Prop} (hR : ∀ a b, R a b → work t b.run < work t a.run)
    (h : ReflTransGen R s s') : s' = s ∨ work t s'.run < work t s.run := by
  induction h with
  | refl => exact Or.inl rfl
  | tail _ hr ih =>
    rcases ih with rfl | ih
    · exact Or.inr (hR _ _ hr)
    · exact Or.inr ((hR _ _ hr).trans ih)

theorem not_transGen_self {R : Sched → Sched → Prop} (hR : ∀ a b, R a b → work t b.run < work t a.run) :
    ¬ TransGen R s s := by
  intro h
  have hlt : work t s.run < work t s.run :=
    TransGen.trans_induction_on (motive := fun {a b} _ => work t b.run < work t a.run) h
      (fun hr => hR _ _ hr) fun _ _ h₁ h₂ => h₂.trans h₁
  exact lt_irrefl _ hlt

/-- Nothing keeps a node from being blocked or dispatched for ever: none is
Repairing, and no Ready node has a dead dependency. -/
def Alive (t : GraphTemplate) (run : GraphRun) : Prop :=
  ∀ spec ∈ t.nodes, (run.nodes spec.id).state ≠ .repairing ∧
    ((run.nodes spec.id).state = .ready → ∀ d ∈ spec.dependsOn, (run.nodes d).state ∉ deadStates)

/-- A state that is neither terminal nor Repairing is Pending, Ready or Running. -/
theorem NodeState.cases_of_not_terminal {st : NodeState} (h : ¬ st.Terminal) (hr : st ≠ .repairing) :
    st = .pending ∨ st = .ready ∨ st = .running := by
  revert h hr
  cases st <;> decide

theorem NodeState.dead_of_terminal {st : NodeState} (h : st.Terminal) (hs : st ≠ .succeeded) :
    st ∈ deadStates := by
  revert h hs
  cases st <;> decide

/-- When nothing runs, nothing is ready and nothing can be blocked, every node is
terminal: by induction along the dependencies. -/
theorem terminal_of_quiet (ht : t.WellFormed) {run : GraphRun} (halive : Alive t run)
    (hrun : ∀ spec ∈ t.nodes, (run.nodes spec.id).state ≠ .running)
    (hready : ∀ spec ∈ t.nodes, ¬ Ready run spec) (hblock : ∀ spec ∈ t.nodes, ¬ Blockable run spec) :
    ∀ spec ∈ t.nodes, (run.nodes spec.id).state.Terminal := by
  refine ht.induction (P := fun id => (run.nodes id).state.Terminal) ?_
  intro spec hspec hdeps
  by_contra hnot
  obtain ⟨hrepairing,hdead⟩ := halive spec hspec
  have hstate := NodeState.cases_of_not_terminal hnot hrepairing
  by_cases hall : ∀ d ∈ spec.dependsOn, (run.nodes d).state = .succeeded
  · rcases hstate with h | h | h
    · exact hready spec hspec ⟨by simp [h],hall⟩
    · exact hready spec hspec ⟨by simp [h],hall⟩
    · exact hrun spec hspec h
  · push Not at hall
    obtain ⟨d,hd,hne⟩ := hall
    have hdeaddep := NodeState.dead_of_terminal (hdeps d hd) hne
    rcases hstate with h | h | h
    · exact hblock spec hspec ⟨h,d,hd,hdeaddep⟩
    · exact hdead h d hd hdeaddep
    · exact hrun spec hspec h

/-- An iteration of a live scheduler makes progress or waits for a call in flight. -/
theorem tick_progress (ht : t.WellFormed) {i : Tick} (hc : i.cancelled = false) (hi : Inv g t ∅ s)
    (halive : Alive t s.run) :
    Progress (g.tick t) (fun s => work t s.run) (fun s => s.futures ≠ [])
      (fun i s => ∃ f ∈ s.futures, f.nodeId ∈ i.done) i s := by
  intro s' htick
  have hspec := tick_spec ht hi hc
  rw [htick] at hspec
  cases hspec with
  | @loop s₁ s₂ _ hiter hunfinished =>
    have hblock : ∀ a b, BlockStep t a b → work t b.run < work t a.run := fun _ _ h => h.work_lt ht
    have hdisp : ∀ a b, DispatchStep g t i.env a b → work t b.run < work t a.run :=
      fun _ _ h => h.work_lt ht
    have hfin : ∀ a b, FinishStep t i.env a b → work t b.run < work t a.run := fun _ _ h => h.work_lt ht
    have h₁ := chain_work hblock hiter.blocks
    have h₂ := chain_work hdisp hiter.dispatches
    have h₃ := chain_work hfin hiter.finishes
    by_cases hlt : work t s'.run < work t s.run
    · exact Or.inl hlt
    · right
      -- no step was made, so the three chains are empty
      have hs₁ : s₁ = s := h₁.resolve_right fun h => by rcases h₂ with rfl | _ <;> rcases h₃ with rfl | _ <;> omega
      subst hs₁
      have hs₂ : s₂ = s₁ := h₂.resolve_right fun h => by rcases h₃ with rfl | _ <;> omega
      subst hs₂
      have hs₃ : s' = s₂ := h₃.resolve_right hlt
      subst hs₃
      refine ⟨rfl,?_,fun h => not_transGen_self hfin (hiter.finished h)⟩
      intro hfut
      have hfree : (s'.futures.length : ℤ) < g.maxConcurrency := by
        have := g.one_le_maxConcurrency
        simp only [hfut,List.length_nil,Nat.cast_zero]
        omega
      have hready : ∀ spec ∈ t.nodes, ¬ Ready s'.run spec := fun spec hspec hr =>
        not_transGen_self hdisp (hiter.launched ⟨spec,hspec,hr⟩ hfree)
      have hblocked : ∀ spec ∈ t.nodes, ¬ Blockable s'.run spec := by
        intro spec hspec hb
        have := hiter.blocked spec hspec hb
        rw [hb.1] at this
        cases this
      have hrun : ∀ spec ∈ t.nodes, (s'.run.nodes spec.id).state ≠ .running := by
        intro spec hspec hr
        simpa [hfut] using (hi.running spec.id (GraphTemplate.mem_ids_of_mem hspec)).mp hr
      exact hunfinished rfl ⟨hfut,hready,terminal_of_quiet ht halive hrun hready hblocked⟩

/-- Every call in flight is eventually seen finished. -/
def Fair (g : GraphScheduler) (t : GraphTemplate) (input : ℕ → Tick) (s : Sched) : Prop :=
  ∀ n s', g.run t input s n = .loop s' → ∀ f ∈ s'.futures, ∃ m ≥ n, f.nodeId ∈ (input m).done

/-- A scheduler that stays live, is not cancelled and sees every call finish ends. -/
theorem run_terminates (ht : t.WellFormed) {input : ℕ → Tick} (hc : ∀ n, (input n).cancelled = false)
    (hlive : ∀ n s', g.run t input s n = .loop s' → Inv g t ∅ s' ∧ Alive t s'.run)
    (hfair : Fair g t input s) : ∃ n, ∀ s', g.run t input s n ≠ .loop s' := by
  refine exec_terminates (fun s => work t s.run) (fun s => s.futures ≠ [])
    (fun i s => ∃ f ∈ s.futures, f.nodeId ∈ i.done) ?_ ?_
  · intro n s' hn
    obtain ⟨hi,ha⟩ := hlive n s' hn
    exact tick_progress ht (hc n) hi ha
  · intro n s' hn hwait
    obtain ⟨f,hf⟩ := List.exists_mem_of_ne_nil _ hwait
    obtain ⟨m,hm,hdone⟩ := hfair n s' hn f hf
    exact ⟨m,hm,f,hf,hdone⟩

/-- Calls that are always seen finished at once are a fair schedule. -/
theorem fair_of_done (ht : t.WellFormed) {input : ℕ → Tick} (hfut : s.futures = [])
    (hdone : ∀ n, ∀ id ∈ t.ids, id ∈ (input n).done) : Fair g t input s := by
  intro n s' hn f hf
  have hi := loop_inv ht (enter_inv hfut) hn
  exact ⟨n,le_rfl,hdone n _ (hi.known f hf)⟩

end DftForge.Runtime
