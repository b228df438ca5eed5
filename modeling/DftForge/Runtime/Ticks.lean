import DftForge.Runtime.Iteration

/-! # One iteration as a chain of steps

The block pass, the dispatch loop, the collection of finished calls and the cancel
branch, each reduced to a chain of steps of one kind, and their composition in the
two execution modes.
-/
namespace DftForge.Runtime
open Loop Relation

variable {g : GraphScheduler} {t : GraphTemplate} {env : Env} {stale : Set NodeId} {s s' : Sched}

abbrev Blocks (t : GraphTemplate) := ReflTransGen (BlockStep t)
abbrev Dispatches (g : GraphScheduler) (t : GraphTemplate) (env : Env) :=
  ReflTransGen (DispatchStep g t env)
abbrev Finishes (t : GraphTemplate) (env : Env) := ReflTransGen (FinishStep t env)

section Block

theorem Blocks.inv (h : Blocks t s s') (hi : Inv g t stale s) : Inv g t stale s' :=
  chain_invariant (fun _ _ h hi => h.inv hi) h hi

theorem Dispatches.inv (h : Dispatches g t env s s') (hi : Inv g t stale s) : Inv g t stale s' :=
  chain_invariant (fun _ _ h hi => h.inv hi) h hi

/-- Blocking one node leaves the others blockable. -/
theorem Blockable.of_block (ht : t.WellFormed) {spec other : NodeSpec} (hspec : spec ∈ t.nodes)
    (hother : other ∈ t.nodes) (hne : other ≠ spec) {run : GraphRun} (hb : Blockable run other) :
    Blockable (run.setNode spec.id (blockedNode (run.nodes spec.id))) other := by
  obtain ⟨hpending,d,hd,hdead⟩ := hb
  have hid : other.id ≠ spec.id := fun h => hne (ht.eq_of_id hother hspec h)
  refine ⟨by simpa [hid] using hpending,d,hd,?_⟩
  by_cases hds : d = spec.id
  · subst hds
    simp [blockedNode,deadStates]
  · simpa [hds] using hdead

theorem Blocks.blocked (h : Blocks t s s') {id : NodeId} (hb : (s.run.nodes id).state = .blocked) :
    (s'.run.nodes id).state = .blocked := by
  refine chain_invariant (P := fun s => (s.run.nodes id).state = .blocked) ?_ h hb
  rintro a b ⟨spec,_,_,rfl⟩ ha
  by_cases hid : id = spec.id
  · subst hid; simp [Sched.setNode,blockedNode]
  · simpa [Sched.setNode,hid] using ha

/-- A pass raises nothing and blocks every listed node that is blockable. -/
theorem blockPass_spec (ht : t.WellFormed) (specs : List NodeSpec) (hspecs : ∀ n ∈ specs, n ∈ t.nodes)
    (hnodup : specs.Nodup) (s : Sched) :
    ∃ run ids, blockPass specs s.run = .ok (run,ids) ∧ Blocks t s { s with run } ∧
      ∀ spec ∈ specs, Blockable s.run spec → (run.nodes spec.id).state = .blocked := by
  induction specs generalizing s with
  | nil => exact ⟨s.run,[],rfl,.refl,by simp⟩
  | cons spec rest ih =>
    have hspec := hspecs spec List.mem_cons_self
    have hrest : ∀ n ∈ rest, n ∈ t.nodes := fun n hn => hspecs n (List.mem_cons_of_mem _ hn)
    obtain ⟨hnot,hnodup⟩ := List.nodup_cons.mp hnodup
    by_cases hb : Blockable s.run spec
    · have htrans : s.run.transition spec.id .blocked =
          .ok (s.run.setNode spec.id (blockedNode (s.run.nodes spec.id))) :=
        GraphRun.transition_ok (by rw [hb.1]; rfl)
      have hstep : BlockStep t s (s.setNode spec.id (blockedNode (s.run.nodes spec.id))) :=
        ⟨spec,hspec,hb,rfl⟩
      obtain ⟨run,ids,hpass,hblocks,hall⟩ :=
        ih hrest hnodup (s.setNode spec.id (blockedNode (s.run.nodes spec.id)))
      have hfirst : (run.nodes spec.id).state = .blocked :=
        hblocks.blocked (by simp [Sched.setNode,blockedNode])
      refine ⟨run,spec.id :: ids,?_,.head hstep hblocks,?_⟩
      · simp only [Sched.setNode] at hpass
        simp [blockPass,hb.1,hb.2,htrans,hpass]
      · intro other hother hblock
        rcases List.mem_cons.mp hother with rfl | hother
        · exact hfirst
        · have hne : other ≠ spec := fun h => hnot (h ▸ hother)
          exact hall other hother (hblock.of_block ht hspec (hrest other hother) hne)
    · obtain ⟨run,ids,hpass,hblocks,hall⟩ := ih hrest hnodup s
      refine ⟨run,ids,?_,hblocks,?_⟩
      · unfold blockPass
        split_ifs with hp hd
        · exact hpass
        · exact absurd ⟨not_not.mp hp,hd⟩ hb
        · exact hpass
      · intro other hother hblock
        rcases List.mem_cons.mp hother with rfl | hother
        · exact absurd hblock hb
        · exact hall other hother hblock

theorem processBlocked_spec (ht : t.WellFormed) (s : Sched) :
    ∃ run ids, processBlocked s.run t = .ok (run,ids) ∧ Blocks t s { s with run } ∧
      ∀ spec ∈ t.nodes, Blockable s.run spec → (run.nodes spec.id).state = .blocked :=
  blockPass_spec ht t.nodes (fun _ h => h) (List.Nodup.of_map _ ht.nodup) s

end Block

section Dispatch

/-- Dispatching a node leaves the other ready nodes ready. -/
theorem Ready.of_launched (ht : t.WellFormed) {spec other : NodeSpec} (hspec : spec ∈ t.nodes)
    (hready : Ready s.run spec) (hother : other ∈ t.nodes) (hne : other ≠ spec)
    (h : Ready s.run other) (params : Dict) : Ready (g.launched env s spec params).run other := by
  have hid : other.id ≠ spec.id := fun h => hne (ht.eq_of_id hother hspec h)
  refine ⟨by simpa [hid] using h.1,?_⟩
  intro d hd
  have hdep := h.2 d hd
  have hds : d ≠ spec.id := by
    rintro rfl
    have := hready.1
    rw [hdep] at this
    simp at this
  simpa [hds] using hdep

/-- The dispatch loop over ready nodes within the free slots. -/
theorem dispatch_spec (ht : t.WellFormed) (specs : List NodeSpec) (hnodup : specs.Nodup) (s : Sched)
    (hready : ∀ n ∈ specs, n ∈ t.nodes ∧ Ready s.run n)
    (hslots : (s.futures.length : ℤ) + specs.length ≤ g.maxConcurrency) :
    (∃ s', g.dispatch t env (specs.map (·.id)) s = .ok s' ∧ Dispatches g t env s s' ∧
      (specs ≠ [] → TransGen (DispatchStep g t env) s s')) ∨
    ∃ s' spec e, g.dispatch t env (specs.map (·.id)) s = .error ⟨.resolve e,s'⟩ ∧
      Dispatches g t env s s' ∧ spec ∈ t.nodes ∧ Ready s'.run spec ∧
      nodeParams t s'.run spec = .error e := by
  induction specs generalizing s with
  | nil => exact Or.inl ⟨s,rfl,.refl,by simp⟩
  | cons spec rest ih =>
    obtain ⟨hspec,hspecready⟩ := hready spec List.mem_cons_self
    obtain ⟨hnot,hnodup⟩ := List.nodup_cons.mp hnodup
    simp only [List.length_cons,Nat.cast_add,Nat.cast_one] at hslots
    cases hparams : nodeParams t s.run spec with
    | error e =>
      exact Or.inr ⟨s,spec,e,g.dispatch_cons_error ht hspec hparams _,.refl,hspec,hspecready,hparams⟩
    | ok params =>
      have hstep : DispatchStep g t env s (g.launched env s spec params) :=
        ⟨spec,hspec,params,hspecready,hparams,by omega,rfl⟩
      have hready' : ∀ n ∈ rest, n ∈ t.nodes ∧ Ready (g.launched env s spec params).run n := by
        intro n hn
        obtain ⟨hmem,hr⟩ := hready n (List.mem_cons_of_mem _ hn)
        have hne : n ≠ spec := fun h => hnot (h ▸ hn)
        exact ⟨hmem,Ready.of_launched ht hspec hspecready hmem hne hr params⟩
      rw [List.map_cons,g.dispatch_cons_ok ht hspec hspecready hparams]
      rcases ih hnodup (g.launched env s spec params) hready' (by simp; omega) with
        ⟨s',hok,hchain,_⟩ | ⟨s',bad,e,herr,hchain,hbad⟩
      · exact Or.inl ⟨s',hok,.head hstep hchain,fun _ => .head' hstep hchain⟩
      · exact Or.inr ⟨s',bad,e,herr,.head hstep hchain,hbad⟩

theorem sliceTo_of_nonneg {α : Type*} (xs : List α) {stop : ℤ} (h : 0 ≤ stop) :
    sliceTo xs stop = xs.take stop.toNat := if_pos h

/-- The specifications of the ready nodes, in template order. -/
theorem exists_readySpecs (t : GraphTemplate) (run : GraphRun) : ∃ specs : List NodeSpec,
    findReadyNodes run t = specs.map (·.id) ∧ specs.Sublist t.nodes ∧
      ∀ spec, spec ∈ specs ↔ spec ∈ t.nodes ∧ Ready run spec := by
  refine ⟨_,rfl,List.filter_sublist,fun spec => ?_⟩
  simp [List.mem_filter,Ready]

end Dispatch

/-- The state `s₁` after the block pass and `s₂` after the dispatch loop. -/
structure Launch (g : GraphScheduler) (t : GraphTemplate) (env : Env) (s s₁ s₂ : Sched) : Prop where
  blocks : Blocks t s s₁
  blocked : ∀ spec ∈ t.nodes, Blockable s.run spec → (s₁.run.nodes spec.id).state = .blocked
  dispatches : Dispatches g t env s₁ s₂

/-- An iteration blocks and then dispatches, until a binding cannot be resolved. -/
theorem launch_spec (env : Env) (ht : t.WellFormed) (hi : Inv g t stale s) :
    (∃ s₁ s₂, g.launch t env s = .ok s₂ ∧ Launch g t env s s₁ s₂ ∧
      ((∃ spec ∈ t.nodes, Ready s₁.run spec) → (s₁.futures.length : ℤ) < g.maxConcurrency →
        TransGen (DispatchStep g t env) s₁ s₂)) ∨
    ∃ s₁ s₂ spec e, g.launch t env s = .error ⟨.resolve e,s₂⟩ ∧ Launch g t env s s₁ s₂ ∧
      spec ∈ t.nodes ∧ Ready s₂.run spec ∧ nodeParams t s₂.run spec = .error e := by
  obtain ⟨run,ids,hpass,hblocks,hblocked⟩ := processBlocked_spec ht s
  obtain ⟨specs,hids,hsub,hmem⟩ := exists_readySpecs t run
  have hslots : 0 ≤ g.maxConcurrency - s.futures.length := by have := hi.slots; omega
  have hnodup : specs.Nodup := (List.Nodup.of_map _ ht.nodup).sublist hsub
  set slots := (g.maxConcurrency - s.futures.length).toNat with hslotsdef
  have hlaunch : g.launch t env s = g.dispatch t env ((specs.take slots).map (·.id)) { s with run } := by
    unfold GraphScheduler.launch
    simp only [hpass,hids,sliceTo_of_nonneg _ hslots,List.map_take,hslotsdef]
  have hready : ∀ n ∈ specs.take slots, n ∈ t.nodes ∧ Ready run n :=
    fun n hn => (hmem n).mp (List.mem_of_mem_take hn)
  have hlen : (s.futures.length : ℤ) + (specs.take slots).length ≤ g.maxConcurrency := by
    have : (specs.take slots).length ≤ slots := by simp
    omega
  rcases dispatch_spec ht (specs.take slots) (hnodup.sublist (List.take_sublist _ _))
    { s with run } hready hlen with ⟨s',hok,hchain,hne⟩ | ⟨s',bad,e,herr,hchain,hbad⟩
  · refine Or.inl ⟨{ s with run },s',hlaunch.trans hok,⟨hblocks,hblocked,hchain⟩,?_⟩
    rintro ⟨spec,hspec,hr⟩ hfree
    apply hne
    have hin : spec ∈ specs := (hmem spec).mpr ⟨hspec,hr⟩
    simp only at hfree
    rw [Ne,List.take_eq_nil_iff,not_or]
    exact ⟨by omega,List.ne_nil_of_mem hin⟩
  · exact Or.inr ⟨{ s with run },s',bad,e,hlaunch.trans herr,⟨hblocks,hblocked,hchain⟩,hbad⟩

/-- Collecting finishes in-flight calls one after the other and raises nothing. -/
theorem collect_spec (env : Env) (ht : t.WellFormed) (ids : List NodeId) (hi : Inv g t stale s) :
    ∃ s', collect t env ids s = .ok s' ∧ Finishes t env s s' ∧
      ((∃ f ∈ s.futures, f.nodeId ∈ ids) → TransGen (FinishStep t env) s s') := by
  induction ids generalizing s with
  | nil => exact ⟨s,rfl,.refl,by simp⟩
  | cons id rest ih =>
    unfold collect
    cases hf : s.futures.find? (·.nodeId = id) with
    | none =>
      obtain ⟨s',hok,hchain,hne⟩ := ih hi
      refine ⟨s',hok,hchain,?_⟩
      rintro ⟨f,hf',hid⟩
      have hnot : f.nodeId ≠ id := by simpa using List.find?_eq_none.mp hf f hf'
      exact hne ⟨f,hf',(List.mem_cons.mp hid).resolve_left hnot⟩
    | some f =>
      have hmem := List.mem_of_find?_eq_some hf
      have hid : f.nodeId = id := by simpa using List.find?_some hf
      obtain ⟨spec,hspec,hspecid⟩ := GraphTemplate.mem_ids.mp (hi.known f hmem)
      have hrun := hi.running_of_mem hmem
      have hfin : finish t env (s.pop id) id f.result =
          .ok ((s.pop spec.id).settled env spec f.result) := by
        rw [← hid,← hspecid] at *
        exact finish_running ht env hspec (s := s.pop spec.id) hrun f.result
      have hstep : FinishStep t env s ((s.pop spec.id).settled env spec f.result) :=
        ⟨spec,hspec,f.result,by rw [hspecid]; exact hmem,by rw [hspecid]; exact hrun,rfl⟩
      obtain ⟨s',hok,hchain,_⟩ := ih (hstep.inv hi)
      refine ⟨s',?_,.head hstep hchain,fun _ => .head' hstep hchain⟩
      simp only [Sched.pop] at hfin
      simp only [hfin,ok_bind]
      exact hok

section Tick

/-- No call is in flight, nothing is ready and every node is terminal. -/
def Over (t : GraphTemplate) (s : Sched) : Prop :=
  s.futures = [] ∧ (∀ spec ∈ t.nodes, ¬ Ready s.run spec) ∧
    ∀ spec ∈ t.nodes, (s.run.nodes spec.id).state.Terminal

/-- A whole iteration; `s₃` is the state after the collection. -/
structure Iterated (g : GraphScheduler) (t : GraphTemplate) (i : Tick) (s s₁ s₂ s₃ : Sched) : Prop
    extends Launch g t i.env s s₁ s₂ where
  launched : (∃ spec ∈ t.nodes, Ready s₁.run spec) → (s₁.futures.length : ℤ) < g.maxConcurrency →
    TransGen (DispatchStep g t i.env) s₁ s₂
  finishes : Finishes t i.env s₂ s₃
  finished : (∃ f ∈ s₂.futures, f.nodeId ∈ i.done) → TransGen (FinishStep t i.env) s₂ s₃

/-- The three ways an uncancelled iteration goes. -/
inductive Ticked (g : GraphScheduler) (t : GraphTemplate) (i : Tick) (s : Sched) :
    Outcome Sched PyError → Prop
  | raised {s₁ s₂ : Sched} {spec : NodeSpec} {e : ResolveError} (launch : Launch g t i.env s s₁ s₂)
      (mem : spec ∈ t.nodes) (ready : Ready s₂.run spec)
      (unresolved : nodeParams t s₂.run spec = .error e) : Ticked g t i s (.raised (.resolve e) s₂)
  | loop {s₁ s₂ s₃ : Sched} (iterated : Iterated g t i s s₁ s₂ s₃) (unfinished : s₃ = s₂ → ¬ Over t s₃) :
      Ticked g t i s (.loop s₃)
  | returned {s₁ s₂ s₃ : Sched} (iterated : Iterated g t i s s₁ s₂ s₃) (ended : Over t s₃) :
      Ticked g t i s (.returned (conclude t s₃))

theorem exitTest_spec (hfut : s.futures = []) :
    GraphScheduler.exitTest t s = .returned (conclude t s) ∧ Over t s ∨
      GraphScheduler.exitTest t s = .loop s ∧ ¬ Over t s := by
  have hiff : (findReadyNodes s.run t = [] ∧ ∀ state ∈ s.run.nodeStates t, state.Terminal) ↔ Over t s := by
    rw [findReadyNodes_eq_nil]
    simp [Over,hfut,GraphRun.nodeStates]
  unfold GraphScheduler.exitTest
  split_ifs with h
  · exact Or.inl ⟨rfl,hiff.mp h⟩
  · exact Or.inr ⟨rfl,mt hiff.mpr h⟩

theorem tickThreaded_spec (ht : t.WellFormed) (hi : Inv g t stale s) {i : Tick}
    (hc : i.cancelled = false) : Ticked g t i s (g.tickThreaded t i s) := by
  unfold GraphScheduler.tickThreaded
  simp only [hc,Bool.false_eq_true,if_false]
  rcases launch_spec i.env ht hi with
    ⟨s₁,s₂,hok,hlaunch,hne⟩ | ⟨s₁,s₂,spec,e,herr,hlaunch,hspec,hready,hparams⟩
  · have hi₂ := hlaunch.dispatches.inv (hlaunch.blocks.inv hi)
    obtain ⟨s₃,hcollect,hfin,hsome⟩ := collect_spec i.env ht
      ((s₂.futures.filter (·.nodeId ∈ i.done)).map (·.nodeId)) hi₂
    have hsome' : (∃ f ∈ s₂.futures, f.nodeId ∈ i.done) → TransGen (FinishStep t i.env) s₂ s₃ := by
      rintro ⟨f,hf,hdone⟩
      exact hsome ⟨f,hf,List.mem_map_of_mem (List.mem_filter.mpr ⟨hf,by simpa using hdone⟩)⟩
    have hiter : Iterated g t i s s₁ s₂ s₃ := ⟨hlaunch,hne,hfin,hsome'⟩
    simp only [hok,GraphScheduler.harvestThreaded,hcollect,toOutcome]
    split_ifs with hfut
    · rcases exitTest_spec (t := t) hfut with ⟨h,hover⟩ | ⟨h,hnot⟩
      · rw [h]; exact .returned hiter hover
      · rw [h]; exact .loop hiter fun _ => hnot
    · exact .loop hiter fun _ hover => hfut hover.1
  · simp only [herr,toOutcome]
    exact .raised hlaunch hspec hready hparams

theorem tickAsync_spec (ht : t.WellFormed) (hi : Inv g t stale s) {i : Tick}
    (hc : i.cancelled = false) : Ticked g t i s (g.tickAsync t i s) := by
  unfold GraphScheduler.tickAsync
  simp only [hc,Bool.false_eq_true,if_false]
  rcases launch_spec i.env ht hi with
    ⟨s₁,s₂,hok,hlaunch,hne⟩ | ⟨s₁,s₂,spec,e,herr,hlaunch,hspec,hready,hparams⟩
  · have hi₂ := hlaunch.dispatches.inv (hlaunch.blocks.inv hi)
    simp only [hok,GraphScheduler.harvestAsync,toOutcome]
    split_ifs with hfut
    · have hiter : Iterated g t i s s₁ s₂ s₂ := ⟨hlaunch,hne,.refl,by simp [hfut]⟩
      rcases exitTest_spec (t := t) hfut with ⟨h,hover⟩ | ⟨h,hnot⟩
      · rw [h]; exact .returned hiter hover
      · rw [h]; exact .loop hiter fun _ => hnot
    · obtain ⟨s₃,hcollect,hfin,hsome⟩ := collect_spec i.env ht i.done hi₂
      simp only [hcollect]
      exact .loop ⟨hlaunch,hne,hfin,hsome⟩ fun heq hover => hfut (heq ▸ hover.1)
  · simp only [herr,toOutcome]
    exact .raised hlaunch hspec hready hparams

theorem tick_spec (ht : t.WellFormed) (hi : Inv g t stale s) {i : Tick} (hc : i.cancelled = false) :
    Ticked g t i s (g.tick t i s) := by
  unfold GraphScheduler.tick
  split_ifs
  · exact tickAsync_spec ht hi hc
  · exact tickThreaded_spec ht hi hc

theorem Launch.steps {s₁ s₂ : Sched} (h : Launch g t env s s₁ s₂) : Steps g t env s s₂ :=
  (ReflTransGen.mono (fun _ _ h => Or.inl h) _ _ h.blocks).trans
    (ReflTransGen.mono (fun _ _ h => Or.inr (Or.inl h)) _ _ h.dispatches)

theorem Iterated.steps {i : Tick} {s₁ s₂ s₃ : Sched} (h : Iterated g t i s s₁ s₂ s₃) :
    Steps g t i.env s s₃ :=
  h.toLaunch.steps.trans (ReflTransGen.mono (fun _ _ h => Or.inr (Or.inr h)) _ _ h.finishes)

end Tick

section Cancel

/-- The cancelled record of a running node. -/
def cancelledNode (node : NodeRun) : NodeRun := { node with state := .cancelled }

/-- A running in-flight node becomes Cancelled. -/
def CancelStep (t : GraphTemplate) (s s' : Sched) : Prop :=
  ∃ spec ∈ t.nodes, (s.run.nodes spec.id).state = .running ∧ spec.id ∈ s.futures.map (·.nodeId) ∧
    s' = s.put spec.id (cancelledNode (s.run.nodes spec.id))

abbrev Cancels (t : GraphTemplate) := ReflTransGen (CancelStep t)

/-- What the cancel loop does to the listed running nodes, and to no others. -/
theorem cancelNodes_spec (ids : List NodeId) (hnodup : ids.Nodup) (s : Sched)
    (hids : ∀ id ∈ ids, id ∈ t.ids ∧ (s.run.nodes id).state = .running ∧
      id ∈ s.futures.map (·.nodeId)) :
    ∃ s', cancelNodes ids s = .ok s' ∧ Cancels t s s' ∧ s'.futures = s.futures ∧
      ∀ id, s'.run.nodes id = if id ∈ ids then cancelledNode (s.run.nodes id) else s.run.nodes id := by
  induction ids generalizing s with
  | nil => exact ⟨s,rfl,.refl,rfl,by simp⟩
  | cons id rest ih =>
    obtain ⟨hid,hrun,hfut⟩ := hids id List.mem_cons_self
    obtain ⟨hnot,hnodup'⟩ := List.nodup_cons.mp hnodup
    obtain ⟨spec,hspec,rfl⟩ := GraphTemplate.mem_ids.mp hid
    have hstep : CancelStep t s (s.put spec.id (cancelledNode (s.run.nodes spec.id))) :=
      ⟨spec,hspec,hrun,hfut,rfl⟩
    have hrest : ∀ id ∈ rest, id ∈ t.ids ∧
        ((s.put spec.id (cancelledNode (s.run.nodes spec.id))).run.nodes id).state = .running ∧
        id ∈ (s.put spec.id (cancelledNode (s.run.nodes spec.id))).futures.map (·.nodeId) := by
      intro id hmem
      have hne : id ≠ spec.id := fun h => hnot (h ▸ hmem)
      simpa [hne] using hids id (List.mem_cons_of_mem _ hmem)
    obtain ⟨s',hok,hchain,hfutures,hnodes⟩ := ih hnodup' _ hrest
    refine ⟨s',?_,.head hstep hchain,hfutures,?_⟩
    · unfold cancelNodes
      have htrans : s.run.transition spec.id .cancelled =
          .ok (s.run.setNode spec.id (cancelledNode (s.run.nodes spec.id))) :=
        GraphRun.transition_ok (by rw [hrun]; rfl)
      simp only [if_pos hrun,Sched.transition,htrans,ok_bind]
      exact hok
    · intro id
      rw [hnodes id]
      by_cases hspecid : id = spec.id
      · subst hspecid
        simp [hnot]
      · simp [hspecid]

/-- The state in which a cancelled scheduler returns. -/
def paused (s : Sched) : Sched := (s.setState .paused).saveRun

/-- An iteration that sees the cancel event cancels what is in flight and returns. -/
theorem tick_cancelled (hi : Inv g t stale s) {i : Tick} (hc : i.cancelled = true) :
    ∃ s', g.tick t i s = .returned (paused s') ∧ Cancels t s s' ∧ s'.futures = s.futures ∧
      ∀ id, s'.run.nodes id = if id ∈ s.futures.map (·.nodeId) then cancelledNode (s.run.nodes id)
        else s.run.nodes id := by
  have hids : ∀ id ∈ s.futures.map (·.nodeId), id ∈ t.ids ∧ (s.run.nodes id).state = .running ∧
      id ∈ s.futures.map (·.nodeId) := by
    intro id hid
    obtain ⟨f,hf,rfl⟩ := List.mem_map.mp hid
    exact ⟨hi.known f hf,hi.running_of_mem hf,hid⟩
  obtain ⟨s',hok,hrest⟩ := cancelNodes_spec _ hi.nodup s hids
  refine ⟨s',?_,hrest⟩
  unfold GraphScheduler.tick GraphScheduler.tickAsync GraphScheduler.tickThreaded
  simp [hc,cancel,hok,toOutcome,paused]

end Cancel

end DftForge.Runtime
