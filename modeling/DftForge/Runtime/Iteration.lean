import DftForge.Runtime.Steps

/-! # The loop invariant and the shape of one iteration

The in-flight map names exactly the running nodes, up to the nodes that were
already running when the scheduler was entered: no future will ever complete
those. Under this invariant an iteration blocks, then dispatches, then finishes.
-/
namespace DftForge.Runtime
open Loop Relation

variable {g : GraphScheduler} {t : GraphTemplate} {env : Env}

namespace Sched
variable (s : Sched) (id : NodeId) (node : NodeRun)

@[simp] theorem put_run : (s.put id node).run = s.run.setNode id node := rfl
@[simp] theorem put_futures : (s.put id node).futures = s.futures := rfl
@[simp] theorem put_calls : (s.put id node).calls = s.calls := rfl
@[simp] theorem put_store : (s.put id node).store = s.store.saveNodeRun (s.run.setNode id node) id := rfl
@[simp] theorem put_saves : (s.put id node).saves = (s.put id node).store :: s.saves := rfl

variable (env : Env) (spec : NodeSpec) (result : ToolResult)

@[simp] theorem settled_run : (s.settled env spec result).run =
    s.run.setNode spec.id (finishedNode env spec (s.run.nodes spec.id) result) := by
  simp only [settled]
  split <;> simp

@[simp] theorem settled_futures : (s.settled env spec result).futures = s.futures := by
  simp only [settled]
  split <;> rfl

@[simp] theorem settled_calls : (s.settled env spec result).calls = s.calls := by
  simp only [settled]
  split <;> rfl

end Sched

@[simp] theorem launched_run (s : Sched) (spec : NodeSpec) (params : Dict) :
    (g.launched env s spec params).run = s.run.setNode spec.id (g.dispatched s.run spec.id params) := rfl

/-- The future a dispatch adds. -/
def GraphScheduler.future (g : GraphScheduler) (env : Env) (run : GraphRun) (spec : NodeSpec)
    (params : Dict) : Future :=
  ⟨spec.id,executeTool env spec (g.dispatched run spec.id params) (g.context run spec)⟩

@[simp] theorem launched_futures (s : Sched) (spec : NodeSpec) (params : Dict) :
    (g.launched env s spec params).futures = s.futures ++ [g.future env s.run spec params] := rfl

/-- A finished call leaves its node succeeded, queued again or failed. -/
theorem finishedNode_state (env : Env) (spec : NodeSpec) (node : NodeRun) (result : ToolResult) :
    (finishedNode env spec node result).state = .succeeded ∧ (∃ outputs, result = .ok outputs) ∨
    ((finishedNode env spec node result).state = .ready ∨
      (finishedNode env spec node result).state = .failed) ∧ ∃ f, result = .error f := by
  cases result with
  | ok outputs => exact Or.inl ⟨rfl,outputs,rfl⟩
  | error f =>
    refine Or.inr ⟨?_,f,rfl⟩
    simp only [finishedNode,failedNode]
    cases usedRepairer env spec node f.toError with
    | none =>
      simp only []
      split_ifs <;> simp
    | some repairer =>
      simp only [repairedNode]
      split
      · split_ifs <;> simp
      · simp

/-- Finishing a call does not touch the resolution flag. -/
theorem finishedNode_paramsResolved (env : Env) (spec : NodeSpec) (node : NodeRun) (result : ToolResult) :
    (finishedNode env spec node result).paramsResolved = node.paramsResolved := by
  cases result with
  | ok outputs => rfl
  | error f =>
    simp only [finishedNode,failedNode]
    cases usedRepairer env spec node f.toError with
    | none => rfl
    | some repairer =>
      simp only [repairedNode]
      split <;> rfl

def blockedNode (node : NodeRun) : NodeRun := { node with state := .blocked }

/-- A pending node with a dead dependency becomes Blocked. -/
def BlockStep (t : GraphTemplate) (s s' : Sched) : Prop :=
  ∃ spec ∈ t.nodes, Blockable s.run spec ∧
    s' = s.setNode spec.id (blockedNode (s.run.nodes spec.id))

/-- A ready node is dispatched into a free slot. -/
def DispatchStep (g : GraphScheduler) (t : GraphTemplate) (env : Env) (s s' : Sched) : Prop :=
  ∃ spec ∈ t.nodes, ∃ params, Ready s.run spec ∧ nodeParams t s.run spec = .ok params ∧
    (s.futures.length : ℤ) < g.maxConcurrency ∧ s' = g.launched env s spec params

def Sched.pop (s : Sched) (id : NodeId) : Sched :=
  { s with futures := s.futures.eraseP (·.nodeId = id) }

/-- An in-flight call of a running node is finished. -/
def FinishStep (t : GraphTemplate) (env : Env) (s s' : Sched) : Prop :=
  ∃ spec ∈ t.nodes, ∃ result, ⟨spec.id,result⟩ ∈ s.futures ∧
    (s.run.nodes spec.id).state = .running ∧ s' = (s.pop spec.id).settled env spec result

def WorkStep (g : GraphScheduler) (t : GraphTemplate) (env : Env) (s s' : Sched) : Prop :=
  DispatchStep g t env s s' ∨ FinishStep t env s s'

def Step (g : GraphScheduler) (t : GraphTemplate) (env : Env) (s s' : Sched) : Prop :=
  BlockStep t s s' ∨ WorkStep g t env s s'

abbrev Steps (g : GraphScheduler) (t : GraphTemplate) (env : Env) := ReflTransGen (Step g t env)

/-- The invariant of the loop; `stale` are the nodes found Running at entry. -/
structure Inv (g : GraphScheduler) (t : GraphTemplate) (stale : Set NodeId) (s : Sched) : Prop where
  nodup : (s.futures.map (·.nodeId)).Nodup
  known : ∀ f ∈ s.futures, f.nodeId ∈ t.ids
  running : ∀ id ∈ t.ids, (s.run.nodes id).state = .running ↔
    id ∈ s.futures.map (·.nodeId) ∨ id ∈ stale
  fresh : ∀ f ∈ s.futures, f.nodeId ∉ stale
  slots : (s.futures.length : ℤ) ≤ g.maxConcurrency

variable {stale : Set NodeId} {s s' : Sched}

theorem Inv.future_unique (hi : Inv g t stale s) {f f' : Future} (hf : f ∈ s.futures)
    (hf' : f' ∈ s.futures) (h : f.nodeId = f'.nodeId) : f = f' :=
  List.inj_on_of_nodup_map hi.nodup hf hf' h

theorem Inv.running_of_mem (hi : Inv g t stale s) {f : Future} (hf : f ∈ s.futures) :
    (s.run.nodes f.nodeId).state = .running :=
  (hi.running f.nodeId (hi.known f hf)).mpr (Or.inl (List.mem_map_of_mem hf))

theorem map_eraseP_nodeId (fs : List Future) (id : NodeId) :
    (fs.eraseP (·.nodeId = id)).map (·.nodeId) = (fs.map (·.nodeId)).erase id := by
  induction fs with
  | nil => rfl
  | cons f fs ih =>
    by_cases h : f.nodeId = id
    · simp [h]
    · have hb : (f.nodeId == id) = false := by simpa using h
      simp [h,ih,hb]

@[simp] theorem pop_run (s : Sched) (id : NodeId) : (s.pop id).run = s.run := rfl

theorem BlockStep.inv (h : BlockStep t s s') (hi : Inv g t stale s) : Inv g t stale s' := by
  obtain ⟨spec,_,⟨hpending,_⟩,rfl⟩ := h
  refine ⟨hi.nodup,hi.known,?_,hi.fresh,hi.slots⟩
  intro id hid
  by_cases heq : id = spec.id
  · subst heq
    have hr := hi.running spec.id hid
    rw [hpending] at hr
    simpa [Sched.setNode,blockedNode] using hr
  · simpa [Sched.setNode,heq] using hi.running id hid

theorem DispatchStep.inv (h : DispatchStep g t env s s') (hi : Inv g t stale s) :
    Inv g t stale s' := by
  obtain ⟨spec,hspec,params,⟨hstate,_⟩,_,hslot,rfl⟩ := h
  have hnot : ¬ (s.run.nodes spec.id).state = .running := by
    intro hr
    rw [hr] at hstate
    simp at hstate
  have hspecid := GraphTemplate.mem_ids_of_mem hspec
  have hfree := mt (hi.running spec.id hspecid).mpr hnot
  rw [not_or] at hfree
  refine ⟨?_,?_,?_,?_,?_⟩
  · simpa [GraphScheduler.future,List.nodup_append] using ⟨hi.nodup,fun f hf h =>
      hfree.1 (h ▸ List.mem_map_of_mem hf)⟩
  · intro f hf
    rcases List.mem_append.mp hf with hf | hf
    · exact hi.known f hf
    · rw [List.mem_singleton.mp hf]
      exact hspecid
  · intro id hid
    by_cases heq : id = spec.id
    · subst heq
      simp [GraphScheduler.dispatched,GraphScheduler.future]
    · simpa [heq,GraphScheduler.future] using hi.running id hid
  · intro f hf
    rcases List.mem_append.mp hf with hf | hf
    · exact hi.fresh f hf
    · rw [List.mem_singleton.mp hf]
      exact hfree.2
  · simp only [launched_futures,List.length_append,List.length_singleton]
    push_cast
    omega

theorem FinishStep.inv (h : FinishStep t env s s') (hi : Inv g t stale s) : Inv g t stale s' := by
  obtain ⟨spec,hspec,result,hfut,_,rfl⟩ := h
  have hspecid := GraphTemplate.mem_ids_of_mem hspec
  have hmem : ∀ f ∈ (s.pop spec.id).futures, f ∈ s.futures := fun f hf => List.mem_of_mem_eraseP hf
  refine ⟨?_,?_,?_,?_,?_⟩
  · simpa only [Sched.settled_futures,Sched.pop,map_eraseP_nodeId] using hi.nodup.erase spec.id
  · exact fun f hf => hi.known f (hmem f (by simpa using hf))
  · intro id hid
    simp only [Sched.settled_run,Sched.settled_futures,Sched.pop,map_eraseP_nodeId,
      hi.nodup.mem_erase_iff]
    by_cases heq : id = spec.id
    · subst heq
      have hstale : spec.id ∉ stale := hi.fresh _ hfut
      rcases finishedNode_state env spec (s.run.nodes spec.id) result with ⟨h,_⟩ | ⟨h | h,_⟩ <;>
        simp [h,hstale]
    · simpa [heq] using hi.running id hid
  · exact fun f hf => hi.fresh f (hmem f (by simpa using hf))
  · have hlen : (s.pop spec.id).futures.length ≤ s.futures.length := List.length_eraseP_le
    have := hi.slots
    simp only [Sched.settled_futures]
    omega

theorem WorkStep.inv (h : WorkStep g t env s s') (hi : Inv g t stale s) : Inv g t stale s' :=
  h.elim (fun h => h.inv hi) (fun h => h.inv hi)

theorem Step.inv (h : Step g t env s s') (hi : Inv g t stale s) : Inv g t stale s' :=
  h.elim (fun h => h.inv hi) (fun h => h.inv hi)

/-- What every step preserves, a chain of steps preserves. -/
theorem chain_invariant {R : Sched → Sched → Prop} {P : Sched → Prop}
    (hstep : ∀ a b, R a b → P a → P b) {a b : Sched} (h : ReflTransGen R a b) (ha : P a) : P b := by
  induction h with
  | refl => exact ha
  | tail _ hr ih => exact hstep _ _ hr ih

theorem Steps.inv (h : Steps g t env s s') (hi : Inv g t stale s) : Inv g t stale s' :=
  chain_invariant (fun _ _ h hi => h.inv hi) h hi

end DftForge.Runtime
