import DftForge.Runtime.Lifecycle

/-! # A cancel that arrives in the middle of an iteration

`cancel_session` sets the event and then kills the tool processes. The event is read
at the top of an iteration only, so a call that the kill makes fail may still be
collected further down, and its failure handled as any other.
-/
namespace DftForge.Runtime
open Loop Relation

variable {g : GraphScheduler} {t : GraphTemplate} {env : Env} {stale : Set NodeId} {s s' : Sched}

/-- What the killed calls raise instead of their results. -/
abbrev Kill := NodeId → Option ToolError

def Future.killed (kill : Kill) (f : Future) : Future :=
  match kill f.nodeId with
  | some e => { f with result := .error (.toolError e) }
  | none => f

/-- The kill reaches the calls in flight. -/
def Sched.kill (kill : Kill) (s : Sched) : Sched := { s with futures := s.futures.map (·.killed kill) }

namespace GraphScheduler
variable (g : GraphScheduler) (t : GraphTemplate)

/-- What is left of an iteration that has just collected nothing yet: the event is set
and the calls are killed before the scan for finished ones. -/
def harvest (i : Tick) (s : Sched) : Outcome Sched PyError :=
  if g.useAsyncio then harvestAsync t i s else harvestThreaded t i s

/-- An iteration that found the event unset and during which it is set, and the next
one, which finds it set. -/
def cancelDuring (i : Tick) (kill : Kill) (s : Sched) : Outcome Sched PyError :=
  match toOutcome (g.launch t i.env s) fun s => g.harvest t i (s.kill kill) with
  | .loop s => g.tick t { i with cancelled := true } s
  | ended => ended

/-- The state in which the calls of an iteration have been dispatched, as far as it gets. -/
def launchState (env : Env) (s : Sched) : Sched :=
  match g.launch t env s with
  | .ok s => s
  | .error r => r.sched

end GraphScheduler

section Kill
variable {kill : Kill}

@[simp] theorem killed_nodeId (f : Future) : (f.killed kill).nodeId = f.nodeId := by
  unfold Future.killed
  cases kill f.nodeId <;> rfl

@[simp] theorem kill_run (s : Sched) : (s.kill kill).run = s.run := rfl

theorem kill_nodeIds (s : Sched) : (s.kill kill).futures.map (·.nodeId) = s.futures.map (·.nodeId) := by
  simp [Sched.kill]

/-- Without a kill the two halves make up an iteration. -/
theorem tick_eq_harvest {i : Tick} (hc : i.cancelled = false) :
    g.tick t i s = toOutcome (g.launch t i.env s) (g.harvest t i) := by
  unfold GraphScheduler.tick GraphScheduler.tickAsync GraphScheduler.tickThreaded GraphScheduler.harvest
  cases g.useAsyncio <;> simp [hc]

theorem kill_none (s : Sched) : s.kill (fun _ => none) = s := by
  have hid : (fun f : Future => f.killed fun _ => none) = id := rfl
  simp [Sched.kill,hid]

/-- If nothing is killed, the event only ends the loop one iteration later. -/
theorem cancelDuring_none {i : Tick} (hc : i.cancelled = false) :
    g.cancelDuring t i (fun _ => none) s =
      match g.tick t i s with
      | .loop s => g.tick t { i with cancelled := true } s
      | ended => ended := by
  simp only [GraphScheduler.cancelDuring,tick_eq_harvest hc,kill_none]

theorem Inv.of_kill (hi : Inv g t stale s) : Inv g t stale (s.kill kill) := by
  have hmem : ∀ f ∈ (s.kill kill).futures, ∃ f' ∈ s.futures, f'.nodeId = f.nodeId := by
    intro f hf
    obtain ⟨f',hf',rfl⟩ := List.mem_map.mp hf
    exact ⟨f',hf',(killed_nodeId f').symm⟩
  refine ⟨by rw [kill_nodeIds]; exact hi.nodup,?_,by rw [kill_nodeIds]; exact hi.running,?_,?_⟩
  · intro f hf
    obtain ⟨f',hf',hid⟩ := hmem f hf
    exact hid ▸ hi.known f' hf'
  · intro f hf
    obtain ⟨f',hf',hid⟩ := hmem f hf
    exact hid ▸ hi.fresh f' hf'
  · have hlen : (s.kill kill).futures.length = s.futures.length := by simp [Sched.kill]
    rw [hlen]
    exact hi.slots

end Kill

section Collect

/-- What collecting does to a node's call in flight: it is finished with its result, or
left in flight. -/
structure Seen (env : Env) (ids : List NodeId) (s s' : Sched) (spec : NodeSpec) (f : Future) : Prop where
  collected : spec.id ∈ ids → spec.id ∉ s'.futures.map (·.nodeId) ∧
    s'.run.nodes spec.id = finishedNode env spec (s.run.nodes spec.id) f.result
  left : spec.id ∉ ids → f ∈ s'.futures ∧ s'.run.nodes spec.id = s.run.nodes spec.id

/-- The same without the node's specification. -/
structure Harvested (t : GraphTemplate) (env : Env) (ids : List NodeId) (s s' : Sched) (f : Future) :
    Prop where
  collected : f.nodeId ∈ ids → f.nodeId ∉ s'.futures.map (·.nodeId) ∧ ∃ spec ∈ t.nodes,
    s'.run.nodes f.nodeId = finishedNode env spec (s.run.nodes f.nodeId) f.result
  left : f.nodeId ∉ ids → f ∈ s'.futures ∧ s'.run.nodes f.nodeId = s.run.nodes f.nodeId

theorem Seen.harvested {ids : List NodeId} {spec : NodeSpec} {f : Future} (h : Seen env ids s s' spec f)
    (hspec : spec ∈ t.nodes) (hid : f.nodeId = spec.id) : Harvested t env ids s s' f := by
  refine ⟨fun hmem => ?_,fun hmem => ?_⟩
  · rw [hid] at hmem ⊢
    obtain ⟨hnot,hnode⟩ := h.collected hmem
    exact ⟨hnot,spec,hspec,hnode⟩
  · rw [hid] at hmem ⊢
    exact h.left hmem

/-- Collecting finishes the named calls, each with its own result, and touches nothing
else. -/
theorem collect_nodes (ht : t.WellFormed) (ids : List NodeId) (hi : Inv g t stale s) :
    ∃ s', collect t env ids s = .ok s' ∧ Inv g t stale s' ∧
      (∀ id, id ∉ s.futures.map (·.nodeId) → id ∉ s'.futures.map (·.nodeId) ∧
        s'.run.nodes id = s.run.nodes id) ∧
      ∀ spec ∈ t.nodes, ∀ f ∈ s.futures, f.nodeId = spec.id → Seen env ids s s' spec f := by
  induction ids generalizing s with
  | nil =>
    exact ⟨s,rfl,hi,fun id hid => ⟨hid,rfl⟩,fun spec _ f hf _ => ⟨by simp,fun _ => ⟨hf,rfl⟩⟩⟩
  | cons id rest ih =>
    unfold collect
    cases hf : s.futures.find? (·.nodeId = id) with
    | none =>
      obtain ⟨s',hok,hi',hout,hin⟩ := ih hi
      refine ⟨s',hok,hi',hout,fun spec hspec f hmem hid => ?_⟩
      have hne : spec.id ≠ id := by simpa [← hid] using List.find?_eq_none.mp hf f hmem
      obtain ⟨hcollected,hleft⟩ := hin spec hspec f hmem hid
      exact ⟨fun h => hcollected ((List.mem_cons.mp h).resolve_left hne),
        fun h => hleft fun hr => h (List.mem_cons_of_mem _ hr)⟩
    | some f =>
      have hmem := List.mem_of_find?_eq_some hf
      obtain rfl : f.nodeId = id := by simpa using List.find?_some hf
      obtain ⟨spec,hspec,hspecid⟩ := GraphTemplate.mem_ids.mp (hi.known f hmem)
      have hrun := hi.running_of_mem hmem
      rw [← hspecid] at hrun
      have hfin := finish_running ht env hspec (s := s.pop spec.id) hrun f.result
      have hstep : FinishStep t env s ((s.pop spec.id).settled env spec f.result) :=
        ⟨spec,hspec,f.result,by rw [hspecid]; exact hmem,hrun,rfl⟩
      obtain ⟨s',hok,hi',hout,hin⟩ := ih (hstep.inv hi)
      -- the finished call is gone, the others are as they were
      have hgone : spec.id ∉ ((s.pop spec.id).settled env spec f.result).futures.map (·.nodeId) := by
        simp [Sched.pop,map_eraseP_nodeId,hi.nodup.mem_erase_iff]
      have hother : ∀ id, id ≠ spec.id →
          ((s.pop spec.id).settled env spec f.result).run.nodes id = s.run.nodes id := by
        intro id hne
        simp [hne]
      refine ⟨s',?_,hi',?_,?_⟩
      · rw [hspecid] at hfin hok
        simp only [Sched.pop] at hfin hok
        simp only [hfin,ok_bind]
        exact hok
      · intro id hid
        have hne : id ≠ spec.id := fun heq => hid (heq ▸ hspecid ▸ List.mem_map_of_mem hmem)
        have hid' : id ∉ ((s.pop spec.id).settled env spec f.result).futures.map (·.nodeId) := by
          simp only [Sched.settled_futures,Sched.pop,map_eraseP_nodeId]
          exact fun h => hid (List.mem_of_mem_erase h)
        exact ⟨(hout id hid').1,(hout id hid').2.trans (hother id hne)⟩
      · intro other hother' f' hf' hid
        by_cases heq : f'.nodeId = f.nodeId
        · obtain rfl := hi.future_unique hf' hmem heq
          obtain rfl := ht.eq_of_id hother' hspec (hid.symm.trans hspecid.symm)
          obtain ⟨hnot,hnode⟩ := hout _ hgone
          refine ⟨fun _ => ⟨hnot,hnode.trans ?_⟩,fun h => absurd (by simp [hspecid]) h⟩
          simp
        · have hne : f'.nodeId ≠ spec.id := hspecid ▸ heq
          have hmem' : f' ∈ ((s.pop spec.id).settled env spec f.result).futures := by
            simp only [Sched.settled_futures,Sched.pop]
            exact (List.mem_eraseP_of_neg (by simpa using hne)).mpr hf'
          obtain ⟨hcollected,hleft⟩ := hin other hother' f' hmem' hid
          rw [hother other.id (hid ▸ hne)] at hcollected hleft
          exact ⟨fun h => hcollected ((List.mem_cons.mp h).resolve_left (hid ▸ heq)),
            fun h => hleft fun hr => h (List.mem_cons_of_mem _ hr)⟩

/-- The rest of an iteration collects exactly the calls seen finished. -/
theorem harvest_seen (ht : t.WellFormed) {i : Tick} (hi : Inv g t stale s) :
    ∃ s', Inv g t stale s' ∧ (∀ id, id ∉ s.futures.map (·.nodeId) → s'.run.nodes id = s.run.nodes id) ∧
      (∀ spec ∈ t.nodes, ∀ f ∈ s.futures, f.nodeId = spec.id → Seen i.env i.done s s' spec f) ∧
      (g.harvest t i s = .loop s' ∨ g.harvest t i s = .returned (conclude t s') ∧ s'.futures = []) := by
  unfold GraphScheduler.harvest
  split_ifs
  · unfold GraphScheduler.harvestAsync
    split_ifs with hfut
    · refine ⟨s,hi,fun _ _ => rfl,by simp [hfut],?_⟩
      rcases exitTest_spec (t := t) hfut with ⟨h,_⟩ | ⟨h,_⟩
      · exact Or.inr ⟨h,hfut⟩
      · exact Or.inl h
    · obtain ⟨s',hok,hi',hout,hin⟩ := collect_nodes ht i.done hi
      exact ⟨s',hi',fun id hid => (hout id hid).2,hin,Or.inl (by rw [hok]; rfl)⟩
  · unfold GraphScheduler.harvestThreaded
    obtain ⟨s',hok,hi',hout,hin⟩ := collect_nodes ht
      ((s.futures.filter (·.nodeId ∈ i.done)).map (·.nodeId)) hi
    refine ⟨s',hi',fun id hid => (hout id hid).2,fun spec hspec f hf hid => ?_,?_⟩
    · have hiff : spec.id ∈ (s.futures.filter (·.nodeId ∈ i.done)).map (·.nodeId) ↔
          spec.id ∈ i.done := by
        rw [← hid]
        constructor
        · intro h
          obtain ⟨f',hf',hid⟩ := List.mem_map.mp h
          rw [← hid]
          simpa using (List.mem_filter.mp hf').2
        · exact fun h => List.mem_map_of_mem (List.mem_filter.mpr ⟨hf,by simpa using h⟩)
      obtain ⟨hcollected,hleft⟩ := hin spec hspec f hf hid
      exact ⟨fun h => hcollected (hiff.mpr h),fun h => hleft (mt hiff.mp h)⟩
    · simp only [hok,toOutcome]
      split_ifs with hfut
      · rcases exitTest_spec (t := t) hfut with ⟨h,_⟩ | ⟨h,_⟩
        · exact Or.inr ⟨h,hfut⟩
        · exact Or.inl h
      · exact Or.inl rfl

theorem harvest_spec (ht : t.WellFormed) {i : Tick} (hi : Inv g t stale s) :
    ∃ s', Inv g t stale s' ∧ (∀ f ∈ s.futures, Harvested t i.env i.done s s' f) ∧
      (g.harvest t i s = .loop s' ∨ g.harvest t i s = .returned (conclude t s') ∧ s'.futures = []) := by
  obtain ⟨s',hi',_,hseen,hends⟩ := harvest_seen ht hi
  refine ⟨s',hi',fun f hf => ?_,hends⟩
  obtain ⟨spec,hspec,hid⟩ := GraphTemplate.mem_ids.mp (hi.known f hf)
  exact (hseen spec hspec f hf hid.symm).harvested hspec hid.symm

/-- How a call in flight fares when the event is set in the middle of an iteration:
collected with its result or the kill's, or cancelled in the next iteration. -/
theorem cancelDuring_node (ht : t.WellFormed) {i : Tick} {s₁ : Sched} (hi : Inv g t stale s₁)
    (hlaunch : g.launch t i.env s = .ok s₁) (kill : Kill) {f : Future} (hf : f ∈ s₁.futures) :
    (f.nodeId ∈ i.done → ∃ spec ∈ t.nodes, (g.cancelDuring t i kill s).state.run.nodes f.nodeId =
      finishedNode i.env spec (s₁.run.nodes f.nodeId) (f.killed kill).result) ∧
    (f.nodeId ∉ i.done → (g.cancelDuring t i kill s).state.run.nodes f.nodeId =
      cancelledNode (s₁.run.nodes f.nodeId)) := by
  obtain ⟨s₃,hi₃,hin,hout⟩ := harvest_spec (i := i) ht (hi.of_kill)
  have hmem : f.killed kill ∈ (s₁.kill kill).futures := List.mem_map_of_mem hf
  obtain ⟨hcollected,hleft⟩ := hin _ hmem
  simp only [killed_nodeId,kill_run] at hcollected hleft
  unfold GraphScheduler.cancelDuring
  simp only [hlaunch,toOutcome]
  rcases hout with hout | ⟨hout,hnil⟩
  · obtain ⟨s₄,hcancel,_,_,hnodes⟩ := tick_cancelled (g := g) hi₃
      (i := { i with cancelled := true }) rfl
    have hnodes' : ∀ id, (paused s₄).run.nodes id = if id ∈ s₃.futures.map (·.nodeId) then
        cancelledNode (s₃.run.nodes id) else s₃.run.nodes id := hnodes
    simp only [hout,hcancel,Outcome.state_returned,hnodes']
    constructor
    · intro hdone
      obtain ⟨hnot,spec,hspec,hnode⟩ := hcollected hdone
      exact ⟨spec,hspec,by rw [if_neg hnot,hnode]⟩
    · intro hdone
      obtain ⟨hstill,hnode⟩ := hleft hdone
      have hid : f.nodeId ∈ s₃.futures.map (·.nodeId) :=
        List.mem_map.mpr ⟨_,hstill,killed_nodeId f⟩
      rw [if_pos hid,hnode]
  · simp only [hout,Outcome.state_returned]
    constructor
    · intro hdone
      obtain ⟨_,hnode⟩ := hcollected hdone
      exact hnode
    · intro hdone
      obtain ⟨hstill,_⟩ := hleft hdone
      simp [hnil] at hstill

end Collect

section Spared

/-- The call ended by its own completion or was cancelled, and no repair handler
reacted. -/
def Spared (s s' : Sched) (f : Future) : Prop :=
  ((s'.run.nodes f.nodeId).state = .cancelled ∨
    (s'.run.nodes f.nodeId).state = .succeeded ∧ f.result = .ok (s'.run.nodes f.nodeId).outputs) ∧
  (s'.run.nodes f.nodeId).params = (s.run.nodes f.nodeId).params ∧
  (s'.run.nodes f.nodeId).repairAttempts = (s.run.nodes f.nodeId).repairAttempts

theorem spared_of_cancelled {f : Future}
    (h : s'.run.nodes f.nodeId = cancelledNode (s.run.nodes f.nodeId)) : Spared s s' f := by
  refine ⟨Or.inl ?_,?_,?_⟩ <;> rw [h] <;> rfl

theorem spared_of_finished {kill : Kill} {f : Future} {spec : NodeSpec} (h : s'.run.nodes f.nodeId =
      finishedNode env spec (s.run.nodes f.nodeId) (f.killed kill).result) :
    Spared s s' f ↔ ∀ failure, (f.killed kill).result ≠ .error failure := by
  cases hres : (f.killed kill).result with
  | ok outputs =>
    have hown : f.result = .ok outputs := by
      unfold Future.killed at hres
      cases hk : kill f.nodeId with
      | none => simpa [hk] using hres
      | some e => simp [hk] at hres
    rw [hres] at h
    refine iff_of_true ⟨Or.inr ⟨?_,?_⟩,?_,?_⟩ (by simp)
    · rw [h]; rfl
    · rw [h,hown]; rfl
    · rw [h]; rfl
    · rw [h]; rfl
  | error failure =>
    rw [hres] at h
    refine iff_of_false ?_ fun hall => hall failure rfl
    rintro ⟨hstate,_⟩
    rcases finishedNode_state env spec (s.run.nodes f.nodeId) (.error failure) with
      ⟨_,_,hok⟩ | ⟨hnew | hnew,_⟩
    · cases hok
    · rw [h,hnew] at hstate
      simp at hstate
    · rw [h,hnew] at hstate
      simp at hstate

variable {input : ℕ → Tick} {s₀ : Sched}

/-- A cancel that is seen before anything else in an iteration spares every call in
flight. One that arrives later in the iteration spares a call exactly if the dispatches
raise nothing and the call is not collected with an error, be it the kill's or its own. -/
theorem cancel_kill_iff (v : ValidTemplate) (hfut : s.futures = []) {n : ℕ}
    (hloop : g.run v.template input s n = .loop s₀) :
    ((input n).cancelled = true → ∃ s', g.run v.template input s (n + 1) = .returned s' ∧
      ∀ f ∈ s₀.futures, Spared s₀ s' f) ∧
    ((input n).cancelled = false → ∀ kill,
      let s₁ := g.launchState v.template (input n).env s₀
      ∀ f ∈ s₁.futures, (Spared s₁ (g.cancelDuring v.template (input n) kill s₀).state f ↔
        g.launch v.template (input n).env s₀ = .ok s₁ ∧
        (f.nodeId ∈ (input n).done → ∀ failure, (f.killed kill).result ≠ .error failure))) := by
  have ht := v.wellFormed
  have hi₀ := loop_inv ht (enter_inv hfut) hloop
  constructor
  · intro hc
    obtain ⟨s',hcancel,_,_,hnodes⟩ := tick_cancelled (g := g) hi₀ hc
    refine ⟨paused s',(exec_succ hloop).trans hcancel,fun f hf => spared_of_cancelled ?_⟩
    exact (hnodes f.nodeId).trans (if_pos (List.mem_map_of_mem hf))
  · intro hc kill
    simp only [GraphScheduler.launchState]
    rcases launch_spec (input n).env ht hi₀ with
      ⟨_,s₁,hok,hlaunch,_⟩ | ⟨_,s₁,_,_,herr,hlaunch,_⟩
    · have hi₁ := hlaunch.dispatches.inv (hlaunch.blocks.inv hi₀)
      simp only [hok,true_and]
      intro f hf
      obtain ⟨hdone,hleft⟩ := cancelDuring_node ht hi₁ hok kill hf
      by_cases hmem : f.nodeId ∈ (input n).done
      · obtain ⟨spec,_,hnode⟩ := hdone hmem
        rw [spared_of_finished hnode]
        simp [hmem]
      · exact iff_of_true (spared_of_cancelled (hleft hmem)) fun h => absurd h hmem
    · have hi₁ := hlaunch.dispatches.inv (hlaunch.blocks.inv hi₀)
      simp only [herr]
      intro f hf
      refine iff_of_false ?_ (by simp)
      rintro ⟨hstate,_⟩
      have hrun := hi₁.running_of_mem hf
      have hend : (g.cancelDuring v.template (input n) kill s₀).state = s₁ := by
        simp [GraphScheduler.cancelDuring,herr,toOutcome]
      rw [hend,hrun] at hstate
      simp at hstate

/-- The kill makes the calls of the first node fail in a way that can be repaired. -/
def killFirst : Kill := fun id =>
  if id = "scf" then some { message := "qe cancelled by user", repairable := true } else none

/-- A killed call that is not collected before the event is read is cancelled. -/
theorem cancel_kill_iff_pair :
    let s₁ := (soleEngine pair false).scheduler.launchState pair.template (constantEnv [])
      (GraphScheduler.enter (firstStart pair))
    s₁.futures.map (·.nodeId) = ["scf"] ∧ ∀ f ∈ s₁.futures,
      Spared s₁ ((soleEngine pair false).scheduler.cancelDuring pair.template { env := constantEnv [] }
        killFirst (GraphScheduler.enter (firstStart pair))).state f := by
  refine ⟨rfl,fun f hf => ?_⟩
  have hloop : (soleEngine pair false).scheduler.run pair.template (fun _ => { env := constantEnv [] })
      (firstStart pair) 0 = .loop (GraphScheduler.enter (firstStart pair)) := rfl
  have hiff := (cancel_kill_iff pair rfl hloop).2 rfl killFirst f hf
  exact hiff.mpr ⟨rfl,by simp⟩

/-- Calls succeed unless they are killed; the handler changes a parameter. -/
def mixingEnv : Env where
  tools := [("qe",fun _ _ => .ok [])]
  repairers := [("mixing",fun node _ =>
    { params := node.params.set "mixing_beta" (.num (3/10)), error := node.error.getD "", verdict := .ok true })]

/-- The killed call is collected in the iteration in which the event is set: the node is
repaired and queued again, and stays so in the paused run. -/
def KilledRepaired (useAsyncio : Bool) : Prop :=
  let g := (soleEngine pair useAsyncio).scheduler
  let s₀ := GraphScheduler.enter (firstStart pair)
  let s₁ := g.launchState pair.template mixingEnv s₀
  let s' := (g.cancelDuring pair.template { env := mixingEnv, done := ["scf"] } killFirst s₀).state
  s₁.futures.map (·.nodeId) = ["scf"] ∧ s'.run.state = .paused ∧
  (s'.run.nodes "scf").state = .ready ∧ (s'.run.nodes "scf").repairAttempts = 1 ∧
  (s'.run.nodes "scf").params.contains "mixing_beta" = true ∧ ∀ f ∈ s₁.futures, ¬ Spared s₁ s' f

/-- It happens in both modes. -/
theorem killed_call_repaired : KilledRepaired false ∧ KilledRepaired true := by
  have hkeep : ∀ s₁ s' : Sched, s₁.futures.map (·.nodeId) = ["scf"] →
      (s'.run.nodes "scf").state = .ready → ∀ f ∈ s₁.futures, ¬ Spared s₁ s' f := by
    rintro s₁ s' hids hstate f hf ⟨hspared,_⟩
    have hid : f.nodeId ∈ ["scf"] := hids ▸ List.mem_map_of_mem hf
    rw [List.mem_singleton.mp hid,hstate] at hspared
    simp at hspared
  constructor
  · exact ⟨rfl,rfl,rfl,rfl,rfl,hkeep _ _ rfl rfl⟩
  · exact ⟨rfl,rfl,rfl,rfl,rfl,hkeep _ _ rfl rfl⟩

end Spared

end DftForge.Runtime
