import DftForge.Runtime.CancelKill

/-! # What a repair handler costs a node

A failure that is handed to a repair handler is settled by its answer alone: when the
handler declines or crashes, the node fails, whatever attempts it has left. The plain
retry is reached only by failures that no handler sees. So the attempt budget is used
up before a node fails exactly if no handler refuses a node with attempts left.
-/
namespace DftForge.Runtime
open Loop Relation

variable {g : GraphScheduler} {t : GraphTemplate} {env : Env} {stale : Set NodeId} {s s' : Sched}
variable {spec : NodeSpec} {node : NodeRun} {result : ToolResult}

section Refused

/-- The record as a repair handler sees it. -/
def handedNode (node : NodeRun) (e : ToolError) : NodeRun :=
  { withError node e with
    state := .repairing
    repairAttempts := node.repairAttempts + 1 }

/-- A repair handler declines the failure, or crashes on it, while attempts are left. -/
def Refused (env : Env) (spec : NodeSpec) (node : NodeRun) (result : ToolResult) : Prop :=
  (node.attempt : ℤ) < spec.maxAttempts ∧ ∃ f repairer, result = .error f ∧
    usedRepairer env spec node f.toError = some repairer ∧
    (repairer (handedNode node f.toError) f.toError).verdict ≠ .ok true

theorem repairedNode_state (repairer : RepairHandler) (node : NodeRun) (e : ToolError) :
    (repairedNode repairer node e).state =
      if (repairer (handedNode node e) e).verdict = .ok true then .ready else .failed := by
  simp only [repairedNode,← handedNode.eq_def]
  cases (repairer (handedNode node e) e).verdict with
  | error crash => simp
  | ok answer => cases answer <;> simp

theorem Refused.failed (h : Refused env spec node result) :
    (finishedNode env spec node result).state = .failed := by
  obtain ⟨-,f,repairer,rfl,hused,hverdict⟩ := h
  simp [finishedNode,failedNode,hused,repairedNode_state,hverdict]

theorem finishedNode_failed (h : (finishedNode env spec node result).state = .failed) :
    spec.maxAttempts ≤ node.attempt ∨ Refused env spec node result := by
  by_cases hleft : spec.maxAttempts ≤ (node.attempt : ℤ)
  · exact .inl hleft
  · have hlt : (node.attempt : ℤ) < spec.maxAttempts := by omega
    cases result with
    | ok outputs => simp [finishedNode] at h
    | error f =>
      refine .inr ⟨hlt,f,?_⟩
      cases hused : usedRepairer env spec node f.toError with
      | none => simp [finishedNode,failedNode,hused,hlt] at h
      | some repairer =>
        refine ⟨repairer,rfl,rfl,fun hok => ?_⟩
        simp [finishedNode,failedNode,hused,repairedNode_state,hok] at h

/-- The same node with `repair = ""`. -/
def NodeSpec.unrepaired (spec : NodeSpec) : NodeSpec := { spec with repair := some "" }

/-- Without a repair handler every failure with attempts left is retried. -/
theorem unrepaired_ready : (finishedNode env spec.unrepaired node result).state = .ready ↔
    (∃ f, result = .error f) ∧ (node.attempt : ℤ) < spec.maxAttempts := by
  cases result with
  | ok outputs => simp [finishedNode]
  | error f =>
    have hnone : usedRepairer env spec.unrepaired node f.toError = none := by
      simp [usedRepairer,repairerFor,NodeSpec.unrepaired]
    have hbudget : spec.unrepaired.maxAttempts = spec.maxAttempts := rfl
    simp [finishedNode,failedNode,hnone,hbudget]

/-- A failure that is not refused is retried as it would be without the handler. -/
theorem ready_of_not_refused (h : ¬ Refused env spec node result)
    (hready : (finishedNode env spec.unrepaired node result).state = .ready) :
    (finishedNode env spec node result).state = .ready := by
  obtain ⟨⟨f,rfl⟩,hlt⟩ := unrepaired_ready.mp hready
  rcases finishedNode_state env spec node (.error f) with ⟨-,outputs,hok⟩ | ⟨hstate | hstate,-⟩
  · cases hok
  · exact hstate
  · rcases finishedNode_failed hstate with hle | hrefused
    · omega
    · exact absurd hrefused h

end Refused

section Dispatches

/-- How often the node was handed to its tool. -/
def Sched.dispatches (s : Sched) (id : NodeId) : ℕ := s.calls.countP (·.nodeId = id)

theorem finishedNode_attempt : (finishedNode env spec node result).attempt = node.attempt := by
  cases result with
  | ok outputs => rfl
  | error f =>
    simp only [finishedNode,failedNode]
    cases usedRepairer env spec node f.toError with
    | none => rfl
    | some repairer =>
      simp only [repairedNode]
      split <;> rfl

theorem attempt_setNode {run : GraphRun} {id : NodeId} (h : node.attempt = (run.nodes id).attempt)
    (other : NodeId) : ((run.setNode id node).nodes other).attempt = (run.nodes other).attempt := by
  by_cases heq : other = id
  · subst heq; simpa using h
  · simp [heq]

/-- The attempt counter counts the dispatches. -/
def Counted (run : GraphRun) (s : Sched) : Prop :=
  ∀ id, (s.run.nodes id).attempt = (run.nodes id).attempt + s.dispatches id

theorem Counted.of_setNode {run : GraphRun} (h : Counted run s) {id : NodeId}
    (hrun : s'.run = s.run.setNode id node) (hattempt : node.attempt = (s.run.nodes id).attempt)
    (hcalls : s'.calls = s.calls) : Counted run s' := by
  intro other
  rw [hrun,attempt_setNode hattempt,h other,Sched.dispatches,Sched.dispatches,hcalls]

theorem counted_stable (run : GraphRun) (E : Env → Prop) : Stable g t stale E (Counted run) where
  block _ hstep h := by
    obtain ⟨spec,_,_,rfl⟩ := hstep
    exact h.of_setNode rfl rfl rfl
  dispatch := by
    rintro env s s' - - ⟨spec,_,params,_,_,_,rfl⟩ h id
    have hid := h id
    by_cases heq : id = spec.id
    · subst heq
      simp [Sched.dispatches,GraphScheduler.launched,Sched.setNode,Sched.saveNodeRun,
        GraphScheduler.dispatched] at hid ⊢
      omega
    · have hne : spec.id ≠ id := fun h => heq h.symm
      simpa [Sched.dispatches,GraphScheduler.launched,Sched.setNode,Sched.saveNodeRun,heq,hne] using hid
  finish := by
    rintro env s s' - - ⟨spec,_,result,_,_,rfl⟩ h
    exact h.of_setNode (Sched.settled_run _ _ _ _) finishedNode_attempt (Sched.settled_calls _ _ _ _)
  cancel hstep h := by
    obtain ⟨spec,_,_,_,rfl⟩ := hstep
    exact h.of_setNode rfl rfl rfl
  save _ h := h

end Dispatches

section Runs

/-- In this iteration a call is seen finished whose failure a repair handler refuses. -/
def GraphScheduler.Refuses (g : GraphScheduler) (t : GraphTemplate) (i : Tick) (s : Sched) : Prop :=
  i.cancelled = false ∧ ∃ s₁, g.launch t i.env s = .ok s₁ ∧ ∃ spec ∈ t.nodes, ∃ f ∈ s₁.futures,
    f.nodeId = spec.id ∧ spec.id ∈ i.done ∧ Refused i.env spec (s₁.run.nodes spec.id) f.result

/-- A node that failed since the scheduler was entered in `s` has used up its attempts. -/
def Exhausted (t : GraphTemplate) (s s' : Sched) : Prop :=
  ∀ spec ∈ t.nodes, (s'.run.nodes spec.id).state = .failed →
    (s.run.nodes spec.id).state = .failed ∨ spec.maxAttempts ≤ (s'.run.nodes spec.id).attempt

theorem Exhausted.of_nodes {s₀ : Sched} (h : Exhausted t s₀ s) (hnodes : ∀ spec ∈ t.nodes,
    s'.run.nodes spec.id = s.run.nodes spec.id ∨ (s'.run.nodes spec.id).state ≠ .failed) :
    Exhausted t s₀ s' := by
  intro spec hspec hfailed
  rcases hnodes spec hspec with heq | hne
  · rw [heq] at hfailed ⊢
    exact h spec hspec hfailed
  · exact absurd hfailed hne

/-- Neither the block pass nor a dispatch makes a node fail. -/
theorem Exhausted.launch {s₀ s₁ s₂ : Sched} (h : Exhausted t s₀ s) (hlaunch : Launch g t env s s₁ s₂) :
    Exhausted t s₀ s₂ := by
  have hset : ∀ {a b : Sched} {id : NodeId} {node : NodeRun}, b.run = a.run.setNode id node →
      node.state ≠ .failed → Exhausted t s₀ a → Exhausted t s₀ b := by
    intro a b id node hrun hne ha
    refine ha.of_nodes fun spec _ => ?_
    by_cases heq : spec.id = id
    · subst heq
      exact .inr (by simpa [hrun] using hne)
    · exact .inl (by simp [hrun,heq])
  have hblock : Exhausted t s₀ s₁ := by
    refine chain_invariant (P := Exhausted t s₀) ?_ hlaunch.blocks h
    rintro a b ⟨spec,_,_,rfl⟩ ha
    exact hset rfl (by simp [blockedNode]) ha
  refine chain_invariant (P := Exhausted t s₀) ?_ hlaunch.dispatches hblock
  rintro a b ⟨spec,_,params,_,_,_,rfl⟩ ha
  exact hset rfl (by simp [GraphScheduler.dispatched]) ha

theorem launch_of_ok (ht : t.WellFormed) (hi : Inv g t stale s) {s₁ : Sched}
    (h : g.launch t env s = .ok s₁) : ∃ s', Launch g t env s s' s₁ := by
  rcases launch_spec env ht hi with ⟨s',s₂,hok,hlaunch,_⟩ | ⟨_,_,_,_,herr,_⟩
  · rw [h] at hok
    cases hok
    exact ⟨s',hlaunch⟩
  · rw [h] at herr
    cases herr

/-- The state after an iteration whose dispatches went through. -/
theorem tick_seen (ht : t.WellFormed) {i : Tick} (hc : i.cancelled = false) {s₁ : Sched}
    (hi : Inv g t stale s₁) (hlaunch : g.launch t i.env s = .ok s₁) :
    (∀ id, id ∉ s₁.futures.map (·.nodeId) →
      (g.tick t i s).state.run.nodes id = s₁.run.nodes id) ∧
    ∀ spec ∈ t.nodes, ∀ f ∈ s₁.futures, f.nodeId = spec.id →
      (g.tick t i s).state.run.nodes spec.id =
        if spec.id ∈ i.done then finishedNode i.env spec (s₁.run.nodes spec.id) f.result
        else s₁.run.nodes spec.id := by
  obtain ⟨s₂,_,hout,hin,hends⟩ := harvest_seen (i := i) ht hi
  have hrun : (g.tick t i s).state.run.nodes = s₂.run.nodes := by
    rw [tick_eq_harvest hc,hlaunch]
    simp only [toOutcome]
    rcases hends with h | ⟨h,-⟩ <;> rw [h] <;> rfl
  rw [hrun]
  refine ⟨hout,fun spec hspec f hf hid => ?_⟩
  split_ifs with hdone
  · exact ((hin spec hspec f hf hid).collected hdone).2
  · exact ((hin spec hspec f hf hid).left hdone).2

/-- An iteration that refuses no failure lets only exhausted nodes fail. -/
theorem Exhausted.tick (ht : t.WellFormed) {s₀ : Sched} (hi : Inv g t stale s) (h : Exhausted t s₀ s)
    {i : Tick} (hnot : ¬ g.Refuses t i s) : Exhausted t s₀ (g.tick t i s).state := by
  cases hc : i.cancelled with
  | true =>
    obtain ⟨s₁,hcancel,_,_,hnodes⟩ := tick_cancelled (g := g) hi hc
    rw [hcancel]
    refine h.of_nodes fun spec _ => ?_
    have hnode : (paused s₁).run.nodes spec.id = s₁.run.nodes spec.id := rfl
    rw [Outcome.state_returned,hnode,hnodes]
    split_ifs
    · exact .inr (by simp [cancelledNode])
    · exact .inl rfl
  | false =>
    rcases launch_spec i.env ht hi with ⟨_,s₁,hok,hlaunch,_⟩ | ⟨_,s₁,_,_,herr,hlaunch,_⟩
    · have hi₁ := hlaunch.dispatches.inv (hlaunch.blocks.inv hi)
      obtain ⟨hout,hin⟩ := tick_seen ht hc hi₁ hok
      have h₁ := h.launch hlaunch
      intro spec hspec hfailed
      by_cases hflight : spec.id ∈ s₁.futures.map (·.nodeId)
      · obtain ⟨f,hf,hid⟩ := List.mem_map.mp hflight
        have hnode := hin spec hspec f hf hid
        split_ifs at hnode with hdone
        · rw [hnode] at hfailed ⊢
          rw [finishedNode_attempt]
          rcases finishedNode_failed hfailed with hle | hrefused
          · exact .inr hle
          · exact absurd ⟨hc,s₁,hok,spec,hspec,f,hf,hid,hdone,hrefused⟩ hnot
        · rw [hnode] at hfailed ⊢
          exact h₁ spec hspec hfailed
      · rw [hout _ hflight] at hfailed ⊢
        exact h₁ spec hspec hfailed
    · have hend : (g.tick t i s).state = s₁ := by
        rw [tick_eq_harvest hc,herr]
        rfl
      rw [hend]
      exact h.launch hlaunch

end Runs

section Calls
variable {e : GraphEngine} {v : ValidTemplate} {st : Store} {runId : RunId} {input : ℕ → Tick}
variable {entry : GraphEngine.EntryPoint}

/-- Whoever fails in this call was dispatched as often as `max_attempts` says, dispatches
of earlier calls included. -/
def KeepsAttempts (g : GraphScheduler) (t : GraphTemplate) (input : ℕ → Tick) (s : Sched) : Prop :=
  ∀ n, ∀ spec ∈ t.nodes, ((g.run t input s n).state.run.nodes spec.id).state = .failed →
    (s.run.nodes spec.id).state = .failed ∨ spec.maxAttempts ≤
      (s.run.nodes spec.id).attempt + (g.run t input s n).state.dispatches spec.id

/-- Every failure that would be retried with `repair = ""` is retried. -/
def KeepsRetries (g : GraphScheduler) (t : GraphTemplate) (input : ℕ → Tick) (s : Sched) : Prop :=
  ∀ n s₀ s₁, g.run t input s n = .loop s₀ → (input n).cancelled = false →
    g.launch t (input n).env s₀ = .ok s₁ → ∀ spec ∈ t.nodes, ∀ f ∈ s₁.futures, f.nodeId = spec.id →
      spec.id ∈ (input n).done →
      (finishedNode (input n).env spec.unrepaired (s₁.run.nodes spec.id) f.result).state = .ready →
      ((g.run t input s (n + 1)).state.run.nodes spec.id).state = .ready

/-- No iteration of the run refuses a failure. -/
def NeverRefuses (g : GraphScheduler) (t : GraphTemplate) (input : ℕ → Tick) (s : Sched) : Prop :=
  ∀ n s₀, g.run t input s n = .loop s₀ → ¬ g.Refuses t (input n) s₀

theorem attempt_eq (input : ℕ → Tick) (hfut : s.futures = []) (hcalls : s.calls = []) (ht : t.WellFormed) (n : ℕ)
    (id : NodeId) : ((g.run t input s n).state.run.nodes id).attempt =
      (s.run.nodes id).attempt + (g.run t input s n).state.dispatches id := by
  have hstart : Counted s.run s := fun id => by simp [Sched.dispatches,hcalls]
  exact (counted_stable (g := g) s.run fun _ => True).run ht input (fun _ => trivial) (enter_inv hfut)
    hstart n id

theorem exhausted_of_neverRefuses (hfut : s.futures = []) (ht : t.WellFormed)
    (h : NeverRefuses g t input s) (n : ℕ) : Exhausted t s (g.run t input s n).state := by
  have hstart : Exhausted t s (GraphScheduler.enter s) := fun spec _ hfailed => .inl hfailed
  refine exec_state_invariant hstart ?_ n
  intro m s₀ hm h₀
  exact h₀.tick ht (loop_inv ht (enter_inv hfut) hm) (h m s₀ hm)

/-- A refused failure leaves the node failed at an attempt below the budget. -/
theorem refused_failed (hfut : s.futures = []) (ht : t.WellFormed) {n : ℕ} {s₀ : Sched}
    (hn : g.run t input s n = .loop s₀) (h : g.Refuses t (input n) s₀) :
    ∃ s₁, (input n).cancelled = false ∧ g.launch t (input n).env s₀ = .ok s₁ ∧
      ∃ spec ∈ t.nodes, ∃ f ∈ s₁.futures, f.nodeId = spec.id ∧ spec.id ∈ (input n).done ∧
        Refused (input n).env spec (s₁.run.nodes spec.id) f.result ∧
        (s.run.nodes spec.id).state ≠ .failed ∧
        ((g.run t input s (n + 1)).state.run.nodes spec.id).state = .failed ∧
        ((g.run t input s (n + 1)).state.run.nodes spec.id).attempt < spec.maxAttempts := by
  obtain ⟨hc,s₁,hok,spec,hspec,f,hf,hid,hdone,hrefused⟩ := h
  have hi := loop_inv ht (enter_inv hfut) hn
  obtain ⟨s',hlaunch⟩ := launch_of_ok ht hi hok
  have hi₁ := hlaunch.dispatches.inv (hlaunch.blocks.inv hi)
  have hafter : (g.run t input s (n + 1)).state.run.nodes spec.id =
      finishedNode (input n).env spec (s₁.run.nodes spec.id) f.result := by
    rw [GraphScheduler.run,exec_succ hn,(tick_seen ht hc hi₁ hok).2 spec hspec f hf hid,if_pos hdone]
  -- a node that had failed before would not be running now
  have hfresh : (s.run.nodes spec.id).state ≠ .failed := by
    intro hfailed
    have hfinal : Stable g t (staleNodes t s) (fun _ => True) fun s' =>
        Final spec.id (s.run.nodes spec.id) s'.run := final_stable _ _ _
    have hstart : Final spec.id (s.run.nodes spec.id) s.run := ⟨rfl,by rw [hfailed]; decide⟩
    have hloop := hfinal.run ht input (fun _ => trivial) (enter_inv hfut) hstart n
    rw [hn] at hloop
    have hstill := (hfinal.steps trivial hlaunch.steps hi hloop).1
    have hrun := hi₁.running_of_mem hf
    rw [hid,hstill,hfailed] at hrun
    cases hrun
  refine ⟨s₁,hc,hok,spec,hspec,f,hf,hid,hdone,hrefused,hfresh,?_,?_⟩
  · rw [hafter]
    exact hrefused.failed
  · rw [hafter,finishedNode_attempt]
    exact hrefused.1

theorem keepsAttempts_iff (hfut : s.futures = []) (hcalls : s.calls = []) (ht : t.WellFormed) :
    KeepsAttempts g t input s ↔ NeverRefuses g t input s := by
  constructor
  · intro hkeeps n s₀ hn hrefuses
    obtain ⟨s₁,_,_,spec,hspec,_,_,_,_,_,hfresh,hfailed,hlt⟩ := refused_failed hfut ht hn hrefuses
    have hattempt := attempt_eq (g := g) input hfut hcalls ht (n + 1) spec.id
    rcases hkeeps (n + 1) spec hspec hfailed with hold | hle
    · exact hfresh hold
    · omega
  · intro hnever n spec hspec hfailed
    have hattempt := attempt_eq (g := g) input hfut hcalls ht n spec.id
    refine (exhausted_of_neverRefuses hfut ht hnever n spec hspec hfailed).imp_right fun hle => ?_
    omega

theorem keepsRetries_iff (hfut : s.futures = []) (ht : t.WellFormed) :
    KeepsRetries g t input s ↔ NeverRefuses g t input s := by
  constructor
  · intro hkeeps n s₀ hn hrefuses
    obtain ⟨s₁,hc,hok,spec,hspec,f,hf,hid,hdone,hrefused,_,hfailed,_⟩ := refused_failed hfut ht hn hrefuses
    obtain ⟨hlt,failure,_,hresult,_⟩ := hrefused
    have hready := hkeeps n s₀ s₁ hn hc hok spec hspec f hf hid hdone
      (unrepaired_ready.mpr ⟨⟨failure,hresult⟩,hlt⟩)
    rw [hfailed] at hready
    cases hready
  · intro hnever n s₀ s₁ hn hc hok spec hspec f hf hid hdone hready
    obtain ⟨s',hlaunch⟩ := launch_of_ok ht (loop_inv ht (enter_inv hfut) hn) hok
    have hi₁ := hlaunch.dispatches.inv (hlaunch.blocks.inv (loop_inv ht (enter_inv hfut) hn))
    rw [GraphScheduler.run,exec_succ hn,(tick_seen ht hc hi₁ hok).2 spec hspec f hf hid,if_pos hdone]
    exact ready_of_not_refused
      (fun hrefused => hnever n s₀ hn ⟨hc,s₁,hok,spec,hspec,f,hf,hid,hdone,hrefused⟩) hready

/-- In every call of the engine: the nodes that fail have used up their attempts, and no
retry is lost to a repair handler, exactly if no handler declines or crashes on a failure
of a node with attempts left. -/
theorem repair_costs_nothing_iff (hst : Reachable e st) (henter : e.call st runId entry = .enters v s)
    (input : ℕ → Tick) :
    (KeepsAttempts e.scheduler v.template input s ↔ NeverRefuses e.scheduler v.template input s) ∧
    (KeepsRetries e.scheduler v.template input s ↔ NeverRefuses e.scheduler v.template input s) := by
  obtain ⟨hfut,hcalls,_⟩ := call_enters hst.good henter
  exact ⟨keepsAttempts_iff hfut hcalls v.wellFormed,keepsRetries_iff hfut v.wellFormed⟩

/-- One node with three attempts. -/
def persistentSpec (repair : Option String) : NodeSpec :=
  { id := "scf", tool := "qe", maxAttempts := 3, repair }

def persistent : ValidTemplate := ⟨{ templateId := "scf", nodes := [persistentSpec none] },none,rfl⟩

def persistentPlain : ValidTemplate := ⟨{ templateId := "scf", nodes := [persistentSpec (some "")] },none,rfl⟩

/-- Every call fails in a repairable way, and the handler answers with this verdict. -/
def refusingEnv (verdict : Except String Bool) : Env where
  tools := [("qe",fun _ _ =>
    .error (.toolError { message := "not converged", category := "execution", repairable := true }))]
  repairers := [("qe_param_bump",fun node _ => ⟨node.params,"not converged",verdict⟩)]

def refusingInput (verdict : Except String Bool) : ℕ → Tick :=
  fun _ => { env := refusingEnv verdict, done := ["scf"] }

theorem repair_costs_nothing_disabled : KeepsAttempts (soleEngine persistentPlain false).scheduler
    persistentPlain.template (refusingInput (.ok false)) (firstStart persistentPlain) := by
  refine (repair_costs_nothing_iff (createdStore_reachable false) (createdStore_start false) _).1.mpr ?_
  rintro n s₀ - ⟨-,s₁,-,spec,hspec,f,-,-,-,-,failure,repairer,-,hused,-⟩
  obtain rfl : spec = persistentSpec (some "") := List.mem_singleton.mp hspec
  simp [usedRepairer,repairerFor,persistentSpec] at hused

theorem refused_first : ∀ verdict ∈ [Except.ok false,Except.error "KeyError"],
    ¬ KeepsAttempts (soleEngine persistent false).scheduler persistent.template (refusingInput verdict)
      (firstStart persistent) := by
  intro verdict hverdict hkeeps
  have hfailed : ∀ verdict ∈ [Except.ok false,Except.error "KeyError"],
      let s := ((soleEngine persistent false).scheduler.run persistent.template (refusingInput verdict)
        (firstStart persistent) 1).state
      (s.run.nodes "scf").state = .failed ∧ s.dispatches "scf" = 1 := by decide +kernel
  obtain ⟨hstate,hcount⟩ := hfailed verdict hverdict
  rcases hkeeps 1 (persistentSpec none) (List.mem_singleton.mpr rfl) hstate with hold | hle
  · exact absurd hold (by decide +kernel)
  · have hfirst : ((firstStart persistent).run.nodes "scf").attempt = 0 := by decide +kernel
    simp only [persistentSpec] at hle
    rw [hcount,hfirst] at hle
    exact absurd hle (by decide)

/-- A handler that declines, or crashes, makes the node fail after its first dispatch. -/
theorem refused_without_retry :
    (soleEngine persistent false).call (createdStore persistent) "run_1" .start =
      .enters persistent (firstStart persistent) ∧
    ¬ KeepsAttempts (soleEngine persistent false).scheduler persistent.template
      (refusingInput (.ok false)) (firstStart persistent) ∧
    ¬ KeepsAttempts (soleEngine persistent false).scheduler persistent.template
      (refusingInput (.error "KeyError")) (firstStart persistent) :=
  ⟨createdStore_start false,refused_first _ (by simp),refused_first _ (by simp)⟩

end Calls

end DftForge.Runtime
