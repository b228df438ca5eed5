import DftForge.Runtime.Safety

/-! # The reference semantics of a run

What a run comes to, by recursion over the dependencies and without a schedule: a
node with a dependency that does not succeed is Blocked, any other node is executed
again and again until it is no longer requeued. Every execution computes this.
-/
namespace DftForge.Runtime
open Loop Relation

namespace GraphScheduler
variable (g : GraphScheduler) (t : GraphTemplate) (env : Env)

/-- One execution of a node after its dependencies are done, if its parameters resolve. -/
def attempt (run : GraphRun) (spec : NodeSpec) (node : NodeRun) : Option NodeRun :=
  match nodeParams t (run.setNode spec.id node) spec with
  | .error _ => none
  | .ok params =>
    let node := g.dispatched (run.setNode spec.id node) spec.id params
    some (finishedNode env spec node (executeTool env spec node (g.context run spec)))

/-- A requeued node has fewer repairs or retries left. -/
theorem remaining_lt_of_attempt {run : GraphRun} {spec : NodeSpec} {node node' : NodeRun}
    (h : g.attempt t env run spec node = some node') (hr : node'.state = .ready) :
    remaining spec node' node'.attempt < remaining spec node node.attempt := by
  unfold attempt at h
  cases hparams : nodeParams t (run.setNode spec.id node) spec with
  | error e => simp [hparams] at h
  | ok params =>
    simp only [hparams,Option.some.injEq] at h
    subst h
    set running := g.dispatched (run.setNode spec.id node) spec.id params with hrunning
    set result := executeTool env spec running (g.context run spec)
    have hlt : weight spec (finishedNode env spec running result) < weight spec running :=
      weight_finishedNode rfl result
    have hrem : weight spec running = 2 * remaining spec node node.attempt + 1 := by
      simp [hrunning,weight,dispatched,remaining]
    rw [hrem] at hlt
    simp only [weight,hr] at hlt
    omega

/-- Execute a node until it is no longer requeued. -/
def settle (run : GraphRun) (spec : NodeSpec) (node : NodeRun) : NodeRun :=
  match _hnode : g.attempt t env run spec node with
  | none => node
  | some node' => if _hready : node'.state = .ready then settle run spec node' else node'
termination_by remaining spec node node.attempt
decreasing_by exact g.remaining_lt_of_attempt t env _hnode _hready

/-- What follows an execution: another one, if the node was requeued. -/
def proceed (run : GraphRun) (spec : NodeSpec) (node : NodeRun) : NodeRun :=
  if node.state = .ready then g.settle t env run spec node else node

theorem settle_eq (run : GraphRun) (spec : NodeSpec) (node : NodeRun) :
    g.settle t env run spec node =
      (g.attempt t env run spec node).elim node (g.proceed t env run spec) := by
  rw [settle]
  split
  · next h => rw [h]; rfl
  · next node' h =>
    rw [h]
    simp only [Option.elim,proceed]
    split_ifs <;> rfl

/-- What becomes of a node once its dependencies are done. -/
def verdict (run : GraphRun) (spec : NodeSpec) (node : NodeRun) : NodeRun :=
  if node.state.Terminal then node
  else if ∀ d ∈ spec.dependsOn, (run.nodes d).state = .succeeded then g.settle t env run spec node
  else blockedNode node

/-- The verdict on a node from the verdicts `nodes` on its dependencies. -/
def rule (run : GraphRun) (id : NodeId) (nodes : NodeId → NodeRun) : NodeRun :=
  match t.node id with
  | none => run.nodes id
  | some spec => g.verdict t env { run with nodes } spec (run.nodes id)

/-- The evaluator: the rule applied by recursion over the dependencies. -/
def evaluate (run : GraphRun) : NodeId → NodeRun :=
  Dag.eval (g.rule t env run) { nodeId := "" } t.ids.length

/-- The run the evaluator ends with. -/
def reference (run : GraphRun) : GraphRun := { run with nodes := g.evaluate t env run }

end GraphScheduler

variable {g : GraphScheduler} {t : GraphTemplate} {env : Env} {stale : Set NodeId} {s s' : Sched}

section Evaluator

/-- The runs agree on everything an execution of the node reads outside its record. -/
structure SameContext (spec : NodeSpec) (run run' : GraphRun) : Prop where
  runId : run.runId = run'.runId
  inputs : run.inputs = run'.inputs
  deps : ∀ d ∈ spec.dependsOn, run.nodes d = run'.nodes d

theorem not_mem_dependsOn (ht : t.WellFormed) {spec : NodeSpec} (hspec : spec ∈ t.nodes) :
    spec.id ∉ spec.dependsOn := by
  intro h
  have hacc := ht.acyclic spec.id (GraphTemplate.mem_ids_of_mem hspec)
  refine Dag.acc_irrefl hacc ?_
  rw [Dag.Edge,ht.adjacency_eq hspec]
  exact h

theorem attempt_congr (ht : t.WellFormed) {spec : NodeSpec} (hspec : spec ∈ t.nodes)
    {run run' : GraphRun} (h : SameContext spec run run') (node : NodeRun) :
    g.attempt t env run spec node = g.attempt t env run' spec node := by
  have hparams : nodeParams t (run.setNode spec.id node) spec =
      nodeParams t (run'.setNode spec.id node) spec := by
    refine nodeParams_congr ht hspec h.inputs (by simp) fun d hd => ?_
    have hne : d ≠ spec.id := fun heq => not_mem_dependsOn ht hspec (heq ▸ hd)
    simpa [hne] using h.deps d hd
  have hctx : g.context run spec = g.context run' spec := by
    simp only [GraphScheduler.context,GraphScheduler.ctxBase,h.runId]
    congr 1
    exact List.map_congr_left fun d hd => by rw [h.deps d hd]
  have hdispatched : ∀ params, g.dispatched (run.setNode spec.id node) spec.id params =
      g.dispatched (run'.setNode spec.id node) spec.id params := fun params => by
    simp [GraphScheduler.dispatched,GraphScheduler.ctxBase,h.runId]
  unfold GraphScheduler.attempt
  rw [hparams]
  simp only [hctx,hdispatched]

theorem settle_congr (ht : t.WellFormed) {spec : NodeSpec} (hspec : spec ∈ t.nodes)
    {run run' : GraphRun} (h : SameContext spec run run') (node : NodeRun) :
    g.settle t env run spec node = g.settle t env run' spec node := by
  induction hn : remaining spec node node.attempt using Nat.strong_induction_on generalizing node with
  | _ k ih =>
    subst hn
    rw [g.settle_eq,g.settle_eq,← attempt_congr (g := g) ht hspec h node]
    cases hnode : g.attempt t env run spec node with
    | none => rfl
    | some node' =>
      simp only [Option.elim,GraphScheduler.proceed]
      split_ifs with hr
      · exact ih _ (g.remaining_lt_of_attempt t env hnode hr) node' rfl
      · rfl

theorem verdict_congr (ht : t.WellFormed) {spec : NodeSpec} (hspec : spec ∈ t.nodes)
    {run run' : GraphRun} (h : SameContext spec run run') (node : NodeRun) :
    g.verdict t env run spec node = g.verdict t env run' spec node := by
  have hdeps : (∀ d ∈ spec.dependsOn, (run.nodes d).state = .succeeded) ↔
      ∀ d ∈ spec.dependsOn, (run'.nodes d).state = .succeeded :=
    forall₂_congr fun d hd => by rw [h.deps d hd]
  simp only [GraphScheduler.verdict,hdeps,settle_congr ht hspec h]

theorem evaluate_eq (ht : t.WellFormed) (run : GraphRun) {spec : NodeSpec} (hspec : spec ∈ t.nodes) :
    g.evaluate t env run spec.id =
      g.verdict t env (g.reference t env run) spec (run.nodes spec.id) := by
  have hreads : Dag.Reads t.adjacency (g.rule t env run) := by
    intro id f f' hff
    unfold GraphScheduler.rule
    cases hnode : t.node id with
    | none => rfl
    | some spec' =>
      have hspec' : spec' ∈ t.nodes := List.mem_of_find?_eq_some hnode
      have hid : spec'.id = id := by simpa using List.find?_some hnode
      have hsame : SameContext spec' { run with nodes := f } { run with nodes := f' } :=
        ⟨rfl,rfl,fun d hd => hff d (by rw [← hid,ht.adjacency_eq hspec']; exact hd)⟩
      exact verdict_congr ht hspec' hsame _
  have hsolves := Dag.eval_solves { nodeId := "" } hreads ht.adjacency_mem ht.acyclic spec.id
    (GraphTemplate.mem_ids_of_mem hspec)
  rw [GraphScheduler.evaluate,hsolves,GraphScheduler.rule]
  simp only [ht.node_eq hspec]
  rfl

/-- A dispatched node is on its way to what settling it gives. -/
theorem settle_eq_proceed {run : GraphRun} {spec : NodeSpec} {node : NodeRun} {params : Dict}
    (h : nodeParams t (run.setNode spec.id node) spec = .ok params) :
    g.settle t env run spec node =
      let running := g.dispatched (run.setNode spec.id node) spec.id params
      g.proceed t env run spec
        (finishedNode env spec running (executeTool env spec running (g.context run spec))) :=
  by rw [g.settle_eq,GraphScheduler.attempt,h]; rfl

end Evaluator

end DftForge.Runtime
