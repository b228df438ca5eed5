import DftForge.Library.Lookups
import DftForge.Runtime.Engine
import DftForge.Runtime.JsonColumns
import DftForge.Runtime.Lifecycle
import DftForge.Runtime.Refinement

/-! # The answer of `graph.run`

`_graph_run` creates a run, has it executed and answers with the nodes and with the values that the
template declares as its outputs.
-/
namespace DftForge.Tools
open DftForge.Library DftForge.Runtime

section Answers

def nodeAnswer (node : NodeRun) : Json := .obj [("state",.str node.state.value),("error",optionalText node.error),
  ("outputs",if node.state = .succeeded then .obj node.outputs else .null)]

variable (t : GraphTemplate) (run : GraphRun)

def nodeAnswers : Dict := t.nodes.map fun spec => (spec.id,nodeAnswer (run.nodes spec.id))

/-- A declared output: a value that refers to no node is answered as it is. -/
def contractValue : Json → Json
  | .str ref => match parseOutputRef ref.toList with
    | none => .str ref
    | some (id, key) =>
      if id ∈ t.ids ∧ (run.nodes id).state = .succeeded then ((run.nodes id).outputs.get? key).getD .null else .null
  | ref => ref

/-- `_resolve_template_outputs`. -/
def resolveTemplateOutputs : Dict := t.outputs.map fun output => (output.1,contractValue t run output.2)

/-- What `_graph_run` answers after the run. -/
def graphRunAnswer : Dict := [("run_id",.str run.runId),("state",.str run.state.value),
  ("nodes",.obj (nodeAnswers t run)),("outputs",.obj (resolveTemplateOutputs t run))]

end Answers

/-- `run_template` up to the scheduler. -/
def runTemplate (e : GraphEngine) (st : Store) (templateId : String) (runId : RunId) (inputs : Dict) : Opened :=
  match e.create st templateId runId inputs with
  | .error err => .raised err st []
  | .ok (run, st) => e.start st run.runId [st]

/-- The run that the reference semantics ends with. -/
def referenceRun (g : GraphScheduler) (t : GraphTemplate) (env : Env) (run : GraphRun) : GraphRun :=
  { g.reference t env run with
    state := determineRunStatus (t.nodes.map fun spec => (g.evaluate t env run spec.id).state) }

section Congruence
variable {t : GraphTemplate} {run run' : GraphRun}

theorem get?_resolveTemplateOutputs (key : String) :
    (resolveTemplateOutputs t run).get? key = (t.outputs.get? key).map (contractValue t run) :=
  lookup_map_snd (contractValue t run) t.outputs key

theorem contractValue_congr (h : ∀ id ∈ t.ids, run.nodes id = run'.nodes id) (ref : Json) :
    contractValue t run ref = contractValue t run' ref := by
  cases ref with
  | str ref =>
    rw [contractValue,contractValue]
    cases parseOutputRef ref.toList with
    | none => rfl
    | some target =>
      obtain ⟨id,key⟩ := target
      by_cases hid : id ∈ t.ids
      · simp only [h id hid]
      · simp only [hid,false_and,if_false]
  | _ => rfl

theorem graphRunAnswer_congr (hid : run.runId = run'.runId) (hstate : run.state = run'.state)
    (h : ∀ id ∈ t.ids, run.nodes id = run'.nodes id) : graphRunAnswer t run = graphRunAnswer t run' := by
  have hnodes : nodeAnswers t run = nodeAnswers t run' :=
    List.map_congr_left fun spec hspec => by rw [h spec.id (GraphTemplate.mem_ids_of_mem hspec)]
  have houtputs : resolveTemplateOutputs t run = resolveTemplateOutputs t run' :=
    List.map_congr_left fun output _ => by rw [contractValue_congr h]
  rw [graphRunAnswer,graphRunAnswer,hid,hstate,hnodes,houtputs]

end Congruence

section Limits
variable {g g' : GraphScheduler} {t : GraphTemplate} {env : Env}

/-- The reference semantics does not look at the limit or the mode of the scheduler. -/
theorem attempt_eq_of_baseDir (hbase : g.baseDir = g'.baseDir) (run : GraphRun) (spec : NodeSpec) (node : NodeRun) :
    g.attempt t env run spec node = g'.attempt t env run spec node := by
  have hctx : g.ctxBase = g'.ctxBase := by
    funext run
    rw [GraphScheduler.ctxBase,GraphScheduler.ctxBase,hbase]
  unfold GraphScheduler.attempt
  simp only [GraphScheduler.dispatched,GraphScheduler.context,hctx]

theorem settle_eq_of_baseDir (hbase : g.baseDir = g'.baseDir) (run : GraphRun) (spec : NodeSpec) (node : NodeRun) :
    g.settle t env run spec node = g'.settle t env run spec node := by
  induction hn : remaining spec node node.attempt using Nat.strong_induction_on generalizing node with
  | _ k ih =>
    subst hn
    rw [g.settle_eq,g'.settle_eq,← attempt_eq_of_baseDir hbase]
    cases hnode : g.attempt t env run spec node with
    | none => rfl
    | some node' =>
      simp only [Option.elim,GraphScheduler.proceed]
      split_ifs with hr
      · exact ih _ (g.remaining_lt_of_attempt t env hnode hr) node' rfl
      · rfl

theorem evaluate_eq_of_baseDir (hbase : g.baseDir = g'.baseDir) (run : GraphRun) :
    g.evaluate t env run = g'.evaluate t env run := by
  have hrule : g.rule t env run = g'.rule t env run := by
    funext id nodes
    unfold GraphScheduler.rule GraphScheduler.verdict
    simp only [settle_eq_of_baseDir hbase]
  rw [GraphScheduler.evaluate,GraphScheduler.evaluate,hrule]

theorem binds_iff_of_baseDir (hbase : g.baseDir = g'.baseDir) (run : GraphRun) :
    g.Binds t env run ↔ g'.Binds t env run := by
  unfold GraphScheduler.Binds GraphScheduler.reference
  rw [evaluate_eq_of_baseDir hbase]

theorem referenceRun_eq_of_baseDir (hbase : g.baseDir = g'.baseDir) (run : GraphRun) :
    referenceRun g t env run = referenceRun g' t env run := by
  simp only [referenceRun,GraphScheduler.reference,evaluate_eq_of_baseDir hbase]

end Limits

section Runs
variable {e : GraphEngine} {v : ValidTemplate} {st : Store} {templateId : String} {runId : RunId} {inputs : Dict}
  {run : GraphRun} {env : Env} {input : ℕ → Tick}

/-- A run as it enters the scheduler after `create`. -/
def entered (st : Store) (run : GraphRun) : Sched := { run, store := st.saveRun run, saves := [st.saveRun run] }

/-- A run that was just created is loaded as it was made. -/
theorem runTemplate_enters (hv : e.getTemplate templateId = .ok v) (hcreate : createRun v.template runId inputs = .ok run)
    (hnew : ∀ id, st.nodeRuns (runId,id) = none) : runTemplate e st templateId runId inputs = .enters v (entered st run) := by
  have hregistered : e.getTemplate v.template.templateId = .ok v := by
    unfold GraphEngine.getTemplate at hv ⊢
    cases hlookup : e.templates.lookup templateId with
    | none => rw [hlookup] at hv; cases hv
    | some v' =>
      rw [hlookup] at hv
      cases hv
      rw [e.registered templateId v hlookup]
  have hrun := createRun_ok hcreate
  have hrow : (st.saveRun run).graphRuns runId = some ⟨v.template.templateId,.created,run.inputs⟩ := by
    have hself := Store.saveRun_graphRuns_self st run
    rw [hrun] at hself ⊢
    exact hself
  have hload : (st.saveRun run).loadRun runId v.template = some run := by
    have hnodes : (st.saveRun run).loadNode runId v.template = fun id => { nodeId := id } :=
      funext fun id => loadNode_none (hnew id)
    rw [Store.loadRun,hrow,Option.map_some,hnodes,hrun]
  have htemplate : (st.saveRun run).templateIdFor runId = some v.template.templateId := by
    rw [Store.templateIdFor,hrow]
    rfl
  have hcreated : e.create st templateId runId inputs = .ok (run,st.saveRun run) := by
    rw [GraphEngine.create,hv]
    simp only [bind,Except.bind,hcreate,pure,Except.pure]
  have hid : run.runId = runId := by rw [hrun]
  have hopen : ¬ run.state.Terminal := by
    rw [hrun]
    exact (by decide : ¬ RunState.created.Terminal)
  rw [runTemplate,hcreated]
  simp only [GraphEngine.start,GraphEngine.load,hid,htemplate,hregistered,bind,Except.bind,hload,pure,Except.pure,if_neg hopen]
  rfl

/-- Whatever the order of completions, the limit and the mode, a run ends as the reference run. -/
theorem runTemplate_reference (hv : e.getTemplate templateId = .ok v)
    (hcreate : createRun v.template runId inputs = .ok run) (hnew : ∀ id, st.nodeRuns (runId,id) = none)
    (henv : ∀ n, (input n).env = env) (hc : ∀ n, (input n).cancelled = false)
    (hfair : Fair e.scheduler v.template input (entered st run))
    (hbind : (GraphScheduler.new 1 e.baseDir false).Binds v.template env run) :
    ∃ s n s', runTemplate e st templateId runId inputs = .enters v s ∧
      e.scheduler.run v.template input s n = .returned s' ∧
      let reference := referenceRun (.new 1 e.baseDir false) v.template env run
      s'.run.runId = reference.runId ∧ s'.run.state = reference.state ∧
        ∀ id ∈ v.template.ids, s'.run.nodes id = reference.nodes id := by
  have ht := v.wellFormed
  have hbase : e.scheduler.baseDir = (GraphScheduler.new 1 e.baseDir false).baseDir := rfl
  have hidle : Idle v.template (entered st run) := by
    obtain ⟨_,hrunning,hrepaired,hsupported⟩ := createRun_idle hcreate st
    exact ⟨rfl,hrunning,hrepaired,hsupported⟩
  have hbind' : e.scheduler.Binds v.template env run := (binds_iff_of_baseDir hbase run).mpr hbind
  have htracks : Preserved e.scheduler v.template ∅ (· = env) (Tracks e.scheduler v.template env run) :=
    tracks_preserved ht run
  have hresolving : Resolving e.scheduler v.template input (entered st run) := fun n s' hn spec hspec hready =>
    (htracks.loop ht henv hidle.inv (tracks_enter ht hidle) hn).2.resolves ht hbind' hspec hready
  obtain ⟨n,s₃,hn,hover,hfinal⟩ := hidle.returns ht hc hfair hresolving htracks henv (tracks_enter ht hidle)
  have hnodes : ∀ spec ∈ v.template.nodes, s₃.run.nodes spec.id = e.scheduler.evaluate v.template env run spec.id :=
    fun spec hspec => hfinal.terminal spec hspec (hover.2.2 spec hspec)
  refine ⟨entered st run,n,conclude v.template s₃,runTemplate_enters hv hcreate hnew,hn,?_⟩
  rw [← referenceRun_eq_of_baseDir hbase]
  refine ⟨hfinal.same.1,?_,fun id hid => ?_⟩
  · exact congrArg determineRunStatus (List.map_congr_left fun spec hspec => by rw [hnodes spec hspec])
  · obtain ⟨spec,hspec,rfl⟩ := GraphTemplate.mem_ids.mp hid
    exact hnodes spec hspec

/-- `graph.run` answers as if the nodes were executed one by one in the order of the reference semantics. -/
theorem graph_run_answers (hv : e.getTemplate templateId = .ok v) (hcreate : createRun v.template runId inputs = .ok run)
    (hnew : ∀ id, st.nodeRuns (runId,id) = none) (henv : ∀ n, (input n).env = env)
    (hc : ∀ n, (input n).cancelled = false) (hfair : Fair e.scheduler v.template input (entered st run))
    (hbind : (GraphScheduler.new 1 e.baseDir false).Binds v.template env run) :
    ∃ s n s', runTemplate e st templateId runId inputs = .enters v s ∧
      e.scheduler.run v.template input s n = .returned s' ∧
      graphRunAnswer v.template s'.run =
        graphRunAnswer v.template (referenceRun (.new 1 e.baseDir false) v.template env run) := by
  obtain ⟨s,n,s',hs,hn,hid,hstate,hnodes⟩ := runTemplate_reference hv hcreate hnew henv hc hfair hbind
  exact ⟨s,n,s',hs,hn,graphRunAnswer_congr hid hstate hnodes⟩

theorem pair_run_answers : ∃ s n s', runTemplate (soleEngine pair true) {} pair.template.templateId "run_1" [] = .enters pair s ∧
    (soleEngine pair true).scheduler.run pair.template (fun _ => { env := constantEnv [], done := ["bands","scf"] }) s n =
      .returned s' ∧
    graphRunAnswer pair.template s'.run =
      graphRunAnswer pair.template (referenceRun (.new 1 "/work" false) pair.template (constantEnv []) (freshRun pair.template)) := by
  have hfair : Fair (soleEngine pair true).scheduler pair.template
      (fun _ => { env := constantEnv [], done := ["bands","scf"] }) (entered {} (freshRun pair.template)) :=
    fair_of_done pair.wellFormed rfl fun _ => by decide
  have hv : (soleEngine pair true).getTemplate pair.template.templateId = .ok pair := by
    simp [GraphEngine.getTemplate,soleEngine]
  have hcreate : createRun pair.template "run_1" [] = .ok (freshRun pair.template) := rfl
  refine graph_run_answers hv hcreate (fun _ => rfl) (fun _ => rfl) (fun _ => rfl) hfair fun spec hspec _ => ?_
  have hparams : spec.params = [] := by
    rcases List.mem_cons.mp hspec with rfl | hspec
    · rfl
    · rw [List.mem_singleton.mp hspec]
  exact ⟨[],by rw [hparams]; rfl⟩

end Runs

end DftForge.Tools
