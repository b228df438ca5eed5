import DftForge.Agent.StepLoop
import DftForge.Library.Lookups

/-! # The card of a turn

While a turn runs, the page shows its steps in a card that follows the events of the stream. When a session is
loaded, the card is drawn from the chain that was stored with the answer.
-/
namespace DftForge.Web
open DftForge.Library DftForge.Python DftForge.Runtime DftForge.Agent

inductive RowStatus where
  | pending
  | running
  | ended (status : StepStatus)
  deriving DecidableEq

/-- A row of the card as it is shown. -/
structure ChainRow where
  description : String
  tool : String
  status : RowStatus := .pending
  summary : Text := []
  nodes : List (String × String) := []

/-- `addChainStep`. -/
def newRow (tool : Option String) (description : String) : ChainRow where
  description := if description = "" then tool.getD "" else description
  tool := tool.getD ""

def setNode (node state : String) : List (String × String) → List (String × String)
  | [] => [(node,state)]
  | e :: rest => if e.1 = node then (node,state) :: rest else e :: setNode node state rest

/-- `setNodeRow`. -/
def ChainRow.setNodeRow (row : ChainRow) (node state : String) : ChainRow :=
  { row with nodes := setNode node state row.nodes }

/-- An empty summary leaves the one that is shown. -/
def ChainRow.report (row : ChainRow) (status : RowStatus) (summary : Text) : ChainRow :=
  { row with status, summary := if summary = [] then row.summary else summary }

/-- The rows of `makeChainCard`. -/
def placeholderRows : List ChainRow :=
  [(newRow (some "planner") "识别计算目标与输入").report .running [],newRow (some "context") "检查结构、材料与约束",
    newRow (some "plan") "生成可执行步骤"]

/-- The events that the rows depend on. -/
inductive CardEvent where
  | plan (steps : List PlanStep)
  | step (index : ℕ) (status : RowStatus) (summary : Text)
  | node (step : ℕ) (node state : String)

def pendingRows (steps : List PlanStep) : List ChainRow := steps.map fun step => newRow step.toolId step.description

/-- `handleEvent`, as far as the rows go. -/
def handleEvent (rows : List ChainRow) : CardEvent → List ChainRow
  | .plan steps => pendingRows steps
  | .step index status summary => rows.modify index fun row => row.report status summary
  | .node step node state => rows.modify step fun row => row.setNodeRow node state

/-- An entry of the chain that is stored. -/
structure ChainStep where
  entry : ChainEntry
  summary : Text
  nodes : List (String × String)

def chainRow (step : ChainStep) : ChainRow := step.nodes.foldl (fun row e => row.setNodeRow e.1 e.2)
  ((newRow step.entry.tool step.entry.description).report (.ended step.entry.status) step.summary)

/-- `renderChain`. It does not take the rows of `makeChainCard` away. -/
def renderChain (chain : List ChainStep) : List ChainRow := placeholderRows ++ chain.map chainRow

/-- `_dedupe_node_log`. -/
def dedupeNodeLog (log : List (String × String)) : List (String × String) :=
  let latest := log.foldl (fun latest e => setNode e.1 e.2 latest) []
  let order := log.foldl (fun order e => if e.1 ∈ order then order else order ++ [e.1]) []
  order.filterMap fun node => (latest.lookup node).map (node,·)

/-- `_summary`: the first line of the first text that the step adds to the reply. -/
def summaryOf (parts : List Text) : Text :=
  match parts.filter (· ≠ []) with
  | [] => []
  | part :: _ => ((splitLines part).headD []).take 120

def chainEntry (step : PlanStep) : Exit → ChainEntry
  | .noTool => ⟨none,step.description,.error⟩
  | .help => ⟨some "help",step.description,.done⟩
  | .rejected => ⟨step.tool,step.description,.error⟩
  | .aborted => ⟨step.tool,step.description,.error⟩
  | .called _ result => ⟨step.tool,step.description,result.status (step.tool.getD "")⟩

theorem record_chain (log : Log) (step : PlanStep) (exit : Exit) :
    (log.record step exit).chain = log.chain ++ [chainEntry step exit] := by
  cases exit <;> rfl

section Turn
/-! `nodeLog` are the node events of a graph run, and `parts` the texts that a called step adds to the reply. -/
variable (h : Host) (nodeLog : Met → List (String × String)) (parts : Met → List Text)

def nodeEvents (m : Met) : Exit → List (String × String)
  | .called _ _ => if m.step.tool = some "graph.run" then nodeLog m else []
  | _ => []

/-- The summary that the event of the step tells. -/
def eventSummary (m : Met) : Exit → Text
  | .noTool => "未匹配到可执行工具".toList
  | .help => "能力说明".toList
  | .rejected => "无意义掺杂已拦截".toList
  | .aborted => "无结构可链接（前置构建失败）".toList
  | .called _ _ => summaryOf (parts m)

/-- The summary that is stored. -/
def chainSummary (m : Met) : Exit → Text
  | .noTool =>
    summaryOf ["未匹配到可执行工具，请尝试：导入结构、构建输入、提交任务、查看状态、查询账本、环境诊断。".toList]
  | .help => "能力说明".toList
  | .rejected => "无意义掺杂已拦截".toList
  | .aborted => summaryOf [("步骤失败: " ++ m.step.description ++ " — 前置结构构建未成功，无法链接结构。").toList]
  | .called _ _ => summaryOf (parts m)

def endEvents (m : Met) (exit : Exit) : List CardEvent :=
  (nodeEvents nodeLog m exit).map (fun e => .node m.index e.1 e.2) ++
    [.step m.index (.ended (chainEntry m.step exit).status) (eventSummary parts m exit)]

/-- The events of a step; an exception leaves the loop before its end is told. -/
def stepEvents (m : Met) : List CardEvent :=
  .step m.index .running [] :: match execStep h m.world m.state m.step with
    | none => []
    | some exit => endEvents nodeLog parts m exit

def turnEvents (index : ℕ) (s : SessionState) (steps : List (PlanStep × World)) : List CardEvent :=
  (met h index s steps).flatMap (stepEvents h nodeLog parts)

def chainStep (m : Met) : Option ChainStep :=
  (execStep h m.world m.state m.step).map fun exit =>
    ⟨chainEntry m.step exit,chainSummary parts m exit,dedupeNodeLog (nodeEvents nodeLog m exit)⟩

/-- The chain of `run_session`. -/
def turnChain (index : ℕ) (s : SessionState) (steps : List (PlanStep × World)) : List ChainStep :=
  (met h index s steps).filterMap (chainStep h nodeLog parts)

end Turn

section Nodes
variable {l log : List (String × String)}

def setNodes (l log : List (String × String)) : List (String × String) := log.foldl (fun l e => setNode e.1 e.2 l) l

theorem keys_setNode (node state : String) : (setNode node state l).map Prod.fst =
    if node ∈ l.map Prod.fst then l.map Prod.fst else l.map Prod.fst ++ [node] := by
  induction l with
  | nil => simp [setNode]
  | cons e l ih =>
    by_cases he : e.1 = node
    · simp [setNode,he]
    · rw [setNode,if_neg he,List.map_cons,ih,List.map_cons]
      simp only [List.mem_cons,Ne.symm he,false_or]
      split_ifs <;> rfl

theorem nodup_setNode (node state : String) (hnodup : (l.map Prod.fst).Nodup) :
    ((setNode node state l).map Prod.fst).Nodup := by
  rw [keys_setNode]
  split_ifs with hmem
  · exact hnodup
  · rw [List.nodup_append]
    exact ⟨hnodup,List.nodup_singleton node,fun a ha b hb heq => hmem (by rw [← List.mem_singleton.mp hb,← heq]; exact ha)⟩

theorem setNode_of_not_mem {node state : String} (hnot : node ∉ l.map Prod.fst) : setNode node state l = l ++ [(node,state)] := by
  induction l with
  | nil => rfl
  | cons e l ih =>
    rw [List.map_cons,List.mem_cons,not_or] at hnot
    rw [setNode,if_neg fun heq => hnot.1 heq.symm,ih hnot.2,List.cons_append]

theorem nodup_setNodes (hnodup : (l.map Prod.fst).Nodup) : ((setNodes l log).map Prod.fst).Nodup := by
  induction log generalizing l with
  | nil => exact hnodup
  | cons e log ih => exact ih (nodup_setNode e.1 e.2 hnodup)

theorem keys_setNodes : (setNodes l log).map Prod.fst =
    log.foldl (fun order e => if e.1 ∈ order then order else order ++ [e.1]) (l.map Prod.fst) := by
  induction log generalizing l with
  | nil => rfl
  | cons e log ih =>
    rw [List.foldl_cons,← keys_setNode e.1 e.2]
    exact ih

theorem dedupeNodeLog_eq (log : List (String × String)) : dedupeNodeLog log = setNodes [] log := by
  have hnodup : ((setNodes [] log).map Prod.fst).Nodup := nodup_setNodes List.nodup_nil
  have hkeys : log.foldl (fun order e => if e.1 ∈ order then order else order ++ [e.1]) [] =
      (setNodes [] log).map Prod.fst := by
    rw [keys_setNodes]
    rfl
  unfold dedupeNodeLog
  rw [hkeys,List.filterMap_map]
  refine (List.filterMap_congr fun e he => ?_).trans List.filterMap_some
  rw [Function.comp_apply]
  change ((setNodes [] log).lookup e.1).map (e.1,·) = some e
  rw [lookup_of_mem hnodup he,Option.map_some]

/-- What is shown of a log without repetitions is the log. -/
theorem setNodes_of_nodup (hnodup : ((l ++ log).map Prod.fst).Nodup) : setNodes l log = l ++ log := by
  induction log generalizing l with
  | nil => rw [List.append_nil]; rfl
  | cons e log ih =>
    have hsplit : l ++ e :: log = l ++ [e] ++ log := by simp
    rw [hsplit] at hnodup ⊢
    have hnot : e.1 ∉ l.map Prod.fst := by
      rw [List.map_append,List.map_append] at hnodup
      have hdisjoint := (List.nodup_append.mp (List.nodup_append.mp hnodup).1).2.2
      exact fun hmem => hdisjoint _ hmem e.1 (List.mem_singleton.mpr rfl) rfl
    rw [← ih hnodup,← setNode_of_not_mem hnot]
    rfl

theorem setNodes_dedupe (log : List (String × String)) : setNodes [] (dedupeNodeLog log) = setNodes [] log := by
  rw [dedupeNodeLog_eq]
  exact setNodes_of_nodup (nodup_setNodes List.nodup_nil)

theorem foldl_setNodeRow (row : ChainRow) (log : List (String × String)) :
    log.foldl (fun row e => row.setNodeRow e.1 e.2) row = { row with nodes := setNodes row.nodes log } := by
  induction log generalizing row with
  | nil => rfl
  | cons e log ih => exact ih (row.setNodeRow e.1 e.2)

end Nodes

section Rows
variable {before after : List ChainRow} {row : ChainRow}

theorem modify_row (f : ChainRow → ChainRow) {index : ℕ} (hindex : before.length = index) :
    (before ++ row :: after).modify index f = before ++ f row :: after := by
  subst hindex
  induction before with
  | nil => rfl
  | cons r before ih => rw [List.cons_append,List.length_cons,List.modify_succ_cons,ih,List.cons_append]

theorem foldl_nodes {index : ℕ} (hindex : before.length = index) (log : List (String × String)) :
    (log.map fun e => CardEvent.node index e.1 e.2).foldl handleEvent (before ++ row :: after) =
      before ++ { row with nodes := setNodes row.nodes log } :: after := by
  induction log generalizing row with
  | nil => rfl
  | cons e log ih =>
    rw [List.map_cons,List.foldl_cons,handleEvent,modify_row _ hindex]
    exact ih

end Rows

section Live
variable {h : Host} {nodeLog : Met → List (String × String)} {parts : Met → List Text}

/-- The row of a step that has ended, as the events leave it. -/
def liveRow (nodeLog : Met → List (String × String)) (parts : Met → List Text) (m : Met) (exit : Exit) : ChainRow where
  description := (newRow m.step.toolId m.step.description).description
  tool := (newRow m.step.toolId m.step.description).tool
  status := .ended (chainEntry m.step exit).status
  summary := eventSummary parts m exit
  nodes := setNodes [] (nodeEvents nodeLog m exit)

def runningRow (step : PlanStep) : ChainRow := (newRow step.toolId step.description).report .running []

/-- The step of the chain that an ended step leaves. -/
def storedStep (nodeLog : Met → List (String × String)) (parts : Met → List Text) (m : Met) (exit : Exit) : ChainStep where
  entry := chainEntry m.step exit
  summary := chainSummary parts m exit
  nodes := dedupeNodeLog (nodeEvents nodeLog m exit)

theorem chainStep_eq {m : Met} {exit : Exit} (hexit : execStep h m.world m.state m.step = some exit) :
    chainStep h nodeLog parts m = some (storedStep nodeLog parts m exit) := by
  unfold chainStep
  rw [hexit]
  rfl

theorem foldl_endEvents {before after : List ChainRow} {m : Met} (hindex : before.length = m.index) (exit : Exit) :
    (endEvents nodeLog parts m exit).foldl handleEvent (before ++ runningRow m.step :: after) =
      before ++ liveRow nodeLog parts m exit :: after := by
  rw [endEvents,List.foldl_append,foldl_nodes hindex,List.foldl_cons,handleEvent,modify_row _ hindex]
  have hrow : ChainRow.report { runningRow m.step with nodes := setNodes (runningRow m.step).nodes (nodeEvents nodeLog m exit) }
      (.ended (chainEntry m.step exit).status) (eventSummary parts m exit) = liveRow nodeLog parts m exit := by
    unfold ChainRow.report liveRow
    by_cases hempty : eventSummary parts m exit = []
    · rw [if_pos hempty,hempty]
      rfl
    · rw [if_neg hempty]
      rfl
  rw [hrow]
  rfl

theorem foldl_running {before after : List ChainRow} {step : PlanStep} {index : ℕ} (hindex : before.length = index) :
    handleEvent (before ++ newRow step.toolId step.description :: after) (.step index .running []) =
      before ++ runningRow step :: after := modify_row _ hindex

theorem stepEvents_eq {m : Met} {exit : Exit} (hexit : execStep h m.world m.state m.step = some exit) :
    stepEvents h nodeLog parts m = .step m.index .running [] :: endEvents nodeLog parts m exit := by
  unfold stepEvents
  rw [hexit]

theorem foldl_stepEvents {before after : List ChainRow} {index : ℕ} {s : SessionState} {step : PlanStep} {w : World}
    {exit : Exit} (hindex : before.length = index) (hexit : execStep h w s step = some exit) :
    (stepEvents h nodeLog parts ⟨index,s,step,w⟩).foldl handleEvent
        (before ++ newRow step.toolId step.description :: after) =
      before ++ [liveRow nodeLog parts ⟨index,s,step,w⟩ exit] ++ after := by
  rw [stepEvents_eq hexit,List.foldl_cons,foldl_running hindex,List.append_assoc,List.singleton_append]
  exact foldl_endEvents (m := ⟨index,s,step,w⟩) hindex exit

theorem met_cons {step : PlanStep} {w : World} {rest : List (PlanStep × World)} {index : ℕ} {s : SessionState} {exit : Exit}
    (hexit : execStep h w s step = some exit) :
    met h index s ((step,w) :: rest) = ⟨index,s,step,w⟩ :: met h (index + 1) (s.after h index step exit) rest := by
  rw [met,hexit]

theorem turnEvents_cons {step : PlanStep} {w : World} {rest : List (PlanStep × World)} {index : ℕ} {s : SessionState}
    {exit : Exit} (hexit : execStep h w s step = some exit) :
    turnEvents h nodeLog parts index s ((step,w) :: rest) =
      stepEvents h nodeLog parts ⟨index,s,step,w⟩ ++
        turnEvents h nodeLog parts (index + 1) (s.after h index step exit) rest := by
  rw [turnEvents,met_cons hexit,List.flatMap_cons]
  rfl

theorem turnChain_cons {step : PlanStep} {w : World} {rest : List (PlanStep × World)} {index : ℕ} {s : SessionState}
    {exit : Exit} (hexit : execStep h w s step = some exit) :
    turnChain h nodeLog parts index s ((step,w) :: rest) =
      storedStep nodeLog parts ⟨index,s,step,w⟩ exit ::
        turnChain h nodeLog parts (index + 1) (s.after h index step exit) rest := by
  rw [turnChain,met_cons hexit]
  exact List.filterMap_cons_some (chainStep_eq hexit)

theorem pendingRows_cons (step : PlanStep) (w : World) (rest : List (PlanStep × World)) :
    pendingRows (((step,w) :: rest).map Prod.fst) =
      newRow step.toolId step.description :: pendingRows (rest.map Prod.fst) := rfl

theorem length_concat_live {before : List ChainRow} {index : ℕ} (hindex : before.length = index) (row : ChainRow) :
    (before ++ [row]).length = index + 1 := by
  rw [List.length_append,List.length_singleton,hindex]

/-- A turn that is not left by an exception ends the rows one after another. -/
theorem foldl_turnEvents {steps : List (PlanStep × World)} {index : ℕ} {s : SessionState} {log log' : Log}
    (hrun : runLoop h index s log steps = some log') {before : List ChainRow} (hindex : before.length = index) :
    ∃ exits : List (Met × Exit), List.Forall₂ (fun m e => e.1 = m ∧ execStep h m.world m.state m.step = some e.2)
        (met h index s steps) exits ∧
      (turnEvents h nodeLog parts index s steps).foldl handleEvent (before ++ pendingRows (steps.map Prod.fst)) =
        before ++ exits.map (fun e => liveRow nodeLog parts e.1 e.2) := by
  induction steps generalizing index s log before with
  | nil => exact ⟨[],List.Forall₂.nil,rfl⟩
  | cons first rest ih =>
    obtain ⟨step,w⟩ := first
    unfold runLoop at hrun
    cases hexit : execStep h w s step with
    | none => rw [hexit] at hrun; cases hrun
    | some exit =>
      rw [hexit] at hrun
      obtain ⟨exits,hexits,hfold⟩ :=
        ih hrun (length_concat_live hindex (liveRow nodeLog parts ⟨index,s,step,w⟩ exit))
      refine ⟨(⟨index,s,step,w⟩,exit) :: exits,?_,?_⟩
      · rw [met_cons hexit]
        exact List.Forall₂.cons ⟨rfl,hexit⟩ hexits
      · rw [turnEvents_cons hexit,List.foldl_append,pendingRows_cons]
        rw [foldl_stepEvents hindex hexit,hfold,List.append_assoc]
        rfl

theorem chain_entries {steps : List (PlanStep × World)} {index : ℕ} {s : SessionState} {log log' : Log}
    (hrun : runLoop h index s log steps = some log') :
    log'.chain = log.chain ++ (turnChain h nodeLog parts index s steps).map ChainStep.entry := by
  induction steps generalizing index s log with
  | nil =>
    obtain rfl := Option.some.inj hrun
    exact (List.append_nil _).symm
  | cons first rest ih =>
    obtain ⟨step,w⟩ := first
    unfold runLoop at hrun
    cases hexit : execStep h w s step with
    | none => rw [hexit] at hrun; cases hrun
    | some exit =>
      rw [hexit] at hrun
      rw [ih hrun,record_chain,turnChain_cons hexit,List.map_cons,List.append_assoc]
      rfl

/-- The two rows show the same step, status and nodes, and for a step that is done the same summary. -/
structure Agrees (live stored : ChainRow) : Prop where
  description : live.description = stored.description
  tool : live.tool = stored.tool
  status : live.status = stored.status
  nodes : live.nodes = stored.nodes
  summary : stored.status = .ended .done → live.summary = stored.summary

theorem tool_shown {m : Met} {exit : Exit} (hexit : execStep h m.world m.state m.step = some exit) :
    (chainEntry m.step exit).tool.getD "" = m.step.toolId.getD "" := by
  have hshown : m.step.tool.getD "" = m.step.toolId.getD "" := by
    unfold PlanStep.tool
    cases m.step.toolId with
    | none => rfl
    | some id => by_cases hid : id = "" <;> simp [Option.filter,hid]
  rcases execStep_spec hexit with ⟨hnone,rfl⟩ | ⟨hhelp,rfl⟩ | ⟨toolId,_,_,⟨_,rfl⟩ | ⟨_,⟨_,rfl⟩ | ⟨_,_,rfl⟩⟩⟩
  · rw [← hshown,hnone]
    rfl
  · rw [← hshown,hhelp]
    rfl
  · exact hshown
  · exact hshown
  · exact hshown

theorem summary_stored {m : Met} {exit : Exit} (hdone : (chainEntry m.step exit).status = .done) :
    eventSummary parts m exit = chainSummary parts m exit := by
  cases exit with
  | noTool => cases hdone
  | aborted => cases hdone
  | _ => rfl

theorem newRow_congr {tool tool' : Option String} (htool : tool.getD "" = tool'.getD "") (description : String) :
    newRow tool description = newRow tool' description := by
  unfold newRow
  rw [htool]

theorem chainRow_eq {m : Met} {exit : Exit} (hexit : execStep h m.world m.state m.step = some exit) :
    chainRow ⟨chainEntry m.step exit,chainSummary parts m exit,dedupeNodeLog (nodeEvents nodeLog m exit)⟩ =
      { liveRow nodeLog parts m exit with summary := chainSummary parts m exit } := by
  have hdescription : (chainEntry m.step exit).description = m.step.description := by cases exit <;> rfl
  have hnodes := setNodes_dedupe (nodeEvents nodeLog m exit)
  unfold chainRow
  dsimp only
  rw [foldl_setNodeRow,hdescription,newRow_congr (tool_shown hexit)]
  unfold ChainRow.report liveRow
  have hrow : (newRow m.step.toolId m.step.description).nodes = [] := rfl
  have hsummary : (if chainSummary parts m exit = [] then (newRow m.step.toolId m.step.description).summary
      else chainSummary parts m exit) = chainSummary parts m exit := by
    split_ifs with hempty
    · rw [hempty]
      rfl
    · rfl
  simp only [hrow,hnodes,hsummary]

theorem filterMap_chainStep {ms : List Met} {exits : List (Met × Exit)}
    (hexits : List.Forall₂ (fun m e => e.1 = m ∧ execStep h m.world m.state m.step = some e.2) ms exits) :
    ms.filterMap (chainStep h nodeLog parts) = exits.map fun e => storedStep nodeLog parts e.1 e.2 := by
  induction hexits with
  | nil => rfl
  | cons hfirst _ ih =>
    obtain ⟨rfl,hexit⟩ := hfirst
    rw [List.filterMap_cons_some (chainStep_eq hexit),ih,List.map_cons]

theorem agrees_stored {m : Met} {exit : Exit} (hexit : execStep h m.world m.state m.step = some exit) :
    Agrees (liveRow nodeLog parts m exit) (chainRow (storedStep nodeLog parts m exit)) := by
  have hrow : chainRow (storedStep nodeLog parts m exit) =
      { liveRow nodeLog parts m exit with summary := chainSummary parts m exit } := chainRow_eq hexit
  rw [hrow]
  refine ⟨rfl,rfl,rfl,rfl,fun hdone => ?_⟩
  exact summary_stored (RowStatus.ended.inj hdone)

theorem forall₂_agrees {ms : List Met} {exits : List (Met × Exit)}
    (hexits : List.Forall₂ (fun m e => e.1 = m ∧ execStep h m.world m.state m.step = some e.2) ms exits) :
    List.Forall₂ Agrees (exits.map fun e => liveRow nodeLog parts e.1 e.2)
      ((exits.map fun e => storedStep nodeLog parts e.1 e.2).map chainRow) := by
  induction hexits with
  | nil => exact List.Forall₂.nil
  | cons hfirst _ ih =>
    obtain ⟨rfl,hexit⟩ := hfirst
    exact List.Forall₂.cons (agrees_stored hexit) ih

/-- A card that followed its turn to the end and the card drawn from what was stored show the same rows, but for the three
that the latter begins with. -/
theorem card_restored {steps : List (PlanStep × World)} {s : SessionState} {log : Log}
    (hrun : runLoop h 0 s {} steps = some log) :
    let live := (CardEvent.plan (steps.map Prod.fst) :: turnEvents h nodeLog parts 0 s steps).foldl handleEvent placeholderRows
    let chain := turnChain h nodeLog parts 0 s steps
    chain.map ChainStep.entry = log.chain ∧
      ∃ rows, renderChain chain = placeholderRows ++ rows ∧ List.Forall₂ Agrees live rows := by
  intro live chain
  have hentries : log.chain = chain.map ChainStep.entry := chain_entries hrun
  have hempty : ([] : List ChainRow).length = 0 := rfl
  obtain ⟨exits,hexits,hlive⟩ := foldl_turnEvents hrun hempty
  have hchain : chain = exits.map fun e => storedStep nodeLog parts e.1 e.2 := filterMap_chainStep hexits
  refine ⟨hentries.symm,chain.map chainRow,rfl,?_⟩
  have hrows : live = exits.map fun e => liveRow nodeLog parts e.1 e.2 := hlive
  rw [hrows,hchain]
  exact forall₂_agrees hexits

/-- A plan whose first step asks for help and whose second runs a graph that is not there. -/
def helpAndRun : List (PlanStep × World) :=
  [(⟨some "help",[],"Show help"⟩,quietWorld),(⟨some "graph.run",[("template_id",.str "t0_scf")],"Run"⟩,quietWorld)]

def freshState : SessionState where
  lastStructureSource := .null
  builtStructure := .null

theorem helpAndRun_restored :
    let nodeLog : Met → List (String × String) := fun _ => [("scf","running"),("scf","failed")]
    let parts : Met → List Text := fun _ => ["Run: 失败 - Tool not found".toList]
    let live := (CardEvent.plan (helpAndRun.map Prod.fst) ::
      turnEvents quietHost nodeLog parts 0 freshState helpAndRun).foldl handleEvent placeholderRows
    let chain := turnChain quietHost nodeLog parts 0 freshState helpAndRun
    ∃ log, runLoop quietHost 0 freshState {} helpAndRun = some log ∧ chain.map ChainStep.entry = log.chain ∧
      ∃ rows, renderChain chain = placeholderRows ++ rows ∧ List.Forall₂ Agrees live rows := by
  intro nodeLog parts live chain
  obtain ⟨log,hrun⟩ : ∃ log, runLoop quietHost 0 freshState {} helpAndRun = some log := ⟨_,rfl⟩
  exact ⟨log,hrun,card_restored hrun⟩

/-- How far a card is: steps that have ended show what is stored of them, at most one step runs, the others wait. -/
inductive Progress : List ChainRow → List ChainRow → List ChainRow → Prop
  | waiting (pending stored : List ChainRow) : Progress pending stored pending
  | running (row : ChainRow) (nodes : List (String × String)) (pending stored : List ChainRow) :
    Progress (row :: pending) stored ({ row with status := .running, nodes } :: pending)
  | ended {row live kept : ChainRow} {pending stored rows : List ChainRow} (hrow : Agrees live kept)
    (hrows : Progress pending stored rows) : Progress (row :: pending) (kept :: stored) (live :: rows)

theorem prefix_append_cases {α : Type} {l l₁ l₂ : List α} (hl : l <+: l₁ ++ l₂) : l <+: l₁ ∨ ∃ l', l = l₁ ++ l' ∧ l' <+: l₂ := by
  rcases List.prefix_or_prefix_of_prefix hl (List.prefix_append l₁ l₂) with hle | ⟨l',rfl⟩
  · exact .inl hle
  · exact .inr ⟨l',rfl,(List.prefix_append_right_inj l₁).mp hl⟩

theorem foldl_runningNodes {before after : List ChainRow} {m : Met} (hindex : before.length = m.index)
    (log : List (String × String)) :
    (log.map fun e => CardEvent.node m.index e.1 e.2).foldl handleEvent (before ++ runningRow m.step :: after) =
      before ++ { newRow m.step.toolId m.step.description with status := .running, nodes := setNodes [] log } :: after := by
  rw [foldl_nodes hindex]
  rfl

/-- Events of a step that do not end it leave its row running. -/
theorem foldl_unfinished {before after : List ChainRow} {m : Met} (hindex : before.length = m.index) {p : List CardEvent}
    {log : List (String × String)} (hp : p <+: log.map fun e => CardEvent.node m.index e.1 e.2) :
    ∃ nodes, p.foldl handleEvent (before ++ runningRow m.step :: after) =
      before ++ { newRow m.step.toolId m.step.description with status := .running, nodes } :: after := by
  obtain ⟨k,rfl⟩ : ∃ k, p = (log.map fun e => CardEvent.node m.index e.1 e.2).take k :=
    ⟨p.length,List.prefix_iff_eq_take.mp hp⟩
  rw [← List.map_take]
  exact ⟨_,foldl_runningNodes hindex _⟩

theorem progress_step {before after : List ChainRow} {m : Met} (hindex : before.length = m.index) {p : List CardEvent}
    (hp : p <+: stepEvents h nodeLog parts m) :
    p.foldl handleEvent (before ++ newRow m.step.toolId m.step.description :: after) =
        before ++ newRow m.step.toolId m.step.description :: after ∨
      (∃ nodes, p.foldl handleEvent (before ++ newRow m.step.toolId m.step.description :: after) =
        before ++ { newRow m.step.toolId m.step.description with status := .running, nodes } :: after) ∨
      ∃ exit, execStep h m.world m.state m.step = some exit ∧ p = stepEvents h nodeLog parts m := by
  unfold stepEvents at hp ⊢
  rcases List.prefix_cons_iff.mp hp with rfl | ⟨q,rfl,hq⟩
  · exact .inl rfl
  · rw [List.foldl_cons,foldl_running hindex]
    cases hexit : execStep h m.world m.state m.step with
    | none =>
      rw [hexit] at hq
      obtain rfl := List.prefix_nil.mp hq
      exact .inr (.inl ⟨[],rfl⟩)
    | some exit =>
      rw [hexit] at hq
      rcases List.prefix_concat_iff.mp hq with rfl | hq
      · exact .inr (.inr ⟨exit,rfl,rfl⟩)
      · exact .inr (.inl (foldl_unfinished hindex hq))

theorem foldl_prefix {steps : List (PlanStep × World)} {index : ℕ} {s : SessionState} {p : List CardEvent}
    (hp : p <+: turnEvents h nodeLog parts index s steps) {before : List ChainRow} (hindex : before.length = index) :
    ∃ rows, p.foldl handleEvent (before ++ pendingRows (steps.map Prod.fst)) = before ++ rows ∧
      Progress (pendingRows (steps.map Prod.fst)) ((turnChain h nodeLog parts index s steps).map chainRow) rows := by
  induction steps generalizing index s p before with
  | nil =>
    obtain rfl := List.prefix_nil.mp hp
    exact ⟨_,rfl,.waiting _ _⟩
  | cons first rest ih =>
    obtain ⟨step,w⟩ := first
    rw [pendingRows_cons]
    cases hexit : execStep h w s step with
    | none =>
      rw [turnEvents,met,hexit,List.flatMap_singleton] at hp
      rcases progress_step (m := ⟨index,s,step,w⟩) hindex hp with hwait | ⟨nodes,hrun⟩ | ⟨exit,hsome,_⟩
      · exact ⟨_,hwait,.waiting _ _⟩
      · exact ⟨_,hrun,.running _ nodes _ _⟩
      · rw [hexit] at hsome
        cases hsome
    | some exit =>
      rw [turnEvents_cons hexit] at hp
      have hended {q : List CardEvent} (hq : q <+: turnEvents h nodeLog parts (index + 1) (s.after h index step exit) rest)
          (hpq : p = stepEvents h nodeLog parts ⟨index,s,step,w⟩ ++ q) :
          ∃ rows, p.foldl handleEvent (before ++ newRow step.toolId step.description :: pendingRows (rest.map Prod.fst)) =
              before ++ rows ∧
            Progress (newRow step.toolId step.description :: pendingRows (rest.map Prod.fst))
              ((turnChain h nodeLog parts index s ((step,w) :: rest)).map chainRow) rows := by
        obtain ⟨rows,hfold,hprogress⟩ :=
          ih hq (length_concat_live hindex (liveRow nodeLog parts ⟨index,s,step,w⟩ exit))
        refine ⟨liveRow nodeLog parts ⟨index,s,step,w⟩ exit :: rows,?_,?_⟩
        · rw [hpq,List.foldl_append,foldl_stepEvents hindex hexit,hfold,List.append_assoc]
          rfl
        · rw [turnChain_cons hexit,List.map_cons]
          exact .ended (agrees_stored hexit) hprogress
      rcases prefix_append_cases hp with hfirst | ⟨q,hpq,hq⟩
      · rcases progress_step (m := ⟨index,s,step,w⟩) hindex hfirst with hwait | ⟨nodes,hrun⟩ | ⟨exit',_,hall⟩
        · exact ⟨_,hwait,.waiting _ _⟩
        · exact ⟨_,hrun,.running _ nodes _ _⟩
        · exact hended List.nil_prefix (hall.trans (List.append_nil _).symm)
      · exact hended hq hpq

/-- After any number of the events of a turn, also of one that an exception leaves, the card is in order. -/
theorem live_card_progress (h : Host) (nodeLog : Met → List (String × String)) (parts : Met → List Text)
    (steps : List (PlanStep × World)) (s : SessionState) (k : ℕ) :
    Progress (pendingRows (steps.map Prod.fst)) ((turnChain h nodeLog parts 0 s steps).map chainRow)
      ((CardEvent.plan (steps.map Prod.fst) :: (turnEvents h nodeLog parts 0 s steps).take k).foldl handleEvent
        placeholderRows) := by
  have hempty : ([] : List ChainRow).length = 0 := rfl
  obtain ⟨rows,hfold,hprogress⟩ := foldl_prefix (List.take_prefix k (turnEvents h nodeLog parts 0 s steps)) hempty
  have hrows : (CardEvent.plan (steps.map Prod.fst) :: (turnEvents h nodeLog parts 0 s steps).take k).foldl handleEvent
      placeholderRows = rows := hfold
  rw [hrows]
  exact hprogress

end Live

end DftForge.Web
