import DftForge.Library.JsonText
import DftForge.Runtime.Store
import Mathlib.Data.List.AList

/-! # The columns of the SQLite store

The tables hold texts: the value of a state, the JSON of a record, and a time. What `load_run`
reads from them is what the store of records holds, and `list_runs` answers by the times.
-/
namespace DftForge.Runtime
open Library

section Values

mutual
def Json.textValue : Json → JsonText.Value ℚ
  | .null => .null
  | .bool b => .bool b
  | .num q => .num q
  | .str s => .str s.toList
  | .arr items => .arr (itemValues items)
  | .obj fields => .obj (fieldValues fields)

def itemValues : List Json → List (JsonText.Value ℚ)
  | [] => []
  | v :: vs => v.textValue :: itemValues vs

def fieldValues : Dict → List (List Char × JsonText.Value ℚ)
  | [] => []
  | (k, v) :: fs => (k.toList,v.textValue) :: fieldValues fs
end

mutual
def Json.ofValue : JsonText.Value ℚ → Json
  | .null => .null
  | .bool b => .bool b
  | .num q => .num q
  | .str s => .str (String.ofList s)
  | .arr items => .arr (valueItems items)
  | .obj fields => .obj (valueFields fields)

def valueItems : List (JsonText.Value ℚ) → List Json
  | [] => []
  | v :: vs => Json.ofValue v :: valueItems vs

def valueFields : List (List Char × JsonText.Value ℚ) → Dict
  | [] => []
  | (k, v) :: fs => (String.ofList k,Json.ofValue v) :: valueFields fs
end

mutual
theorem ofValue_textValue : (v : Json) → Json.ofValue v.textValue = v
  | .null => rfl
  | .bool _ => rfl
  | .num _ => rfl
  | .str s => by rw [Json.textValue,Json.ofValue,String.ofList_toList]
  | .arr items => by rw [Json.textValue,Json.ofValue,valueItems_itemValues items]
  | .obj fields => by rw [Json.textValue,Json.ofValue,valueFields_fieldValues fields]

theorem valueItems_itemValues : (items : List Json) → valueItems (itemValues items) = items
  | [] => rfl
  | v :: vs => by rw [itemValues,valueItems,ofValue_textValue v,valueItems_itemValues vs]

theorem valueFields_fieldValues : (fields : Dict) → valueFields (fieldValues fields) = fields
  | [] => rfl
  | (k, v) :: fs => by
    rw [fieldValues,valueFields,ofValue_textValue v,valueFields_fieldValues fs,String.ofList_toList]
end

end Values

section Texts
variable (nums : JsonText.Numerals ℚ)

/-- `json.dumps`. -/
def dumps (v : Json) : String := String.ofList (JsonText.write nums {} 0 v.textValue)

/-- `json.loads`. -/
def loads (text : String) : Option Json := (JsonText.loads nums text.toList).map Json.ofValue

/-- Data that JSON has: every number has a text, and no object has a key twice. -/
def IsJson (v : Json) : Prop := JsonText.WellFormed nums v.textValue

theorem loads_dumps {v : Json} (hv : IsJson nums v) : loads nums (dumps nums v) = some v := by
  rw [loads,dumps,String.toList_ofList,JsonText.loads_write nums {} hv,Option.map_some,ofValue_textValue]

end Texts

section Fields

def asDict : Json → Option Dict
  | .obj d => some d
  | _ => none

def asNumber : Json → Option ℚ
  | .num q => some q
  | _ => none

def asCount (v : Json) : Option ℕ := (asNumber v).bind fun q => if q.den = 1 then some q.num.toNat else none

/-- `d.get(key)`; nothing for a value that the field does not hold. -/
def asText : Option Json → Option (Option String)
  | none => some none
  | some .null => some none
  | some (.str s) => some (some s)
  | some _ => none

def optionalText : Option String → Json
  | none => .null
  | some s => .str s

theorem asCount_natCast (n : ℕ) : asCount (.num n) = some n := by
  simp [asCount,asNumber]

theorem asText_optionalText (s : Option String) : asText (some (optionalText s)) = some s := by
  cases s <;> rfl

end Fields

def RunState.value : RunState → String
  | .created => "created"
  | .validated => "validated"
  | .running => "running"
  | .paused => "paused"
  | .succeeded => "succeeded"
  | .failed => "failed"
  | .cancelled => "cancelled"
  | .partiallySucceeded => "partially_succeeded"

def runStates : List RunState :=
  [.created,.validated,.running,.paused,.succeeded,.failed,.cancelled,.partiallySucceeded]

def nodeStates : List NodeState :=
  [.pending,.ready,.running,.repairing,.succeeded,.failed,.blocked,.skipped,.cancelled]

/-- `RunState(status)`. -/
def RunState.ofValue (status : String) : Option RunState := runStates.find? fun s => s.value = status

/-- `NodeState(status)`. -/
def NodeState.ofValue (status : String) : Option NodeState := nodeStates.find? fun s => s.value = status

@[simp] theorem RunState.ofValue_value (s : RunState) : ofValue s.value = some s := by
  cases s <;> decide

@[simp] theorem NodeState.ofValue_value (s : NodeState) : ofValue s.value = some s := by
  cases s <;> decide

/-- A run with its clock. -/
structure ClockedRun where
  run : GraphRun
  createdAt : ℚ
  updatedAt : ℚ

/-- A row of `graph_runs`. -/
structure RunColumns where
  templateId : String
  status : String
  data : String
  createdAt : String
  updatedAt : String

/-- A row of `node_runs`. -/
structure NodeColumns where
  status : String
  data : String
  updatedAt : String

/-- The tables of the database, by their primary keys. -/
structure TextStore where
  graphRuns : AList fun _ : RunId => RunColumns := ∅
  nodeRuns : AList fun _ : RunId × NodeId => NodeColumns := ∅

section Columns
variable (nums : JsonText.Numerals ℚ)

/-- `str(time)`. -/
def timeText (time : ℚ) : String := String.ofList (nums.text time)

def runData (c : ClockedRun) : Dict :=
  [("inputs",.obj c.run.inputs),("created_at",.num c.createdAt),("updated_at",.num c.updatedAt)]

def runColumns (c : ClockedRun) : RunColumns where
  templateId := c.run.templateId
  status := c.run.state.value
  data := dumps nums (.obj (runData c))
  createdAt := timeText nums c.createdAt
  updatedAt := timeText nums c.updatedAt

def nodeData (now : ℚ) (node : NodeRun) : Dict :=
  [("attempt",.num node.attempt),("repair_attempts",.num node.repairAttempts),("params",.obj node.params),
    ("outputs",.obj node.outputs),("error",optionalText node.error),("job_id",optionalText node.jobId),
    ("workdir",optionalText node.workdir),("updated_at",.num now)]

def nodeColumns (now : ℚ) (node : NodeRun) : NodeColumns where
  status := node.state.value
  data := dumps nums (.obj (nodeData now node))
  updatedAt := timeText nums now

/-- The run of a row, without its nodes; nothing where the source raises. -/
def RunColumns.load (columns : RunColumns) (runId : RunId) (now : ℚ) : Option ClockedRun := do
  let payload ← (← loads nums columns.data) |> asDict
  let state ← RunState.ofValue columns.status
  let inputs ← asDict ((payload.get? "inputs").getD (.obj []))
  let createdAt ← asNumber ((payload.get? "created_at").getD (.num now))
  let updatedAt ← asNumber ((payload.get? "updated_at").getD (.num now))
  some ⟨⟨runId,columns.templateId,state,fun id => { nodeId := id },inputs⟩,createdAt,updatedAt⟩

/-- The node of a row; nothing where the source raises. -/
def NodeColumns.load (columns : NodeColumns) (id : NodeId) : Option NodeRun := do
  let d ← (← loads nums columns.data) |> asDict
  let state ← NodeState.ofValue columns.status
  let attempt ← asCount ((d.get? "attempt").getD (.num 0))
  let repairAttempts ← asCount ((d.get? "repair_attempts").getD (.num 0))
  let params ← asDict ((d.get? "params").getD (.obj []))
  let outputs ← asDict ((d.get? "outputs").getD (.obj []))
  let error ← asText (d.get? "error")
  let jobId ← asText (d.get? "job_id")
  let workdir ← asText (d.get? "workdir")
  some { nodeId := id, state, attempt, repairAttempts, params, outputs, error, jobId, workdir }

namespace TextStore
variable (db : TextStore)

/-- `save_run` at a time. -/
def saveRun (now : ℚ) (c : ClockedRun) : TextStore :=
  { db with graphRuns := db.graphRuns.insert c.run.runId (runColumns nums { c with updatedAt := now }) }

/-- `save_node_run(run, run.nodes[id])` at a time. -/
def saveNodeRun (now : ℚ) (run : GraphRun) (id : NodeId) : TextStore :=
  { db with nodeRuns := db.nodeRuns.insert (run.runId,id) (nodeColumns nums now (run.nodes id)) }

/-- The rows of a run that stand for nodes of the template. -/
def nodeRows (runId : RunId) (t : GraphTemplate) : List (NodeId × NodeColumns) :=
  db.nodeRuns.entries.filterMap fun row =>
    if row.1.1 = runId ∧ row.1.2 ∈ t.ids then some (row.1.2,row.2) else none

/-- `load_run` at a time; nothing where it raises. -/
def loadRun (now : ℚ) (runId : RunId) (t : GraphTemplate) : Option (Option ClockedRun) :=
  match db.graphRuns.lookup runId with
  | none => some none
  | some columns => do
    let c ← columns.load nums runId now
    let nodes ← (db.nodeRows runId t).mapM fun row => (row.2.load nums row.1).map fun node => (row.1,node)
    some (some { c with run := { c.run with nodes := fun id => (nodes.lookup id).getD { nodeId := id } } })

/-- `resume_run` at a time, with the database after it. -/
def resumeRun (now : ℚ) (runId : RunId) (t : GraphTemplate) : Option (Option (ClockedRun × TextStore)) :=
  (db.loadRun nums now runId t).map fun loaded => loaded.map fun c =>
    if c.run.state.Terminal then (c,db)
    else
      let run := { c.run with nodes := fun id => Store.resetInFlight (c.run.nodes id), state := RunState.validated }
      ({ c with run, updatedAt := now },db.saveRun nums now { c with run })

end TextStore

/-- `CAST(text AS REAL)`. -/
def castReal (text : String) : ℚ := ((JsonText.readNumber text.toList).bind fun r => nums.read r.1).getD 0

/-- An entry of `list_runs`. -/
structure RunEntry where
  runId : RunId
  templateId : String
  status : String
  updatedAt : String

def RunColumns.entry (runId : RunId) (columns : RunColumns) : RunEntry :=
  ⟨runId,columns.templateId,columns.status,columns.updatedAt⟩

/-- An answer of `list_runs`. The order of equal times is left open by SQLite. -/
def TextStore.ListsRuns (db : TextStore) (entries : List RunEntry) : Prop :=
  entries.Perm (db.graphRuns.entries.map fun row => row.2.entry row.1) ∧
    entries.Pairwise fun a b => castReal nums b.updatedAt ≤ castReal nums a.updatedAt

/-- What is saved of a run is JSON. -/
def ClockedRun.IsJson (c : ClockedRun) : Prop :=
  Runtime.IsJson nums (.obj c.run.inputs) ∧ nums.Writable c.createdAt

/-- What is saved of a node is JSON. -/
def NodeRun.IsJson (node : NodeRun) : Prop :=
  Runtime.IsJson nums (.obj node.params) ∧ Runtime.IsJson nums (.obj node.outputs) ∧
    nums.Writable node.attempt ∧ nums.Writable node.repairAttempts

/-- What is done with the store, at a time. -/
inductive StoreOp where
  | saveRun (now : ℚ) (c : ClockedRun)
  | saveNodeRun (now : ℚ) (run : GraphRun) (id : NodeId)
  | resumeRun (now : ℚ) (runId : RunId) (t : GraphTemplate)

namespace StoreOp

def now : StoreOp → ℚ
  | .saveRun now _ => now
  | .saveNodeRun now _ _ => now
  | .resumeRun now _ _ => now

def onText (db : TextStore) : StoreOp → Option TextStore
  | .saveRun now c => some (db.saveRun nums now c)
  | .saveNodeRun now run id => some (db.saveNodeRun nums now run id)
  | .resumeRun now runId t => (db.resumeRun nums now runId t).map fun r => (r.map Prod.snd).getD db

def onRecords (st : Store) : StoreOp → Store
  | .saveRun _ c => st.saveRun c.run
  | .saveNodeRun _ run id => st.saveNodeRun run id
  | .resumeRun _ runId t => ((st.resumeRun runId t).map Prod.snd).getD st

def IsJson : StoreOp → Prop
  | .saveRun now c => c.IsJson nums ∧ nums.Writable now
  | .saveNodeRun now run id => (run.nodes id).IsJson nums ∧ nums.Writable now
  | .resumeRun now _ _ => nums.Writable now

end StoreOp

end Columns

section Samples

/-- Two counts and three times. -/
def sampleNumbers : JsonText.Numerals ℚ where
  text q := if q = 0 then "0".toList else if q = 1 then "1".toList else if q = 3 / 2 then "1.5".toList
    else if q = 5 / 2 then "2.5".toList else "3.5".toList
  read t := if t = "0".toList then some 0 else if t = "1".toList then some 1 else if t = "1.5".toList then some (3 / 2)
    else if t = "2.5".toList then some (5 / 2) else some (7 / 2)
  Writable q := q = 0 ∨ q = 1 ∨ q = 3 / 2 ∨ q = 5 / 2 ∨ q = 7 / 2
  number_text := by
    have hwhole (d : Char) (hd : d.isDigit = true) : JsonGrammar.Number [d] := by
      refine ⟨[],[d],[],[],.head _,⟨List.cons_ne_nil _ _,?_⟩,fun h => ?_,.inl rfl,.inl rfl,rfl⟩
      · exact List.forall_mem_singleton.mpr hd
      · rw [Option.some.inj h]
    have hhalf (d : Char) (hd : d.isDigit = true) : JsonGrammar.Number [d,'.','5'] := by
      refine ⟨[],[d],['.','5'],[],.head _,⟨List.cons_ne_nil _ _,?_⟩,fun h => ?_,.inr ⟨['5'],?_,rfl⟩,.inl rfl,rfl⟩
      · exact List.forall_mem_singleton.mpr hd
      · rw [Option.some.inj h]
      · exact ⟨List.cons_ne_nil _ _,List.forall_mem_singleton.mpr rfl⟩
    rintro q (rfl | rfl | rfl | rfl | rfl)
    · exact hwhole '0' rfl
    · exact hwhole '1' rfl
    · rw [if_neg (by norm_num),if_neg (by norm_num),if_pos rfl]
      exact hhalf '1' rfl
    · rw [if_neg (by norm_num),if_neg (by norm_num),if_neg (by norm_num),if_pos rfl]
      exact hhalf '2' rfl
    · rw [if_neg (by norm_num),if_neg (by norm_num),if_neg (by norm_num),if_neg (by norm_num)]
      exact hhalf '3' rfl
  read_text := by
    rintro q (rfl | rfl | rfl | rfl | rfl) <;> decide +kernel

def sampleRun (runId : RunId) : ClockedRun where
  run := {
    runId
    templateId := "pair"
    state := .running
    nodes := fun id => { nodeId := id, state := .running, attempt := 1, params := [("prefix",.str "Si \"1\"\n")] }
    inputs := [("material",.str "Si"),("kpoints",.arr [.num 1,.null])] }
  createdAt := 3 / 2
  updatedAt := 3 / 2

def sampleTemplate : GraphTemplate where
  templateId := "pair"
  nodes := [{ id := "scf", tool := "qe" },{ id := "bands", tool := "qe", dependsOn := ["scf"] }]

/-- A run is saved, and then one of its nodes. -/
def sampleOps : List StoreOp :=
  [.saveRun (3 / 2) (sampleRun "run_1"),.saveNodeRun (5 / 2) (sampleRun "run_1").run "scf"]

theorem sampleRun_isJson (runId : RunId) : (sampleRun runId).IsJson sampleNumbers := by
  have hkeys : (["material","kpoints"].map String.toList).Nodup := by decide
  exact ⟨⟨hkeys,trivial,⟨.inr (.inl rfl),trivial,trivial⟩,trivial⟩,.inr (.inr (.inl rfl))⟩

theorem sampleOps_isJson : ∀ op ∈ sampleOps ++ [.saveRun (7 / 2) (sampleRun "run_2")], op.IsJson sampleNumbers := by
  have hkeys : (["prefix"].map String.toList).Nodup := by decide
  have hnode : ((sampleRun "run_1").run.nodes "scf").IsJson sampleNumbers :=
    ⟨⟨hkeys,trivial,trivial⟩,⟨List.nodup_nil,trivial⟩,.inr (.inl Nat.cast_one),.inl Nat.cast_zero⟩
  intro op hop
  simp only [sampleOps,List.cons_append,List.nil_append,List.mem_cons,List.not_mem_nil,or_false] at hop
  obtain rfl | rfl | rfl := hop
  · exact ⟨sampleRun_isJson "run_1",.inr (.inr (.inl rfl))⟩
  · exact ⟨hnode,.inr (.inr (.inr (.inl rfl)))⟩
  · exact ⟨sampleRun_isJson "run_2",.inr (.inr (.inr (.inr rfl)))⟩

end Samples

section Rows
variable {nums : JsonText.Numerals ℚ} {now : ℚ} {c : ClockedRun} {node : NodeRun}

def RunRow.bare (row : RunRow) (runId : RunId) : GraphRun :=
  ⟨runId,row.templateId,row.status,fun id => { nodeId := id },row.inputs⟩

theorem isJson_runData (hc : c.IsJson nums) (hupdated : nums.Writable c.updatedAt) :
    IsJson nums (.obj (runData c)) :=
  ⟨show (["inputs","created_at","updated_at"].map String.toList).Nodup by decide,hc.1,hc.2,hupdated,trivial⟩

theorem load_runColumns (hc : c.IsJson nums) (hupdated : nums.Writable c.updatedAt) :
    (runColumns nums c).load nums c.run.runId now =
      some { c with run := { c.run with nodes := fun id => { nodeId := id } } } := by
  rw [RunColumns.load,runColumns,loads_dumps nums (isJson_runData hc hupdated),
    RunState.ofValue_value]
  rfl

theorem isJson_optionalText (s : Option String) : IsJson nums (optionalText s) := by
  cases s <;> trivial

theorem isJson_nodeData (hnode : node.IsJson nums) (hnow : nums.Writable now) :
    IsJson nums (.obj (nodeData now node)) :=
  ⟨show (["attempt","repair_attempts","params","outputs","error","job_id","workdir","updated_at"].map
    String.toList).Nodup by decide,hnode.2.2.1,hnode.2.2.2,hnode.1,hnode.2.1,isJson_optionalText _,isJson_optionalText _,
    isJson_optionalText _,hnow,trivial⟩

theorem load_nodeColumns (hnode : node.IsJson nums) (hnow : nums.Writable now) (id : NodeId) :
    (nodeColumns nums now node).load nums id = some (node.row.load id) := by
  rw [NodeColumns.load,nodeColumns,loads_dumps nums (isJson_nodeData hnode hnow),
    NodeState.ofValue_value]
  simp only [asDict,Option.bind_eq_bind,Option.bind_some]
  have hget : (nodeData now node).get? "attempt" = some (.num node.attempt) ∧
      (nodeData now node).get? "repair_attempts" = some (.num node.repairAttempts) ∧
      (nodeData now node).get? "params" = some (.obj node.params) ∧
      (nodeData now node).get? "outputs" = some (.obj node.outputs) ∧
      (nodeData now node).get? "error" = some (optionalText node.error) ∧
      (nodeData now node).get? "job_id" = some (optionalText node.jobId) ∧
      (nodeData now node).get? "workdir" = some (optionalText node.workdir) := ⟨rfl,rfl,rfl,rfl,rfl,rfl,rfl⟩
  obtain ⟨hattempt,hrepairs,hgetParams,hgetOutputs,herror,hjob,hworkdir⟩ := hget
  rw [hattempt,hrepairs,hgetParams,hgetOutputs,herror,hjob,hworkdir]
  simp only [Option.getD_some,asCount_natCast,asText_optionalText,Option.bind_some]
  rfl

/-- A row of texts and the record that it stands for. -/
def RunShows (nums : JsonText.Numerals ℚ) (runId : RunId) (columns : RunColumns) (row : RunRow) : Prop :=
  ∃ c : ClockedRun, c.IsJson nums ∧ c.run = row.bare runId ∧ ∀ now, columns.load nums runId now = some c

def NodeShows (nums : JsonText.Numerals ℚ) (key : RunId × NodeId) (columns : NodeColumns) (row : NodeRow) : Prop :=
  columns.load nums key.2 = some (row.load key.2)

/-- The tables hold the texts of the records. -/
structure Mirrors (nums : JsonText.Numerals ℚ) (db : TextStore) (st : Store) : Prop where
  runs : ∀ runId, Option.Rel (RunShows nums runId) (db.graphRuns.lookup runId) (st.graphRuns runId)
  nodes : ∀ key, Option.Rel (NodeShows nums key) (db.nodeRuns.lookup key) (st.nodeRuns key)

namespace Mirrors
variable {db : TextStore} {st : Store}

theorem empty : Mirrors nums {} {} := ⟨fun _ => .none,fun _ => .none⟩

theorem saveRun (h : Mirrors nums db st) (hc : c.IsJson nums) (hnow : nums.Writable now) :
    Mirrors nums (db.saveRun nums now c) (st.saveRun c.run) where
  runs := by
    intro runId
    by_cases heq : runId = c.run.runId
    · subst heq
      rw [TextStore.saveRun,AList.lookup_insert,Store.saveRun_graphRuns_self]
      refine .some ⟨⟨{ c.run with nodes := fun id => { nodeId := id } },c.createdAt,now⟩,hc,rfl,fun _ => ?_⟩
      exact load_runColumns (c := { c with updatedAt := now }) hc hnow
    · have hrow : (st.saveRun c.run).graphRuns runId = st.graphRuns runId := Function.update_of_ne heq _ _
      rw [TextStore.saveRun,AList.lookup_insert_ne heq,hrow]
      exact h.runs runId
  nodes := h.nodes

theorem saveNodeRun (h : Mirrors nums db st) {run : GraphRun} {id : NodeId}
    (hnode : (run.nodes id).IsJson nums) (hnow : nums.Writable now) : Mirrors nums (db.saveNodeRun nums now run id) (st.saveNodeRun run id) where
  runs := h.runs
  nodes := by
    intro key
    by_cases heq : key = (run.runId,id)
    · subst heq
      rw [TextStore.saveNodeRun,AList.lookup_insert,Store.saveNodeRun_self]
      exact .some (load_nodeColumns hnode hnow id)
    · have hrow : (st.saveNodeRun run id).nodeRuns key = st.nodeRuns key := Function.update_of_ne heq _ _
      rw [TextStore.saveNodeRun,AList.lookup_insert_ne heq,hrow]
      exact h.nodes key

theorem mem_nodeRows {runId : RunId} {t : GraphTemplate} {id : NodeId} {columns : NodeColumns} :
    (id,columns) ∈ db.nodeRows runId t ↔ db.nodeRuns.lookup (runId,id) = some columns ∧ id ∈ t.ids := by
  rw [TextStore.nodeRows,List.mem_filterMap,← Option.mem_def,AList.mem_lookup_iff]
  constructor
  · rintro ⟨⟨key,columns'⟩,hmem,hsome⟩
    split_ifs at hsome with hkey
    obtain ⟨rfl,hid⟩ := hkey
    obtain ⟨rfl,rfl⟩ := Prod.mk.inj (Option.some.inj hsome)
    exact ⟨hmem,hid⟩
  · rintro ⟨hmem,hid⟩
    exact ⟨⟨(runId,id),columns⟩,hmem,if_pos ⟨rfl,hid⟩⟩

theorem load_nodeRow (h : Mirrors nums db st) {runId : RunId} {t : GraphTemplate} {row : NodeId × NodeColumns}
    (hrow : row ∈ db.nodeRows runId t) : row.2.load nums row.1 = some (st.loadNode runId t row.1) := by
  obtain ⟨hlookup,hid⟩ := mem_nodeRows.mp hrow
  have hnode := h.nodes (runId,row.1)
  rw [hlookup] at hnode
  unfold Store.loadNode
  rw [if_pos hid]
  cases hstored : st.nodeRuns (runId,row.1) with
  | none =>
    rw [hstored] at hnode
    cases hnode
  | some record =>
    rw [hstored] at hnode
    cases hnode with
    | some hshows => exact hshows

/-- A node without a row is loaded as a fresh one. -/
theorem loadNode_of_no_row (h : Mirrors nums db st) {runId : RunId} {t : GraphTemplate} {id : NodeId}
    (hnone : ∀ columns, (id,columns) ∉ db.nodeRows runId t) : st.loadNode runId t id = { nodeId := id } := by
  unfold Store.loadNode
  by_cases hid : id ∈ t.ids
  · rw [if_pos hid]
    have hnode := h.nodes (runId,id)
    cases hlookup : db.nodeRuns.lookup (runId,id) with
    | none =>
      rw [hlookup] at hnode
      cases hstored : st.nodeRuns (runId,id) with
      | none => rfl
      | some record =>
        rw [hstored] at hnode
        cases hnode
    | some columns => exact absurd (mem_nodeRows.mpr ⟨hlookup,hid⟩) (hnone columns)
  · rw [if_neg hid]

theorem mapM_rows {rows : List (NodeId × NodeColumns)} {node : NodeId → NodeRun}
    (h : ∀ row ∈ rows, row.2.load nums row.1 = some (node row.1)) :
    (rows.mapM fun row => (row.2.load nums row.1).map fun node => (row.1,node)) =
      some (rows.map fun row => (row.1,node row.1)) := by
  induction rows with
  | nil => rfl
  | cons row rows ih =>
    rw [List.mapM_cons,h row List.mem_cons_self,ih fun row hrow => h row (List.mem_cons_of_mem _ hrow)]
    rfl

theorem lookup_rows (rows : List (NodeId × NodeColumns)) (node : NodeId → NodeRun) (id : NodeId) :
    (rows.map fun row => (row.1,node row.1)).lookup id =
      if id ∈ rows.map Prod.fst then some (node id) else none := by
  induction rows with
  | nil => rfl
  | cons row rows ih =>
    rw [List.map_cons,List.lookup_cons,ih]
    by_cases heq : id = row.1
    · subst heq
      simp
    · have hne : (id == row.1) = false := beq_eq_false_iff_ne.mpr heq
      simp only [hne,List.map_cons,List.mem_cons,heq,false_or]

theorem loadRun (h : Mirrors nums db st) (now : ℚ) (runId : RunId) (t : GraphTemplate) :
    ∃ loaded, db.loadRun nums now runId t = some loaded ∧ loaded.map ClockedRun.run = st.loadRun runId t ∧
      ∀ c ∈ loaded, c.IsJson nums := by
  have hrun := h.runs runId
  unfold TextStore.loadRun Store.loadRun
  cases hlookup : db.graphRuns.lookup runId with
  | none =>
    rw [hlookup] at hrun
    cases hstored : st.graphRuns runId with
    | none => exact ⟨none,rfl,rfl,by simp⟩
    | some row =>
      rw [hstored] at hrun
      cases hrun
  | some columns =>
    rw [hlookup] at hrun
    cases hstored : st.graphRuns runId with
    | none =>
      rw [hstored] at hrun
      cases hrun
    | some row =>
      rw [hstored] at hrun
      cases hrun with
      | some hshows =>
        obtain ⟨c,hc,hbare,hload⟩ := hshows
        have hnodes : (fun id => (((db.nodeRows runId t).map fun row => (row.1,st.loadNode runId t row.1)).lookup
            id).getD { nodeId := id }) = st.loadNode runId t := by
          funext id
          rw [lookup_rows]
          split_ifs with hid
          · rfl
          · refine (h.loadNode_of_no_row fun columns hmem => hid ?_).symm
            exact List.mem_map_of_mem (f := Prod.fst) hmem
        refine ⟨some { c with run := { c.run with nodes := st.loadNode runId t } },?_,?_,?_⟩
        · simp only [hload,mapM_rows fun row hrow => h.load_nodeRow hrow,hnodes,Option.bind_eq_bind,
            Option.bind_some]
        · rw [Option.map_some,Option.map_some,hbare]
          rfl
        · intro c' hc'
          obtain rfl := Option.some.inj hc'
          exact hc

theorem resumeRun (h : Mirrors nums db st) (hnow : nums.Writable now) (runId : RunId) (t : GraphTemplate) :
    ∃ resumed, db.resumeRun nums now runId t = some resumed ∧
      resumed.map (fun r => r.1.run) = (st.resumeRun runId t).map Prod.fst ∧
      Mirrors nums ((resumed.map Prod.snd).getD db) (((st.resumeRun runId t).map Prod.snd).getD st) := by
  obtain ⟨loaded,hload,hsame,hjson⟩ := h.loadRun now runId t
  unfold TextStore.resumeRun Store.resumeRun
  rw [hload,← hsame]
  cases loaded with
  | none => exact ⟨none,rfl,rfl,h⟩
  | some c =>
    refine ⟨_,rfl,?_,?_⟩
    · simp only [Option.map_some]
      split_ifs <;> rfl
    · simp only [Option.map_some,Option.getD_some]
      split_ifs with hterminal
      · exact h
      · exact h.saveRun (c := { c with run := { c.run with
          nodes := fun id => Store.resetInFlight (c.run.nodes id), state := RunState.validated } }) (hjson c rfl) hnow

theorem step (h : Mirrors nums db st) {op : StoreOp} (hop : op.IsJson nums) :
    ∃ db', op.onText nums db = some db' ∧ Mirrors nums db' (op.onRecords st) := by
  cases op with
  | saveRun now c => exact ⟨_,rfl,h.saveRun hop.1 hop.2⟩
  | saveNodeRun now run id => exact ⟨_,rfl,h.saveNodeRun hop.1 hop.2⟩
  | resumeRun now runId t =>
    obtain ⟨resumed,hresume,-,hmirrors⟩ := h.resumeRun hop runId t
    exact ⟨_,by rw [StoreOp.onText,hresume]; rfl,hmirrors⟩

theorem steps (h : Mirrors nums db st) {ops : List StoreOp} (hops : ∀ op ∈ ops, op.IsJson nums) :
    ∃ db', ops.foldlM (StoreOp.onText nums) db = some db' ∧ Mirrors nums db' (ops.foldl StoreOp.onRecords st) := by
  induction ops generalizing db st with
  | nil => exact ⟨db,rfl,h⟩
  | cons op ops ih =>
    obtain ⟨db₁,hstep,h₁⟩ := h.step (hops op List.mem_cons_self)
    obtain ⟨db',hsteps,h'⟩ := ih h₁ fun op hop => hops op (List.mem_cons_of_mem _ hop)
    exact ⟨db',by rw [List.foldlM_cons,hstep]; exact hsteps,h'⟩

end Mirrors

/-- Whatever is saved and resumed, the texts never fail to be read, and a load and a resume
give what they give on records. -/
theorem columns_refine (nums : JsonText.Numerals ℚ) (ops : List StoreOp) (hops : ∀ op ∈ ops, op.IsJson nums) :
    ∃ db, ops.foldlM (StoreOp.onText nums) {} = some db ∧ ∀ (now : ℚ) (runId : RunId) (t : GraphTemplate),
      (db.loadRun nums now runId t).map (Option.map ClockedRun.run) =
        some ((ops.foldl StoreOp.onRecords {}).loadRun runId t) ∧
      (nums.Writable now → (db.resumeRun nums now runId t).map (Option.map fun r => r.1.run) =
        some (((ops.foldl StoreOp.onRecords {}).resumeRun runId t).map Prod.fst)) := by
  obtain ⟨db,hdb,hmirrors⟩ := Mirrors.empty.steps hops
  refine ⟨db,hdb,fun now runId t => ⟨?_,fun hnow => ?_⟩⟩
  · obtain ⟨loaded,hload,hsame,-⟩ := hmirrors.loadRun now runId t
    rw [hload,Option.map_some,hsame]
  · obtain ⟨resumed,hresume,hsame,-⟩ := hmirrors.resumeRun hnow runId t
    rw [hresume,Option.map_some,hsame]

theorem columns_refine_sample : ∃ db c,
    sampleOps.foldlM (StoreOp.onText sampleNumbers) {} = some db ∧
    db.loadRun sampleNumbers 0 "run_1" sampleTemplate = some (some c) ∧
    (c.run.nodes "scf").params = [("prefix",.str "Si \"1\"\n")] ∧ (c.run.nodes "bands").state = .pending := by
  obtain ⟨db,hdb,hload⟩ := columns_refine sampleNumbers sampleOps
    fun op hop => sampleOps_isJson op (List.mem_append_left _ hop)
  obtain ⟨loaded,hloaded,hsome⟩ := Option.map_eq_some_iff.mp (hload 0 "run_1" sampleTemplate).1
  obtain ⟨c,rfl,hc⟩ := Option.map_eq_some_iff.mp hsome
  refine ⟨db,c,hdb,hloaded,?_,?_⟩ <;> rw [hc] <;> rfl

end Rows

section Listing
variable {nums : JsonText.Numerals ℚ} {db db' : TextStore} {now later : ℚ}

/-- `updated_at` of a row, as it is compared. -/
def rowTime (nums : JsonText.Numerals ℚ) (row : Σ _ : RunId, RunColumns) : ℚ := castReal nums row.2.updatedAt

def tableEntries (db : TextStore) : List RunEntry := db.graphRuns.entries.map fun row => row.2.entry row.1

/-- The table holds the runs by their last save, the newest first, and all saves lie before a time. -/
def NewestFirst (nums : JsonText.Numerals ℚ) (db : TextStore) (now : ℚ) : Prop :=
  db.graphRuns.entries.Pairwise (fun a b => rowTime nums b < rowTime nums a) ∧
    ∀ row ∈ db.graphRuns.entries, rowTime nums row < now

theorem castReal_timeText (hnow : nums.Writable now) : castReal nums (timeText nums now) = now := by
  have hread := JsonText.readNumber_append (nums.number_text now hnow) JsonText.stops_nil
  rw [List.append_nil] at hread
  rw [castReal,timeText,String.toList_ofList,hread,Option.bind_some,nums.read_text now hnow,Option.getD_some]

theorem NewestFirst.saveRun (h : NewestFirst nums db now) (c : ClockedRun) (hnow : nums.Writable now)
    (hlater : now < later) : NewestFirst nums (db.saveRun nums now c) later := by
  have htime : rowTime nums ⟨c.run.runId,runColumns nums { c with updatedAt := now }⟩ = now :=
    castReal_timeText hnow
  have hkept := List.kerase_sublist c.run.runId db.graphRuns.entries
  refine ⟨List.pairwise_cons.mpr ⟨fun row hrow => ?_,h.1.sublist hkept⟩,fun row hrow => ?_⟩
  · rw [htime]
    exact h.2 row (hkept.subset hrow)
  · rcases List.mem_cons.mp hrow with rfl | hrow
    · rw [htime]
      exact hlater
    · exact (h.2 row (hkept.subset hrow)).trans hlater

theorem NewestFirst.mono (h : NewestFirst nums db now) (hlater : now < later) : NewestFirst nums db later :=
  ⟨h.1,fun row hrow => (h.2 row hrow).trans hlater⟩

theorem NewestFirst.step (h : NewestFirst nums db now) {op : StoreOp} (hop : op.IsJson nums) (hnow : op.now = now)
    (hstep : op.onText nums db = some db') (hlater : now < later) : NewestFirst nums db' later := by
  subst hnow
  cases op with
  | saveRun now c =>
    obtain rfl := Option.some.inj hstep
    exact h.saveRun c hop.2 hlater
  | saveNodeRun now run id =>
    obtain rfl := Option.some.inj hstep
    exact h.mono hlater
  | resumeRun now runId t =>
    obtain ⟨resumed,hresume,rfl⟩ := Option.map_eq_some_iff.mp hstep
    obtain ⟨loaded,-,rfl⟩ := Option.map_eq_some_iff.mp hresume
    cases loaded with
    | none => exact h.mono hlater
    | some c =>
      simp only [Option.map_some,Option.getD_some]
      split_ifs
      · exact h.mono hlater
      · exact h.saveRun _ hop hlater

/-- With a clock that never stands still the newest save stands first. -/
theorem NewestFirst.steps {ops : List StoreOp} (h : ∀ op ∈ ops, NewestFirst nums db op.now)
    (hlast : NewestFirst nums db later) (hops : ∀ op ∈ ops, op.IsJson nums)
    (hclock : ops.Pairwise fun a b => a.now < b.now) (hbefore : ∀ op ∈ ops, op.now < later)
    (hsteps : ops.foldlM (StoreOp.onText nums) db = some db') : NewestFirst nums db' later := by
  induction ops generalizing db with
  | nil =>
    obtain rfl := Option.some.inj hsteps
    exact hlast
  | cons op ops ih =>
    rw [List.foldlM_cons] at hsteps
    obtain ⟨db₁,hstep,hsteps⟩ := Option.bind_eq_some_iff.mp hsteps
    obtain ⟨hfirst,hrest⟩ := List.pairwise_cons.mp hclock
    have hnext {time : ℚ} (htime : op.now < time) : NewestFirst nums db₁ time :=
      (h op List.mem_cons_self).step (hops op List.mem_cons_self) rfl hstep htime
    refine ih (fun op' hop' => hnext (hfirst op' hop')) (hnext (hbefore op List.mem_cons_self)) ?_ hrest ?_ hsteps
    · exact fun op' hop' => hops op' (List.mem_cons_of_mem _ hop')
    · exact fun op' hop' => hbefore op' (List.mem_cons_of_mem _ hop')

/-- Then the answer is the table as it stands. -/
theorem NewestFirst.listsRuns_iff (h : NewestFirst nums db now) {entries : List RunEntry} :
    db.ListsRuns nums entries ↔ entries = tableEntries db := by
  have htable : (tableEntries db).Pairwise fun a b => castReal nums b.updatedAt < castReal nums a.updatedAt :=
    List.pairwise_map.mpr h.1
  constructor
  · rintro ⟨hperm,hsorted⟩
    refine List.Perm.eq_of_pairwise (fun a b ha hb hab hba => ?_) hsorted (htable.imp le_of_lt) hperm
    have htimes : ((tableEntries db).map fun entry => castReal nums entry.updatedAt).Nodup :=
      (List.pairwise_map.mpr htable).imp fun hlt => (ne_of_lt hlt).symm
    exact List.inj_on_of_nodup_map htimes (hperm.mem_iff.mp ha) hb (le_antisymm hba hab)
  · rintro rfl
    exact ⟨List.Perm.refl _,htable.imp le_of_lt⟩

/-- Deleting a key from a table takes its entry out of the list. -/
theorem map_kerase {rows : List (Σ _ : RunId, RunColumns)} (hnodup : rows.NodupKeys) (runId : RunId) :
    (rows.kerase runId).map (fun row => row.2.entry row.1) =
      (rows.map fun row => row.2.entry row.1).filter fun entry => entry.runId ≠ runId := by
  induction rows with
  | nil => rfl
  | cons row rows ih =>
    obtain ⟨hnew,hrest⟩ := List.nodupKeys_cons.mp hnodup
    by_cases heq : runId = row.1
    · rw [List.kerase_cons_eq heq,List.map_cons,List.filter_cons_of_neg (by simp [RunColumns.entry,heq])]
      refine (List.filter_eq_self.mpr fun entry hentry => ?_).symm
      obtain ⟨other,hother,rfl⟩ := List.mem_map.mp hentry
      refine decide_eq_true fun hsame : other.1 = runId => hnew ?_
      rw [← heq,← hsame]
      exact List.mem_map_of_mem hother
    · rw [List.kerase_cons_ne heq,List.map_cons,List.map_cons,ih hrest,
        List.filter_cons_of_pos (by simp [RunColumns.entry,Ne.symm heq])]

/-- Saving a run moves it to the front of `list_runs`, and leaves the other runs in their order. -/
theorem saved_run_listed_first (ops : List StoreOp) (now : ℚ) (c : ClockedRun)
    (hops : ∀ op ∈ ops ++ [StoreOp.saveRun now c], op.IsJson nums)
    (hclock : (ops ++ [StoreOp.saveRun now c]).Pairwise fun a b => a.now < b.now) :
    ∃ db db', ops.foldlM (StoreOp.onText nums) {} = some db ∧
      (ops ++ [StoreOp.saveRun now c]).foldlM (StoreOp.onText nums) {} = some db' ∧
      ∀ before after, db.ListsRuns nums before → (db'.ListsRuns nums after ↔
        after = ⟨c.run.runId,c.run.templateId,c.run.state.value,timeText nums now⟩ ::
          before.filter fun entry => entry.runId ≠ c.run.runId) := by
  obtain ⟨hearlier,-,hbefore⟩ := List.pairwise_append.mp hclock
  obtain ⟨db,hdb,-⟩ := Mirrors.empty.steps fun op hop => hops op (List.mem_append_left _ hop)
  have hempty (time : ℚ) : NewestFirst nums {} time := ⟨List.Pairwise.nil,fun row hrow => absurd hrow List.not_mem_nil⟩
  have hnewest : NewestFirst nums db now :=
    NewestFirst.steps (fun op _ => hempty op.now) (hempty now) (fun op hop => hops op (List.mem_append_left _ hop))
      hearlier (fun op hop => hbefore op hop (.saveRun now c) List.mem_cons_self) hdb
  have hnow : nums.Writable now := (hops _ (List.mem_append_right _ List.mem_cons_self)).2
  refine ⟨db,db.saveRun nums now c,hdb,by rw [List.foldlM_append,hdb]; rfl,fun before after hlists => ?_⟩
  rw [hnewest.listsRuns_iff] at hlists
  rw [(hnewest.saveRun c hnow (lt_add_one now)).listsRuns_iff,hlists,tableEntries,tableEntries,
    ← map_kerase db.graphRuns.nodupKeys]
  rfl

theorem saved_run_listed_first_sample : ∃ db db',
    sampleOps.foldlM (StoreOp.onText sampleNumbers) {} = some db ∧
    (sampleOps ++ [StoreOp.saveRun (7 / 2) (sampleRun "run_2")]).foldlM (StoreOp.onText sampleNumbers) {} = some db' ∧
    ∀ before after, db.ListsRuns sampleNumbers before → (db'.ListsRuns sampleNumbers after ↔
      after = ⟨"run_2","pair","running",timeText sampleNumbers (7 / 2)⟩ ::
        before.filter fun entry => entry.runId ≠ "run_2") := by
  refine saved_run_listed_first sampleOps (7 / 2) (sampleRun "run_2") sampleOps_isJson ?_
  refine List.Pairwise.cons ?_ (List.Pairwise.cons ?_ (List.pairwise_singleton _ _))
  · intro op hop
    rcases List.mem_cons.mp hop with rfl | hop
    · norm_num [StoreOp.now]
    · obtain rfl := List.mem_singleton.mp hop
      norm_num [StoreOp.now]
  · intro op hop
    obtain rfl := List.mem_singleton.mp hop
    norm_num [StoreOp.now]

end Listing

end DftForge.Runtime
