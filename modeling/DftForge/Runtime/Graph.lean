import DftForge.Library.DagRecursion
import DftForge.Runtime.Json

/-! # Graph templates and their validation

A template is a list of node specifications. `validate` collects every error; a
template without errors is packaged as `ValidTemplate`, whose dependency relation
is well founded.
-/
namespace DftForge.Runtime

abbrev NodeId := String

/-- Declarative node definition inside a template. -/
structure NodeSpec where
  id : NodeId
  tool : String
  params : Dict := []
  dependsOn : List NodeId := []
  maxAttempts : ℤ := 1
  maxRepairAttempts : ℤ := 2
  /-- Repair handler name; `none` is the default handler, `""` disables repair. -/
  repair : Option String := none
  timeoutSeconds : Option ℚ := none
  executionMode : String := "local"

structure GraphTemplate where
  templateId : String
  description : String := ""
  nodes : List NodeSpec := []
  inputs : Dict := []
  /-- name -> `${nodes.x.outputs.y}` -/
  outputs : Dict := []

/-- One constructor for each message of `validate`, with the values it prints. -/
inductive TemplateError where
  | emptyTemplateId
  | noNodes
  | duplicateNodeIds
  | emptyNodeId
  | unsupportedCharacters (node : NodeId)
  | emptyTool (node : NodeId)
  | maxAttempts (node : NodeId)
  | maxRepairAttempts (node : NodeId)
  | timeoutSeconds (node : NodeId)
  | executionMode (node : NodeId) (mode : String)
  | duplicateDependencies (node : NodeId)
  | unknownDependency (node dep : NodeId)
  | selfDependency (node : NodeId)
  | malformedReference (node : NodeId) (raw : List Char)
  | unknownInput (node : NodeId) (key : String)
  | missingOutputsKey (node : NodeId) (raw : List Char)
  | unknownNode (node : NodeId) (key : String)
  | undeclaredDependency (node : NodeId) (key : String)
  | cycle (path : List NodeId)
  | outputReference (name : String)
  | outputUnknownNode (name node : String)
  | unknownTool (node : NodeId) (tool : String)

namespace GraphTemplate

def ids (t : GraphTemplate) : List NodeId := t.nodes.map (·.id)

/-- The first specification of that id. -/
def node (t : GraphTemplate) (id : NodeId) : Option NodeSpec := t.nodes.find? (·.id = id)

/-- `NODE_ID_RE.fullmatch`. -/
def nodeIdOk (id : NodeId) : Bool := id.toList ≠ [] && id.toList.all isWord

/-- `not text.strip()`. -/
def blank (text : String) : Bool := strip text.toList = []

/-- What is wrong with one string of a node's parameters. -/
def referenceError (t : GraphTemplate) (n : NodeSpec) (raw : List Char) : Option TemplateError :=
  if (matchLiteral "$\x7b" raw).isNone then none
  else match parseParamRef raw with
    | none => some (.malformedReference n.id raw)
    | some ⟨.inputs, key, outputKey⟩ =>
      if outputKey.isSome || !t.inputs.contains key then some (.unknownInput n.id key) else none
    | some ⟨.nodes, _, none⟩ => some (.missingOutputsKey n.id raw)
    | some ⟨.nodes, key, some _⟩ =>
      if key ∉ t.ids then some (.unknownNode n.id key)
      else if key ∉ n.dependsOn then some (.undeclaredDependency n.id key)
      else none

/-- `[error] if wrong else []`. -/
def flag (wrong : Bool) (error : TemplateError) : List TemplateError :=
  if wrong then [error] else []

/-- The checks made for one node, in order. -/
def nodeErrors (t : GraphTemplate) (n : NodeSpec) : List TemplateError :=
  List.flatten [
    flag (n.id ≠ "" && !nodeIdOk n.id) (.unsupportedCharacters n.id),
    flag (blank n.tool) (.emptyTool n.id),
    flag (n.maxAttempts < 1) (.maxAttempts n.id),
    flag (n.maxRepairAttempts < 0) (.maxRepairAttempts n.id),
    flag (n.timeoutSeconds.any (· ≤ 0)) (.timeoutSeconds n.id),
    flag (n.executionMode ∉ ["local","hpc"]) (.executionMode n.id n.executionMode),
    flag (n.dependsOn.dedup.length ≠ n.dependsOn.length) (.duplicateDependencies n.id),
    (n.dependsOn.filter (· ∉ t.ids)).map (.unknownDependency n.id),
    flag (n.id ∈ n.dependsOn) (.selfDependency n.id),
    (iterFieldStrings n.params).filterMap (t.referenceError n)]

/-- The adjacency dictionary of `_detect_cycle`: a repeated id keeps its last
entry, and unknown dependencies are skipped. -/
def adjacency (t : GraphTemplate) (id : NodeId) : List NodeId :=
  match t.nodes.reverse.find? (·.id = id) with
  | some n => n.dependsOn.filter (· ∈ t.ids)
  | none => []

def detectCycle (t : GraphTemplate) : Option (List NodeId) := Dag.findCycle t.adjacency t.ids

/-- What is wrong with one template-level output. -/
def outputError (t : GraphTemplate) (name : String) (ref : Json) : Option TemplateError :=
  match ref with
  | .str s =>
    match parseOutputRef s.toList with
    | some (node, _) => if node ∉ t.ids then some (.outputUnknownNode name node) else none
    | none => some (.outputReference name)
  | _ => some (.outputReference name)

/-- `validate`: the list of validation errors (empty = valid). -/
def validate (t : GraphTemplate) (knownTools : Option (List String)) : List TemplateError :=
  List.flatten [
    flag (blank t.templateId) .emptyTemplateId,
    flag (t.ids = []) .noNodes,
    flag (t.ids.dedup.length ≠ t.ids.length) .duplicateNodeIds,
    flag (t.nodes.any (fun n => blank n.id)) .emptyNodeId,
    t.nodes.flatMap t.nodeErrors,
    t.detectCycle.toList.map .cycle,
    t.outputs.filterMap (fun kv => t.outputError kv.1 kv.2),
    knownTools.toList.flatMap fun known =>
      (t.nodes.filter (·.tool ∉ known)).map fun n => .unknownTool n.id n.tool]

end GraphTemplate

/-- What the runtime relies on in a template that passed validation. -/
structure GraphTemplate.WellFormed (t : GraphTemplate) : Prop where
  nonempty : t.nodes ≠ []
  nodup : t.ids.Nodup
  attempts : ∀ n ∈ t.nodes, 1 ≤ n.maxAttempts
  repairs : ∀ n ∈ t.nodes, 0 ≤ n.maxRepairAttempts
  known : ∀ n ∈ t.nodes, ∀ d ∈ n.dependsOn, d ∈ t.ids
  references : ∀ n ∈ t.nodes, ∀ raw ∈ iterFieldStrings n.params, t.referenceError n raw = none
  acyclic : ∀ id ∈ t.ids, Acc (Dag.Edge t.adjacency) id

namespace GraphTemplate

theorem mem_ids {t : GraphTemplate} {id : NodeId} : id ∈ t.ids ↔ ∃ n ∈ t.nodes, n.id = id :=
  List.mem_map

theorem mem_ids_of_mem {t : GraphTemplate} {n : NodeSpec} (h : n ∈ t.nodes) : n.id ∈ t.ids :=
  List.mem_map_of_mem h

theorem flag_nil {wrong : Bool} {error : TemplateError} : flag wrong error = [] ↔ wrong = false := by
  cases wrong <;> simp [flag]

theorem nodup_of_length_dedup {α : Type*} [DecidableEq α] {xs : List α}
    (h : xs.dedup.length = xs.length) : xs.Nodup :=
  (List.dedup_sublist xs).eq_of_length h ▸ List.nodup_dedup xs

/-- A template without validation errors is well formed. -/
theorem validate_nil {t : GraphTemplate} {knownTools : Option (List String)}
    (h : t.validate knownTools = []) : t.WellFormed := by
  simp only [validate,List.flatten_eq_nil_iff,List.forall_mem_cons,flag_nil,decide_eq_false_iff_not,
    List.flatMap_eq_nil_iff,List.map_eq_nil_iff,Option.toList_eq_nil_iff] at h
  obtain ⟨-,hids,hdup,-,hnodes,hcycle,-⟩ := h
  have hnode : ∀ n ∈ t.nodes, 1 ≤ n.maxAttempts ∧ 0 ≤ n.maxRepairAttempts ∧
      (∀ d ∈ n.dependsOn, d ∈ t.ids) ∧
      ∀ raw ∈ iterFieldStrings n.params, t.referenceError n raw = none := by
    intro n hn
    have he := hnodes n hn
    simp only [nodeErrors,List.flatten_eq_nil_iff,List.forall_mem_cons,flag_nil,
      decide_eq_false_iff_not,not_lt,List.map_eq_nil_iff,List.filter_eq_nil_iff,decide_not,
      Bool.not_eq_true',List.filterMap_eq_nil_iff] at he
    obtain ⟨-,-,hattempts,hrepairs,-,-,-,hknown,-,hrefs,-⟩ := he
    exact ⟨hattempts,hrepairs,fun d hd => not_not.mp (hknown d hd),hrefs⟩
  refine ⟨?_,?_,fun n hn => (hnode n hn).1,fun n hn => (hnode n hn).2.1,
    fun n hn => (hnode n hn).2.2.1,fun n hn => (hnode n hn).2.2.2,?_⟩
  · rintro hnil
    exact hids (by simp [ids,hnil])
  · exact nodup_of_length_dedup (not_not.mp hdup)
  · apply Dag.findCycle_none _ hcycle
    intro v _ w hw
    unfold adjacency at hw
    split at hw
    · simpa using (List.mem_filter.mp hw).2
    · simp at hw

variable {t : GraphTemplate}

theorem WellFormed.eq_of_id (ht : t.WellFormed) {m n : NodeSpec} (hm : m ∈ t.nodes)
    (hn : n ∈ t.nodes) (h : m.id = n.id) : m = n :=
  List.inj_on_of_nodup_map ht.nodup hm hn h

theorem WellFormed.node_eq (ht : t.WellFormed) {n : NodeSpec} (hn : n ∈ t.nodes) :
    t.node n.id = some n := by
  unfold node
  cases hf : t.nodes.find? (·.id = n.id) with
  | none => simpa using List.find?_eq_none.mp hf n hn
  | some m =>
    have hid : m.id = n.id := by simpa using List.find?_some hf
    rw [ht.eq_of_id (List.mem_of_find?_eq_some hf) hn hid]

theorem adjacency_of_nodup (hnodup : t.ids.Nodup) {n : NodeSpec} (hn : n ∈ t.nodes)
    (hknown : ∀ d ∈ n.dependsOn, d ∈ t.ids) : t.adjacency n.id = n.dependsOn := by
  unfold adjacency
  cases hf : t.nodes.reverse.find? (·.id = n.id) with
  | none => simpa using List.find?_eq_none.mp hf n (List.mem_reverse.mpr hn)
  | some m =>
    have hid : m.id = n.id := by simpa using List.find?_some hf
    have hm : m ∈ t.nodes := List.mem_reverse.mp (List.mem_of_find?_eq_some hf)
    rw [List.inj_on_of_nodup_map hnodup hm hn hid]
    exact List.filter_eq_self.mpr fun d hd => by simpa using hknown d hd

theorem WellFormed.adjacency_eq (ht : t.WellFormed) {n : NodeSpec} (hn : n ∈ t.nodes) :
    t.adjacency n.id = n.dependsOn :=
  adjacency_of_nodup ht.nodup hn (ht.known n hn)

theorem WellFormed.adjacency_mem (ht : t.WellFormed) :
    ∀ v ∈ t.ids, ∀ w ∈ t.adjacency v, w ∈ t.ids := by
  intro v hv w hw
  obtain ⟨n,hn,rfl⟩ := mem_ids.mp hv
  rw [ht.adjacency_eq hn] at hw
  exact ht.known n hn w hw

/-- Induction along dependencies: a property of nodes that follows from the same
property of their dependencies holds of every node. -/
theorem WellFormed.induction (ht : t.WellFormed) {P : NodeId → Prop}
    (step : ∀ n ∈ t.nodes, (∀ d ∈ n.dependsOn, P d) → P n.id) : ∀ n ∈ t.nodes, P n.id := by
  intro n hn
  have hacc := ht.acyclic n.id (mem_ids_of_mem hn)
  generalize hid : n.id = id at hacc
  induction hacc generalizing n with
  | intro id _ ih =>
    subst hid
    apply step n hn
    intro d hd
    obtain ⟨m,hm,rfl⟩ := mem_ids.mp (ht.known n hn d hd)
    exact ih m.id (by rw [Dag.Edge,ht.adjacency_eq hn]; exact hd) m hm rfl

end GraphTemplate

end DftForge.Runtime
