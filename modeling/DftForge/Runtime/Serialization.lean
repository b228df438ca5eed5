import DftForge.Runtime.Scheduler

/-! # Templates as dictionaries

`to_dict` leaves out three fields of a node when they have the default value, each by a
test of its own, and `from_dict` reads them back with defaults and coercions.
-/
namespace DftForge.Runtime

/-- `str`, `dict` and `int` of values of another type, and iteration over them. -/
structure Coercions where
  str : Json → String
  dict : Json → Option Dict
  int : Json → Option ℤ
  iter : Json → Option (List Json)

namespace Coercions
variable (c : Coercions)

/-- `str(value)`. -/
def text : Json → String
  | .str s => s
  | v => c.str v

/-- `dict(value)`. -/
def toDict : Json → Option Dict
  | .obj fields => some fields
  | v => c.dict v

/-- `int(value)`; a float is cut off at the point. -/
def toInt : Json → Option ℤ
  | .num q => some (if q < 0 then ⌈q⌉ else ⌊q⌋)
  | v => c.int v

/-- `for x in value`. -/
def items : Json → Option (List Json)
  | .arr items => some items
  | v => c.iter v

end Coercions

/-- `n.get("repair")`; nothing for a value that the field does not hold. -/
def textOrNone : Option Json → Option (Option String)
  | none => some none
  | some .null => some none
  | some (.str s) => some (some s)
  | some _ => none

/-- `n.get("timeout_seconds")`; nothing for a value that the field does not hold. -/
def numberOrNone : Option Json → Option (Option ℚ)
  | none => some none
  | some .null => some none
  | some (.num q) => some (some q)
  | some _ => none

namespace NodeSpec

/-- The fields that are always written. -/
def mainFields (n : NodeSpec) : Dict :=
  [("id",.str n.id),("tool",.str n.tool),("params",.obj n.params),
    ("depends_on",.arr (n.dependsOn.map .str)),("max_attempts",.num n.maxAttempts),
    ("max_repair_attempts",.num n.maxRepairAttempts)]

def repairField (n : NodeSpec) : Dict :=
  match n.repair with
  | none => []
  | some name => [("repair",.str name)]

/-- Written if true: neither `None` nor zero. -/
def timeoutField (n : NodeSpec) : Dict :=
  match n.timeoutSeconds with
  | none => []
  | some q => if q = 0 then [] else [("timeout_seconds",.num q)]

def modeField (n : NodeSpec) : Dict :=
  if n.executionMode ≠ "local" then [("execution_mode",.str n.executionMode)] else []

def toDict (n : NodeSpec) : Dict :=
  n.mainFields ++ n.repairField ++ n.timeoutField ++ n.modeField

/-- One node of `from_dict`; nothing where the source raises. -/
def fromDict (c : Coercions) (n : Dict) : Option NodeSpec := do
  let id ← n.get? "id"
  let tool ← n.get? "tool"
  let params ← c.toDict ((n.get? "params").getD (.obj []))
  let dependsOn ← c.items ((n.get? "depends_on").getD (.arr []))
  let maxAttempts ← c.toInt ((n.get? "max_attempts").getD (.num 1))
  let maxRepairAttempts ← c.toInt ((n.get? "max_repair_attempts").getD (.num 2))
  let repair ← textOrNone (n.get? "repair")
  let timeoutSeconds ← numberOrNone (n.get? "timeout_seconds")
  return {
    id := c.text id
    tool := c.text tool
    params
    dependsOn := dependsOn.map c.text
    maxAttempts
    maxRepairAttempts
    repair
    timeoutSeconds
    executionMode := c.text ((n.get? "execution_mode").getD (.str "local")) }

/-- Only a dictionary has the key `id`. -/
def fromItem (c : Coercions) : Json → Option NodeSpec
  | .obj n => fromDict c n
  | _ => none

end NodeSpec

namespace GraphTemplate

/-- `to_dict`. -/
def toDict (t : GraphTemplate) : Dict :=
  [("template_id",.str t.templateId),("description",.str t.description),("inputs",.obj t.inputs),
    ("outputs",.obj t.outputs),("nodes",.arr (t.nodes.map fun n => .obj n.toDict))]

/-- `from_dict`; nothing where the source raises. -/
def fromDict (c : Coercions) (data : Dict) : Option GraphTemplate := do
  let items ← c.items ((data.get? "nodes").getD (.arr []))
  let nodes ← items.mapM (NodeSpec.fromItem c)
  let templateId ← data.get? "template_id"
  let inputs ← c.toDict ((data.get? "inputs").getD (.obj []))
  let outputs ← c.toDict ((data.get? "outputs").getD (.obj []))
  return {
    templateId := c.text templateId
    description := c.text ((data.get? "description").getD (.str ""))
    nodes
    inputs
    outputs }

end GraphTemplate

section RoundTrip
variable (c : Coercions)

theorem get?_append_of_none {d d' : Dict} {key : String} (h : d.get? key = none) :
    Dict.get? (d ++ d') key = d'.get? key := by
  unfold Dict.get? at h ⊢
  rw [List.lookup_append,h,Option.none_or]

theorem get?_append_of_some {d d' : Dict} {key : String} {v : Json} (h : d.get? key = some v) :
    Dict.get? (d ++ d') key = some v := by
  unfold Dict.get? at h ⊢
  rw [List.lookup_append,h,Option.some_or]

theorem Coercions.toInt_ofInt (z : ℤ) : c.toInt (.num z) = some z := by
  simp [Coercions.toInt]

theorem map_text_str (texts : List String) : (texts.map Json.str).map c.text = texts := by
  rw [List.map_map]
  exact List.map_id texts

namespace NodeSpec
variable (n : NodeSpec)

theorem get?_main {key : String} {v : Json} (h : n.mainFields.get? key = some v) :
    n.toDict.get? key = some v := by
  unfold toDict
  rw [List.append_assoc,List.append_assoc]
  exact get?_append_of_some h

theorem repairField_get? {key : String} (h : key ≠ "repair") : n.repairField.get? key = none := by
  have hne : (key == "repair") = false := by simpa using h
  unfold repairField
  cases n.repair <;> simp [Dict.get?,List.lookup_cons,hne]

theorem timeoutField_get? {key : String} (h : key ≠ "timeout_seconds") :
    n.timeoutField.get? key = none := by
  have hne : (key == "timeout_seconds") = false := by simpa using h
  unfold timeoutField
  cases n.timeoutSeconds with
  | none => rfl
  | some q => by_cases hq : q = 0 <;> simp [Dict.get?,List.lookup_cons,hne,hq]

theorem modeField_get? {key : String} (h : key ≠ "execution_mode") : n.modeField.get? key = none := by
  have hne : (key == "execution_mode") = false := by simpa using h
  unfold modeField
  by_cases hmode : n.executionMode = "local" <;> simp [Dict.get?,List.lookup_cons,hne,hmode]

theorem get?_repair : textOrNone (n.toDict.get? "repair") = some n.repair := by
  unfold toDict
  rw [List.append_assoc,List.append_assoc,get?_append_of_none (show n.mainFields.get? "repair" = none from rfl)]
  unfold repairField
  cases n.repair with
  | none =>
    rw [List.nil_append,get?_append_of_none (n.timeoutField_get? (by decide)),n.modeField_get? (by decide)]
    rfl
  | some name => rfl

theorem get?_timeout : numberOrNone (n.toDict.get? "timeout_seconds") =
    some (n.timeoutSeconds.filter (· ≠ 0)) := by
  unfold toDict
  rw [List.append_assoc,List.append_assoc,
    get?_append_of_none (show n.mainFields.get? "timeout_seconds" = none from rfl),
    get?_append_of_none (n.repairField_get? (by decide))]
  have hmode := n.modeField_get? (show "timeout_seconds" ≠ "execution_mode" by decide)
  unfold timeoutField
  cases n.timeoutSeconds with
  | none =>
    rw [List.nil_append,hmode]
    rfl
  | some q =>
    by_cases hq : q = 0
    · simp [hq,hmode,numberOrNone,Option.filter]
    · simp [hq,numberOrNone,Option.filter,Dict.get?]

theorem get?_mode : c.text ((n.toDict.get? "execution_mode").getD (.str "local")) = n.executionMode := by
  unfold toDict
  rw [List.append_assoc,List.append_assoc,
    get?_append_of_none (show n.mainFields.get? "execution_mode" = none from rfl),
    get?_append_of_none (n.repairField_get? (by decide)),
    get?_append_of_none (n.timeoutField_get? (by decide))]
  unfold modeField
  by_cases hmode : n.executionMode = "local"
  · rw [if_neg (not_not.mpr hmode),hmode]
    rfl
  · rw [if_pos hmode]
    rfl

/-- A node is read back as written, except that a zero timeout is lost. -/
theorem fromDict_toDict : fromDict c n.toDict =
    some { n with timeoutSeconds := n.timeoutSeconds.filter (· ≠ 0) } := by
  have hid := n.get?_main (show n.mainFields.get? "id" = some (.str n.id) from rfl)
  have htool := n.get?_main (show n.mainFields.get? "tool" = some (.str n.tool) from rfl)
  have hparams := n.get?_main (show n.mainFields.get? "params" = some (.obj n.params) from rfl)
  have hdeps := n.get?_main
    (show n.mainFields.get? "depends_on" = some (.arr (n.dependsOn.map .str)) from rfl)
  have hattempts := n.get?_main (show n.mainFields.get? "max_attempts" = some (.num n.maxAttempts) from rfl)
  have hrepairs := n.get?_main
    (show n.mainFields.get? "max_repair_attempts" = some (.num n.maxRepairAttempts) from rfl)
  unfold fromDict
  rw [hid,htool,hparams,hdeps,hattempts,hrepairs,get?_repair,get?_timeout,get?_mode]
  simp only [Option.getD_some,Coercions.toInt_ofInt,Coercions.toDict,Coercions.items,Coercions.text,
    map_text_str,Option.bind_eq_bind,Option.bind_some,Option.pure_def]

end NodeSpec

namespace GraphTemplate

theorem mapM_fromItem (nodes : List NodeSpec) :
    (nodes.map fun n => Json.obj n.toDict).mapM (NodeSpec.fromItem c) =
      some (nodes.map fun n => { n with timeoutSeconds := n.timeoutSeconds.filter (· ≠ 0) }) := by
  induction nodes with
  | nil => rfl
  | cons n rest ih =>
    rw [List.map_cons,List.mapM_cons,ih]
    simp only [NodeSpec.fromItem,NodeSpec.fromDict_toDict,Option.bind_eq_bind,Option.bind_some,
      Option.pure_def,List.map_cons]

/-- A template is read back as it was written exactly if no node has a zero timeout. -/
theorem fromDict_toDict_iff (t : GraphTemplate) :
    fromDict c t.toDict = some t ↔ ∀ n ∈ t.nodes, n.timeoutSeconds ≠ some 0 := by
  have hread : fromDict c t.toDict = some { t with
      nodes := t.nodes.map fun n => { n with timeoutSeconds := n.timeoutSeconds.filter (· ≠ 0) } } := by
    change ((t.nodes.map fun n : NodeSpec => Json.obj n.toDict).mapM (NodeSpec.fromItem c) >>= fun nodes =>
      some ({ t with nodes } : GraphTemplate)) = _
    rw [mapM_fromItem]
    rfl
  have hnode : ∀ n : NodeSpec, { n with timeoutSeconds := n.timeoutSeconds.filter (· ≠ 0) } = n ↔
      n.timeoutSeconds ≠ some 0 := by
    intro n
    constructor
    · intro h hzero
      have hfilter := congrArg NodeSpec.timeoutSeconds h
      simp [hzero,Option.filter] at hfilter
    · intro h
      cases htimeout : n.timeoutSeconds with
      | none => rw [Option.filter_none,← htimeout]
      | some q =>
        have hq : q ≠ 0 := fun hq => h (by rw [htimeout,hq])
        simp [Option.filter,hq,← htimeout]
  rw [hread,Option.some.injEq]
  constructor
  · intro h n hn
    have hnodes : t.nodes.map (fun n => { n with
        timeoutSeconds := n.timeoutSeconds.filter (· ≠ 0) }) = t.nodes.map id := by
      rw [List.map_id]
      exact congrArg GraphTemplate.nodes h
    exact (hnode n).mp (List.map_inj_left.mp hnodes n hn)
  · intro h
    have hnodes : t.nodes.map (fun n => { n with
        timeoutSeconds := n.timeoutSeconds.filter (· ≠ 0) }) = t.nodes := by
      conv_rhs => rw [← List.map_id t.nodes]
      exact List.map_congr_left fun n hn => (hnode n).mpr (h n hn)
    rw [hnodes]

theorem timeout_ne_zero {t : GraphTemplate} {knownTools : Option (List String)}
    (h : t.validate knownTools = []) : ∀ n ∈ t.nodes, n.timeoutSeconds ≠ some 0 := by
  intro n hn hzero
  have hflag : TemplateError.timeoutSeconds n.id ∈ t.nodeErrors n := by
    simp [nodeErrors,flag,hzero]
  have hmem : TemplateError.timeoutSeconds n.id ∈ t.validate knownTools := by
    unfold validate
    simp only [List.mem_flatten,List.mem_cons]
    exact ⟨_,.inr (.inr (.inr (.inr (.inl rfl)))),List.mem_flatMap.mpr ⟨n,hn,hflag⟩⟩
  rw [h] at hmem
  cases hmem

/-- What `validate` accepts survives `to_dict` and `from_dict`, is still accepted, and
drives the same runs. -/
theorem template_round_trip (t : GraphTemplate) (knownTools : Option (List String))
    (h : t.validate knownTools = []) : ∃ t', fromDict c t.toDict = some t' ∧ t' = t ∧
      t'.validate knownTools = [] ∧ ∀ (g : GraphScheduler) (inputs : ℕ → Tick) (s : Sched) (n : ℕ),
        g.run t' inputs s n = g.run t inputs s n :=
  ⟨t,(fromDict_toDict_iff c t).mpr (timeout_ne_zero h),rfl,h,fun _ _ _ _ => rfl⟩

/-- Every optional field in use: a disabled repair, a timeout and the other mode. -/
def queuedTemplate : GraphTemplate where
  templateId := "queued"
  nodes := [{ id := "scf", tool := "qe", repair := some "", timeoutSeconds := some 600, executionMode := "hpc" },
    { id := "bands", tool := "qe", dependsOn := ["scf"], repair := some "qe_param_bump" }]

theorem template_round_trip_queued : ∃ t',
    fromDict ⟨fun _ => "",fun _ => none,fun _ => none,fun _ => none⟩ queuedTemplate.toDict = some t' ∧
      t' = queuedTemplate ∧ t'.validate (some ["qe"]) = [] := by
  obtain ⟨t',hread,heq,hvalid,_⟩ := template_round_trip
    ⟨fun _ => "",fun _ => none,fun _ => none,fun _ => none⟩ queuedTemplate (some ["qe"]) (by decide +kernel)
  exact ⟨t',hread,heq,hvalid⟩

end GraphTemplate

end RoundTrip

end DftForge.Runtime
