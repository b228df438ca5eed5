import DftForge.Runtime.Bindings

/-! # Parameters as Python values

A template built in Python can hold tuples in its parameters. Validation looks for
references in them, and binding does not enter them.
-/
namespace DftForge.Runtime

/-- Parameter values before they went through JSON. -/
inductive Value where
  | null
  | bool (b : Bool)
  | num (q : ℚ)
  | str (s : String)
  | list (items : List Value)
  | tuple (items : List Value)
  | dict (fields : List (String × Value))
  deriving Inhabited

mutual
def Json.toValue : Json → Value
  | .null => .null
  | .bool b => .bool b
  | .num q => .num q
  | .str s => .str s
  | .arr items => .list (itemsToValue items)
  | .obj fields => .dict (fieldsToValue fields)
def itemsToValue : List Json → List Value
  | [] => []
  | v :: rest => v.toValue :: itemsToValue rest
def fieldsToValue : Dict → List (String × Value)
  | [] => []
  | (k, v) :: rest => (k,v.toValue) :: fieldsToValue rest
end

namespace Value

mutual
/-- `_iter_param_strings`. -/
def strings : Value → List (List Char)
  | .str s => [strip s.toList]
  | .dict fields => fieldStrings fields
  | .list items => itemStrings items
  | .tuple items => itemStrings items
  | _ => []
def fieldStrings : List (String × Value) → List (List Char)
  | [] => []
  | (_, v) :: rest => strings v ++ fieldStrings rest
def itemStrings : List Value → List (List Char)
  | [] => []
  | v :: rest => strings v ++ itemStrings rest
end

/-- `_REF_RE.match`, whose `$` also matches before a final newline. -/
def matchParamRef (cs : List Char) : Option Ref :=
  match matchRef cs with
  | some (ref, []) => some ref
  | some (ref, ['\n']) => some ref
  | _ => none

mutual
/-- `resolve_value`. -/
def resolve (run : GraphRun) (known : NodeId → Bool) : Value → Except ResolveError Value
  | .str s =>
    match matchParamRef (strip s.toList) with
    | some ref => (resolveRef run known s ref).map Json.toValue
    | none => .ok (.str s)
  | .dict fields => (resolveFields run known fields).map .dict
  | .list items => (resolveItems run known items).map .list
  | v => .ok v
def resolveFields (run : GraphRun) (known : NodeId → Bool) :
    List (String × Value) → Except ResolveError (List (String × Value))
  | [] => .ok []
  | (k, v) :: rest => do
    let v ← resolve run known v
    let rest ← resolveFields run known rest
    return (k,v) :: rest
def resolveItems (run : GraphRun) (known : NodeId → Bool) : List Value → Except ResolveError (List Value)
  | [] => .ok []
  | v :: rest => do
    let v ← resolve run known v
    let rest ← resolveItems run known rest
    return v :: rest
end

mutual
/-- Every reference that validation sees, replaced by its value. -/
def subst (σ : Ref → Json) : Value → Value
  | .str s =>
    match parseParamRef (strip s.toList) with
    | some ref => (σ ref).toValue
    | none => .str s
  | .dict fields => .dict (substFields σ fields)
  | .list items => .list (substItems σ items)
  | .tuple items => .tuple (substItems σ items)
  | v => v
def substFields (σ : Ref → Json) : List (String × Value) → List (String × Value)
  | [] => []
  | (k, v) :: rest => (k,subst σ v) :: substFields σ rest
def substItems (σ : Ref → Json) : List Value → List Value
  | [] => []
  | v :: rest => subst σ v :: substItems σ rest
end

mutual
/-- The strings inside tuples. -/
def tupleStrings : Value → List (List Char)
  | .dict fields => fieldTupleStrings fields
  | .list items => itemTupleStrings items
  | .tuple items => itemStrings items
  | _ => []
def fieldTupleStrings : List (String × Value) → List (List Char)
  | [] => []
  | (_, v) :: rest => tupleStrings v ++ fieldTupleStrings rest
def itemTupleStrings : List Value → List (List Char)
  | [] => []
  | v :: rest => tupleStrings v ++ itemTupleStrings rest
end

end Value

/-- A template whose parameters are Python values; those in `template` are not used. -/
structure PyTemplate where
  template : GraphTemplate
  params : NodeId → List (String × Value)

namespace PyTemplate
open GraphTemplate
variable (p : PyTemplate)

/-- The checks made for one node: references are looked up in its Python parameters. -/
def nodeErrors (n : NodeSpec) : List TemplateError :=
  p.template.nodeErrors { n with params := [] } ++
    (Value.fieldStrings (p.params n.id)).filterMap (p.template.referenceError n)

/-- `validate`. -/
def validate (knownTools : Option (List String)) : List TemplateError :=
  List.flatten [
    flag (blank p.template.templateId) .emptyTemplateId,
    flag (p.template.ids = []) .noNodes,
    flag (p.template.ids.dedup.length ≠ p.template.ids.length) .duplicateNodeIds,
    flag (p.template.nodes.any (fun n => blank n.id)) .emptyNodeId,
    p.template.nodes.flatMap p.nodeErrors,
    p.template.detectCycle.toList.map .cycle,
    p.template.outputs.filterMap (fun kv => p.template.outputError kv.1 kv.2),
    knownTools.toList.flatMap fun known =>
      (p.template.nodes.filter (·.tool ∉ known)).map fun n => .unknownTool n.id n.tool]

/-- `resolve_params` for one node. -/
def resolveParams (run : GraphRun) (n : NodeSpec) : Except ResolveError (List (String × Value)) :=
  Value.resolveFields run (· ∈ p.template.ids) (p.params n.id)

/-- What a reference stands for in a run. -/
def lookup (run : GraphRun) (ref : Ref) : Json :=
  match ref.scope with
  | .inputs => (run.inputs.get? ref.key).getD .null
  | .nodes => ((run.nodes ref.key).outputs.get? (ref.outputKey.getD "")).getD .null

/-- The run has the declared inputs, and the dependencies of the node succeeded with the
outputs that it references. -/
structure Provides (run : GraphRun) (n : NodeSpec) : Prop where
  inputs : ∀ key, p.template.inputs.contains key = true → run.inputs.contains key = true
  succeeded : ∀ d ∈ n.dependsOn, (run.nodes d).state = .succeeded
  outputs : ∀ raw ∈ Value.fieldStrings (p.params n.id), ∀ key outKey,
    parseParamRef raw = some ⟨.nodes,key,some outKey⟩ → (run.nodes key).outputs.contains outKey = true

/-- Binding replaces every reference that validation sees, and nothing else. -/
def Resolves : Prop := ∀ n ∈ p.template.nodes, ∀ run, p.Provides run n →
  p.resolveParams run n = .ok (Value.substFields (lookup run) (p.params n.id))

/-- No tuple in the parameters of the node holds a reference. -/
def FlatTuples (n : NodeSpec) : Prop :=
  ∀ raw ∈ Value.fieldTupleStrings (p.params n.id), parseParamRef raw = none

end PyTemplate

section Patterns

theorem matchLiteral_append {literal : String} {cs rest : List Char}
    (h : matchLiteral literal cs = some rest) : ∃ front, cs = front ++ rest := by
  obtain ⟨front,rfl,_⟩ := List.dropPrefix?_eq_some_iff.mp h
  exact ⟨front,rfl⟩

theorem matchWord_append {cs rest : List Char} {word : String} (h : matchWord cs = some (word,rest)) :
    ∃ front, cs = front ++ rest := by
  unfold matchWord at h
  split at h
  · cases h
  · obtain ⟨_,rfl⟩ := Prod.mk.inj (Option.some.inj h)
    exact ⟨cs.takeWhile isWord,List.takeWhile_append_dropWhile.symm⟩

theorem append_trans {as bs cs : List Char} (h : ∃ front, as = front ++ bs) (g : ∃ front, bs = front ++ cs) :
    ∃ front, as = front ++ cs := by
  obtain ⟨front,rfl⟩ := h
  obtain ⟨middle,rfl⟩ := g
  exact ⟨front ++ middle,by rw [List.append_assoc]⟩

theorem matchScope_append {cs rest : List Char} {scope : Scope} (h : matchScope cs = some (scope,rest)) :
    ∃ front, cs = front ++ rest := by
  unfold matchScope at h
  split at h
  · next tail htail =>
    obtain ⟨_,rfl⟩ := Prod.mk.inj (Option.some.inj h)
    exact matchLiteral_append htail
  · obtain ⟨tail,htail,heq⟩ := Option.map_eq_some_iff.mp h
    obtain ⟨_,rfl⟩ := Prod.mk.inj heq
    exact matchLiteral_append htail

theorem matchOutputKey_append {cs rest : List Char} {key : String}
    (h : matchOutputKey cs = some (key,rest)) : ∃ front, cs = front ++ rest := by
  obtain ⟨tail,htail,hword⟩ := Option.bind_eq_some_iff.mp h
  exact append_trans (matchLiteral_append htail) (matchWord_append hword)

/-- What follows a reference is the end of the text. -/
theorem matchRef_append {cs rest : List Char} {ref : Ref} (h : matchRef cs = some (ref,rest)) :
    ∃ front, cs = front ++ rest := by
  unfold matchRef at h
  simp only [Option.bind_eq_bind,Option.bind_eq_some_iff] at h
  obtain ⟨c₁,h₁,⟨scope,c₂⟩,h₂,c₃,h₃,⟨key,c₄⟩,h₄,h⟩ := h
  have hfront : ∃ front, cs = front ++ c₄ :=
    append_trans (matchLiteral_append h₁) (append_trans (matchScope_append h₂)
      (append_trans (matchLiteral_append h₃) (matchWord_append h₄)))
  apply append_trans hfront
  dsimp only at h
  cases hkey : matchOutputKey c₄ with
  | none =>
    simp only [hkey,Option.bind_eq_some_iff,Option.some.injEq,Prod.mk.injEq] at h
    obtain ⟨c₅,h₅,_,rfl⟩ := h
    exact matchLiteral_append h₅
  | some out =>
    obtain ⟨outKey,c₅⟩ := out
    simp only [hkey,Option.bind_eq_some_iff,Option.some.injEq,Prod.mk.injEq] at h
    obtain ⟨c₆,h₆,_,rfl⟩ := h
    exact append_trans (matchOutputKey_append hkey) (matchLiteral_append h₆)

theorem strip_getLast (cs : List Char) {c : Char} (h : (strip cs).getLast? = some c) : isSpace c = false := by
  have hne : (cs.dropWhile isSpace).rdropWhile isSpace ≠ [] := by
    intro hnil
    have hstrip : strip cs = [] := hnil
    rw [hstrip] at h
    cases h
  have hlast := List.rdropWhile_last_not isSpace _ hne
  have hc : ((cs.dropWhile isSpace).rdropWhile isSpace).getLast? = some c := h
  rw [List.getLast?_eq_some_getLast hne] at hc
  rw [Option.some.inj hc] at hlast
  simpa using hlast

theorem matchParamRef_strip (cs : List Char) : Value.matchParamRef (strip cs) = parseParamRef (strip cs) := by
  unfold Value.matchParamRef parseParamRef
  split
  · next ref h => rw [h]
  · next ref h =>
    obtain ⟨front,hfront⟩ := matchRef_append h
    have hlast : (strip cs).getLast? = some '\n' := by
      rw [hfront,List.getLast?_concat]
    exact absurd (strip_getLast cs hlast) (by decide)
  · next hnone _ =>
    split
    · next ref h => exact absurd h (hnone ref)
    · rfl

end Patterns

section Embedding

mutual
theorem strings_toValue : ∀ v : Json, v.toValue.strings = iterParamStrings v
  | .str _ => rfl
  | .obj fields => fieldStrings_toValue fields
  | .arr items => itemStrings_toValue items
  | .null => rfl
  | .bool _ => rfl
  | .num _ => rfl
theorem fieldStrings_toValue : ∀ d : Dict, Value.fieldStrings (fieldsToValue d) = iterFieldStrings d
  | [] => rfl
  | (k, v) :: rest => by
    rw [fieldsToValue,Value.fieldStrings,iterFieldStrings,strings_toValue v,fieldStrings_toValue rest]
theorem itemStrings_toValue : ∀ vs : List Json, Value.itemStrings (itemsToValue vs) = iterItemStrings vs
  | [] => rfl
  | v :: rest => by
    rw [itemsToValue,Value.itemStrings,iterItemStrings,strings_toValue v,itemStrings_toValue rest]
end

variable (run : GraphRun) (known : NodeId → Bool)

mutual
theorem resolve_toValue : ∀ v : Json,
    v.toValue.resolve run known = (resolveValue run known v).map Json.toValue
  | .str s => by
    rw [Json.toValue,Value.resolve,resolveValue,matchParamRef_strip]
    cases parseParamRef (strip s.toList) <;> rfl
  | .obj fields => by
    rw [Json.toValue,Value.resolve,resolveValue,resolveFields_toValue fields]
    cases resolveFields run known fields <;> rfl
  | .arr items => by
    rw [Json.toValue,Value.resolve,resolveValue,resolveItems_toValue items]
    cases resolveItems run known items <;> rfl
  | .null => by simp [Json.toValue,Value.resolve,resolveValue,Except.map]
  | .bool b => by simp [Json.toValue,Value.resolve,resolveValue,Except.map]
  | .num q => by simp [Json.toValue,Value.resolve,resolveValue,Except.map]
theorem resolveFields_toValue : ∀ d : Dict,
    Value.resolveFields run known (fieldsToValue d) = (resolveFields run known d).map fieldsToValue
  | [] => rfl
  | (k, v) :: rest => by
    rw [fieldsToValue,Value.resolveFields,resolveFields,resolve_toValue v,resolveFields_toValue rest]
    cases resolveValue run known v with
    | error e => rfl
    | ok w => cases resolveFields run known rest <;> rfl
theorem resolveItems_toValue : ∀ vs : List Json,
    Value.resolveItems run known (itemsToValue vs) = (resolveItems run known vs).map itemsToValue
  | [] => rfl
  | v :: rest => by
    rw [itemsToValue,Value.resolveItems,resolveItems,resolve_toValue v,resolveItems_toValue rest]
    cases resolveValue run known v with
    | error e => rfl
    | ok w => cases resolveItems run known rest <;> rfl
end

end Embedding

namespace Value
variable {run : GraphRun} {known : NodeId → Bool} {σ : Ref → Json}

/-- These texts are no references. -/
def Plain (texts : List (List Char)) : Prop := ∀ raw ∈ texts, parseParamRef raw = none

theorem plain_append {as bs : List (List Char)} : Plain (as ++ bs) ↔ Plain as ∧ Plain bs := by
  unfold Plain
  simp only [List.mem_append,or_imp,forall_and]

/-- Every reference among these texts resolves to its value. -/
def Bound (run : GraphRun) (known : NodeId → Bool) (σ : Ref → Json) (texts : List (List Char)) : Prop :=
  ∀ raw ∈ texts, ∀ ref, parseParamRef raw = some ref → ∀ value, resolveRef run known value ref = .ok (σ ref)

theorem bound_append {as bs : List (List Char)} :
    Bound run known σ (as ++ bs) ↔ Bound run known σ as ∧ Bound run known σ bs := by
  unfold Bound
  simp only [List.mem_append,or_imp,forall_and]

mutual
/-- Without references there is nothing to replace. -/
theorem subst_plain : ∀ v : Value, Plain v.strings → v.subst σ = v
  | .str s, h => by
    have hs : parseParamRef (strip s.toList) = none := h _ (by rw [strings]; exact List.mem_singleton.mpr rfl)
    rw [subst,hs]
  | .dict fields, h => by rw [subst,substFields_plain fields (by rwa [strings] at h)]
  | .list items, h => by rw [subst,substItems_plain items (by rwa [strings] at h)]
  | .tuple items, h => by rw [subst,substItems_plain items (by rwa [strings] at h)]
  | .null, _ => by simp [subst]
  | .bool _, _ => by simp [subst]
  | .num _, _ => by simp [subst]
theorem substFields_plain : ∀ fields : List (String × Value), Plain (fieldStrings fields) →
    substFields σ fields = fields
  | [], _ => rfl
  | (k, v) :: rest, h => by
    rw [fieldStrings,plain_append] at h
    rw [substFields,subst_plain v h.1,substFields_plain rest h.2]
theorem substItems_plain : ∀ items : List Value, Plain (itemStrings items) → substItems σ items = items
  | [], _ => rfl
  | v :: rest, h => by
    rw [itemStrings,plain_append] at h
    rw [substItems,subst_plain v h.1,substItems_plain rest h.2]
end

mutual
/-- Binding replaces every reference that resolves, where no tuple hides one. -/
theorem resolve_bound : ∀ v : Value, Bound run known σ v.strings → Plain v.tupleStrings →
    v.resolve run known = .ok (v.subst σ)
  | .str s, h, _ => by
    rw [resolve,subst,matchParamRef_strip]
    cases hp : parseParamRef (strip s.toList) with
    | none => rfl
    | some ref =>
      have href := h _ (by rw [strings]; exact List.mem_singleton.mpr rfl) ref hp s
      dsimp only
      rw [href]
      rfl
  | .dict fields, h, hplain => by
    rw [resolve,subst,resolveFields_bound fields (by rwa [strings] at h) (by rwa [tupleStrings] at hplain)]
    rfl
  | .list items, h, hplain => by
    rw [resolve,subst,resolveItems_bound items (by rwa [strings] at h) (by rwa [tupleStrings] at hplain)]
    rfl
  | .tuple items, _, hplain => by
    rw [tupleStrings] at hplain
    rw [subst,substItems_plain items hplain]
    simp only [resolve]
  | .null, _, _ => by simp [resolve,subst]
  | .bool _, _, _ => by simp [resolve,subst]
  | .num _, _, _ => by simp [resolve,subst]
theorem resolveFields_bound : ∀ fields : List (String × Value), Bound run known σ (fieldStrings fields) →
    Plain (fieldTupleStrings fields) → resolveFields run known fields = .ok (substFields σ fields)
  | [], _, _ => rfl
  | (k, v) :: rest, h, hplain => by
    rw [fieldStrings,bound_append] at h
    rw [fieldTupleStrings,plain_append] at hplain
    rw [resolveFields,substFields,resolve_bound v h.1 hplain.1,resolveFields_bound rest h.2 hplain.2]
    rfl
theorem resolveItems_bound : ∀ items : List Value, Bound run known σ (itemStrings items) →
    Plain (itemTupleStrings items) → resolveItems run known items = .ok (substItems σ items)
  | [], _, _ => rfl
  | v :: rest, h, hplain => by
    rw [itemStrings,bound_append] at h
    rw [itemTupleStrings,plain_append] at hplain
    rw [resolveItems,substItems,resolve_bound v h.1 hplain.1,resolveItems_bound rest h.2 hplain.2]
    rfl
end

theorem map_eq_ok {α β ε : Type} {x : Except ε α} {f : α → β} {b : β} :
    x.map f = .ok b ↔ ∃ a, x = .ok a ∧ f a = b := by
  cases x <;> simp [Except.map]

mutual
/-- What stands in a tuple is still there after binding. -/
theorem resolve_keeps : ∀ v w : Value, v.resolve run known = .ok w → v.tupleStrings ⊆ w.strings
  | .dict fields, w, h => by
    rw [resolve] at h
    obtain ⟨fields',hfields,rfl⟩ := map_eq_ok.mp h
    rw [tupleStrings,strings]
    exact resolveFields_keeps fields fields' hfields
  | .list items, w, h => by
    rw [resolve] at h
    obtain ⟨items',hitems,rfl⟩ := map_eq_ok.mp h
    rw [tupleStrings,strings]
    exact resolveItems_keeps items items' hitems
  | .tuple items, w, h => by
    simp only [resolve,Except.ok.injEq] at h
    subst h
    rw [tupleStrings,strings]
    exact List.Subset.refl _
  | .str _, _, _ => by simp [tupleStrings]
  | .null, _, _ => by simp [tupleStrings]
  | .bool _, _, _ => by simp [tupleStrings]
  | .num _, _, _ => by simp [tupleStrings]
theorem resolveFields_keeps : ∀ fields fields' : List (String × Value),
    resolveFields run known fields = .ok fields' → fieldTupleStrings fields ⊆ fieldStrings fields'
  | [], _, _ => by simp [fieldTupleStrings]
  | (k, v) :: rest, fields', h => by
    rw [resolveFields] at h
    cases hv : v.resolve run known with
    | error e => simp [hv] at h
    | ok w =>
      cases hrest : resolveFields run known rest with
      | error e => simp [hv,hrest] at h
      | ok rest' =>
        simp only [hv,hrest,ok_bind,pure_ok,Except.ok.injEq] at h
        subst h
        rw [fieldTupleStrings,fieldStrings]
        intro raw hraw
        rcases List.mem_append.mp hraw with hraw | hraw
        · exact List.mem_append_left _ (resolve_keeps v w hv hraw)
        · exact List.mem_append_right _ (resolveFields_keeps rest rest' hrest hraw)
theorem resolveItems_keeps : ∀ items items' : List Value,
    resolveItems run known items = .ok items' → itemTupleStrings items ⊆ itemStrings items'
  | [], _, _ => by simp [itemTupleStrings]
  | v :: rest, items', h => by
    rw [resolveItems] at h
    cases hv : v.resolve run known with
    | error e => simp [hv] at h
    | ok w =>
      cases hrest : resolveItems run known rest with
      | error e => simp [hv,hrest] at h
      | ok rest' =>
        simp only [hv,hrest,ok_bind,pure_ok,Except.ok.injEq] at h
        subst h
        rw [itemTupleStrings,itemStrings]
        intro raw hraw
        rcases List.mem_append.mp hraw with hraw | hraw
        · exact List.mem_append_left _ (resolve_keeps v w hv hraw)
        · exact List.mem_append_right _ (resolveItems_keeps rest rest' hrest hraw)
end

mutual
/-- Nothing is left to replace once every reference has become null. -/
theorem subst_null_plain : ∀ v : Value, Plain (v.subst fun _ => .null).strings
  | .str s => by
    rw [subst]
    cases hp : parseParamRef (strip s.toList) with
    | none =>
      intro raw hraw
      rw [strings,List.mem_singleton] at hraw
      rw [hraw]
      exact hp
    | some ref => exact nofun
  | .dict fields => by
    rw [subst,strings]
    exact substFields_null_plain fields
  | .list items => by
    rw [subst,strings]
    exact substItems_null_plain items
  | .tuple items => by
    rw [subst,strings]
    exact substItems_null_plain items
  | .null => by simp [subst,strings,Plain]
  | .bool _ => by simp [subst,strings,Plain]
  | .num _ => by simp [subst,strings,Plain]
theorem substFields_null_plain : ∀ fields : List (String × Value),
    Plain (fieldStrings (substFields (fun _ => .null) fields))
  | [] => by simp [substFields,fieldStrings,Plain]
  | (k, v) :: rest => by
    rw [substFields,fieldStrings,plain_append]
    exact ⟨subst_null_plain v,substFields_null_plain rest⟩
theorem substItems_null_plain : ∀ items : List Value,
    Plain (itemStrings (substItems (fun _ => .null) items))
  | [] => by simp [substItems,itemStrings,Plain]
  | v :: rest => by
    rw [substItems,itemStrings,plain_append]
    exact ⟨subst_null_plain v,substItems_null_plain rest⟩
end

end Value

namespace PyTemplate
open GraphTemplate Value
variable {p : PyTemplate} {knownTools : Option (List String)} {n : NodeSpec}

/-- Validation of a template with JSON parameters is that of `GraphTemplate`. -/
theorem nodeErrors_of_json (hp : p.params n.id = fieldsToValue n.params) :
    p.nodeErrors n = p.template.nodeErrors n := by
  unfold nodeErrors GraphTemplate.nodeErrors
  rw [hp,fieldStrings_toValue]
  simp [iterFieldStrings]

theorem nodeErrors_of_validate (h : p.validate knownTools = []) (hn : n ∈ p.template.nodes) :
    p.nodeErrors n = [] := by
  simp only [validate,List.flatten_eq_nil_iff,List.forall_mem_cons] at h
  obtain ⟨-,-,-,-,hnodes,-⟩ := h
  exact List.flatMap_eq_nil_iff.mp hnodes n hn

/-- What validation establishes about a reference. -/
theorem reference_ok (h : p.validate knownTools = []) (hn : n ∈ p.template.nodes) {raw : List Char}
    (hraw : raw ∈ fieldStrings (p.params n.id)) {ref : Ref} (hp : parseParamRef raw = some ref) :
    ref.scope = .inputs ∧ p.template.inputs.contains ref.key = true ∨
      ref.scope = .nodes ∧ ref.key ∈ p.template.ids ∧ ref.key ∈ n.dependsOn ∧
        ∃ outKey, ref.outputKey = some outKey := by
  have herrors := (List.append_eq_nil_iff.mp (nodeErrors_of_validate h hn)).2
  have herr := List.filterMap_eq_nil_iff.mp herrors raw hraw
  unfold referenceError at herr
  simp only [matchLiteral_of_parse hp,Bool.false_eq_true,if_false,hp] at herr
  obtain ⟨scope,key,outputKey⟩ := ref
  cases scope with
  | inputs =>
    left
    simp only at herr
    split_ifs at herr with h
    simp only [Bool.or_eq_true,Bool.not_eq_true',not_or,Bool.not_eq_false] at h
    exact ⟨rfl,h.2⟩
  | nodes =>
    right
    cases outputKey with
    | none => simp at herr
    | some outKey =>
      simp only at herr
      split_ifs at herr with hids hdeps
      exact ⟨rfl,hids,hdeps,outKey,rfl⟩

/-- In a run that provides them, all references resolve to what they stand for. -/
theorem Provides.bound (h : p.validate knownTools = []) (hn : n ∈ p.template.nodes) {run : GraphRun}
    (hrun : p.Provides run n) :
    Bound run (· ∈ p.template.ids) (lookup run) (fieldStrings (p.params n.id)) := by
  intro raw hraw ref hp value
  rcases reference_ok h hn hraw hp with ⟨hscope,hin⟩ | ⟨hscope,hid,hdep,outKey,hkey⟩
  · obtain ⟨v,hv⟩ := Option.isSome_iff_exists.mp (hrun.inputs _ hin)
    simp [resolveRef,lookup,hscope,hv]
  · have hout := hrun.outputs raw hraw ref.key outKey (by rw [hp,← hscope,← hkey])
    obtain ⟨v,hv⟩ := Option.isSome_iff_exists.mp hout
    simp [resolveRef,lookup,hscope,hkey,hid,hrun.succeeded _ hdep,hv]

/-- A run in which every input and every output is null. -/
def nullRun (p : PyTemplate) (n : NodeSpec) : GraphRun where
  runId := ""
  templateId := p.template.templateId
  inputs := p.template.inputs.map fun kv => (kv.1,.null)
  nodes := fun id => {
    nodeId := id
    state := .succeeded
    outputs := (fieldStrings (p.params n.id)).filterMap fun raw =>
      (parseParamRef raw).bind fun ref => ref.outputKey.map fun key => (key,.null) }

theorem contains_iff {d : Dict} {key : String} : d.contains key = true ↔ key ∈ d.map (·.1) := by
  unfold Dict.contains Dict.get?
  rw [List.lookup_isSome_iff]
  simp

theorem getD_null {d : Dict} (h : ∀ kv ∈ d, kv.2 = .null) (key : String) : (d.get? key).getD .null = .null := by
  cases hv : d.get? key with
  | none => rfl
  | some v => exact h (key,v) (Dict.mem_of_get? hv)

theorem nullRun_provides (p : PyTemplate) (n : NodeSpec) : p.Provides (p.nullRun n) n := by
  refine ⟨?_,fun _ _ => rfl,?_⟩
  · intro key hkey
    rw [contains_iff] at hkey ⊢
    simpa [nullRun,Function.comp_def] using hkey
  · intro raw hraw key outKey hp
    rw [contains_iff]
    refine List.mem_map.mpr ⟨(outKey,.null),?_,rfl⟩
    exact List.mem_filterMap.mpr ⟨raw,hraw,by simp [hp]⟩

theorem lookup_nullRun (p : PyTemplate) (n : NodeSpec) (ref : Ref) : lookup (p.nullRun n) ref = .null := by
  unfold lookup
  cases ref.scope with
  | inputs =>
    apply getD_null
    intro kv hkv
    obtain ⟨_,_,rfl⟩ := List.mem_map.mp hkv
    rfl
  | nodes =>
    apply getD_null
    intro kv hkv
    obtain ⟨raw,_,hraw⟩ := List.mem_filterMap.mp hkv
    obtain ⟨_,_,hout⟩ := Option.bind_eq_some_iff.mp hraw
    obtain ⟨_,_,rfl⟩ := Option.map_eq_some_iff.mp hout
    rfl

theorem Resolves.flat (hall : p.Resolves) : ∀ n ∈ p.template.nodes, p.FlatTuples n := by
  intro n hn raw hraw
  -- where everything is null, bound parameters hold no reference, but tuples keep theirs
  have hresolve := hall n hn (p.nullRun n) (p.nullRun_provides n)
  have hnull : lookup (p.nullRun n) = fun _ => .null := funext (p.lookup_nullRun n)
  rw [hnull] at hresolve
  exact substFields_null_plain _ raw (resolveFields_keeps _ _ hresolve hraw)

/-- A template with valid references binds them all exactly if no tuple hides one. -/
theorem resolves_iff (p : PyTemplate) (knownTools : Option (List String))
    (h : p.validate knownTools = []) :
    p.Resolves ↔ ∀ n ∈ p.template.nodes, p.FlatTuples n := by
  constructor
  · exact Resolves.flat
  · intro hflat n hn run hrun
    exact resolveFields_bound _ (hrun.bound h hn) (hflat n hn)

/-- A mesh given as a tuple, its first entry an input. -/
def tupleTemplate : PyTemplate where
  template := {
    templateId := "mesh"
    inputs := [("nk",.num 4)]
    nodes := [{ id := "scf", tool := "qe" }] }
  params _ := [("calc",.str "scf"),("kpoints",.tuple [.str "$\x7binputs.nk\x7d",.num 4,.num 4])]

/-- Validation accepts the reference in the tuple, and binding leaves it there. -/
theorem tuple_reference_unbound : tupleTemplate.validate none = [] ∧ ¬ tupleTemplate.Resolves := by
  refine ⟨by decide +kernel,fun hall => ?_⟩
  have hplain := hall.flat _ List.mem_cons_self "$\x7binputs.nk\x7d".toList (by decide)
  exact absurd hplain (by decide)

theorem resolves_list : PyTemplate.Resolves { tupleTemplate with
    params := fun _ => [("kpoints",.list [.str "$\x7binputs.nk\x7d",.num 4,.num 4])] } := by
  refine (resolves_iff _ none (by decide +kernel)).mpr ?_
  intro n _ raw hraw
  simp [fieldTupleStrings,tupleStrings,itemTupleStrings] at hraw

end PyTemplate

end DftForge.Runtime
