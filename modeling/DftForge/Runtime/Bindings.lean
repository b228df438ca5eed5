import DftForge.Runtime.Steps

/-! # When bindings resolve, and what they depend on

The parameters of a validated node depend on the run's inputs and on its
dependencies only. They resolve exactly when every output key they bind was
produced.
-/
namespace DftForge.Runtime

section Congruence
variable {r r' : GraphRun} {known : NodeId → Bool}

/-- The two runs resolve this reference alike. -/
def SameRef (r r' : GraphRun) (known : NodeId → Bool) (raw : List Char) : Prop :=
  ∀ ref, parseParamRef raw = some ref → ∀ value, resolveRef r known value ref = resolveRef r' known value ref

mutual
theorem resolveValue_congr : ∀ v : Json, (∀ raw ∈ iterParamStrings v, SameRef r r' known raw) →
    resolveValue r known v = resolveValue r' known v
  | .str s, h => by
    unfold resolveValue
    cases hp : parseParamRef (strip s.toList) with
    | none => rfl
    | some ref => exact h _ (by simp [iterParamStrings]) ref hp s
  | .obj fields, h => by
    unfold resolveValue
    rw [resolveFields_congr fields fun raw hraw => h raw (by simpa [iterParamStrings] using hraw)]
  | .arr items, h => by
    unfold resolveValue
    rw [resolveItems_congr items fun raw hraw => h raw (by simpa [iterParamStrings] using hraw)]
  | .null, _ => by unfold resolveValue; rfl
  | .bool _, _ => by unfold resolveValue; rfl
  | .num _, _ => by unfold resolveValue; rfl
theorem resolveFields_congr : ∀ d : Dict, (∀ raw ∈ iterFieldStrings d, SameRef r r' known raw) →
    resolveFields r known d = resolveFields r' known d
  | [], _ => rfl
  | (k, v) :: rest, h => by
    unfold resolveFields
    rw [resolveValue_congr v fun raw hraw => h raw (by simp [iterFieldStrings,hraw]),
      resolveFields_congr rest fun raw hraw => h raw (by simp [iterFieldStrings,hraw])]
theorem resolveItems_congr : ∀ vs : List Json, (∀ raw ∈ iterItemStrings vs, SameRef r r' known raw) →
    resolveItems r known vs = resolveItems r' known vs
  | [], _ => rfl
  | v :: rest, h => by
    unfold resolveItems
    rw [resolveValue_congr v fun raw hraw => h raw (by simp [iterItemStrings,hraw]),
      resolveItems_congr rest fun raw hraw => h raw (by simp [iterItemStrings,hraw])]
end

end Congruence

section Success
variable {r : GraphRun} {known : NodeId → Bool}

/-- This reference resolves in the run. -/
def Resolvable (r : GraphRun) (known : NodeId → Bool) (raw : List Char) : Prop :=
  ∀ ref, parseParamRef raw = some ref → ∀ value, ∃ v, resolveRef r known value ref = .ok v

theorem map_ok {α β ε : Type} {x : Except ε α} {f : α → β} :
    (∃ b, x.map f = .ok b) ↔ ∃ a, x = .ok a := by
  cases x <;> simp [Except.map]

theorem pair_ok {α β γ ε : Type} {x : Except ε α} {y : Except ε β} {f : α → β → γ} :
    (∃ c, (do let a ← x; let b ← y; return f a b) = Except.ok c) ↔
      (∃ a, x = .ok a) ∧ ∃ b, y = .ok b := by
  cases x <;> cases y <;> simp

/-- Whether a reference resolves does not depend on the text it is quoted with. -/
theorem resolveRef_ok_iff (ref : Ref) (value value' : String) :
    (∃ v, resolveRef r known value ref = .ok v) ↔ ∃ v, resolveRef r known value' ref = .ok v := by
  unfold resolveRef
  cases ref.scope with
  | inputs => cases r.inputs.get? ref.key <;> simp
  | nodes =>
    cases ref.outputKey with
    | none => simp
    | some outKey => exact Iff.rfl

theorem resolvable_iff {s : String} : Resolvable r known (strip s.toList) ↔
    ∃ v, resolveValue r known (.str s) = .ok v := by
  unfold resolveValue Resolvable
  cases parseParamRef (strip s.toList) with
  | none => simp
  | some ref =>
    simp only [Option.some.injEq,forall_eq']
    exact ⟨fun h => h s,fun h value => (resolveRef_ok_iff ref s value).mp h⟩

mutual
theorem resolveValue_ok_iff : ∀ v : Json, (∃ w, resolveValue r known v = .ok w) ↔
    ∀ raw ∈ iterParamStrings v, Resolvable r known raw
  | .str s => by
    simp only [iterParamStrings,List.mem_singleton,forall_eq]
    exact resolvable_iff.symm
  | .obj fields => by
    unfold resolveValue
    rw [map_ok,resolveFields_ok_iff fields,iterParamStrings]
  | .arr items => by
    unfold resolveValue
    rw [map_ok,resolveItems_ok_iff items,iterParamStrings]
  | .null => by simp [resolveValue,iterParamStrings]
  | .bool _ => by simp [resolveValue,iterParamStrings]
  | .num _ => by simp [resolveValue,iterParamStrings]
theorem resolveFields_ok_iff : ∀ d : Dict, (∃ w, resolveFields r known d = .ok w) ↔
    ∀ raw ∈ iterFieldStrings d, Resolvable r known raw
  | [] => by simp [resolveFields,iterFieldStrings]
  | (k, v) :: rest => by
    unfold resolveFields
    rw [pair_ok,resolveValue_ok_iff v,resolveFields_ok_iff rest,iterFieldStrings]
    simp only [List.mem_append,or_imp,forall_and]
theorem resolveItems_ok_iff : ∀ vs : List Json, (∃ w, resolveItems r known vs = .ok w) ↔
    ∀ raw ∈ iterItemStrings vs, Resolvable r known raw
  | [] => by simp [resolveItems,iterItemStrings]
  | v :: rest => by
    unfold resolveItems
    rw [pair_ok,resolveValue_ok_iff v,resolveItems_ok_iff rest,iterItemStrings]
    simp only [List.mem_append,or_imp,forall_and]
end

end Success

/-- The output keys a node binds, with the nodes that are to produce them. -/
def bindings (spec : NodeSpec) : List (NodeId × String) :=
  (iterFieldStrings spec.params).filterMap fun raw =>
    match parseParamRef raw with
    | some ⟨.nodes, key, some outputKey⟩ => some (key,outputKey)
    | _ => none

/-- Every output key the node binds was produced. -/
def Provided (run : GraphRun) (spec : NodeSpec) : Prop :=
  ∀ b ∈ bindings spec, ((run.nodes b.1).outputs).contains b.2 = true

instance (run : GraphRun) (spec : NodeSpec) : Decidable (Provided run spec) :=
  inferInstanceAs (Decidable (∀ b ∈ bindings spec, _))

section WellFormed
variable {t : GraphTemplate} {spec : NodeSpec} {r r' : GraphRun}

/-- A text that parses as a reference starts with `${`. -/
theorem matchLiteral_of_parse {raw : List Char} {ref : Ref} (h : parseParamRef raw = some ref) :
    (matchLiteral "$\x7b" raw).isNone = false := by
  unfold parseParamRef matchRef at h
  cases hl : matchLiteral "$\x7b" raw with
  | none => simp [hl] at h
  | some rest => rfl

/-- What validation establishes about a reference in a node's parameters. -/
theorem GraphTemplate.WellFormed.ref (ht : t.WellFormed) (hspec : spec ∈ t.nodes) {raw : List Char}
    (hraw : raw ∈ iterFieldStrings spec.params) {ref : Ref} (hp : parseParamRef raw = some ref) :
    ref.scope = .inputs ∧ t.inputs.contains ref.key = true ∨
    ref.scope = .nodes ∧ ref.key ∈ t.ids ∧ ref.key ∈ spec.dependsOn ∧
      ∃ outKey, ref.outputKey = some outKey ∧ (ref.key,outKey) ∈ bindings spec := by
  have herr := ht.references spec hspec raw hraw
  unfold GraphTemplate.referenceError at herr
  simp only [matchLiteral_of_parse hp,Bool.false_eq_true,if_false,hp] at herr
  obtain ⟨scope,key,outputKey⟩ := ref
  cases scope with
  | inputs =>
    left
    simp only at herr
    split_ifs at herr with h
    simp only [Bool.or_eq_true,Bool.not_eq_true',not_or,Bool.not_eq_false] at h
    exact ⟨rfl,h.2⟩
  | nodes =>
    right
    cases outputKey with
    | none => simp at herr
    | some outKey =>
      simp only at herr
      split_ifs at herr with hids hdeps
      refine ⟨rfl,hids,hdeps,outKey,rfl,?_⟩
      exact List.mem_filterMap.mpr ⟨raw,hraw,by simp [hp]⟩

/-- A node's parameters depend on the inputs and on its dependencies only. -/
theorem resolveParams_congr (ht : t.WellFormed) (hspec : spec ∈ t.nodes) (hinputs : r.inputs = r'.inputs)
    (hdeps : ∀ d ∈ spec.dependsOn, (r.nodes d).state = (r'.nodes d).state ∧
      (r.nodes d).outputs = (r'.nodes d).outputs) :
    resolveParams t r spec.params = resolveParams t r' spec.params := by
  apply resolveFields_congr
  intro raw hraw ref hp value
  unfold resolveRef
  rcases ht.ref hspec hraw hp with ⟨hscope,_⟩ | ⟨hscope,_,hdep,outKey,hkey,_⟩
  · simp only [hscope,hinputs]
  · obtain ⟨hstate,hout⟩ := hdeps ref.key hdep
    simp only [hscope,hkey,hstate,hout]

/-- Once the dependencies have succeeded, the parameters resolve exactly when every
bound output key was produced. -/
theorem resolveParams_ok_iff (ht : t.WellFormed) (hspec : spec ∈ t.nodes)
    (hinputs : ∀ key, t.inputs.contains key = true → r.inputs.contains key = true)
    (hdeps : ∀ d ∈ spec.dependsOn, (r.nodes d).state = .succeeded) :
    (∃ params, resolveParams t r spec.params = .ok params) ↔ Provided r spec := by
  unfold resolveParams
  rw [resolveFields_ok_iff]
  constructor
  · rintro h ⟨key,outKey⟩ hb
    obtain ⟨raw,hraw,hmatch⟩ := List.mem_filterMap.mp hb
    cases hp : parseParamRef raw with
    | none => simp [hp] at hmatch
    | some ref =>
      obtain ⟨scope,key',outputKey⟩ := ref
      cases scope <;> cases outputKey <;> simp [hp] at hmatch
      obtain ⟨rfl,rfl⟩ := hmatch
      obtain ⟨v,hv⟩ := h raw hraw _ hp ""
      simp only [resolveRef] at hv
      split_ifs at hv with hbad
      rw [Dict.contains]
      split at hv
      · next hout => simp [hout]
      · cases hv
  · intro h raw hraw ref hp value
    rcases ht.ref hspec hraw hp with ⟨hscope,hin⟩ | ⟨hscope,hid,hdep,outKey,hkey,hb⟩
    · obtain ⟨v,hv⟩ := Option.isSome_iff_exists.mp (hinputs _ hin)
      exact ⟨v,by simp [resolveRef,hscope,hv]⟩
    · obtain ⟨v,hv⟩ := Option.isSome_iff_exists.mp (h _ hb)
      exact ⟨v,by simp [resolveRef,hscope,hkey,hid,hdeps _ hdep,hv]⟩

end WellFormed

end DftForge.Runtime
