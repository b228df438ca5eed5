import DftForge.Runtime.Json
import DftForge.Engines.Repair

/-! # JSON schemas

The part of JSON Schema (Draft 7) that the tools use for their arguments: `type`, `enum`,
`properties`, `required` and `items`. A validator is any function that reports no error
exactly for the values a schema admits; `collector` is one that names the place and the
keyword of every violation.
-/
namespace DftForge.Tools
open DftForge.Runtime DftForge.Engines

inductive JsonType where
  | object
  | array
  | string
  | integer
  | number
  | boolean
  deriving DecidableEq, Repr

namespace JsonType

/-- The values of a type; a number without a fraction is an integer. -/
def holds : JsonType → Json → Bool
  | .object, .obj _ => true
  | .array, .arr _ => true
  | .string, .str _ => true
  | .integer, .num q => q.isInt
  | .number, .num _ => true
  | .boolean, .bool _ => true
  | _, _ => false

def name : JsonType → String
  | .object => "object"
  | .array => "array"
  | .string => "string"
  | .integer => "integer"
  | .number => "number"
  | .boolean => "boolean"

@[simp] theorem holds_null (t : JsonType) : t.holds .null = false := by cases t <;> rfl

end JsonType

/-- A schema: what type a value has, which texts it may be, and what an object or an array
holds. Keys that are not declared are admitted. -/
inductive Schema where
  | mk (types : List JsonType) (enum : Option (List String)) (properties : List (String × Schema))
      (required : List String) (items : Option Schema)

/-- The entries of an object; a property constrains nothing else. -/
def fieldsIn : Json → Dict
  | .obj fields => fields
  | _ => []

def itemsIn : Json → List Json
  | .arr items => items
  | _ => []

def enumHolds : Option (List String) → Json → Bool
  | none, _ => true
  | some texts, .str s => decide (s ∈ texts)
  | some _, _ => false

def requiredHolds (required : List String) : Json → Bool
  | .obj fields => required.all (Dict.contains fields)
  | _ => true

mutual
/-- `Draft7Validator(schema).is_valid`. -/
def Schema.valid : Schema → Json → Bool
  | .mk types enum properties required items, v =>
    types.any (·.holds v) && enumHolds enum v && propertiesValid properties (fieldsIn v) &&
      requiredHolds required v && itemsValid items (itemsIn v)
def propertiesValid : List (String × Schema) → Dict → Bool
  | [], _ => true
  | (key, schema) :: rest, fields =>
    ((fields.get? key).all fun v => schema.valid v) && propertiesValid rest fields
def itemsValid : Option Schema → List Json → Bool
  | none, _ => true
  | some schema, items => items.all fun v => schema.valid v
end

namespace Schema

def properties : Schema → List (String × Schema)
  | .mk _ _ properties _ _ => properties

def required : Schema → List String
  | .mk _ _ _ required _ => required

/-- `{"type": t}`. -/
def ofType (t : JsonType) : Schema := .mk [t] none [] [] none

/-- `{"type": "string", "enum": texts}`. -/
def oneOf (texts : List String) : Schema := .mk [.string] (some texts) [] [] none

/-- `{"type": "array", "items": schema}`. -/
def listOf (schema : Schema) : Schema := .mk [.array] none [] [] (some schema)

/-- `{"type": "object", "properties": properties, "required": required}`. -/
def record (properties : List (String × Schema)) (required : List String := []) : Schema :=
  .mk [.object] none properties required none

end Schema

section Valid
variable {properties : List (String × Schema)} {required : List String} {fields : Dict}

theorem propertiesValid_iff : propertiesValid properties fields = true ↔
    ∀ property ∈ properties, ∀ v, fields.get? property.1 = some v → property.2.valid v = true := by
  induction properties with
  | nil => simp [propertiesValid]
  | cons property rest ih =>
    rw [propertiesValid, Bool.and_eq_true, ih, List.forall_mem_cons]
    refine and_congr_left fun _ => ?_
    cases fields.get? property.1 <;> simp

/-- What a record admits: an object whose declared entries are admitted and that has the
required ones. -/
theorem record_valid_iff {v : Json} : (Schema.record properties required).valid v = true ↔
    ∃ fields : Dict, v = .obj fields ∧
      (∀ property ∈ properties, ∀ w, fields.get? property.1 = some w → property.2.valid w = true) ∧
      ∀ key ∈ required, ∃ w, fields.get? key = some w := by
  cases v with
  | obj fields =>
    have hkeys (key : String) : Dict.contains fields key = true ↔ ∃ w, Dict.get? fields key = some w := by
      rw [Dict.contains, Option.isSome_iff_exists]
    simp [Schema.record,Schema.valid,JsonType.holds,enumHolds,fieldsIn,itemsValid,requiredHolds,
      propertiesValid_iff,hkeys]
  | _ => simp [Schema.record,Schema.valid,JsonType.holds]

end Valid

/-- A step of a path into a value. -/
inductive PathItem where
  | key (name : String)
  | index (n : ℕ)
  deriving DecidableEq, Repr

namespace PathItem

/-- `str(item)`. -/
def text : PathItem → String
  | .key name => name
  | .index n => toString n

/-- The order in which paths are sorted. At one place of a value all items are keys or all
are indices, so Python never compares one with the other. -/
def before : PathItem → PathItem → Bool
  | .key a, .key b => decide (a < b)
  | .index m, .index n => decide (m < n)
  | .key _, .index _ => true
  | .index _, .key _ => false

end PathItem

/-- The order of lists. -/
def pathLe : List PathItem → List PathItem → Bool
  | [], _ => true
  | _ :: _, [] => false
  | x :: xs, y :: ys => if x = y then pathLe xs ys else x.before y

structure SchemaError where
  path : List PathItem
  message : String
  deriving DecidableEq, Repr

/-- `".".join(str(p) for p in err.path) or "args"`, and the message. -/
def SchemaError.text (e : SchemaError) : String :=
  (if e.path = [] then "args" else ".".intercalate (e.path.map PathItem.text)) ++ " " ++ e.message

/-- `jsonschema`, and the names of Python's types. -/
structure Validator where
  iterErrors : Schema → Json → List SchemaError
  /-- `type(value).__name__`. -/
  typeName : Json → String

namespace Validator
variable (v : Validator)

/-- A value has no errors exactly if its schema admits it. -/
def Draft7 : Prop := ∀ schema value, v.iterErrors schema value = [] ↔ schema.valid value = true

/-- `sorted(validator.iter_errors(value), key=lambda e: list(e.path))`. -/
def sortedErrors (schema : Schema) (value : Json) : List SchemaError :=
  (v.iterErrors schema value).mergeSort fun a b => pathLe a.path b.path

variable {v}

theorem sortedErrors_eq_nil (hdraft7 : v.Draft7) (schema : Schema) (value : Json) :
    v.sortedErrors schema value = [] ↔ schema.valid value = true := by
  rw [← hdraft7 schema value, sortedErrors, ← List.length_eq_zero_iff, List.length_mergeSort,
    List.length_eq_zero_iff]

end Validator

section Collector
variable (repr : Json → String)

def quoted (s : String) : String := "'" ++ s ++ "'"

def errorIf (holds : Bool) (path : List PathItem) (message : String) : List SchemaError :=
  if holds then [] else [⟨path,message⟩]

theorem errorIf_eq_nil {holds : Bool} {path : List PathItem} {message : String} :
    errorIf holds path message = [] ↔ holds = true := by
  cases holds <;> simp [errorIf]

def missingErrors (path : List PathItem) (required : List String) : Json → List SchemaError
  | .obj fields => (required.filter fun key => !Dict.contains fields key).map fun key =>
      ⟨path,quoted key ++ " is a required property"⟩
  | _ => []

mutual
/-- The errors at and below a path. -/
def Schema.errors (path : List PathItem) : Schema → Json → List SchemaError
  | .mk types enum properties required items, v =>
    errorIf (types.any (·.holds v)) path
        (repr v ++ " is not of type " ++ ", ".intercalate (types.map fun t => quoted t.name)) ++
      errorIf (enumHolds enum v) path
        (repr v ++ " is not one of [" ++ ", ".intercalate ((enum.getD []).map quoted) ++ "]") ++
      propertyErrors path properties (fieldsIn v) ++ missingErrors path required v ++
      itemErrors path items (itemsIn v)
def propertyErrors (path : List PathItem) : List (String × Schema) → Dict → List SchemaError
  | [], _ => []
  | (key, schema) :: rest, fields =>
    ((fields.get? key).elim [] fun v => schema.errors (path ++ [.key key]) v) ++ propertyErrors path rest fields
def itemErrors (path : List PathItem) : Option Schema → List Json → List SchemaError
  | none, _ => []
  | some schema, items => items.zipIdx.flatMap fun item => schema.errors (path ++ [.index item.2]) item.1
end

theorem missingErrors_eq_nil {path : List PathItem} {required : List String} {v : Json} :
    missingErrors path required v = [] ↔ requiredHolds required v = true := by
  cases v <;> simp [missingErrors,requiredHolds]

mutual
theorem errors_eq_nil (path : List PathItem) (schema : Schema) (v : Json) :
    schema.errors repr path v = [] ↔ schema.valid v = true := by
  cases schema with
  | mk types enum properties required items =>
    rw [Schema.errors, Schema.valid]
    simp only [List.append_eq_nil_iff,Bool.and_eq_true,errorIf_eq_nil,missingErrors_eq_nil]
    rw [propertyErrors_eq_nil, itemErrors_eq_nil]
theorem propertyErrors_eq_nil (path : List PathItem) (properties : List (String × Schema)) (fields : Dict) :
    propertyErrors repr path properties fields = [] ↔ propertiesValid properties fields = true := by
  cases properties with
  | nil => simp [propertyErrors,propertiesValid]
  | cons property rest =>
    obtain ⟨key,schema⟩ := property
    rw [propertyErrors, propertiesValid, List.append_eq_nil_iff, Bool.and_eq_true,
      propertyErrors_eq_nil path rest fields]
    refine and_congr_left fun _ => ?_
    cases fields.get? key with
    | none => simp
    | some v => exact errors_eq_nil (path ++ [.key key]) schema v
theorem itemErrors_eq_nil (path : List PathItem) (items : Option Schema) (values : List Json) :
    itemErrors repr path items values = [] ↔ itemsValid items values = true := by
  cases items with
  | none => simp [itemErrors,itemsValid]
  | some schema =>
    rw [itemErrors, itemsValid, List.flatMap_eq_nil_iff, List.all_eq_true]
    constructor
    · intro h v hv
      obtain ⟨n,hn⟩ := List.getElem?_of_mem hv
      exact (errors_eq_nil _ schema v).mp (h (v,n) (List.mk_mem_zipIdx_iff_getElem?.mpr hn))
    · intro h item hitem
      exact (errors_eq_nil _ schema item.1).mpr (h item.1 (List.fst_mem_of_mem_zipIdx hitem))
end

/-- The validator that collects the errors of every place. -/
def collector (typeName : Json → String) : Validator := ⟨fun schema => schema.errors repr [],typeName⟩

theorem collector_draft7 (typeName : Json → String) : (collector repr typeName).Draft7 :=
  fun schema value => errors_eq_nil repr [] schema value

end Collector
end DftForge.Tools
