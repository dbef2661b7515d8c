import Kro.SimpleSchema.ApplyMarkers

/-!
# The schema compiler

`transformer` turns the `types:` map of an RGD into custom types (`loadCustomTypes`) and then
a `spec` tree into an object schema (`buildSchema`).  A tree is a map whose values are strings
`type | markers`, nested maps, or anything else (an error).  Each string field is parsed,
resolved to a schema and given its markers; the field's name goes to the object's `Required`
list when its custom type is required or a `required` marker says so; an object whose fields
have a default gets the default `{}`.

The compiler calls `ParseField`, `parseSpec`, the `Type` interface of package `types` and the
DAG of package `dag`, none of which is in this source.  They are the fields of `Frontend`, a
parameter of every definition here, so every theorem about the compiler holds whatever they
do.
-/

namespace Kro.SimpleSchema

open Kro.Go

/-- A value of a `spec` or `types` tree as the YAML decoder gives it: a string, a nested map,
or any other value, named by its Go type. -/
inductive Spec where
  | str (s : String)
  | obj (fields : List (String × Spec))
  | other (goType : String)

/-- `customType`. -/
structure CustomType where
  schema : JSONSchemaProps
  required : Bool

/-- What the compiler takes from code outside this source.  `Ty` is `types.Type`; `schema` is
its `Schema` method, given `Resolve`; `asCustom` is the assertion `typ.(types.Custom)`;
`dagOrder` adds the parsed types and their dependencies to a DAG and sorts it, with the
error `loadCustomTypes` returns when that fails. -/
structure Frontend (Ty : Type) where
  parseField : String → Except GoError (Ty × List Marker)
  parseSpec : Spec → Except GoError (Ty × List Marker)
  schema : Ty → (String → Except GoError JSONSchemaProps) → Except GoError JSONSchemaProps
  deps : Ty → List String
  asCustom : Ty → Option String
  dagOrder : List (String × List String) → Except GoError (List String)

/-- `transformer`. -/
structure Transformer where
  customTypes : GoMap CustomType

/-- `Resolve`: a copy of the custom type's schema. -/
def Transformer.resolve (t : Transformer) (name : String) : Except GoError JSONSchemaProps :=
  match GoMap.get t.customTypes name with
  | some ct => .ok ct.schema
  | none => fail ("unknown type: " ++ name)

/-- `IsRequired`. -/
def Transformer.isRequired (t : Transformer) (name : String) : Bool :=
  match GoMap.get t.customTypes name with
  | some ct => ct.required
  | none => false

/-- The schema `buildSchema` starts from. -/
def objectSchema : JSONSchemaProps := { JSONSchemaProps.empty with type := "object" }

/-- The end of `buildSchema`: the default `{}` when a field has a default. -/
def withChildDefault (schema : JSONSchemaProps) (childHasDefault : Bool) : JSONSchemaProps :=
  if childHasDefault then { schema with default := some "{}".toList } else schema

@[simp] theorem withChildDefault_required (schema : JSONSchemaProps) (b : Bool) :
    (withChildDefault schema b).required = schema.required := by
  cases b <;> rfl

@[simp] theorem withChildDefault_properties (schema : JSONSchemaProps) (b : Bool) :
    (withChildDefault schema b).properties = schema.properties := by
  cases b <;> rfl

section Build

variable {Ty : Type} (lib : GoLib) (fe : Frontend Ty) (t : Transformer)

/-- `buildFieldFromString`: the field's schema, and the parent with the field's name appended
to `Required` as its custom type and its markers ask. -/
def buildFieldFromString (name fieldValue : String) (parent : JSONSchemaProps) :
    Except GoError (JSONSchemaProps × JSONSchemaProps) := do
  let (typ, markers) ← fe.parseField fieldValue
  let schema ← fe.schema typ t.resolve
  let parent := match fe.asCustom typ with
    | some custom =>
      if t.isRequired custom then { parent with required := parent.required ++ [name] } else parent
    | none => parent
  applyMarkers lib schema markers name parent

mutual
/-- The loop of `buildSchema`: the object so far and `childHasDefault`. -/
def buildFields : JSONSchemaProps → Bool → List (String × Spec) →
    Except GoError (JSONSchemaProps × Bool)
  | schema, childHasDefault, [] => .ok (schema, childHasDefault)
  | schema, childHasDefault, (fieldName, fieldSpec) :: fields => do
    let (fieldSchema, schema) ←
      wrapErr ("field " ++ fieldName ++ ": ") (buildFieldSchema fieldName fieldSpec schema)
    buildFields { schema with properties := GoMap.set schema.properties fieldName fieldSchema }
      (childHasDefault || fieldSchema.default.isSome) fields

/-- `buildFieldSchema`: the type switch on the field's spec. -/
def buildFieldSchema (name : String) : Spec → JSONSchemaProps →
    Except GoError (JSONSchemaProps × JSONSchemaProps)
  | .str val, parent => buildFieldFromString lib fe t name val parent
  | .obj val, parent => do
    let (schema, childHasDefault) ← buildFields objectSchema false val
    pure (withChildDefault schema childHasDefault, parent)
  | .other goType, _ => fail ("unexpected type: " ++ goType)
end

/-- `buildSchema`. -/
def buildSchema (spec : List (String × Spec)) : Except GoError JSONSchemaProps :=
  (buildFields lib fe t objectSchema false spec).map fun r => withChildDefault r.1 r.2

end Build

/-- The body of the last loop of `loadCustomTypes`, for one type in topological order. -/
def loadCustomType {Ty : Type} (lib : GoLib) (fe : Frontend Ty)
    (parsed : GoMap (Ty × List Marker)) (t : Transformer) (name : String) :
    Except GoError Transformer :=
  match GoMap.get parsed name with
  | none => .error (.panic "runtime error: invalid memory address or nil pointer dereference")
  | some (typ, markers) => do
    let schema ← wrapErr ("building schema for " ++ name ++ ": ") (fe.schema typ t.resolve)
    let required := markers.any fun m => m.key = "required" && m.value = "true"
    let (schema, _) ← wrapErr ("applying markers for " ++ name ++ ": ")
      (applyMarkers lib schema markers name .empty)
    pure ⟨GoMap.set t.customTypes name ⟨schema, required⟩⟩

/-- `loadCustomTypes`: parse every type, order them by their dependencies, then build each
schema, apply its markers, and record whether it is required. -/
def loadCustomTypes {Ty : Type} (lib : GoLib) (fe : Frontend Ty) (t : Transformer)
    (customTypes : List (String × Spec)) : Except GoError Transformer :=
  if customTypes.length = 0 then .ok t
  else do
    let parsed ← customTypes.mapM fun (name, spec) =>
      (wrapErr ("parsing type " ++ name ++ ": ") (fe.parseSpec spec)).map (name, ·)
    let order ← fe.dagOrder (parsed.map fun p => (p.1, fe.deps p.2.1))
    order.foldlM (loadCustomType lib fe parsed) t

end Kro.SimpleSchema
