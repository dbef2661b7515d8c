import Kro.SimpleSchema.Transformer
import Kro.SimpleSchema.MarkerScan

/-!
# The field syntax `type | markers`

The compiler's parser of field strings and its intermediate types live in code that is not in
this source; they are modelled here from the spec, to run the compiler on concrete trees.  A
field string is a type, then optionally `|` and markers.  A type is a primitive (`string`,
`integer`, `boolean`, `number`, `float`), a list `[]T`, a map `map[string]T`, or the name of a
custom type.  Custom types are ordered by their dependencies, and a cycle among them is an
error.
-/

namespace Kro.SimpleSchema

open Kro.Go

/-- Modelled from the spec: `types.Type`, a primitive, a list, a map or a named custom type. -/
inductive Ty where
  | atomic (name : String)
  | slice (elem : Ty)
  | map (value : Ty)
  | custom (name : String)
  deriving Repr, DecidableEq

/-- Modelled from the spec: the primitive type names. -/
def primitiveTypes : List String := ["string", "integer", "boolean", "number", "float"]

/-- Modelled from the spec: the type before the `|`. -/
def parseType : List Char → Except GoError Ty
  | '[' :: ']' :: elem => (parseType elem).map .slice
  | 'm' :: 'a' :: 'p' :: '[' :: 's' :: 't' :: 'r' :: 'i' :: 'n' :: 'g' :: ']' :: value =>
    (parseType value).map .map
  | s =>
    if s = [] then fail "empty type"
    else if String.mk s ∈ primitiveTypes then .ok (.atomic (String.mk s))
    else .ok (.custom (String.mk s))

/-- Modelled from the spec: `ParseField`, a type and, after the first `|`, markers. -/
def parseField (field : String) : Except GoError (Ty × List Marker) := do
  let typ ← parseType (trimSpace (field.toList.takeWhile (· ≠ '|')))
  match field.toList.dropWhile (· ≠ '|') with
  | [] => pure (typ, [])
  | _ :: markers => do
    let ms ← parseMarkers (String.mk (trimSpace markers))
    pure (typ, ms)

/-- Modelled from the spec: `parseSpec` of a custom type given as a field string.  The object
form of a custom type, a map, is not modelled. -/
def parseSpec : Spec → Except GoError (Ty × List Marker)
  | .str s => parseField s
  | .obj _ => fail "object custom types are not modelled"
  | .other goType => fail ("unexpected type: " ++ goType)

/-- Modelled from the spec: `Schema`, the structural schema of a type. -/
def Ty.schema (resolve : String → Except GoError JSONSchemaProps) :
    Ty → Except GoError JSONSchemaProps
  | .atomic name =>
    .ok { JSONSchemaProps.empty with type := if name = "float" then "number" else name }
  | .slice elem => do
    let items ← elem.schema resolve
    pure { JSONSchemaProps.empty with type := "array", items := some items }
  | .map value => do
    let values ← value.schema resolve
    pure { JSONSchemaProps.empty with type := "object", additionalProperties := some values }
  | .custom name => resolve name

/-- Modelled from the spec: `Deps`, the custom types a type names. -/
def Ty.deps : Ty → List String
  | .atomic _ => []
  | .slice elem => elem.deps
  | .map value => value.deps
  | .custom name => [name]

/-- Modelled from the spec: the assertion `typ.(types.Custom)`. -/
def Ty.asCustom : Ty → Option String
  | .custom name => some name
  | _ => none

/-- Modelled from the spec: the topological sort of the type DAG.  Each round takes the first
type whose dependencies among the types are all placed; a round with none left is a cycle. -/
def topoSort (names : List String) : Nat → List String → List (String × List String) →
    Except GoError (List String)
  | _, done, [] => .ok done
  | 0, _, _ :: _ => fail "cyclic dependency"
  | fuel + 1, done, pending =>
    match pending.find? (fun p => p.2.all fun d => d ∈ done || d ∉ names) with
    | some (name, _) => topoSort names fuel (done ++ [name]) (pending.filter (·.1 ≠ name))
    | none => fail ("cyclic dependency in type " ++ (pending.headD ("", [])).1)

/-- The frontend the spec describes. -/
def specFrontend : Frontend Ty where
  parseField := parseField
  parseSpec := parseSpec
  schema typ resolve := typ.schema resolve
  deps := Ty.deps
  asCustom := Ty.asCustom
  dagOrder types := topoSort (types.map (·.1)) types.length [] types

end Kro.SimpleSchema
